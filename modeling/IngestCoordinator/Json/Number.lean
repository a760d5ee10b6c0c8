-- SUMMARY: The meaning of JSON number lexemes: 64-bit integers and floating-point numbers.
import IngestCoordinator.Text.Decimal
import IngestCoordinator.Json.Value

/-!
# JSON numbers

A number without fraction and exponent that fits 64 bits is an integer; every
other one is a floating-point number. Digits go into a significand of 64 bits as
long as they fit, the rest only count as powers of ten, and the significand is
then scaled by at most one rounded step for every 308 powers. Minus zero is a
floating-point number. Main statement: `numeral?_write`, a written natural number
reads back.
-/

namespace IngestCoordinator.Json

/-- What a number lexeme denotes. -/
inductive Numeral where
  | natural (n : UInt64)
  | negative (n : Int64)
  | real (x : Float)

namespace Number

/-- The significand after as many of the digits as keep it within 64 bits, and the digits left. -/
def absorb (significand : Nat) : Bytes → Nat × Bytes
  | [] => (significand, [])
  | b :: bs =>
    let next := significand * 10 + (b.toNat - 48)
    if next < 0x10000000000000000 then absorb next bs else (significand, b :: bs)

/--
The significand times a power of ten, or `none` when that is infinite. The power
is applied in steps of 308, the last one smaller; `fuel` bounds their number.
-/
def scale? : Nat → Float → Int → Option Float
  | 0, _, _ => none
  | fuel + 1, x, exponent =>
    if exponent.natAbs ≤ 308 then
      let power := Float.ofScientific 1 false exponent.natAbs
      if exponent < 0 then some (x / power)
      else
        let y := x * power
        if y.isInf then none else some y
    else if x == 0 then some x
    else if exponent < 0 then scale? fuel (x / Float.ofScientific 1 false 308) (exponent + 308)
    else none

/-- The steps after which every significand has been scaled down to zero. -/
def scaleSteps : Nat := 8

/-- An exponent's sign and digits; a magnitude past `2 ^ 31 - 1` counts as `none`. -/
def exponent? (bs : Bytes) : Bool × Option Nat :=
  let (negative, digits) :=
    match bs with
    | 43 :: ds => (false, ds)
    | 45 :: ds => (true, ds)
    | ds => (false, ds)
  (negative, (Decimal.readDigits 0x7FFFFFFF .tooLarge 0 digits).toOption)

/-- The floating-point number with the given parts, or `none` when it is out of range. -/
def real? (negative : Bool) (significand : Nat) (shift : Int) (exponent : Bytes) :
    Option Float :=
  let signed (x : Float) := if negative then -x else x
  match exponent? exponent with
  | (down, none) => if significand = 0 || down then some (signed 0) else none
  | (down, some e) =>
    let total := if down then shift - e else shift + e
    (scale? scaleSteps (UInt64.ofNat significand).toFloat total).map signed

/-- What an unsigned number denotes, or `none` when it is out of range. -/
def magnitude? (negative : Bool) (bs : Bytes) : Option Numeral :=
  let whole := bs.takeWhile Bytes.isDigit
  let (significand, dropped) := absorb 0 whole
  match bs.dropWhile Bytes.isDigit with
  | [] =>
    if !dropped.isEmpty then
      (real? negative significand dropped.length []).map .real
    else if !negative then some (.natural (UInt64.ofNat significand))
    else if significand = 0 || significand > 0x8000000000000000 then
      some (.real (-(UInt64.ofNat significand).toFloat))
    else some (.negative (Int64.ofInt (-significand)))
  | 46 :: rest =>
    let fraction := rest.takeWhile Bytes.isDigit
    let (significand, unused) := absorb significand fraction
    let shift : Int := dropped.length - (fraction.length - unused.length : Nat)
    let exponent := (rest.dropWhile Bytes.isDigit).drop 1
    (real? negative significand shift exponent).map .real
  | _ :: exponent => (real? negative significand dropped.length exponent).map .real

end Number

/-- What a number lexeme denotes, or `none` when it is out of range. -/
def numeral? : Bytes → Option Numeral
  | 45 :: bs => Number.magnitude? true bs
  | bs => Number.magnitude? false bs

/-! ## Numbers as values -/

/-- A natural number as a value. -/
def ofNat (n : Nat) : Json :=
  .number (Decimal.write n)

/-- An integer as a value. -/
def ofInt (i : Int) : Json :=
  .number (Decimal.writeInt i)

/-- The unsigned integer of 64 bits that a value is. -/
def uint64? : Json → Option UInt64
  | .number lexeme =>
    match numeral? lexeme with
    | some (.natural n) => some n
    | _ => none
  | _ => none

/-- The unsigned integer of 32 bits that a value is. -/
def uint32? (value : Json) : Option UInt32 :=
  value.uint64?.bind fun n => if n.toNat < 0x100000000 then some n.toUInt32 else none

/-- The signed integer of 64 bits that a value is. -/
def int64? : Json → Option Int64
  | .number lexeme =>
    match numeral? lexeme with
    | some (.natural n) => if n.toNat < 0x8000000000000000 then some (Int64.ofNat n.toNat) else none
    | some (.negative n) => some n
    | _ => none
  | _ => none

/-- The floating-point number that a value is; integers are rounded to one. -/
def float? : Json → Option Float
  | .number lexeme =>
    (numeral? lexeme).map fun
      | .natural n => n.toFloat
      | .negative n => n.toFloat
      | .real x => x
  | _ => none

/-! ## Reading back -/

namespace Number

theorem absorb_eq {limit : Nat} (hl : limit < 0x10000000000000000) {past : Decimal.Fault}
    {acc n : Nat} {bs : Bytes} (h : Decimal.readDigits limit past acc bs = .ok n) :
    absorb acc bs = (n, []) := by
  induction bs generalizing acc with
  | nil => cases h; rfl
  | cons b bs ih =>
    simp only [Decimal.readDigits] at h
    split at h
    · split at h
      · rw [absorb, if_pos (by omega)]
        exact ih h
      · cases h
    · cases h

theorem absorb_write {n : Nat} (h : n < 0x10000000000000000) :
    absorb 0 (Decimal.write n) = (n, []) :=
  absorb_eq (show 0xFFFFFFFFFFFFFFFF < 0x10000000000000000 by decide)
    (Decimal.readDigits_write .tooLarge (show n ≤ 0xFFFFFFFFFFFFFFFF by omega))

theorem takeWhile_write (n : Nat) :
    (Decimal.write n).takeWhile Bytes.isDigit = Decimal.write n := by
  have h := @List.takeWhile_append_of_pos _ Bytes.isDigit (Decimal.write n) []
  simpa using h fun _ => Decimal.isDigit_of_mem_write

theorem dropWhile_write (n : Nat) : (Decimal.write n).dropWhile Bytes.isDigit = [] := by
  have h := @List.dropWhile_append_of_pos _ Bytes.isDigit (Decimal.write n) []
  simpa using h fun _ => Decimal.isDigit_of_mem_write

theorem magnitude?_write {n : Nat} (h : n < 0x10000000000000000) :
    magnitude? false (Decimal.write n) = some (.natural (UInt64.ofNat n)) := by
  simp [magnitude?, takeWhile_write, dropWhile_write, absorb_write h]

theorem magnitude?_write_neg {n : Nat} (h₀ : 0 < n) (h : n ≤ 0x8000000000000000) :
    magnitude? true (Decimal.write n) = some (.negative (Int64.ofInt (-n))) := by
  simp only [magnitude?, takeWhile_write, dropWhile_write,
    absorb_write (show n < 0x10000000000000000 by omega), List.isEmpty_nil, Bool.not_true,
    Bool.false_eq_true, if_false]
  rw [if_neg (by simp; omega)]

end Number

theorem numeral?_write {n : Nat} (h : n < 0x10000000000000000) :
    numeral? (Decimal.write n) = some (.natural (UInt64.ofNat n)) := by
  rw [numeral?.eq_def]
  split
  · rename_i bs heq
    have := Decimal.isDigit_of_mem_write (n := n) (b := 45) (by simp [heq])
    simp [Bytes.isDigit] at this
  · exact Number.magnitude?_write h

theorem numeral?_write_neg {n : Nat} (h₀ : 0 < n) (h : n ≤ 0x8000000000000000) :
    numeral? (45 :: Decimal.write n) = some (.negative (Int64.ofInt (-n))) :=
  Number.magnitude?_write_neg h₀ h

end IngestCoordinator.Json
