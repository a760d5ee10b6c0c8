-- SUMMARY: Floating-point numbers as decimal text: reading to the nearest, writing the shortest.
import IngestCoordinator.Text.Decimal

/-!
# Floating-point numbers as text

A decimal is read to the floating-point number nearest to it. A number is written
with the fewest digits that read back, in positional notation whatever its size:
the decimals of the coarsest power of ten that lie in the interval of reals which
round to the number are the shortest, and of those the nearest is written.
-/

namespace IngestCoordinator

namespace Real

/-! ## Reading -/

/-- The floating-point number nearest to `significand * 10 ^ exponent`. -/
def ofDecimal (significand : Nat) (exponent : Int) : Float :=
  if significand = 0 || exponent + (significand.log2 / 3 + 1 : Nat) < -330 then 0
  else if 310 < exponent then Float.ofScientific 10 false 400
  else if exponent < 0 then Float.ofScientific significand true exponent.natAbs
  else Float.ofScientific significand false exponent.natAbs

/-- The value of a sequence of digits. -/
def digitsValue (digits : Bytes) : Nat :=
  digits.foldl (fun value b => value * 10 + (b.toNat - 48)) 0

/-- An exponent: digits after an optional sign. -/
def exponent? : Bytes → Option Int
  | [] => none
  | b :: bs =>
    let digits := if b = 43 || b = 45 then bs else b :: bs
    if digits.isEmpty || !digits.all Bytes.isDigit then none
    else if b = 45 then some (-(digitsValue digits : Int))
    else some (digitsValue digits)

/-- An unsigned decimal: digits with a point among them or around, and perhaps an exponent. -/
def decimal? (bs : Bytes) : Option Float :=
  let whole := bs.takeWhile Bytes.isDigit
  let rest := bs.dropWhile Bytes.isDigit
  let (fraction, rest) :=
    match rest with
    | 46 :: rest => (rest.takeWhile Bytes.isDigit, rest.dropWhile Bytes.isDigit)
    | rest => ([], rest)
  if whole.isEmpty && fraction.isEmpty then none
  else
    let exponent :=
      match rest with
      | [] => some 0
      | b :: bs => if b = 101 || b = 69 then exponent? bs else none
    exponent.map fun exponent =>
      ofDecimal (digitsValue (whole ++ fraction)) (exponent - fraction.length)

/-- An unsigned number: a decimal, or a word for infinity or for no number, of either case. -/
def magnitude? (bs : Bytes) : Option Float :=
  let word := bs.map fun b => if 65 ≤ b && b ≤ 90 then b + 32 else b
  if word = Bytes.ofString "inf" || word = Bytes.ofString "infinity" then some (1 / 0)
  else if word = Bytes.ofString "nan" then some (0 / 0)
  else decimal? bs

/-- A number after an optional sign. -/
def parse? : Bytes → Option Float
  | [] => none
  | b :: bs =>
    if b = 45 then (magnitude? bs).map fun x => -x
    else if b = 43 then magnitude? bs
    else magnitude? (b :: bs)

/-! ## Writing -/

/--
A positive number as a whole number of quarters of its last place: the quarters, the
power of two that a quarter is, and the ends of the interval that rounds to the number.
-/
structure Quarters where
  value : Nat
  low : Nat
  high : Nat
  /-- The ends of the interval round to the number too. -/
  closed : Bool
  exponent : Int

/-- The quarters of a positive finite number, given by its bits without the sign. -/
def Quarters.ofBits (bits : Nat) : Quarters :=
  let fraction := bits % 0x10000000000000
  let biased := bits / 0x10000000000000
  let significand := if biased = 0 then fraction else 0x10000000000000 + fraction
  let below := if fraction = 0 && 1 < biased then 1 else 2
  { value := 4 * significand
    low := 4 * significand - below
    high := 4 * significand + 2
    closed := significand % 2 == 0
    exponent := (max biased 1 : Nat) - 1077 }

/--
The multiple of `10 ^ place` nearest to the number, if it is in the interval: how
many times `10 ^ place` it is. Of two that are equally near the greater is taken.
-/
def Quarters.onGrid? (q : Quarters) (place : Int) : Option Nat :=
  let quarter := Nat.pow 2 q.exponent.toNat * Nat.pow 10 (-place).toNat
  let step := Nat.pow 2 (-q.exponent).toNat * Nat.pow 10 place.toNat
  let inside (count : Nat) : Bool :=
    if q.closed then q.low * quarter ≤ count * step && count * step ≤ q.high * quarter
    else q.low * quarter < count * step && count * step < q.high * quarter
  let below := q.value * quarter / step
  let above := below + 1
  if inside below && (!inside above ||
      q.value * quarter - below * step < above * step - q.value * quarter) then some below
  else if inside above then some above
  else none

/-- The shortest decimal: a count and the power of ten that it counts, from a place downwards. -/
def Quarters.shortest (q : Quarters) (place : Int) : Nat → Nat × Int
  | 0 => (0, 0)
  | fuel + 1 =>
    match q.onGrid? place with
    | some count => (count, place)
    | none => q.shortest (place - 1) fuel

/-- `count * 10 ^ place` in positional notation. -/
def positional (count : Nat) (place : Int) : Bytes :=
  let digits := Decimal.write count
  if 0 ≤ place then digits ++ List.replicate place.toNat 48
  else
    let places := place.natAbs
    let padded := List.replicate (places + 1 - digits.length) 48 ++ digits
    padded.take (padded.length - places) ++ 46 :: padded.drop (padded.length - places)

/-- A number with the fewest digits that read back, in positional notation. -/
def write (x : Float) : Bytes :=
  if x.isNaN then Bytes.ofString "NaN"
  else
    let bits := x.toBits.toNat
    let magnitude := bits % 0x8000000000000000
    let text :=
      if x.isInf then Bytes.ofString "inf"
      else if magnitude = 0 then [48]
      else
        let (count, place) := (Quarters.ofBits magnitude).shortest 309 700
        positional count place
    if bits < 0x8000000000000000 then text else 45 :: text

end Real

end IngestCoordinator
