-- SUMMARY: Decimal integers as text: writing, and reading with the cause of a refusal.
import IngestCoordinator.Text.Bytes

/-!
# Decimal integers

Integers are written in decimal without leading zeros. Reading goes digit by
digit against a limit: an octet that is no digit is refused where it stands, and
so is the first digit that carries the value past the limit, so of two faults
the leftmost is the one reported. Main statements: `readUnsigned_write` and
`readSigned_writeInt`, a written number reads back.
-/

namespace IngestCoordinator

namespace Decimal

/-- The ASCII digit of a value below ten. -/
def digit (n : Nat) : UInt8 :=
  UInt8.ofNat (48 + n)

/-- A number in decimal, without leading zeros. -/
def write (n : Nat) : Bytes :=
  if n < 10 then [digit n] else write (n / 10) ++ [digit (n % 10)]

/-- An integer in decimal: a minus sign stands before a negative one. -/
def writeInt : Int → Bytes
  | .ofNat n => write n
  | .negSucc n => 45 :: write (n + 1)

/-- Why a text is not an integer of the wanted range. -/
inductive Fault where
  | empty
  | invalidDigit
  | tooLarge
  | tooSmall
  deriving DecidableEq, Repr

def Fault.message : Fault → String
  | .empty => "cannot parse integer from empty string"
  | .invalidDigit => "invalid digit found in string"
  | .tooLarge => "number too large to fit in target type"
  | .tooSmall => "number too small to fit in target type"

/-- Reads digits after the value `acc`, refusing with `past` beyond `limit`. -/
def readDigits (limit : Nat) (past : Fault) (acc : Nat) : Bytes → Except Fault Nat
  | [] => .ok acc
  | b :: bs =>
    if Bytes.isDigit b then
      let value := acc * 10 + (b.toNat - 48)
      if value ≤ limit then readDigits limit past value bs else .error past
    else .error .invalidDigit

/-- Reads one digit or more. -/
def readMagnitude (limit : Nat) (past : Fault) : Bytes → Except Fault Nat
  | [] => .error .invalidDigit
  | bs => readDigits limit past 0 bs

/-- An unsigned integer of 64 bits: digits, after an optional plus sign. -/
def readUnsigned : Bytes → Except Fault UInt64
  | [] => .error .empty
  | b :: bs =>
    UInt64.ofNat <$>
      if b = 43 then readMagnitude 0xFFFFFFFFFFFFFFFF .tooLarge bs
      else readMagnitude 0xFFFFFFFFFFFFFFFF .tooLarge (b :: bs)

/-- A signed integer of 64 bits: digits, after an optional sign. -/
def readSigned : Bytes → Except Fault Int64
  | [] => .error .empty
  | b :: bs =>
    if b = 43 then (fun n => Int64.ofNat n) <$> readMagnitude 0x7FFFFFFFFFFFFFFF .tooLarge bs
    else if b = 45 then
      (fun n => Int64.ofInt (-n)) <$> readMagnitude 0x8000000000000000 .tooSmall bs
    else (fun n => Int64.ofNat n) <$> readMagnitude 0x7FFFFFFFFFFFFFFF .tooLarge (b :: bs)

/-! ## Digits -/

theorem toNat_digit {n : Nat} (h : n < 10) : (digit n).toNat = 48 + n := by
  simp only [digit, UInt8.toNat_ofNat']
  omega

theorem isDigit_digit {n : Nat} (h : n < 10) : Bytes.isDigit (digit n) = true := by
  simp only [Bytes.isDigit, Bool.and_eq_true, decide_eq_true_eq, UInt8.le_iff_toNat_le,
    toNat_digit h]
  simp
  omega

theorem isDigit_of_mem_write {n : Nat} {b : UInt8} (h : b ∈ write n) :
    Bytes.isDigit b = true := by
  fun_induction write n with
  | case1 n hn =>
    obtain rfl := List.mem_singleton.1 h
    exact isDigit_digit hn
  | case2 n hn ih =>
    rcases List.mem_append.1 h with h | h
    · exact ih h
    · obtain rfl := List.mem_singleton.1 h
      exact isDigit_digit (Nat.mod_lt _ (by omega))

theorem write_ne_nil (n : Nat) : write n ≠ [] := by
  rw [write]
  split <;> simp

theorem readDigits_append (limit : Nat) (past : Fault) (acc : Nat) (bs cs : Bytes) :
    readDigits limit past acc (bs ++ cs) =
      readDigits limit past acc bs >>= fun n => readDigits limit past n cs := by
  induction bs generalizing acc with
  | nil => rfl
  | cons b bs ih =>
    simp only [List.cons_append, readDigits]
    split
    · split
      · exact ih _
      · rfl
    · rfl

theorem readDigits_write {limit : Nat} (past : Fault) {n : Nat} (h : n ≤ limit) :
    readDigits limit past 0 (write n) = .ok n := by
  fun_induction write n with
  | case1 n hn =>
    simp only [readDigits, isDigit_digit hn, toNat_digit hn]
    simp [h]
  | case2 n hn ih =>
    have hd : n % 10 < 10 := Nat.mod_lt _ (by omega)
    have hv : n / 10 * 10 + n % 10 = n := by omega
    rw [readDigits_append, ih (by omega)]
    change readDigits limit past (n / 10) [digit (n % 10)] = _
    simp only [readDigits, isDigit_digit hd, toNat_digit hd, if_true, Nat.add_sub_cancel_left, hv,
      h]

/-! ## Written numbers read back -/

theorem readMagnitude_write {limit : Nat} (past : Fault) {n : Nat} (h : n ≤ limit) :
    readMagnitude limit past (write n) = .ok n := by
  have hread := readDigits_write past h
  cases hwritten : write n with
  | nil => exact absurd hwritten (write_ne_nil n)
  | cons b bs =>
    rw [hwritten] at hread
    exact hread

/-- A written number begins with a digit, and so with no sign. -/
theorem write_eq_cons (n : Nat) : ∃ b bs, write n = b :: bs ∧ b ≠ 43 ∧ b ≠ 45 := by
  cases hwritten : write n with
  | nil => exact absurd hwritten (write_ne_nil n)
  | cons b bs =>
    have hmem : b ∈ write n := hwritten ▸ List.mem_cons_self
    have hdigit := isDigit_of_mem_write hmem
    refine ⟨b, bs, rfl, ?_, ?_⟩
    · rintro rfl
      simp [Bytes.isDigit] at hdigit
    · rintro rfl
      simp [Bytes.isDigit] at hdigit

theorem readUnsigned_write (n : UInt64) : readUnsigned (write n.toNat) = .ok n := by
  have hread : readMagnitude 0xFFFFFFFFFFFFFFFF .tooLarge (write n.toNat) = .ok n.toNat :=
    readMagnitude_write .tooLarge (Nat.le_of_lt_succ n.toNat_lt)
  obtain ⟨b, bs, hwritten, hplus, -⟩ := write_eq_cons n.toNat
  rw [hwritten] at hread ⊢
  rw [readUnsigned, if_neg hplus, hread]
  exact congrArg Except.ok UInt64.ofNat_toNat

theorem readSigned_writeInt (n : Int64) : readSigned (writeInt n.toInt) = .ok n := by
  have hlow := n.le_toInt
  have hhigh := n.toInt_lt
  have hback := Int64.ofInt_toInt n
  cases hn : n.toInt with
  | ofNat k =>
    rw [hn, Int.ofNat_eq_natCast] at hhigh
    have hread : readMagnitude 0x7FFFFFFFFFFFFFFF .tooLarge (write k) = .ok k :=
      readMagnitude_write .tooLarge (by omega)
    obtain ⟨b, bs, hwritten, hplus, hminus⟩ := write_eq_cons k
    rw [writeInt, hwritten, readSigned, if_neg hplus, if_neg hminus, ← hwritten, hread]
    rw [hn] at hback
    exact congrArg Except.ok hback
  | negSucc k =>
    rw [hn] at hlow
    have hread : readMagnitude 0x8000000000000000 .tooSmall (write (k + 1)) = .ok (k + 1) :=
      readMagnitude_write .tooSmall (by omega)
    rw [writeInt, readSigned, if_neg (by decide), if_pos rfl, hread]
    rw [hn] at hback
    exact congrArg Except.ok hback

end Decimal

end IngestCoordinator
