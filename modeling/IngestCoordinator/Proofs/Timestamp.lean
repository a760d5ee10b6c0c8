-- SUMMARY: Timestamps as numbers: a millisecond holds as many of them as its counter has values.
import IngestCoordinator.Timestamp
import Mathlib

/-!
# Timestamps as numbers

A timestamp is the number of its millisecond times the number of counters, plus its
counter. Below 46 bits of milliseconds nothing is lost, so timestamps are ordered by
their milliseconds first and then by their counters. A sum of milliseconds stops at 64
bits, not at 46: past the 46th the milliseconds start again at zero.
-/

namespace IngestCoordinator.Timestamp

theorem toNat_logicalMask : logicalMask.toNat = 2 ^ 18 - 1 := by
  decide

/-- The milliseconds lose their high bits, and the counter does too. -/
theorem toNat_compose (physical logical : UInt64) :
    (compose physical logical).toNat =
      physical.toNat * 2 ^ 18 % 2 ^ 64 + logical.toNat % 2 ^ 18 := by
  have hbits : logicalBits.toNat % 64 = 18 := by decide
  have hlow : logical.toNat % 2 ^ 18 < 2 ^ 18 := Nat.mod_lt _ (by decide)
  -- The high bits are a multiple of the counter's range, so nothing is carried into them.
  have hhigh : physical.toNat * 2 ^ 18 % 2 ^ 64 = (physical.toNat % 2 ^ 46) <<< 18 := by
    rw [Nat.shiftLeft_eq]
    omega
  rw [compose, UInt64.toNat_or, UInt64.toNat_shiftLeft, UInt64.toNat_and, hbits,
    toNat_logicalMask, Nat.and_two_pow_sub_one_eq_mod, Nat.shiftLeft_eq, hhigh,
    Nat.shiftLeft_add_eq_or_of_lt hlow]

theorem toNat_physical (ts : Timestamp) : (physical ts).toNat = ts.toNat / 2 ^ 18 := by
  have hbits : logicalBits.toNat % 64 = 18 := by decide
  rw [physical, UInt64.toNat_shiftRight, hbits, Nat.shiftRight_eq_div_pow]

variable {physical logical : UInt64}

/-- In range, nothing of a timestamp is lost. -/
theorem toNat_compose_of_lt (hphysical : physical.toNat < 2 ^ 46)
    (hlogical : logical ≤ logicalMask) :
    (compose physical logical).toNat = physical.toNat * 2 ^ 18 + logical.toNat := by
  rw [UInt64.le_iff_toNat_le, toNat_logicalMask] at hlogical
  rw [toNat_compose, Nat.mod_eq_of_lt (by omega), Nat.mod_eq_of_lt (by omega)]

theorem physical_compose (hphysical : physical.toNat < 2 ^ 46) (hlogical : logical ≤ logicalMask) :
    Timestamp.physical (compose physical logical) = physical := by
  rw [← UInt64.toNat_inj, toNat_physical, toNat_compose_of_lt hphysical hlogical]
  rw [UInt64.le_iff_toNat_le, toNat_logicalMask] at hlogical
  omega

/-- A timestamp of an earlier millisecond is smaller. -/
theorem lt_of_physical_lt {ts ts' : Timestamp}
    (h : Timestamp.physical ts < Timestamp.physical ts') : ts < ts' := by
  rw [UInt64.lt_iff_toNat_lt, toNat_physical, toNat_physical] at h
  rw [UInt64.lt_iff_toNat_lt]
  omega

theorem toNat_logical (ts : Timestamp) : (Timestamp.logical ts).toNat = ts.toNat % 2 ^ 18 := by
  rw [Timestamp.logical, UInt64.toNat_and, toNat_logicalMask, Nat.and_two_pow_sub_one_eq_mod]

/-! ## Some milliseconds later -/

/-- The millisecond that comes some milliseconds later, as far as there are bits for it. -/
def later (ts : Timestamp) (ms : UInt64) : Nat :=
  min (2 ^ 64 - 1) ((Timestamp.physical ts).toNat + ms.toNat) % 2 ^ 46

theorem toNat_addMs (ts : Timestamp) (ms : UInt64) :
    (ts.addMs ms).toNat = ts.later ms * 2 ^ 18 + ts.toNat % 2 ^ 18 := by
  rw [addMs, toNat_compose, Saturating.toNat_add, toNat_logical, later]
  omega

/-- The counter is the same, so the milliseconds decide. -/
theorem le_addMs_iff (ts : Timestamp) (ms : UInt64) :
    ts ≤ ts.addMs ms ↔ (Timestamp.physical ts).toNat ≤ ts.later ms := by
  rw [UInt64.le_iff_toNat_le, toNat_addMs, toNat_physical]
  omega

theorem addMs_le_addMs_iff (ts : Timestamp) (ms ms' : UInt64) :
    ts.addMs ms ≤ ts.addMs ms' ↔ ts.later ms ≤ ts.later ms' := by
  rw [UInt64.le_iff_toNat_le, toNat_addMs, toNat_addMs]
  omega

/-- Up to the last millisecond that there are bits for, it is the sum. -/
theorem later_of_lt {ts : Timestamp} {ms : UInt64}
    (h : (Timestamp.physical ts).toNat + ms.toNat < 2 ^ 46) :
    ts.later ms = (Timestamp.physical ts).toNat + ms.toNat := by
  unfold later
  omega

/-- Not before is what comes before the milliseconds start again, or where the sum has stopped. -/
theorem physical_le_later_iff (ts : Timestamp) (ms : UInt64) :
    (Timestamp.physical ts).toNat ≤ ts.later ms ↔
      (Timestamp.physical ts).toNat + ms.toNat % 2 ^ 46 < 2 ^ 46 ∨
        2 ^ 64 ≤ (Timestamp.physical ts).toNat + ms.toNat := by
  have hphysical := toNat_physical ts
  have hts := ts.toNat_lt
  have hms := ms.toNat_lt
  unfold later
  omega

end IngestCoordinator.Timestamp
