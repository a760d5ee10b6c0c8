-- SUMMARY: Addition and subtraction of 64-bit words that stop at the ends of the range.

/-!
# Saturating arithmetic

Row counts and sizes never wrap: a sum past the largest word is the largest word,
and a difference below zero is zero. Read as natural numbers the two operations
are `min` of the sum and the truncated difference.
-/

namespace IngestCoordinator.Saturating

/-- The sum, or the largest word if that is less. -/
def add (a b : UInt64) : UInt64 :=
  if a + b < a then 0xFFFFFFFFFFFFFFFF else a + b

/-- The difference, or zero if it is negative. -/
def sub (a b : UInt64) : UInt64 :=
  if a < b then 0 else a - b

theorem toNat_add (a b : UInt64) :
    (add a b).toNat = min 0xFFFFFFFFFFFFFFFF (a.toNat + b.toNat) := by
  have ha := a.toNat_lt
  have hb := b.toNat_lt
  unfold add
  split
  · rename_i h
    rw [UInt64.lt_iff_toNat_lt, UInt64.toNat_add] at h
    have : (0xFFFFFFFFFFFFFFFF : UInt64).toNat = 0xFFFFFFFFFFFFFFFF := by decide
    omega
  · rename_i h
    rw [UInt64.lt_iff_toNat_lt, UInt64.toNat_add] at h
    rw [UInt64.toNat_add]
    omega

theorem toNat_sub (a b : UInt64) : (sub a b).toNat = a.toNat - b.toNat := by
  unfold sub
  split
  · rename_i h
    rw [UInt64.lt_iff_toNat_lt] at h
    simp
    omega
  · rename_i h
    exact UInt64.toNat_sub_of_le a b (UInt64.not_lt.1 h)

end IngestCoordinator.Saturating
