-- SUMMARY: The larger and the smaller of two 64-bit words.

/-!
# Words

The larger and the smaller of two words are those of the numbers that they stand
for, so what is known of numbers carries over.
-/

namespace IngestCoordinator.Word

variable {a b c : UInt64}

theorem toNat_max (a b : UInt64) : (max a b).toNat = max a.toNat b.toNat := by
  change (if a ≤ b then b else a).toNat = _
  simp only [UInt64.le_iff_toNat_le]
  split <;> omega

theorem toNat_min (a b : UInt64) : (min a b).toNat = min a.toNat b.toNat := by
  change (if a ≤ b then a else b).toNat = _
  simp only [UInt64.le_iff_toNat_le]
  split <;> omega

theorem le_max_left (a b : UInt64) : a ≤ max a b := by
  rw [UInt64.le_iff_toNat_le, toNat_max]
  omega

theorem le_max_right (a b : UInt64) : b ≤ max a b := by
  rw [UInt64.le_iff_toNat_le, toNat_max]
  omega

theorem max_eq_left (h : b ≤ a) : max a b = a := by
  rw [UInt64.le_iff_toNat_le] at h
  rw [← UInt64.toNat_inj, toNat_max]
  omega

theorem max_eq_right (h : a ≤ b) : max a b = b := by
  rw [UInt64.le_iff_toNat_le] at h
  rw [← UInt64.toNat_inj, toNat_max]
  omega

theorem max_le (ha : a ≤ c) (hb : b ≤ c) : max a b ≤ c := by
  rw [UInt64.le_iff_toNat_le] at *
  rw [toNat_max]
  omega

instance lawfulOrderMax : Std.LawfulOrderMax UInt64 where
  max_eq_or a b := by
    rw [← UInt64.toNat_inj, ← UInt64.toNat_inj, toNat_max]
    omega
  max_le_iff a b c := by
    simp only [UInt64.le_iff_toNat_le, toNat_max]
    omega

theorem min_le_left (a b : UInt64) : min a b ≤ a := by
  rw [UInt64.le_iff_toNat_le, toNat_min]
  omega

theorem min_le_right (a b : UInt64) : min a b ≤ b := by
  rw [UInt64.le_iff_toNat_le, toNat_min]
  omega

theorem lt_min (ha : c < a) (hb : c < b) : c < min a b := by
  rw [UInt64.lt_iff_toNat_lt] at *
  rw [toNat_min]
  omega

theorem succ_le_of_lt (h : a < b) : a + 1 ≤ b := by
  have hbound := b.toNat_lt
  have hone : (1 : UInt64).toNat = 1 := rfl
  rw [UInt64.lt_iff_toNat_lt] at h
  rw [UInt64.le_iff_toNat_le, UInt64.toNat_add]
  omega

theorem one_le_iff : 1 ≤ a ↔ a ≠ 0 := by
  have hone : (1 : UInt64).toNat = 1 := rfl
  have hzero : (0 : UInt64).toNat = 0 := rfl
  rw [UInt64.le_iff_toNat_le, ne_eq, ← UInt64.toNat_inj]
  omega

theorem le_last (a : UInt64) : a ≤ 0xFFFFFFFFFFFFFFFF := by
  have hbound := a.toNat_lt
  have hlast : (0xFFFFFFFFFFFFFFFF : UInt64).toNat = 0xFFFFFFFFFFFFFFFF := rfl
  rw [UInt64.le_iff_toNat_le]
  omega

/-- A word with a larger one above it has a next one. -/
theorem lt_succ_of_lt (h : a < b) : a < a + 1 := by
  have hbound := b.toNat_lt
  have hone : (1 : UInt64).toNat = 1 := rfl
  rw [UInt64.lt_iff_toNat_lt] at *
  rw [UInt64.toNat_add]
  omega

/-- Every word but the largest has a next one. -/
theorem lt_succ_of_ne (h : a ≠ 0xFFFFFFFFFFFFFFFF) : a < a + 1 :=
  lt_succ_of_lt (UInt64.lt_of_le_of_ne (le_last a) h)

/-- What is no larger than the next word is no larger than this one, or is the next one. -/
theorem le_succ_iff (h : a < a + 1) : b ≤ a + 1 ↔ b ≤ a ∨ b = a + 1 := by
  rw [UInt64.lt_iff_toNat_lt] at h
  simp only [UInt64.le_iff_toNat_le, ← UInt64.toNat_inj]
  have hone : (1 : UInt64).toNat = 1 := rfl
  have hsum : (a + 1).toNat = a.toNat + 1 := by
    rw [UInt64.toNat_add] at h ⊢
    omega
  omega

end IngestCoordinator.Word
