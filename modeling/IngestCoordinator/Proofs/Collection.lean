-- SUMMARY: A row takes the sum of its fields, in exact numbers, and a byte at least.
import IngestCoordinator.Collection
import Mathlib.Algebra.GroupWithZero.Nat

/-!
# Widths of rows

The width of a row is added up in words. A field takes a byte at least and less than 2^34
of them, so as long as a schema has fewer than 2^30 fields, the sum is the exact one.
-/

namespace IngestCoordinator

/-- The bytes that one value takes, as a number that cannot overflow. -/
def Field.bytes (field : Field) : Nat :=
  match field.type with
  | .bool | .int8 => 1
  | .int16 => 2
  | .int32 | .float => 4
  | .int64 | .double => 8
  | .varChar => 64
  | .floatVector => 4 * field.dim.toNat
  | .binaryVector => field.dim.toNat / 8

/-- The bytes that one row takes: the exact sum over its fields. -/
def Schema.bytes (schema : Schema) : Nat :=
  (schema.fields.map Field.bytes).sum

/-- A field that has a width has the exact one, which is a byte at least and bounded. -/
theorem Field.width_eq_ok {field : Field} {width : UInt64} (h : field.width = .ok width) :
    width.toNat = field.bytes ∧ 1 ≤ field.bytes ∧ field.bytes ≤ 0x3FFFFFFFF := by
  obtain ⟨name, type, dim⟩ := field
  have hbound := dim.toNat_lt
  cases type with
  | floatVector =>
    simp only [Field.width] at h
    split at h
    · cases h
    · rename_i hnonzero
      cases h
      rw [← UInt32.toNat_inj, UInt32.toNat_zero] at hnonzero
      have hexact : (4 * dim.toUInt64).toNat = 4 * dim.toNat := by
        simp only [UInt64.toNat_mul, UInt32.toNat_toUInt64, UInt64.reduceToNat]
        omega
      simp only [bytes]
      omega
  | binaryVector =>
    simp only [Field.width] at h
    split at h
    · cases h
    · rename_i hmultiple
      cases h
      simp only [not_or, ne_eq, ← UInt32.toNat_inj, UInt32.toNat_mod,
        UInt32.reduceToNat] at hmultiple
      have hexact : (dim.toUInt64 / 8).toNat = dim.toNat / 8 := by
        simp only [UInt64.toNat_div, UInt32.toNat_toUInt64, UInt64.reduceToNat]
      simp only [bytes]
      omega
  | bool | int8 | int16 | int32 | int64 | float | double | varChar =>
    cases h
    simp [bytes]

/-- Adding up the widths of fields to a total does not overflow as long as the bounds do not. -/
theorem Field.foldlM_width_eq_ok {fields : List Field} {total width : UInt64}
    (h : fields.foldlM (fun total field => return total + (← field.width)) total =
      (.ok width : Except Error UInt64))
    (hfew : total.toNat + fields.length * 0x3FFFFFFFF < 0x10000000000000000) :
    width.toNat = total.toNat + (fields.map bytes).sum ∧
      fields.length ≤ (fields.map bytes).sum := by
  induction fields generalizing total with
  | nil =>
    cases h
    exact ⟨rfl, Nat.le_refl 0⟩
  | cons field fields ih =>
    rw [List.foldlM_cons] at h
    cases hfield : field.width with
    | error error =>
      rw [hfield] at h
      cases h
    | ok first =>
      obtain ⟨hexact, hpositive, hbounded⟩ := width_eq_ok hfield
      simp only [List.length_cons] at hfew
      have hsum : (total + first).toNat = total.toNat + field.bytes := by
        rw [UInt64.toNat_add, hexact]
        omega
      rw [hfield] at h
      obtain ⟨hrest, hlength⟩ := ih h (by omega)
      simp only [List.map_cons, List.sum_cons, List.length_cons]
      omega

/-- The width of a row is the exact sum, and a byte at least, unless there are too many fields. -/
theorem Schema.rowWidth_eq_ok {schema : Schema} {width : UInt64} (h : schema.rowWidth = .ok width)
    (hfew : schema.fields.length < 0x40000000) :
    width.toNat = schema.bytes ∧ 1 ≤ schema.bytes := by
  unfold rowWidth at h
  split at h
  · cases h
  · rename_i hsome
    have hlength := List.length_pos_iff.2 fun hnone => hsome (List.isEmpty_iff.2 hnone)
    have hzero : (0 : UInt64).toNat = 0 := rfl
    obtain ⟨hsum, hpositive⟩ := Field.foldlM_width_eq_ok h (by omega)
    rw [bytes]
    omega

end IngestCoordinator
