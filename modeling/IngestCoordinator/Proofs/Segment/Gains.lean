-- SUMMARY: What the stored segments gain from one moment to another: rows granted and states reached.
import IngestCoordinator.Proofs.Segment.History
import Mathlib.Algebra.BigOperators.Group.Finset.Piecewise

/-!
# Gains

Segments are added and never removed, their next offset does not move back, and neither
does their state. So what they gain from one moment to another, in rows granted or in
segments that have reached a state, is the sum of what they gain on the way.
-/

namespace IngestCoordinator

/-- The number of steps from a new segment to one in the state. -/
def SegmentState.rank : SegmentState → Nat
  | .new => 0
  | .growing => 1
  | .sealed => 2
  | .flushed => 3

theorem SegmentState.rank_next {state state' : SegmentState} (h : state.next? = some state') :
    state'.rank = state.rank + 1 := by
  cases state <;> cases h <;> rfl

/-- One if the segment has reached the state, and nothing otherwise. -/
def Segment.reach (state : SegmentState) (segment : Segment) : Nat :=
  if state.rank ≤ segment.state.rank then 1 else 0

/-- The number of rows granted on the segment. -/
def Segment.rows (segment : Segment) : Nat :=
  segment.nextOffset.toNat

theorem Segment.reach_of_state_eq {segment segment' : Segment}
    (h : segment'.state = segment.state) (state : SegmentState) :
    segment'.reach state = segment.reach state := by
  simp only [reach, h]

/-- The one state that a segment reaches with its next step is the next one. -/
theorem Segment.reach_next {segment segment' : Segment}
    (h : segment.state.next? = some segment'.state) (state : SegmentState) :
    segment'.reach state = segment.reach state + if state = segment'.state then 1 else 0 := by
  unfold reach
  cases hbefore : segment.state <;> rw [hbefore] at h <;>
    cases hafter : segment'.state <;> rw [hafter] at h <;> cases h <;>
    cases state <;> rfl

namespace Segments

variable {measure : Segment → Nat} {state : SegmentState} {before between after : Segments}
  {id : SegmentId} {segment updated : Segment}

/-- A measure of the segment with the number, or nothing if none is stored. -/
def measured (measure : Segment → Nat) (segments : Segments) (id : SegmentId) : Nat :=
  ((segments.get? id).map measure).getD 0

/-- How much a measure has grown, summed over all segments. -/
def gain (measure : Segment → Nat) (before after : Segments) : Nat :=
  ∑ id ∈ after.keys.toFinset, (measured measure after id - measured measure before id)

/-- Whether the segment with the number is stored and has reached the state. -/
def hasReached (state : SegmentState) (segments : Segments) (id : SegmentId) : Bool :=
  (segments.get? id).any fun segment => state.rank ≤ segment.state.rank

/-- The segments that have gone to the state: they have reached it now, and had not before. -/
def entered (state : SegmentState) (before after : Segments) : Finset SegmentId :=
  {id ∈ after.keys.toFinset | hasReached state after id ∧ ¬ hasReached state before id}

/-- Every segment is still there, with no fewer rows granted and in no earlier state. -/
def Onward (before after : Segments) : Prop :=
  ∀ id segment, before.get? id = some segment → ∃ segment', after.get? id = some segment' ∧
    segment.nextOffset ≤ segment'.nextOffset ∧ segment.state.rank ≤ segment'.state.rank

/-- The measure of no segment has become less. -/
def Rises (measure : Segment → Nat) (before after : Segments) : Prop :=
  ∀ id, measured measure before id ≤ measured measure after id

/-! ## Going on -/

theorem Onward.refl (segments : Segments) : Onward segments segments :=
  fun _ segment hget => ⟨segment, hget, UInt64.le_refl _, Nat.le_refl _⟩

theorem Onward.trans (h : Onward before between) (h' : Onward between after) :
    Onward before after := fun id segment hget => by
  obtain ⟨segment₁, hget₁, hrows₁, hstate₁⟩ := h id segment hget
  obtain ⟨segment₂, hget₂, hrows₂, hstate₂⟩ := h' id segment₁ hget₁
  exact ⟨segment₂, hget₂, UInt64.le_trans hrows₁ hrows₂, Nat.le_trans hstate₁ hstate₂⟩

/-- Segments go on if one of them is written that goes on or is new. -/
theorem onward_insert (h : ∀ segment, before.get? id = some segment →
    segment.nextOffset ≤ updated.nextOffset ∧ segment.state.rank ≤ updated.state.rank) :
    Onward before (before.insert id updated) := fun id' segment hget => by
  rw [SortedMap.get?_insert]
  split
  · rename_i hid
    subst hid
    exact ⟨updated, rfl, h segment hget⟩
  · exact ⟨segment, hget, UInt64.le_refl _, Nat.le_refl _⟩

theorem Onward.rises (h : Onward before after) (hmeasure : ∀ {segment segment' : Segment},
    segment.nextOffset ≤ segment'.nextOffset → segment.state.rank ≤ segment'.state.rank →
      measure segment ≤ measure segment') : Rises measure before after := fun id => by
  unfold measured
  cases hget : before.get? id with
  | none => exact Nat.zero_le _
  | some segment =>
    obtain ⟨segment', hget', hrows, hstate⟩ := h id segment hget
    rw [hget']
    exact hmeasure hrows hstate

theorem Onward.rises_rows (h : Onward before after) : Rises Segment.rows before after :=
  h.rises fun hrows _ => UInt64.le_iff_toNat_le.1 hrows

theorem Onward.rises_reach (h : Onward before after) (state : SegmentState) :
    Rises (Segment.reach state) before after := by
  refine h.rises fun _ hstate => ?_
  unfold Segment.reach
  split
  · rename_i hreached
    rw [if_pos (Nat.le_trans hreached hstate)]
  · exact Nat.zero_le _

/-! ## Gains -/

theorem measured_of_get? (h : before.get? id = some segment) :
    measured measure before id = measure segment := by
  rw [measured, h]
  rfl

theorem measured_of_absent (h : before.get? id = none) : measured measure before id = 0 := by
  rw [measured, h]
  rfl

@[simp] theorem gain_self (segments : Segments) : gain measure segments segments = 0 := by
  simp [gain]

/-- What is not stored has gained nothing. -/
theorem gain_eq_sum_of_subset {ids : Finset SegmentId} (h : after.keys.toFinset ⊆ ids) :
    gain measure before after =
      ∑ id ∈ ids, (measured measure after id - measured measure before id) := by
  refine Finset.sum_subset h fun id _ habsent => ?_
  have hnone : after.get? id = none := by
    rw [List.mem_toFinset, SortedMap.mem_keys_iff, not_exists] at habsent
    exact Option.eq_none_iff_forall_not_mem.2 habsent
  simp [measured_of_absent hnone]

/-- The gains of two stretches add up. -/
theorem gain_trans (h : Onward between after) (hrises : Rises measure before between)
    (hrises' : Rises measure between after) :
    gain measure before after = gain measure before between + gain measure between after := by
  have hkeys : between.keys.toFinset ⊆ after.keys.toFinset := fun id hmem => by
    rw [List.mem_toFinset, SortedMap.mem_keys_iff] at hmem ⊢
    obtain ⟨segment, hget⟩ := hmem
    obtain ⟨segment', hget', _⟩ := h id segment hget
    exact ⟨segment', hget'⟩
  rw [gain_eq_sum_of_subset hkeys, gain, gain, ← Finset.sum_add_distrib]
  refine Finset.sum_congr rfl fun id _ => ?_
  have hfirst := hrises id
  have hsecond := hrises' id
  omega

/-- A write of one segment gains what that segment gains. -/
theorem gain_insert : gain measure before (before.insert id updated) =
    measure updated - measured measure before id := by
  have hmem : id ∈ (before.insert id updated).keys.toFinset := by
    rw [List.mem_toFinset, SortedMap.mem_keys_iff]
    exact ⟨updated, SortedMap.get?_insert_self ..⟩
  rw [gain, Finset.sum_eq_single_of_mem id hmem fun id' _ hne => ?_]
  · rw [measured_of_get? (SortedMap.get?_insert_self ..)]
  · simp [measured, SortedMap.get?_insert, hne]

/-- Segments that have gone to a state are what the measure of reaching it has gained. -/
theorem card_entered : (entered state before after).card =
    gain (Segment.reach state) before after := by
  rw [entered, Finset.card_filter, gain]
  refine Finset.sum_congr rfl fun id _ => ?_
  have hreach (segments : Segments) : measured (Segment.reach state) segments id =
      if hasReached state segments id then 1 else 0 := by
    unfold measured hasReached
    cases segments.get? id with
    | none => rfl
    | some segment => simp [Segment.reach]
  rw [hreach, hreach]
  cases hasReached state after id <;> cases hasReached state before id <;> rfl

end Segments

end IngestCoordinator
