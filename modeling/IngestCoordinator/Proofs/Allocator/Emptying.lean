-- SUMMARY: A request to seal a collection that reports no failure leaves nothing growing in it.
import IngestCoordinator.Proofs.Allocator.Agreement
import IngestCoordinator.Proofs.Allocator.Closing

/-!
# Emptying

A request to seal a collection goes through every segment that the index names for
its keys. One that it does not report as failed has been forgotten, so if it
reports none the index names none, and no segment of the collection grows.
-/

namespace IngestCoordinator

/-- The index names the segment for the key. -/
def KeyIndex.Names (index : KeyIndex) (key : SegmentKey) (id : SegmentId) : Prop :=
  index.target? key = some id ∨ id ∈ index.retired key

namespace KeyIndex

variable {index : KeyIndex} {key key' : SegmentKey} {id id' : SegmentId}

theorem Names.of_forget (h : (index.forget key id).Names key' id') :
    index.Names key' id' ∧ (key' = key → id' ≠ id) := by
  rcases h with htarget | hretired
  · rw [target?_forget] at htarget
    split at htarget
    · cases htarget
    · rename_i hno
      refine ⟨.inl htarget, ?_⟩
      rintro rfl rfl
      exact hno ⟨rfl, htarget⟩
  · obtain ⟨hno, hretired⟩ := (mem_retired_forget ..).1 hretired
    exact ⟨.inr hretired, fun hkey hid => hno ⟨hkey, hid⟩⟩

theorem names_prune : (index.prune key).Names key' id' ↔ index.Names key' id' := by
  rw [Names, Names, target?_prune, mem_retired_prune]

theorem Names.mem_segmentIds (h : index.Names key id) :
    id ∈ ((index.get? key).map KeyEntry.segmentIds).getD [] := by
  cases hentry : index.get? key with
  | none =>
    rcases h with htarget | hretired
    · simp [target?, hentry] at htarget
    · simp [retired, hentry] at hretired
  | some entry =>
    rw [Option.map_some, Option.getD_some, Allocator.mem_segmentIds]
    rcases h with htarget | hretired
    · exact .inl (by simpa [target?, hentry] using htarget)
    · obtain ⟨entry', hentry', hcontains⟩ := (mem_retired_iff ..).1 hretired
      cases hentry.symm.trans hentry'
      exact .inr hcontains

theorem Names.mem_keys (h : index.Names key id) : key ∈ index.keys := by
  have hmem := h.mem_segmentIds
  cases hentry : index.get? key with
  | none => simp [hentry] at hmem
  | some entry => exact SortedMap.mem_keys_iff.2 ⟨entry, hentry⟩

end KeyIndex

namespace Allocator

open Operation

variable {a b : Allocator} {key key' : SegmentKey} {id id' : SegmentId}

/-- What is not deferred is forgotten. -/
theorem ensures_sealOrDefer_forgotten (watermark : Timestamp) (h : a.store.Truthful) :
    Ensures (sealOrDefer key id watermark) a
      (fun step b => step = .deferred ∨ b.index = a.index.forget key id) (fun _ _ => True) := by
  rw [sealOrDefer, ensures_bind, ensures_segment?_iff h]
  split
  · exact .inr rfl
  · split
    · have hsealed : Ensures (sealSegment id watermark) a (fun _ b => b.index = a.index)
          (fun _ _ => True) := by
        rw [sealSegment, ensures_bind]
        refine (ensures_update id _).imp (fun _ b hb => ?_) fun _ _ _ => trivial
        obtain ⟨_, _, _, _, hstored⟩ := hb
        change b.index = a.index
        rw [hstored.rest]
      rw [ensures_bind]
      refine hsealed.imp (fun _ b hb => .inr ?_) fun _ _ _ => trivial
      change b.index.forget key id = a.index.forget key id
      rw [hb]
    · split
      · rw [ensures_bind]
        exact .of_forall (fun _ _ => .inl rfl) fun _ _ => trivial
      · exact .inl rfl

theorem names_sealEach (watermark : Timestamp) (ids : List SegmentId) (h : a.store.Truthful)
    (hbound : watermark ≤ a.watermark) (hnone : (sealEach key watermark ids a).1.failed = [])
    (hnames : (sealEach key watermark ids a).2.index.Names key' id') :
    a.index.Names key' id' ∧ (key' = key → id' ∉ ids) := by
  induction ids generalizing a with
  | nil => exact ⟨hnames, fun _ => List.not_mem_nil⟩
  | cons id ids ih =>
    have hquiet := (quietly_sealOrDefer key id watermark).attempt a hbound
    have hforgotten {step : SealStep}
        (hok : ((sealOrDefer key id watermark).attempt a).1 = .ok step) :=
      (ensures_sealOrDefer_forgotten watermark h).attempt_ok hok
    simp only [sealEach, step_bind] at hnone hnames
    generalize (sealOrDefer key id watermark).attempt a = attempted
      at hquiet hforgotten hnone hnames
    obtain ⟨result, b⟩ := attempted
    have hstep (hindex : b.index = a.index.forget key id)
        (hrest : (sealEach key watermark ids b).1.failed = [])
        (hnames : (sealEach key watermark ids b).2.index.Names key' id') :
        a.index.Names key' id' ∧ (key' = key → id' ∉ id :: ids) := by
      obtain ⟨hb, hids⟩ := ih (hquiet.truthful h) (UInt64.le_trans hbound hquiet.watermark) hrest hnames
      rw [hindex] at hb
      obtain ⟨ha, hid⟩ := hb.of_forget
      exact ⟨ha, fun hkey => List.not_mem_cons_of_ne_of_not_mem (hid hkey) (hids hkey)⟩
    cases result with
    | ok step =>
      cases step with
      | sealed segment => exact hstep ((hforgotten rfl).resolve_left (by simp)) hnone hnames
      | skipped => exact hstep ((hforgotten rfl).resolve_left (by simp)) hnone hnames
      -- What is deferred or cannot be sealed is listed as failed, and nothing is.
      | deferred => cases hnone
    | error e => cases hnone

theorem names_sealKeys (watermark : Timestamp) (keys : List SegmentKey) (h : a.store.Truthful)
    (hbound : watermark ≤ a.watermark) (hnone : (sealKeys watermark keys a).1.failed = [])
    (hnames : (sealKeys watermark keys a).2.index.Names key' id') :
    a.index.Names key' id' ∧ key' ∉ keys := by
  induction keys generalizing a with
  | nil => exact ⟨hnames, List.not_mem_nil⟩
  | cons key keys ih =>
    simp only [sealKeys, step_bind, step_get, step_modify, step_pure] at hnone hnames
    have hquiet := quietStep_sealEach key watermark
      (((a.index.get? key).map KeyEntry.segmentIds).getD []) a hbound
    obtain ⟨hfirst, hrest⟩ := List.append_eq_nil_iff.1 hnone
    have heach := @names_sealEach a key key' id' watermark _ h hbound hfirst
    generalize (sealEach key watermark
      (((a.index.get? key).map KeyEntry.segmentIds).getD []) a).2 = b at hquiet hrest hnames heach
    have hbound' := UInt64.le_trans hbound hquiet.watermark
    obtain ⟨hpruned, hlater⟩ :=
      ih (a := { b with index := b.index.prune key }) (hquiet.truthful h) hbound' hrest hnames
    obtain ⟨hbefore, hids⟩ := heach (KeyIndex.names_prune.1 hpruned)
    refine ⟨hbefore, List.not_mem_cons_of_ne_of_not_mem ?_ hlater⟩
    rintro rfl
    exact hids rfl hbefore.mem_segmentIds

/-- If nothing is reported as failed, every segment of the collection that grew has been sealed. -/
theorem closed_sealAll_of_allSealed (h : a.Consistent) (collection : CollectionId)
    (hall : (sealAll collection a).1.allSealed = true) {segment : Segment}
    (hget : a.segments.get? id = some segment) (hcollection : segment.collection = collection)
    (hgrowing : segment.state = .growing) : ClosedIn (sealAll collection a).2.segments id := by
  have hnone : (sealKeys a.watermark
      (a.index.keys.filter fun key => key.collection == collection) a).1.failed = [] := by
    have hlength : (List.mergeSort (sealKeys a.watermark (a.index.keys.filter fun key =>
        key.collection == collection) a).1.failed fun a b => (compare a b).isLE).length = 0 :=
      congrArg List.length (List.isEmpty_iff.1 hall)
    rw [List.length_mergeSort] at hlength
    exact List.eq_nil_of_length_eq_zero hlength
  have hconsistent := consistent_sealAll collection h
  obtain ⟨writes, hevolves, _⟩ := quiet_sealAll collection a
  obtain ⟨segment', hget', hkey⟩ := hevolves.history.key_eq hget
  obtain ⟨_, hget'', hopened⟩ := hevolves.history.opened hget (by simp [hgrowing])
  cases hget'.symm.trans hget''
  refine ⟨segment', hget', ?_⟩
  cases hstate : segment'.state with
  | new => exact absurd hstate hopened
  | sealed => rfl
  | flushed => rfl
  | growing =>
    have hnames : (sealAll collection a).2.index.Names segment.key id :=
      (hconsistent.agrees.tracked _ _).2 ⟨segment', hget', hkey, hstate⟩
    obtain ⟨hnames, hno⟩ := names_sealKeys a.watermark _ h.truthful (UInt64.le_refl _) hnone hnames
    exact absurd (List.mem_filter.2 ⟨hnames.mem_keys, by simpa [Segment.key] using hcollection⟩) hno

end Allocator

end IngestCoordinator
