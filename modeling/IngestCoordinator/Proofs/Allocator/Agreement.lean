-- SUMMARY: Every operation of the allocator leaves the index in agreement with the records.
import IngestCoordinator.Proofs.Allocator.Granting
import IngestCoordinator.Proofs.Allocator.Index

/-!
# Agreement

An allocator is consistent if its store reads truthfully and is coherent, and its
index agrees with the stored segments. Each operation writes a segment and moves
it in the index before it does anything else that can fail, so it leaves a
consistent allocator wherever it stops.
-/

namespace IngestCoordinator

open Operation

theorem Segments.place?_insert (segments : Segments) (id id' : SegmentId) (segment : Segment) :
    Segments.place? (segments.insert id segment) id' =
      if id' = id then
        if segment.state = .growing then some (segment.key, segment.superseded) else none
      else segments.place? id' := by
  rw [place?, SortedMap.get?_insert]
  by_cases hid : id' = id
  · by_cases hgrowing : segment.state = .growing <;> simp [hid, hgrowing, Option.filter]
  · rw [if_neg hid, if_neg hid]
    rfl

theorem Segments.place?_of_get? {segments : Segments} {id : SegmentId} {segment : Segment}
    (h : segments.get? id = some segment) : segments.place? id =
      if segment.state = .growing then some (segment.key, segment.superseded) else none := by
  rw [place?, h]
  by_cases hgrowing : segment.state = .growing <;> simp [hgrowing, Option.filter]

namespace Allocator

/-- The store reads truthfully, and memory agrees with it. -/
structure Consistent (a : Allocator) : Prop where
  truthful : a.store.Truthful
  coherent : a.store.metadata.Coherent
  agrees : a.index.Agrees a.segments

variable {a b : Allocator} {key : SegmentKey} {id : SegmentId} {segment updated : Segment}

theorem Consistent.of_eq (h : a.Consistent) (hstore : b.store = a.store)
    (hindex : b.index = a.index) : b.Consistent where
  truthful := hstore ▸ h.truthful
  coherent := hstore ▸ h.coherent
  agrees := by
    rw [hindex, segments, hstore]
    exact h.agrees

theorem Consistent.prune (h : a.Consistent) (key : SegmentKey) :
    Consistent { a with index := a.index.prune key } :=
  ⟨h.truthful, h.coherent, h.agrees.prune key⟩

theorem Consistent.untouched (h : a.Consistent) (huntouched : a.Untouched b) : b.Consistent where
  truthful := by
    rw [huntouched.rest]
    exact ⟨h.truthful.read, h.truthful.hidden, h.truthful.stale, h.truthful.list⟩
  coherent := h.coherent.sameRecords huntouched.metadata.sameRecords
  agrees := by
    rw [huntouched.segments, huntouched.rest]
    exact h.agrees

/-- A written segment and an index that is changed to match. -/
theorem Consistent.stored (h : a.Consistent) (hstored : Stored updated a b)
    (change : KeyIndex → KeyIndex)
    (hagrees : (change a.index).Agrees (a.segments.insert updated.id updated)) :
    Consistent { b with index := change b.index } where
  truthful := by
    rw [hstored.rest]
    exact ⟨h.truthful.read, h.truthful.hidden, h.truthful.stale, h.truthful.list⟩
  coherent := h.coherent.stored_segment hstored.metadata
  agrees := by
    change (change b.index).Agrees b.segments
    rw [hstored.segments, hstored.rest]
    exact hagrees

/-- The segment, if it grows, grows under the key. -/
def Under (key : SegmentKey) (id : SegmentId) (a : Allocator) : Prop :=
  ∀ key' superseded, a.segments.place? id = some (key', superseded) → key' = key

theorem Consistent.target_under (h : a.Consistent) (htarget : a.index.target? key = some id) :
    ∃ segment, a.segments.get? id = some segment ∧ segment.key = key := by
  obtain ⟨segment, hget, hkey, _⟩ := (h.agrees.target key id).1 htarget
  exact ⟨segment, hget, hkey⟩

theorem Consistent.retired_under (h : a.Consistent) (hretired : id ∈ a.index.retired key) :
    ∃ segment, a.segments.get? id = some segment ∧ segment.key = key := by
  obtain ⟨segment, hget, hkey, _⟩ := (h.agrees.retired key id).1 hretired
  exact ⟨segment, hget, hkey⟩

/-- The segment is stored under the key. -/
def Has (key : SegmentKey) (id : SegmentId) (a : Allocator) : Prop :=
  ∃ segment, a.segments.get? id = some segment ∧ segment.key = key

theorem Has.under (h : Has key id a) : Under key id a := by
  obtain ⟨segment, hget, hkey⟩ := h
  intro key' superseded hplace
  obtain ⟨segment', hget', hkey', _⟩ := Segments.place?_eq_some_iff.1 hplace
  cases hget.symm.trans hget'
  rw [← hkey', hkey]

theorem Has.quiet (h : Has key id a) (hquiet : a.Quiet b) : Has key id b := by
  obtain ⟨segment, hget, hkey⟩ := h
  obtain ⟨writes, hevolves, _⟩ := hquiet
  obtain ⟨segment', hget', hkey'⟩ := hevolves.history.key_eq hget
  exact ⟨segment', hget', hkey'.trans hkey⟩

/-! ## One segment at a time -/

theorem place?_of_ne {id' : SegmentId} (hid : updated.id = id) (hne : id' ≠ id) :
    Segments.place? (a.segments.insert updated.id updated) id' = a.segments.place? id' := by
  rw [Segments.place?_insert, hid, if_neg hne]

/-- Superseding a growing segment of the key and retiring it. -/
theorem ensures_supersede_retire (h : a.Consistent) (hget : a.segments.get? id = some segment)
    (hkey : segment.key = key) (hgrowing : segment.state = .growing) :
    Ensures (supersede id) a
      (fun _ b => Consistent { b with index := b.index.retire key id } ∧ b.index = a.index)
      (fun _ b => b.Consistent) := by
  refine (ensures_update id _).imp (fun updated b hb => ?_) fun _ b hb => h.untouched hb.1
  obtain ⟨segment', hget', hok, hid, hstored⟩ := hb
  cases hget.symm.trans hget'
  refine ⟨?_, by rw [hstored.rest]⟩
  refine h.stored hstored (·.retire key id) ?_
  refine h.agrees.retire (Has.under ⟨segment, hget, hkey⟩) (fun id' => place?_of_ne hid) ?_
  rcases Segment.supersede_eq_ok_iff.1 hok with ⟨_, rfl⟩ | ⟨hno, _⟩
  · rw [Segments.place?_insert, if_pos hid.symm, if_pos hgrowing, ← hkey]
    rfl
  · exact absurd hgrowing hno

/-- Sealing a growing segment of the key and forgetting it. -/
theorem ensures_seal_forget (time : Timestamp) (h : a.Consistent)
    (hget : a.segments.get? id = some segment) (hkey : segment.key = key)
    (hgrowing : segment.state = .growing) :
    Ensures (sealSegment id time) a (fun _ b => Consistent { b with index := b.index.forget key id })
      (fun _ b => b.Consistent) := by
  rw [sealSegment, ensures_bind]
  refine (ensures_update id _).imp (fun updated b hb => ?_) fun _ b hb => h.untouched hb.1
  obtain ⟨segment', hget', hok, hid, hstored⟩ := hb
  cases hget.symm.trans hget'
  have hforgotten : Consistent { b with index := b.index.forget key id } := by
    refine h.stored hstored (·.forget key id) ?_
    refine h.agrees.forget (Has.under ⟨segment, hget, hkey⟩) (fun id' => place?_of_ne hid) ?_
    rcases Segment.sealAt_eq_ok_iff.1 hok with ⟨hclosed, _⟩ | ⟨_, _, rfl⟩
    · rw [hgrowing] at hclosed
      cases hclosed
    · rw [Segments.place?_insert, if_pos hid.symm, if_neg (by simp)]
  exact hforgotten.of_eq rfl rfl

/-- Forgetting a segment of the key that does not grow. -/
theorem Consistent.forget (h : a.Consistent) (hplace : a.segments.place? id = none) :
    Consistent { a with index := a.index.forget key id } where
  truthful := h.truthful
  coherent := h.coherent
  agrees := h.agrees.forget (fun _ _ hsome => nomatch hplace.symm.trans hsome) (fun _ _ => rfl) hplace

/-- Retiring a segment of the key that is superseded already. -/
theorem Consistent.retire (h : a.Consistent)
    (hplace : a.segments.place? id = some (key, true)) :
    Consistent { a with index := a.index.retire key id } where
  truthful := h.truthful
  coherent := h.coherent
  agrees := h.agrees.retire (fun _ _ hsome => by cases hplace.symm.trans hsome; rfl)
    (fun _ _ => rfl) hplace

/-- A change after which the segment stands where it stood. -/
theorem ensures_update_inPlace (change : Change) (h : a.Consistent)
    (hplace : ∀ segment updated, change.apply segment = .ok updated →
      (updated.state = .growing ↔ segment.state = .growing) ∧
        updated.superseded = segment.superseded) :
    Ensures (update id change.apply) a (fun _ b => b.Consistent) (fun _ b => b.Consistent) := by
  refine (ensures_update id _).imp (fun updated b hb => ?_) fun _ b hb => h.untouched hb.1
  obtain ⟨segment, hget, hok, hid, hstored⟩ := hb
  obtain ⟨hgrowing, hflag⟩ := hplace segment updated hok
  refine (h.stored hstored (fun index => index) ?_).of_eq rfl rfl
  refine h.agrees.of_place fun id' => ?_
  rw [Segments.place?_insert, hid]
  split
  · rename_i heq
    rw [heq, Segments.place?_of_get? hget, (Change.key_eq hok).2, hflag]
    simp only [hgrowing]
  · rfl

/-! ## Granting and opening -/

theorem ensures_alloc_consistent (key : SegmentKey) (wanted : UInt64) (h : a.Consistent) :
    Ensures (alloc key wanted) a (fun _ b => b.Consistent) (fun _ b => b.Consistent) := by
  rw [alloc]
  split
  · exact h
  rw [ensures_bind]
  refine (ensures_openTarget? key h.truthful).imp (fun target b hb => ?_) fun _ _ h => h.elim
  obtain ⟨hb, _⟩ := hb
  subst b
  cases target with
  | none =>
    change Consistent _
    exact h.of_eq rfl rfl
  | some target =>
    simp only [ensures_bind, ensures_get, ensures_pure]
    refine ensures_onIds.imp (fun time b hb => ?_) fun _ b hb => ?_
    · obtain ⟨ids, rfl⟩ := hb
      have hids : Consistent { a with ids } := h.of_eq rfl rfl
      refine (ensures_update_inPlace (.grant _ _ _) hids ?_).imp
        (fun _ b hb => ?_) fun _ b hb => hb
      · intro segment updated hok
        obtain ⟨_, _, rfl⟩ := Segment.grant_eq_ok_iff.1 hok
        exact ⟨Iff.rfl, rfl⟩
      · exact hb.of_eq rfl rfl
    · obtain ⟨ids, rfl⟩ := hb
      exact h.of_eq rfl rfl

/-- Once room has been made for a new target the key has none. -/
theorem ensures_retireTarget (key : SegmentKey) (h : a.Consistent) : Ensures (retireTarget key) a
    (fun _ b => b.Consistent ∧ b.index.target? key = none) (fun _ b => b.Consistent) := by
  rw [retireTarget, ensures_bind, ensures_get]
  cases htarget : a.index.target? key with
  | none => exact ⟨h, htarget⟩
  | some previous =>
    obtain ⟨segment, hget, hkey, hgrowing, hflag⟩ := (h.agrees.target key previous).1 htarget
    simp only [ensures_bind, ensures_segment?_iff h.truthful, hget]
    split
    · exact h
    · rw [if_pos (by simp [hgrowing, hflag]), ensures_bind]
      refine (ensures_supersede_retire h hget hkey hgrowing).imp (fun _ b hb => ⟨hb.1, ?_⟩)
        fun _ b hb => hb
      change (b.index.retire key previous).target? key = none
      rw [hb.2, KeyIndex.target?_retire, if_pos ⟨rfl, htarget⟩]

theorem ensures_openSegment_consistent (h : a.Consistent)
    (hkey : ∀ stored, a.segments.get? segment.id = some stored → stored.key = segment.key) :
    Ensures (openSegment segment) a (fun _ b => b.Consistent) (fun _ b => b.Consistent) := by
  rw [openSegment, ensures_bind, ensures_segment?_iff h.truthful]
  cases hget : a.segments.get? segment.id with
  | none => exact h
  | some stored =>
    dsimp only
    split
    · exact h
    rw [ensures_bind]
    have hhas : Has segment.key segment.id a := ⟨stored, hget, hkey stored hget⟩
    refine ((ensures_retireTarget segment.key h).and (@quietly_retireTarget 0 segment.key a
      UInt64.zero_le)).imp (fun _ b hb => ?_) fun _ b hb => hb.1
    obtain ⟨⟨hconsistent, hfree⟩, hquiet⟩ := hb
    obtain ⟨present, hpresent, hpresentKey⟩ := hhas.quiet hquiet
    rw [ensures_bind]
    refine (ensures_update segment.id _).imp (fun updated c hc => ?_)
      fun _ c hc => hconsistent.untouched hc.1
    obtain ⟨present', hpresent', hok, hid, hstored⟩ := hc
    cases hpresent.symm.trans hpresent'
    obtain ⟨hnew, rfl⟩ := Segment.grow_eq_ok_iff.1 hok
    have hopened : Consistent { c with index := c.index.setTarget segment.key segment.id } := by
      refine hconsistent.stored hstored (·.setTarget segment.key segment.id) ?_
      refine hconsistent.agrees.setTarget hfree ?_ (fun id' => place?_of_ne hid) ?_
      · rw [Segments.place?_of_get? hpresent, if_neg (by simp [hnew])]
      · rw [Segments.place?_insert, if_pos hid.symm, if_pos rfl, ← hpresentKey]
        rfl
    exact hopened.of_eq rfl rfl

/-! ## Sealing -/

theorem filter_growing_eq_some {found : Option Segment}
    (h : (found.filter fun segment => segment.state == .growing) = some segment) :
    found = some segment ∧ segment.state = .growing := by
  obtain ⟨hfound, hgrowing⟩ := Option.filter_eq_some_iff.1 h
  exact ⟨hfound, by simpa using hgrowing⟩

theorem place?_eq_none (h : ((a.segments.get? id).filter fun segment =>
    segment.state == .growing) = none) : a.segments.place? id = none := by
  rw [Segments.place?, h, Option.map_none]

/-- A growing segment that has been superseded before is retired, should it be the target still. -/
theorem Consistent.retire_superseded (h : a.Consistent) (hget : a.segments.get? id = some segment)
    (hkey : segment.key = key) (hgrowing : segment.state = .growing)
    (hflag : segment.superseded = true) :
    Consistent { a with index := a.index.retire key id } := by
  apply h.retire
  rw [Segments.place?_of_get? hget, if_pos hgrowing, hkey, hflag]

theorem ensures_sealOrDefer (watermark : Timestamp) (h : a.Consistent) (hhas : Has key id a) :
    Ensures (sealOrDefer key id watermark) a (fun _ b => b.Consistent) (fun _ b => b.Consistent) := by
  rw [sealOrDefer, ensures_bind, ensures_segment?_iff h.truthful]
  split
  · rename_i hnone
    exact h.forget (place?_eq_none hnone)
  · rename_i segment hsome
    obtain ⟨hget, hgrowing⟩ := filter_growing_eq_some hsome
    obtain ⟨_, hget', hkey⟩ := hhas
    cases hget.symm.trans hget'
    split
    · rw [ensures_bind]
      exact (ensures_seal_forget _ h hget hkey hgrowing).imp (fun _ b hb => hb) fun _ b hb => hb
    · split
      · rw [ensures_bind]
        exact (ensures_supersede_retire h hget hkey hgrowing).imp (fun _ b hb => hb.1)
          fun _ b hb => hb
      · rename_i hflag
        exact h.retire_superseded hget hkey hgrowing (by simpa using hflag)

theorem consistent_sealEach (watermark : Timestamp) (ids : List SegmentId) (h : a.Consistent)
    (hbound : watermark ≤ a.watermark) (hhas : ∀ id ∈ ids, Has key id a) :
    (sealEach key watermark ids a).2.Consistent := by
  induction ids generalizing a with
  | nil => exact h
  | cons id ids ih =>
    obtain ⟨hid, hids⟩ := List.forall_mem_cons.1 hhas
    have hstep : ((sealOrDefer key id watermark).attempt a).2.Consistent :=
      (ensures_sealOrDefer watermark h hid).attempt_snd
    have hquiet := (quietly_sealOrDefer key id watermark).attempt a hbound
    have hrest := ih hstep (UInt64.le_trans hbound hquiet.watermark) fun id' hmem =>
      (hids id' hmem).quiet hquiet
    simp only [sealEach, step_bind]
    cases ((sealOrDefer key id watermark).attempt a).1 with
    | ok step => cases step <;> exact hrest
    | error e => exact hrest

theorem mem_segmentIds {entry : KeyEntry} :
    id ∈ entry.segmentIds ↔ entry.target = some id ∨ entry.retired.contains id = true := by
  unfold KeyEntry.segmentIds
  cases htarget : entry.target with
  | none => simp [SortedSet.mem_elems_iff]
  | some target =>
    rw [SortedSet.mem_elems_iff, SortedSet.contains_add, Bool.or_eq_true, decide_eq_true_eq,
      Option.some_inj, eq_comm]

/-- The segments that the index names for a key are stored under it. -/
theorem Consistent.has (h : a.Consistent) (key : SegmentKey)
    (hmem : id ∈ ((a.index.get? key).map KeyEntry.segmentIds).getD []) : Has key id a := by
  cases hentry : a.index.get? key with
  | none => simp [hentry] at hmem
  | some entry =>
    rw [hentry, Option.map_some, Option.getD_some, mem_segmentIds] at hmem
    rcases hmem with htarget | hretired
    · exact h.target_under (by rw [KeyIndex.target?, hentry, Option.bind_some, htarget])
    · exact h.retired_under ((KeyIndex.mem_retired_iff ..).2 ⟨entry, hentry, hretired⟩)

theorem consistent_sealKeys (watermark : Timestamp) (keys : List SegmentKey) (h : a.Consistent)
    (hbound : watermark ≤ a.watermark) : (sealKeys watermark keys a).2.Consistent := by
  induction keys generalizing a with
  | nil => exact h
  | cons key keys ih =>
    have heach := consistent_sealEach watermark _ h hbound fun _ => h.has key
    have hquiet := quietStep_sealEach key watermark
      (((a.index.get? key).map KeyEntry.segmentIds).getD []) a hbound
    have hbound' := UInt64.le_trans hbound hquiet.watermark
    simp only [sealKeys, step_bind, step_get, step_modify]
    exact ih (heach.prune key) hbound'

theorem consistent_sealAll (collection : CollectionId) (h : a.Consistent) :
    (sealAll collection a).2.Consistent :=
  consistent_sealKeys a.watermark _ h (UInt64.le_refl _)

theorem ensures_retireIfFull (h : a.Consistent) (hhas : Has key id a) :
    Ensures (retireIfFull key id) a (fun _ b => b.Consistent) (fun _ b => b.Consistent) := by
  rw [retireIfFull, ensures_bind, ensures_segment?_iff h.truthful]
  split
  · rename_i hnone
    exact h.forget (place?_eq_none hnone)
  · rename_i segment hsome
    obtain ⟨hget, hgrowing⟩ := filter_growing_eq_some hsome
    obtain ⟨_, hget', hkey⟩ := hhas
    cases hget.symm.trans hget'
    rw [ensures_bind, ensures_get]
    dsimp only
    split
    · split
      · rw [ensures_bind]
        exact (ensures_supersede_retire h hget hkey hgrowing).imp (fun _ b hb => hb.1)
          fun _ b hb => hb
      · rename_i hflag
        exact h.retire_superseded hget hkey hgrowing (by simpa using hflag)
    · exact h

theorem ensures_sealRetired (watermark : Timestamp) (ids : List SegmentId) (h : a.Consistent)
    (hbound : watermark ≤ a.watermark) (hhas : ∀ id ∈ ids, Has key id a) :
    Ensures (sealRetired key watermark ids) a (fun _ b => b.Consistent) (fun _ b => b.Consistent) := by
  induction ids generalizing a with
  | nil => exact h
  | cons id ids ih =>
    obtain ⟨hid, hids⟩ := List.forall_mem_cons.1 hhas
    rw [sealRetired, ensures_bind, ensures_segment?_iff h.truthful]
    split
    · rename_i hnone
      rw [ensures_bind]
      exact ih (h.forget (place?_eq_none hnone)) hbound hids
    · rename_i segment hsome
      obtain ⟨hget, hgrowing⟩ := filter_growing_eq_some hsome
      obtain ⟨_, hget', hkey⟩ := hid
      cases hget.symm.trans hget'
      split
      · have hquiet := (quietly_sealSegment id (UInt64.le_refl watermark)).attempt a hbound
        have hattempt := (ensures_seal_forget watermark h hget hkey hgrowing).attempt
        rw [ensures_bind, ensures_ofStep]
        generalize (sealSegment id watermark).attempt a = attempted at hquiet hattempt ⊢
        obtain ⟨result, b⟩ := attempted
        have hbound' := UInt64.le_trans hbound hquiet.watermark
        have hids' : ∀ id ∈ ids, Has key id b := fun id' hmem => (hids id' hmem).quiet hquiet
        cases result with
        | ok sealed =>
          simp only [ensures_bind, ensures_pure]
          exact ih hattempt hbound' hids'
        | error e => exact ih hattempt hbound' hids'
      · exact ih h hbound hids

theorem ensures_sealReadyOf (watermark : Timestamp) (h : a.Consistent)
    (hbound : watermark ≤ a.watermark) : Ensures (sealReadyOf key watermark) a
      (fun _ b => b.Consistent) (fun _ b => b.Consistent) := by
  have hretired (b : Allocator) (hb : b.Consistent) (hbound : watermark ≤ b.watermark) :
      Ensures (do sealRetired key watermark ((← get).index.retired key)) b
        (fun _ b => b.Consistent) (fun _ b => b.Consistent) :=
    ensures_sealRetired watermark _ hb hbound fun id hmem => hb.retired_under hmem
  rw [sealReadyOf, ensures_bind, ensures_get]
  cases htarget : a.index.target? key with
  | none => exact hretired a h hbound
  | some target =>
    dsimp only
    rw [ensures_bind]
    refine ((ensures_retireIfFull h (h.target_under htarget)).and
      (@quietly_retireIfFull 0 key target a UInt64.zero_le)).imp (fun _ b hb => ?_)
        fun _ b hb => hb.1
    exact hretired b hb.1 (UInt64.le_trans hbound hb.2.watermark)

theorem consistent_sealReadyKeys (watermark : Timestamp) (keys : List SegmentKey)
    (h : a.Consistent) (hbound : watermark ≤ a.watermark) :
    (sealReadyKeys watermark keys a).2.Consistent := by
  induction keys generalizing a with
  | nil => exact h
  | cons key keys ih =>
    have hkey : ((sealReadyOf key watermark).attempt a).2.Consistent :=
      (ensures_sealReadyOf watermark h hbound).attempt_snd
    have hquiet := (quietly_sealReadyOf key watermark).attempt a hbound
    have hrest := ih (hkey.prune key) (UInt64.le_trans hbound hquiet.watermark)
    simp only [sealReadyKeys, step_bind, step_modify]
    cases ((sealReadyOf key watermark).attempt a).1 with
    | ok segments => exact hrest
    | error e => exact hrest

theorem consistent_sealReady (watermark : Timestamp) (h : a.Consistent) :
    (sealReady watermark a).2.Consistent := by
  have hraised : Consistent { a with watermark := max a.watermark watermark } := h.of_eq rfl rfl
  exact consistent_sealReadyKeys _ _ hraised (UInt64.le_refl _)

/-! ## Reports -/

theorem ensures_handleReport (report : Report) (h : a.Consistent) :
    Ensures (handleReport report) a (fun _ b => b.Consistent) (fun _ b => b.Consistent) := by
  have hdropped (outcome : ReportOutcome) : Ensures (dropReport outcome) a
      (fun _ b => b.Consistent) (fun _ b => b.Consistent) := h.of_eq rfl rfl
  rw [handleReport, ensures_bind, ensures_segment?_iff h.truthful]
  cases a.segments.get? report.segment with
  | none => exact hdropped _
  | some segment =>
    rw [ensures_bind, ensures_get]
    split
    · exact hdropped _
    · split
      · exact hdropped _
      · rw [ensures_bind]
        refine ensures_update_inPlace (.report report.seq report.rowDelta report.memSize) h ?_
        intro segment updated hok
        obtain ⟨_, _, _, rfl⟩ := Segment.report_eq_ok hok
        exact ⟨Iff.rfl, rfl⟩

theorem consistent_handleBatch? (reports : List Report) (h : a.Consistent) :
    (handleBatch? reports a).2.Consistent :=
  stepPreserves_handleBatch? (p := Consistent)
    (fun report _ hconsistent => (ensures_handleReport report hconsistent).attempt_snd) reports a h

theorem ensures_handleFlushCompleted (completed : FlushCompleted) (h : a.Consistent) :
    Ensures (handleFlushCompleted completed) a (fun _ b => b.Consistent)
      (fun _ b => b.Consistent) := by
  rw [handleFlushCompleted, ensures_bind, ensures_segment?_iff h.truthful]
  cases a.segments.get? completed.segment with
  | none => exact h.of_eq rfl rfl
  | some segment =>
    dsimp only
    split
    · exact h
    · exact h.of_eq rfl rfl
    · exact h.of_eq rfl rfl
    · rw [ensures_bind]
      refine (ensures_update_inPlace (.flush completed.timestamp) h ?_).imp
        (fun _ b hb => ?_) fun _ b hb => hb
      · intro segment updated hok
        rcases Segment.flush_eq_ok_iff.1 hok with ⟨hsealed, rfl⟩ | ⟨_, rfl⟩
        · exact ⟨by simp [hsealed], rfl⟩
        · exact ⟨Iff.rfl, rfl⟩
      · exact hb.of_eq rfl rfl

/-! ## The store -/

theorem Consistent.keepsSegments (h : a.Consistent) {store : GuardedStore}
    (hkeeps : a.store.KeepsSegments store) : Consistent { a with store } where
  truthful := by
    have hfaults := hkeeps.faults
    exact ⟨by rw [hfaults]; exact h.truthful.read, by rw [hfaults]; exact h.truthful.hidden,
      by rw [hfaults]; exact h.truthful.stale, by rw [hfaults]; exact h.truthful.list⟩
  coherent := h.coherent.sameRecords hkeeps.metadata
  agrees := by
    change a.index.Agrees store.metadata.records.segments
    rw [hkeeps.metadata.segments]
    exact h.agrees

theorem ensures_addSegment_consistent (hfresh : segment.IsFresh) (h : a.Consistent) :
    Ensures (onStore (GuardedStore.addSegment segment)) a (fun _ b => b.Consistent)
      (fun _ b => b.Consistent) := by
  rw [onStore, ensures_onPart, GuardedStore.addSegment, GuardedStore.onMetadata, ensures_onPart]
  refine (Metadata.ensures_addSegment segment).imp (fun _ m hm => ?_) fun _ m hm => ?_
  · obtain ⟨habsent, hstored⟩ := hm
    have hstored : Stored segment a { a with store.metadata := m } := ⟨hstored, rfl⟩
    refine (h.stored hstored (fun index => index) ?_).of_eq rfl rfl
    have hnew : segment.state = .new := by rw [hfresh]; rfl
    refine h.agrees.of_place fun id => ?_
    rw [Segments.place?_insert]
    split
    · rename_i heq
      have hnone : a.segments.get? segment.id = none := habsent
      rw [heq, if_neg (by simp [hnew]), Segments.place?, hnone]
      rfl
    · rfl
  · exact h.untouched ⟨hm, rfl⟩

end Allocator

end IngestCoordinator
