-- SUMMARY: Each request takes segments one stage further at most, and the first completed flush counts.
import IngestCoordinator.Proofs.Allocator.Runs
import IngestCoordinator.Proofs.Segment.Lifecycle

/-!
# Stages

Every request of the allocator serves one goal: it opens segments, grants rows of
them, seals them or has them flushed, and none of these twice. Nodes report late,
again or in any order that they have stored a segment. The first report on a sealed
segment that is handled without error flushes it at the time that it names; reports
that fail, that come too early or that come again leave the segment as it is.
-/

namespace IngestCoordinator

open Operation

/-! ## What completed flushes make of a segment -/

namespace Segment

variable {completions completions' : List FlushCompleted} {completed : FlushCompleted}
  {goal : Option SegmentState} {segment segment' a b c : Segment}

/--
Where a sealed segment stands after some completed flushes have been handled: the
first of them that names it has flushed it.
-/
def FlushedBy (completions : List FlushCompleted) (segment segment' : Segment) : Prop :=
  match completions.find? fun completed => completed.segment = segment.id with
  | none => segment'.state = .sealed ∧ segment'.flushedTime = segment.flushedTime
  | some completed => segment'.state = .flushed ∧ segment'.flushedTime = completed.timestamp

/-- A sealed segment is flushed by the first of the completed flushes, a flushed one by none. -/
structure Heeds (completions : List FlushCompleted) (segment segment' : Segment) : Prop where
  id : segment'.id = segment.id
  sealed : segment.state = .sealed → segment.FlushedBy completions segment'
  flushed : segment.state = .flushed →
    segment'.state = .flushed ∧ segment'.flushedTime = segment.flushedTime

theorem Heeds.trans (h : a.Heeds completions b) (h' : b.Heeds completions' c) :
    a.Heeds (completions ++ completions') c where
  id := h'.id.trans h.id
  sealed hsealed := by
    have hfirst := h.sealed hsealed
    unfold FlushedBy at hfirst ⊢
    rw [List.find?_append]
    cases hfound : completions.find? fun completed => completed.segment = a.id with
    | none =>
      rw [hfound] at hfirst
      obtain ⟨hstill, htime⟩ := hfirst
      have hsecond := h'.sealed hstill
      rw [FlushedBy, h.id, htime] at hsecond
      exact hsecond
    | some completed =>
      rw [hfound] at hfirst
      obtain ⟨hflushed, htime⟩ := hfirst
      obtain ⟨hstays, htime'⟩ := h'.flushed hflushed
      exact ⟨hstays, htime'.trans htime⟩
  flushed hflushed := by
    obtain ⟨hstays, htime⟩ := h.flushed hflushed
    obtain ⟨hstays', htime'⟩ := h'.flushed hstays
    exact ⟨hstays', htime'.trans htime⟩

/-- What does not flush segments leaves the sealed and the flushed ones alone. -/
theorem Heeds.of_serves (h : segment.Serves goal segment') (hgoal : goal ≠ some .flushed) :
    segment.Heeds [] segment' := by
  have hstays (hclosed : segment.state = .sealed ∨ segment.state = .flushed) :
      segment'.state = segment.state := by
    rcases h.state with hstate | ⟨hnext, hreached⟩
    · exact hstate
    · rcases hclosed with hclosed | hclosed
      · rw [hclosed] at hnext
        exact absurd (hreached.trans hnext.symm) hgoal
      · rw [hclosed] at hnext
        cases hnext
  have htime (hne : segment'.state = segment.state) : segment'.flushedTime = segment.flushedTime := by
    refine h.flushedTime.resolve_right fun hmoved => ?_
    rw [hmoved.1, hmoved.2] at hne
    cases hne
  refine ⟨h.id, fun hsealed => ?_, fun hflushed => ?_⟩
  · have hstate := hstays (.inl hsealed)
    exact ⟨hstate.trans hsealed, htime hstate⟩
  · have hstate := hstays (.inr hflushed)
    exact ⟨hstate.trans hflushed, htime hstate⟩

/-- A completed flush of another segment, or of one that is not sealed, changes nothing. -/
theorem Heeds.ignored (h : segment.id = completed.segment → segment.state ≠ .sealed) :
    segment.Heeds [completed] segment := by
  refine ⟨rfl, fun hsealed => ?_, fun hflushed => ⟨hflushed, rfl⟩⟩
  have hother : completed.segment ≠ segment.id := fun heq => h heq.symm hsealed
  simp [FlushedBy, hother, hsealed]

theorem Heeds.of_flush (hid : segment.id = completed.segment)
    (h : segment.flush completed.timestamp = .ok segment') : segment.Heeds [completed] segment' := by
  rcases flush_eq_ok_iff.1 h with ⟨hsealed, rfl⟩ | ⟨hflushed, rfl⟩
  · refine ⟨rfl, fun _ => ?_, fun hflushed => ?_⟩
    · simp [FlushedBy, hid]
    · cases hsealed.symm.trans hflushed
  · refine .ignored fun _ hsealed => ?_
    cases hsealed.symm.trans hflushed

end Segment

namespace Allocator

variable {a b c : Allocator} {goal : Option SegmentState} {grants : List Grant}
  {completions completions' : List FlushCompleted} {completed : FlushCompleted}

/-! ## The writes of a request -/

/-- The request may make this write. -/
def Request.Makes (request : Request) (write : Write) : Prop :=
  match request with
  | .addCollection _ | .addPartition .. | .loadCatalog _ | .setCutoff _ => False
  | .addSegment id key group node capacity openTime =>
    write = .add (.fresh id key group node capacity openTime)
  | .openSegment segment => write = .change segment.id .grow ∨ ∃ id, write = .change id .supersede
  | .alloc _ _ => ∃ grant, write = writeOf grant
  | .sealAll _ | .sealReady _ =>
    ∃ id, write = .change id .supersede ∨ ∃ time, write = .change id (.sealAt time)
  | .recover => ∃ id, write = .change id .supersede
  | .report _ => ∃ id seq rowDelta memSize, write = .change id (.report seq rowDelta memSize)
  | .completeFlush completed => write = .change completed.segment (.flush completed.timestamp)

/-- Only a request to open a segment makes one grow. -/
theorem Request.Makes.opens {request : Request} {id : SegmentId}
    (h : request.Makes (.change id .grow)) : ∃ segment, request = .openSegment segment := by
  cases request with
  | openSegment segment => exact ⟨segment, rfl⟩
  | addCollection | addPartition | loadCatalog | setCutoff => cases h
  | addSegment | alloc | sealAll | sealReady | recover | report | completeFlush =>
    simp [Makes, writeOf] at h

theorem evolved_perform (request : Request) (hsound : a.Sound) :
    a.Evolved request.Makes (perform request a).2 := by
  have hattempt {α : Type} {kind : Write → Prop} {operation : Operation Allocator α}
      (h : Writes 0 kind operation) : a.Evolved kind (operation.attempt a).2 :=
    (h.attempt a UInt64.zero_le).evolved
  cases request with
  | addCollection collection =>
    exact hattempt (writes_onStore fun _ => GuardedStore.ensures_addCollection collection)
  | addPartition collection partition =>
    exact hattempt (writes_onStore fun _ => GuardedStore.ensures_addPartition collection partition)
  | loadCatalog catalog => exact hattempt (writes_onStore fun _ => catalog.ensures_load)
  | addSegment => exact hattempt (writes_addSegment rfl rfl)
  | openSegment segment =>
    exact hattempt (writes_openSegment (fun id => .inr ⟨id, rfl⟩) segment (.inl rfl))
  | alloc key wanted =>
    have halloc : Ensures (alloc key wanted) a
        (fun _ b => a.Wrote (Request.alloc key wanted).Makes b)
        (fun _ b => a.Wrote (Request.alloc key wanted).Makes b) :=
      (ensures_alloc_granted key wanted hsound.truthful hsound.coherent).imp
        (fun grant _ h => h.wrote ⟨grant, rfl⟩) fun _ _ h => h
    rw [perform_alloc_snd]
    exact halloc.attempt_snd.evolved
  | sealAll collection =>
    exact (wrote_sealAll (fun id => ⟨id, .inl rfl⟩) collection fun id =>
      ⟨id, .inr ⟨_, rfl⟩⟩).evolved
  | sealReady watermark =>
    exact evolved_sealReady (fun id => ⟨id, .inl rfl⟩) watermark fun id => ⟨id, .inr ⟨_, rfl⟩⟩
  | recover =>
    exact ((ensures_recover_evolved fun id => ⟨id, rfl⟩).imp (fun _ _ h => h)
      fun _ _ h => h.evolved).attempt_snd
  | report reports =>
    have hbatch : StepWrites 0 (Request.report reports).Makes (handleBatch? reports) :=
      writes_handleBatch? (fun id seq rowDelta memSize => ⟨id, seq, rowDelta, memSize, rfl⟩) reports
    exact (hbatch a UInt64.zero_le).evolved
  | completeFlush completed => exact hattempt (writes_handleFlushCompleted completed rfl)
  | setCutoff watermark => exact .of_eq rfl (UInt64.le_refl _) (Word.le_max_left ..)

/-! ## One goal at a time -/

/-- The stored segments have changed by writes for one goal. -/
structure Serves (goal : Option SegmentState) (a b : Allocator) : Prop where
  history : ∃ writes, History a.segments writes b.segments ∧
    ∀ write ∈ writes, write.Serves a.segments goal
  sound : b.Sound

theorem Serves.of_segments_eq (hsegments : b.segments = a.segments) (hsound : b.Sound) :
    a.Serves goal b :=
  ⟨⟨[], hsegments ▸ .nil _, List.forall_mem_nil _⟩, hsound⟩

theorem Serves.of_evolved (h : a.Evolved (·.Serves a.segments goal) b) (hsound : a.Sound) :
    a.Serves goal b := by
  obtain ⟨writes, hevolves, hserves⟩ := h
  exact ⟨⟨writes, hevolves.history, hserves⟩, (hevolves.extends hsound).sound⟩

theorem Serves.accounts (h : a.Serves goal b) (haccounts : Accounts grants a.segments) :
    ∃ grants', Accounts grants' b.segments := by
  obtain ⟨writes, hhistory, _⟩ := h.history
  exact ⟨_, haccounts.history hhistory⟩

theorem Serves.stored (h : a.Serves goal b) (haccounts : Accounts grants a.segments)
    {id : SegmentId} {segment : Segment} (hget : a.segments.get? id = some segment) :
    ∃ segment', b.segments.get? id = some segment' ∧ segment.Serves goal segment' := by
  obtain ⟨writes, hhistory, hserves⟩ := h.history
  exact hhistory.serves haccounts hserves hget

theorem serves_change {base : Segments} {id : SegmentId} {change : Change}
    (h : change.Serves goal) : (Write.change id change).Serves base goal :=
  .inl h

/-- Every request serves one goal, and only a completed flush has segments flushed. -/
theorem serves_perform (request : Request) (hsound : a.Sound) :
    ∃ goal, a.Serves goal (perform request a).2 ∧
      ((∃ completed, request = .completeFlush completed) ∨ goal ≠ some .flushed) := by
  have hserves (goal : Option SegmentState)
      (hmakes : ∀ write, request.Makes write → write.Serves a.segments goal) :
      a.Serves goal (perform request a).2 :=
    .of_evolved ((evolved_perform request hsound).mono hmakes) hsound
  cases request with
  | addCollection | addPartition | loadCatalog | setCutoff =>
    exact ⟨none, hserves none nofun, .inr nofun⟩
  | addSegment =>
    refine ⟨none, hserves none ?_, .inr nofun⟩
    rintro _ rfl
    trivial
  | openSegment =>
    refine ⟨some .growing, hserves _ ?_, .inr nofun⟩
    rintro _ (rfl | ⟨id, rfl⟩)
    · exact serves_change rfl
    · exact serves_change trivial
  | alloc =>
    refine ⟨none, hserves none ?_, .inr nofun⟩
    rintro _ ⟨grant, rfl⟩
    exact serves_change rfl
  | sealAll | sealReady =>
    refine ⟨some .sealed, hserves _ ?_, .inr nofun⟩
    rintro _ ⟨id, rfl | ⟨time, rfl⟩⟩
    · exact serves_change trivial
    · exact serves_change rfl
  | recover =>
    refine ⟨none, hserves none ?_, .inr nofun⟩
    rintro _ ⟨id, rfl⟩
    exact serves_change trivial
  | report =>
    refine ⟨none, hserves none ?_, .inr nofun⟩
    rintro _ ⟨id, seq, rows, size, rfl⟩
    exact serves_change trivial
  | completeFlush completed =>
    refine ⟨some .flushed, hserves _ ?_, .inl ⟨completed, rfl⟩⟩
    rintro _ rfl
    exact serves_change rfl

/-! ## Completed flushes -/

/-- What completed flushes have made of the stored segments. -/
def Heeds (completions : List FlushCompleted) (a b : Allocator) : Prop :=
  ∀ id segment, a.segments.get? id = some segment →
    ∃ segment', b.segments.get? id = some segment' ∧ segment.Heeds completions segment'

theorem Heeds.refl (a : Allocator) : a.Heeds [] a :=
  fun _ segment hget => ⟨segment, hget, rfl, fun hsealed => ⟨hsealed, rfl⟩, fun h => ⟨h, rfl⟩⟩

theorem Heeds.trans (h : a.Heeds completions b) (h' : b.Heeds completions' c) :
    a.Heeds (completions ++ completions') c := fun id segment hget => by
  obtain ⟨segment₁, hget₁, hheeds₁⟩ := h id segment hget
  obtain ⟨segment₂, hget₂, hheeds₂⟩ := h' id segment₁ hget₁
  exact ⟨segment₂, hget₂, hheeds₁.trans hheeds₂⟩

theorem Heeds.of_segments_eq (h : b.segments = a.segments) : a.Heeds [] b := fun id segment hget => by
  rw [← h] at hget
  exact Heeds.refl b id segment hget

theorem Serves.heeds (h : a.Serves goal b) (haccounts : Accounts grants a.segments)
    (hgoal : goal ≠ some .flushed) : a.Heeds [] b := fun id segment hget => by
  obtain ⟨segment', hget', hserves⟩ := h.stored haccounts hget
  exact ⟨segment', hget', .of_serves hserves hgoal⟩

/-- Handling one completed flush has the effect of that one, or none if it fails. -/
theorem ensures_handleFlushCompleted_heeds (completed : FlushCompleted) (hsound : a.Sound) :
    Ensures (handleFlushCompleted completed) a (fun _ b => a.Heeds [completed] b)
      (fun _ b => b.segments = a.segments) := by
  have hignored {b : Allocator} (hsegments : b.segments = a.segments)
      (h : ∀ segment, a.segments.get? completed.segment = some segment → segment.state ≠ .sealed) :
      a.Heeds [completed] b := fun id segment hget => by
    refine ⟨segment, hsegments ▸ hget, .ignored fun hid => h segment ?_⟩
    rwa [← hid, hsound.coherent.numbered hget]
  rw [handleFlushCompleted, ensures_bind, ensures_segment?_iff hsound.truthful]
  cases hget : a.segments.get? completed.segment with
  | none => exact hignored rfl fun segment hget' => by cases hget.symm.trans hget'
  | some segment =>
    have hstate (hne : segment.state ≠ .sealed) : ∀ segment',
        a.segments.get? completed.segment = some segment' → segment'.state ≠ .sealed := by
      intro segment' hget'
      cases hget.symm.trans hget'
      exact hne
    dsimp only
    split
    · rename_i h
      exact hignored rfl (hstate (by simp [h]))
    · rename_i h
      exact hignored rfl (hstate (by simp [h]))
    · rename_i h
      exact hignored rfl (hstate (by simp [h]))
    · -- The segment is sealed. To flush it may fail, and then nothing is written.
      rw [ensures_bind]
      refine (ensures_update _ _).imp (fun updated b h => ?_) fun _ _ h => h.1.segments
      obtain ⟨old, hold, hok, hid, hstored⟩ := h
      intro id segment' hget'
      change ∃ segment'', b.segments.get? id = some segment'' ∧ _
      rw [hstored.segments, SortedMap.get?_insert, hid]
      split
      · rename_i heq
        subst heq
        cases hold.symm.trans hget'
        exact ⟨updated, rfl, .of_flush (hsound.coherent.numbered hold) hok⟩
      · rename_i hne
        refine ⟨segment', hget', .ignored fun hsame => absurd ?_ hne⟩
        rw [← hsame, hsound.coherent.numbered hget']

/-- A flushed segment is never flushed again: nothing at all changes. -/
theorem handleFlushCompleted_flushed (hsound : a.Sound) {segment : Segment}
    (hget : a.segments.get? completed.segment = some segment) (hflushed : segment.state = .flushed) :
    handleFlushCompleted completed a = .ok .alreadyFlushed a := by
  refine eq_ok_of_ensures ?_
  rw [handleFlushCompleted, ensures_bind, ensures_segment?_iff hsound.truthful, hget]
  dsimp only
  rw [hflushed]
  exact ⟨rfl, rfl⟩

/-- Those of the completed flushes, handled one after another, that are handled without error. -/
def handled : List FlushCompleted → Allocator → List FlushCompleted
  | [], _ => []
  | completed :: rest, a =>
    match handleFlushCompleted completed a with
    | .ok _ b => completed :: handled rest b
    | .error _ b => handled rest b

theorem heeds_handled (completions : List FlushCompleted) (hsound : a.Sound) :
    a.Heeds (handled completions a) (completions.foldl
      (fun a completed => ((handleFlushCompleted completed).attempt a).2) a) := by
  induction completions generalizing a with
  | nil => exact .refl a
  | cons completed rest ih =>
    have hheeds := ensures_handleFlushCompleted_heeds completed hsound
    have hnext : ((handleFlushCompleted completed).attempt a).2.Sound := by
      obtain ⟨_, hserves, _⟩ := serves_perform (.completeFlush completed) hsound
      exact hserves.sound
    rw [List.foldl_cons, handled]
    unfold Operation.attempt at hnext ⊢
    cases hresult : handleFlushCompleted completed a with
    | ok outcome b =>
      rw [hresult] at hnext
      exact (hheeds.ok hresult).trans (ih hnext)
    | error e b =>
      rw [hresult] at hnext
      exact (Heeds.of_segments_eq (hheeds.error hresult)).trans (ih hnext)

end Allocator

end IngestCoordinator
