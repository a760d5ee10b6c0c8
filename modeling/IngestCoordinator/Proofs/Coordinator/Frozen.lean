-- SUMMARY: A segment flushed behind the cut-off is never written again, and reports on it are refused.
import IngestCoordinator.Proofs.Coordinator.Stages
import IngestCoordinator.Proofs.Coordinator.Statistics

/-!
# Frozen segments

Reports on a flushed segment are still applied until the cut-off has reached the time at
which it was flushed. From then on, as long as the process lives, its record stays what it
is: reports are stale, completed flushes come too late, and no other request changes a
flushed segment. The cut-off never moves back, in whatever order it is set.
-/

namespace IngestCoordinator

open Operation

open Segment in
/-- Nothing but a report changes a flushed segment. -/
theorem Change.eq_of_flushed {id : SegmentId} {change : Change} {segment segment' : Segment}
    (hno : (Write.change id change).isReport = false) (happly : change.apply segment = .ok segment')
    (hflushed : segment.state = .flushed) : segment' = segment := by
  cases change with
  | report => cases hno
  | grow =>
    obtain ⟨hnew, -⟩ := grow_eq_ok_iff.1 happly
    cases hnew.symm.trans hflushed
  | grant =>
    obtain ⟨-, hallocatable, -⟩ := grant_eq_ok_iff.1 happly
    cases (isAllocatable_iff.1 hallocatable).1.symm.trans hflushed
  | supersede =>
    rcases supersede_eq_ok_iff.1 happly with ⟨hgrowing, -⟩ | ⟨-, rfl⟩
    · cases hgrowing.symm.trans hflushed
    · rfl
  | sealAt =>
    rcases sealAt_eq_ok_iff.1 happly with ⟨-, rfl⟩ | ⟨hgrowing, -, -⟩
    · rfl
    · cases hgrowing.symm.trans hflushed
  | flush =>
    rcases flush_eq_ok_iff.1 happly with ⟨hsealed, -⟩ | ⟨-, rfl⟩
    · cases hsealed.symm.trans hflushed
    · rfl

/-- Nothing but a report changes a stored segment that has been flushed. -/
theorem History.get?_of_flushed {before after : Segments} {writes : List Write}
    (hhistory : History before writes after) (hno : ∀ write ∈ writes, write.isReport = false)
    {id : SegmentId} {segment : Segment} (hget : before.get? id = some segment)
    (hflushed : segment.state = .flushed) : after.get? id = some segment := by
  have hkeeps {id : SegmentId} {change : Change} (hmem : .change id change ∈ writes)
      {old updated : Segment} (happly : change.apply old = .ok updated) (hold : old = segment) :
      updated = segment := by
    subst hold
    exact Change.eq_of_flushed (hno _ hmem) happly hflushed
  obtain ⟨_, hget', rfl⟩ := hhistory.keeps_of_mem hkeeps ⟨segment, hget, rfl⟩
  exact hget'

/-! ## Verdicts -/

namespace Allocator

variable {a b : Allocator} {id : SegmentId} {segment : Segment}

/-- A completed flush that is handled, and the allocator that handles it. -/
structure Completion where
  allocator : Allocator
  completed : FlushCompleted

/-- What the completed flush is answered with. -/
def Completion.answer (completion : Completion) : Except Error FlushCompletion :=
  ((handleFlushCompleted completion.completed).attempt completion.allocator).1

/-- Some completed flushes are handled in order. -/
def completions : List FlushCompleted → Allocator → List Completion
  | [], _ => []
  | completed :: rest, a =>
    ⟨a, completed⟩ :: completions rest ((handleFlushCompleted completed).attempt a).2

/-- What nodes have reported, as it has been handled. -/
structure Verdicts where
  reports : List Handling := []
  flushes : List Completion := []

/-- All that is reported on a segment is turned away. -/
structure Verdicts.TurnAway (verdicts : Verdicts) (id : SegmentId) : Prop where
  stale : ∀ handling ∈ verdicts.reports, handling.report.segment = id →
    handling.answer = .ok .stale
  late : ∀ completion ∈ verdicts.flushes, completion.completed.segment = id →
    completion.answer = .ok .alreadyFlushed

theorem Verdicts.turnAway_empty (id : SegmentId) : Verdicts.TurnAway {} id :=
  ⟨List.forall_mem_nil _, List.forall_mem_nil _⟩

/-! ## Frozen segments -/

/-- The segment is stored as flushed, at a time that the cut-off has reached. -/
structure Frozen (a : Allocator) (id : SegmentId) (segment : Segment) : Prop where
  sound : a.Sound
  stored : a.segments.get? id = some segment
  flushed : segment.state = .flushed
  behind : segment.flushedTime ≤ a.cutoff

namespace Frozen

variable (h : a.Frozen id segment)

include h

/-- Whatever writes no report leaves the segment frozen. -/
theorem evolved (hevolved : a.Evolved (fun write => write.isReport = false) b) :
    b.Frozen id segment := by
  obtain ⟨writes, hevolves, hno⟩ := hevolved
  exact ⟨(hevolves.extends h.sound).sound, hevolves.history.get?_of_flushed hno h.stored h.flushed,
    h.flushed, UInt64.le_trans h.behind hevolves.cutoff⟩

theorem surroundings (hsurroundings : a.Surroundings b) : b.Frozen id segment :=
  ⟨hsurroundings.sound h.sound, hsurroundings.segments ▸ h.stored, h.flushed,
    hsurroundings.cutoff ▸ h.behind⟩

theorem ensures_handleReport {report : Report} (hid : report.segment = id) :
    Ensures (handleReport report) a
      (fun outcome b => outcome = .stale ∧ b.segments = a.segments) (fun _ _ => False) := by
  rw [handleReport, ensures_bind, ensures_segment?_iff h.sound.truthful, hid, h.stored]
  dsimp only
  rw [ensures_bind, ensures_get, if_pos ⟨h.flushed, h.behind⟩]
  exact ensures_dropReport .stale

theorem after_report (report : Report) :
    ((handleReport report).attempt a).2.Frozen id segment := by
  obtain ⟨_, hevolves, _⟩ := (@writes_handleReport 0 (fun _ => True) (fun _ _ _ _ => trivial)
    report).attempt a UInt64.zero_le |>.evolved
  refine ⟨h.sound.handleReport report, ?_, h.flushed, UInt64.le_trans h.behind hevolves.cutoff⟩
  by_cases hid : report.segment = id
  · obtain ⟨_, _, _, hsegments⟩ := (h.ensures_handleReport hid).attempt_done
    rw [hsegments]
    exact h.stored
  · exact (ensures_handleReport_other h.sound (Ne.symm hid)).attempt_snd.trans h.stored

theorem after_reports (reports : List Report) : (handleBatch? reports a).2.Frozen id segment :=
  stepPreserves_handleBatch? (p := (Frozen · id segment)) (fun report _ h => h.after_report report)
    reports a h

/-- Each of the reports finds the segment frozen. -/
theorem stale_handlings (reports : List Report) : ∀ handling ∈ handlings reports a,
    handling.report.segment = id → handling.answer = .ok .stale := by
  induction reports generalizing a with
  | nil => exact List.forall_mem_nil _
  | cons report reports ih =>
    refine List.forall_mem_cons.2 ⟨fun hid => ?_, ?_⟩
    · obtain ⟨_, hanswer, rfl, _⟩ := (h.ensures_handleReport hid).attempt_done
      exact hanswer
    · split
      · exact List.forall_mem_nil _
      · exact ih (h.after_report report)

theorem after_completion (completed : FlushCompleted) :
    ((handleFlushCompleted completed).attempt a).2.Frozen id segment := by
  have hwrites : Writes 0 (fun write => write.isReport = false) (handleFlushCompleted completed) :=
    writes_handleFlushCompleted completed rfl
  exact h.evolved (hwrites.attempt a UInt64.zero_le).evolved

theorem late_completions (flushes : List FlushCompleted) : ∀ completion ∈ completions flushes a,
    completion.completed.segment = id → completion.answer = .ok .alreadyFlushed := by
  induction flushes generalizing a with
  | nil => exact List.forall_mem_nil _
  | cons completed flushes ih =>
    refine List.forall_mem_cons.2 ⟨fun hid => ?_, ih (h.after_completion completed)⟩
    rw [Completion.answer, attempt,
      handleFlushCompleted_flushed h.sound (hid ▸ h.stored) h.flushed]

end Frozen

/-! ## Requests to the allocator -/

/-- What a request has nodes report. -/
def verdictsOf : Request → Allocator → Verdicts
  | .report reports, a => { reports := handlings reports a }
  | .completeFlush completed, a => { flushes := completions [completed] a }
  | _, _ => {}

theorem Request.Makes.isReport {request : Request} {write : Write} (h : request.Makes write)
    (hrequest : ∀ reports, request ≠ .report reports) : write.isReport = false := by
  cases request with
  | report reports => exact absurd rfl (hrequest reports)
  | addCollection | addPartition | loadCatalog | setCutoff => cases h
  | addSegment | completeFlush =>
    cases h
    rfl
  | openSegment => rcases h with rfl | ⟨id, rfl⟩ <;> rfl
  | alloc =>
    obtain ⟨grant, rfl⟩ := h
    rfl
  | sealAll | sealReady => obtain ⟨id, rfl | ⟨time, rfl⟩⟩ := h <;> rfl
  | recover =>
    obtain ⟨id, rfl⟩ := h
    rfl

theorem Frozen.perform (h : a.Frozen id segment) (request : Request) :
    (perform request a).2.Frozen id segment ∧ (verdictsOf request a).TurnAway id := by
  by_cases hreport : ∃ reports, request = .report reports
  · obtain ⟨reports, rfl⟩ := hreport
    refine ⟨?_, h.stale_handlings reports, List.forall_mem_nil _⟩
    exact h.after_reports reports
  · have hmakes {write : Write} (hmakes : request.Makes write) : write.isReport = false :=
      hmakes.isReport fun reports heq => hreport ⟨reports, heq⟩
    refine ⟨h.evolved ((evolved_perform request h.sound).mono fun _ => hmakes), ?_⟩
    cases request with
    | report reports => exact absurd ⟨reports, rfl⟩ hreport
    | completeFlush completed => exact ⟨List.forall_mem_nil _, h.late_completions [completed]⟩
    | _ => exact Verdicts.turnAway_empty id

end Allocator

/-! ## Runs of one process -/

namespace Coordinator

open Allocator

variable {c d e : Coordinator} {id : SegmentId} {segment : Segment} {verdicts : Verdicts}
  {earlier later : List Verdicts}

/-- What a request has nodes report. -/
def verdictsOf (request : Request) (c : Coordinator) : Verdicts where
  reports := handlingsOf request c
  flushes :=
    match request with
    | .readFlushes => completions c.flushes.unread c.allocator
    | _ => []

/--
One thing happens while the process lives, and what is answered. The coordinator or the
allocator alone is asked for something, or backend, identifiers and clock go their way.
-/
inductive Continues : Coordinator → Verdicts → Coordinator → Prop where
  /-- Any request but one to settle, which is several others. -/
  | request {c : Coordinator} (request : Request) (h : request ≠ .settle) :
    Continues c (verdictsOf request c) (perform request c).2
  | allocator {c : Coordinator} (request : Allocator.Request) :
    Continues c (Allocator.verdictsOf request c.allocator)
      { c with allocator := (Allocator.perform request c.allocator).2 }
  | surroundings {c d : Coordinator} (h : c.allocator.Surroundings d.allocator) : Continues c {} d

theorem frozen_perform (request : Request) (hsettle : request ≠ .settle)
    (h : c.allocator.Frozen id segment) :
    (perform request c).2.allocator.Frozen id segment ∧ (verdictsOf request c).TurnAway id := by
  by_cases hread : request = .readStatistics
  · subst hread
    refine ⟨?_, h.stale_handlings _, List.forall_mem_nil _⟩
    change c.readStatistics.allocator.Frozen id segment
    rw [allocator_readStatistics, ← handleBatch?_snd]
    exact h.after_reports _
  · constructor
    · cases concerns_perform request hsettle h.sound with
      | nodes _ hmoves => exact hmoves.allocator ▸ h
      | statistics hrequest => exact absurd hrequest hread
      | neither hspares => exact h.evolved hspares.allocator
    · cases request with
      | readStatistics => exact absurd rfl hread
      | readFlushes => exact ⟨List.forall_mem_nil _, h.late_completions _⟩
      | _ => exact Verdicts.turnAway_empty id

theorem Continues.frozen (h : Continues c verdicts d) (hc : c.allocator.Frozen id segment) :
    d.allocator.Frozen id segment ∧ verdicts.TurnAway id := by
  cases h with
  | request request hsettle => exact frozen_perform request hsettle hc
  | allocator request => exact hc.perform request
  | surroundings h => exact ⟨hc.surroundings h, Verdicts.turnAway_empty id⟩

theorem Continues.sound (h : Continues c verdicts d) (hsound : c.allocator.Sound) :
    d.allocator.Sound := by
  cases h with
  | request request hsettle =>
    obtain ⟨_, ⟨_, hevolves, _⟩, _⟩ := (effect_perform request hsettle hsound).evolved
    exact (hevolves.extends hsound).sound
  | allocator request =>
    obtain ⟨_, hevolves, _⟩ := evolved_perform request hsound
    exact (hevolves.extends hsound).sound
  | surroundings h => exact h.sound hsound

theorem frozen_of_path (h : Path Continues c later d) (hc : c.allocator.Frozen id segment) :
    d.allocator.Frozen id segment ∧ ∀ verdicts ∈ later, verdicts.TurnAway id := by
  induction h with
  | nil => exact ⟨hc, List.forall_mem_nil _⟩
  | snoc _ hstep ih =>
    obtain ⟨hfrozen, haway⟩ := hstep.frozen ih.1
    exact ⟨hfrozen, List.forall_mem_append.2 ⟨ih.2, List.forall_mem_singleton.2 haway⟩⟩

theorem continues_of_mem (requests : List Request) (hsettle : .settle ∉ requests) :
    ∀ request ∈ requests, ∀ c, Continues c (verdictsOf request c) (perform request c).2 :=
  fun request hmem _ => .request request (ne_of_mem_of_not_mem hmem hsettle)

/-- To settle is no step, but a run of its own. -/
theorem continues_settle (c : Coordinator) : ∃ verdicts, Path Continues c verdicts c.settle :=
  exists_path_settle (continues_of_mem duties settle_notMem_duties) c

/--
Once a segment is stored as flushed at a time that the cut-off has reached, it stays so as
long as the process lives: whatever happens, its record is the same, in memory and in the
backend, every report on it is stale, and every further completed flush of it is too late.
-/
theorem frozen_behind_cutoff (hsound : c.allocator.Sound) (hrun : Path Continues c earlier d)
    (hget : d.allocator.segments.get? id = some segment) (hflushed : segment.state = .flushed)
    (hbehind : segment.flushedTime ≤ d.allocator.cutoff) (hlater : Path Continues d later e) :
    e.allocator.segments.get? id = some segment ∧
    e.allocator.store.metadata.backend.entries.get? (e.allocator.store.metadata.root.segment id) =
      some (.bytes segment.toJson.write) ∧
    segment.flushedTime ≤ e.allocator.cutoff ∧
    ∀ verdicts ∈ later,
      (∀ handling ∈ verdicts.reports, handling.report.segment = id →
        handling.answer = .ok .stale) ∧
      ∀ completion ∈ verdicts.flushes, completion.completed.segment = id →
        completion.answer = .ok .alreadyFlushed := by
  have hfrozen : d.allocator.Frozen id segment :=
    ⟨hrun.invariant (p := fun c => c.allocator.Sound) (fun _ _ _ hc h => h.sound hc) hsound, hget,
      hflushed, hbehind⟩
  obtain ⟨hlast, haway⟩ := frozen_of_path hlater hfrozen
  exact ⟨hlast.stored, hlast.sound.coherent.stored hlast.stored, hlast.behind,
    fun verdicts hmem => ⟨(haway verdicts hmem).stale, (haway verdicts hmem).late⟩⟩

/-- A report comes after the segment has been flushed, but before the cut-off is there. -/
def overtakingCutoff : List Request :=
  sealingOnce ++ flushingTwice ++
    [.sendStatistics ⟨⟨1⟩, [⟨⟨1⟩, 1, 3, 100⟩]⟩, .readStatistics, .watermark 12]

/-- An older watermark, another report and another completed flush come after the cut-off. -/
def missingCutoff : List Request :=
  [.watermark 4, .sendStatistics ⟨⟨1⟩, [⟨⟨1⟩, 2, 5, 200⟩]⟩, .readStatistics,
    .sendFlushCompleted ⟨⟨1⟩, 15⟩, .readFlushes, .flush ⟨1⟩]

/-- The first report counts and the second is stale; the segment keeps its rows and its time. -/
theorem frozen_with_first_report :
    ∃ c segment, c = (performAll overtakingCutoff onMemory).2 ∧
      (performAll missingCutoff c).2.allocator.segments.get? ⟨1⟩ = some segment ∧
      segment.state = .flushed ∧ segment.flushedTime = 12 ∧ segment.numRows = 3 ∧
      ∀ verdicts ∈ labelsOf verdictsOf missingCutoff c,
        ∀ handling ∈ verdicts.reports, handling.answer = .ok .stale := by
  have hbefore : ((performAll overtakingCutoff onMemory).2.allocator.segments.get? ⟨1⟩).map
      (fun segment => (segment.state, segment.flushedTime, segment.numRows)) =
        some (.flushed, 12, 3) := by decide +kernel
  obtain ⟨segment, hget, hsegment⟩ := Option.map_eq_some_iff.1 hbefore
  simp only [Prod.mk.injEq] at hsegment
  obtain ⟨hflushed, htime, hrows⟩ := hsegment
  have hcutoff : (12 : Timestamp) ≤ (performAll overtakingCutoff onMemory).2.allocator.cutoff := by
    decide +kernel
  have hrun := path_performAll (continues_of_mem overtakingCutoff
    (by simp [overtakingCutoff, sealingOnce, flushingTwice, assigning, assignRows])) onMemory
  have hlater := path_performAll (continues_of_mem missingCutoff (by simp [missingCutoff]))
    (performAll overtakingCutoff onMemory).2
  have hon : ∀ verdicts ∈ labelsOf verdictsOf missingCutoff
      (performAll overtakingCutoff onMemory).2,
      ∀ handling ∈ verdicts.reports, handling.report.segment = ⟨1⟩ := by decide +kernel
  obtain ⟨hstays, -, -, hverdicts⟩ := frozen_behind_cutoff initial_onMemory.allocator.sound hrun
    hget hflushed (htime ▸ hcutoff) hlater
  exact ⟨_, segment, rfl, hstays, hflushed, htime, hrows, fun verdicts hmem handling hhandling =>
    (hverdicts verdicts hmem).1 handling hhandling (hon verdicts hmem handling hhandling)⟩

end Coordinator

end IngestCoordinator
