-- SUMMARY: The statistics of a segment do not depend on how reports are delivered.
import IngestCoordinator.Proofs.Allocator.Reporting
import IngestCoordinator.Proofs.Coordinator.Concerns

/-!
# Statistics in a run

Reports reach a coordinator alone, in batches or through the mailbox, in any order and
any number of times, while it opens, seals and flushes segments, is restarted, or has
its store fail in between. What the statistics of a segment come to is a function of the
set of reports on it, and only the first report of each number is applied.
-/

namespace IngestCoordinator.Coordinator

open Allocator Operation

variable {c d e : Coordinator} {id : SegmentId} {base segment : Segment}
  {log new : List Handling} {logs : List (List Handling)}

/-- The reports that a request handles. -/
def handlingsOf : Request → Coordinator → List Handling
  | .readStatistics, c => handlings (c.statistics.unread.flatMap ReportBatch.reports) c.allocator
  | _, _ => []

/--
One thing happens, and the reports that are handled in it. They are handled alone, in a
batch or when the mailbox is read, up to one that overflows its ledger; anything else may be
asked, backend, identifiers and clock go their way, and the process is restarted on what the
backend has kept.
-/
inductive Receives : Coordinator → List Handling → Coordinator → Prop where
  | report {c : Coordinator} (report : Report) : Receives c [⟨c.allocator, report⟩]
      { c with allocator := ((handleReport report).attempt c.allocator).2 }
  | batch {c : Coordinator} (reports : List Report) : Receives c (handlings reports c.allocator)
      { c with allocator := (handleBatch? reports c.allocator).2 }
  /-- Any request but one to settle, which is several others. -/
  | request {c : Coordinator} (request : Request) (h : request ≠ .settle) :
    Receives c (handlingsOf request c) (perform request c).2
  | surroundings {c d : Coordinator} (h : c.allocator.Surroundings d.allocator) : Receives c [] d
  | restarted {c d : Coordinator} (h : restart c = .ok () d) : Receives c [] d

/-- Batches are handled as if all their reports were one batch. -/
theorem allocator_handleBatches (batches : List ReportBatch) (c : Coordinator) :
    (handleBatches batches c).2.allocator =
      handleAll (batches.flatMap ReportBatch.reports) c.allocator := by
  induction batches generalizing c with
  | nil => rfl
  | cons batch batches ih =>
    have hbatch : stepAllocator (handleBatch? batch.reports) c =
        ((handleBatch? batch.reports c.allocator).1,
          { c with allocator := (handleBatch? batch.reports c.allocator).2 }) := rfl
    rw [handleBatches, step_bind, hbatch, handleBatch?_eq, List.flatMap_cons, handleAll_append]
    split
    · rfl
    · exact ih _

theorem allocator_readStatistics (c : Coordinator) : c.readStatistics.allocator =
    handleAll (c.statistics.unread.flatMap ReportBatch.reports) c.allocator := by
  have hbatches := allocator_handleBatches c.statistics.unread
    { c with statistics := c.statistics.emptied }
  rw [readStatistics, ← hbatches]
  generalize handleBatches c.statistics.unread _ = answered
  obtain ⟨goesOn, d⟩ := answered
  cases goesOn <;> rfl

/-- The store reads truthfully, and the segment's statistics are those of the reports so far. -/
structure Tallied (id : SegmentId) (base : Segment) (log : List Handling) (c : Coordinator) :
    Prop where
  sound : c.allocator.Sound
  tallies : Tallies id base log c.allocator

theorem Tallied.perform (h : Tallied id base log c) (request : Request) (hsettle : request ≠ .settle)
    (hagree : Agreeing id (log ++ handlingsOf request c))
    (hcurrent : ∀ handling ∈ handlingsOf request c, handling.report.segment = id →
      handling.Current) :
    Tallied id base (log ++ handlingsOf request c) (perform request c).2 := by
  by_cases hread : request = .readStatistics
  · subst hread
    obtain ⟨hsound, htallies⟩ := h.tallies.handleAll _ h.sound hagree hcurrent
    rw [← allocator_readStatistics] at hsound htallies
    exact ⟨hsound, htallies⟩
  · have hnone : handlingsOf request c = [] := by
      cases request with
      | readStatistics => exact absurd rfl hread
      | _ => rfl
    rw [hnone, List.append_nil]
    cases concerns_perform request hsettle h.sound with
    | nodes _ hmoves => exact ⟨hmoves.allocator ▸ h.sound, hmoves.allocator ▸ h.tallies⟩
    | statistics hrequest => exact absurd hrequest hread
    | neither hspares =>
      obtain ⟨_, hevolves, _⟩ := hspares.allocator
      exact ⟨(hevolves.extends h.sound).sound, h.tallies.evolved hspares.allocator⟩

theorem Receives.tallied (h : Receives c new d) (hc : Tallied id base log c)
    (hagree : Agreeing id (log ++ new))
    (hcurrent : ∀ handling ∈ new, handling.report.segment = id → handling.Current) :
    Tallied id base (log ++ new) d := by
  cases h with
  | report report =>
    exact ⟨hc.sound.handleReport report,
      hc.tallies.handle hc.sound hagree (hcurrent _ (List.mem_singleton_self _))⟩
  | batch reports =>
    obtain ⟨hsound, htallies⟩ := hc.tallies.handleAll reports hc.sound hagree hcurrent
    rw [← handleBatch?_snd] at hsound htallies
    exact ⟨hsound, htallies⟩
  | request request hsettle => exact hc.perform request hsettle hagree hcurrent
  | surroundings hsurroundings =>
    rw [List.append_nil]
    exact ⟨hsurroundings.sound hc.sound, hc.tallies.of_segments_eq hsurroundings.segments⟩
  | restarted hrestart =>
    obtain ⟨hsegments, hsound⟩ := segments_restart hrestart hc.sound
    rw [List.append_nil]
    exact ⟨hsound, hc.tallies.of_segments_eq hsegments⟩

theorem tallied_of_path (h : Path Receives c logs d) (hc : Tallied id base log c)
    (hagree : Agreeing id (log ++ logs.flatten))
    (hcurrent : ∀ handling ∈ logs.flatten, handling.report.segment = id → handling.Current) :
    Tallied id base (log ++ logs.flatten) d := by
  induction h with
  | nil => simpa using hc
  | @snoc e d logs new _ hstep ih =>
    have hflat : (logs ++ [new]).flatten = logs.flatten ++ new := by simp
    rw [hflat, ← List.append_assoc] at hagree ⊢
    rw [hflat] at hcurrent
    obtain ⟨hearlier, hlast⟩ := List.forall_mem_append.1 hcurrent
    exact hstep.tallied (ih hagree.of_append hearlier) hagree hlast

/--
A run in which reports on a segment arrive as they should: their numbers are below the largest
word, those with the same number say the same, and each finds a store that takes writes and a
segment that has not been flushed behind the cut-off.
-/
structure Delivers (id : SegmentId) (c : Coordinator) (logs : List (List Handling))
    (d : Coordinator) : Prop where
  path : Path Receives c logs d
  agreeing : Agreeing id logs.flatten
  current : ∀ handling ∈ logs.flatten, handling.report.segment = id → handling.Current

/--
What reports make of a segment without statistics is a function of the set of reports
that are numbered from 1 up: its rows are the sum over them, its memory size is that of
the highest one, its ledger is that of their numbers, and so it is in any other run that
delivers the same. The first report of each number is applied, and all others are
duplicates; none of them overflows the ledger.
-/
theorem statistics_independent_of_delivery (hsound : c.allocator.Sound)
    (hget : c.allocator.segments.get? id = some segment) (hrows : segment.numRows = 0)
    (hledger : segment.ledger = {}) (hrun : Delivers id c logs d) :
    (∃ segment', d.allocator.segments.get? id = some segment' ∧
      segment.Counts (reportsOn id logs.flatten) segment' ∧
      ∀ logs' e, Delivers id c logs' e →
        reportsOn id logs'.flatten = reportsOn id logs.flatten →
          ∃ segment'', e.allocator.segments.get? id = some segment'' ∧
            segment'.SameStatistics segment'') ∧
    Answered id logs.flatten := by
  have hnone : Tallied id segment [] c := ⟨hsound, tallies_nil hget hrows hledger⟩
  have htallied {logs : List (List Handling)} {d : Coordinator} (h : Delivers id c logs d) :
      Tallies id segment logs.flatten d.allocator :=
    (tallied_of_path h.path hnone h.agreeing h.current).tallies
  obtain ⟨⟨segment', hget', hcounts⟩, hanswered⟩ := htallied hrun
  refine ⟨⟨segment', hget', hcounts, fun logs' e hother hsame => ?_⟩, hanswered⟩
  obtain ⟨segment'', hget'', hcounts'⟩ := (htallied hother).counts
  rw [hsame] at hcounts'
  exact ⟨segment'', hget'', hcounts.same hcounts'⟩

theorem receives_of_mem (requests : List Request) (hsettle : .settle ∉ requests) :
    ∀ request ∈ requests, ∀ c, Receives c (handlingsOf request c) (perform request c).2 :=
  fun request hmem _ => .request request (ne_of_mem_of_not_mem hmem hsettle)

/-- To settle is no step, but a run of its own. -/
theorem receives_settle (c : Coordinator) : ∃ logs, Path Receives c logs c.settle :=
  exists_path_settle (receives_of_mem duties settle_notMem_duties) c

/-- Three reports on a segment arrive in disorder, and two of them once more. -/
def reporting : List Request :=
  [.sendStatistics ⟨⟨1⟩, [⟨⟨1⟩, 2, 5, 200⟩, ⟨⟨1⟩, 1, 3, 100⟩, ⟨⟨1⟩, 2, 5, 200⟩]⟩, .readStatistics,
    .sendStatistics ⟨⟨1⟩, [⟨⟨1⟩, 3, 7, 150⟩, ⟨⟨1⟩, 1, 3, 100⟩]⟩, .readStatistics]

/-- The three count once each, and the memory size is that of the third. -/
theorem reports_counted_once :
    ∃ segment, (performAll reporting (performAll assigning onMemory).2).2.allocator.segments.get?
      ⟨1⟩ = some segment ∧ segment.numRows.toNat = 15 ∧ segment.memSize = 150 ∧
        Ledger.ofSeqs? {1, 2, 3} = some segment.ledger := by
  have hbefore : ((performAll assigning onMemory).2.allocator.segments.get? ⟨1⟩).map
      (fun segment => (segment.numRows, segment.ledger)) = some (0, {}) := by decide +kernel
  obtain ⟨segment, hget, hsegment⟩ := Option.map_eq_some_iff.1 hbefore
  rw [Prod.mk.injEq] at hsegment
  have hrun : Delivers ⟨1⟩ (performAll assigning onMemory).2
      (labelsOf handlingsOf reporting (performAll assigning onMemory).2)
      (performAll reporting (performAll assigning onMemory).2).2 :=
    ⟨path_performAll (receives_of_mem reporting (by simp [reporting])) _, by decide +kernel,
      by decide +kernel⟩
  have hsound := ((run_performAll assigning onMemory).tells initial_onMemory.sound).proceeds.sound
  obtain ⟨⟨segment', hget', hcounts, _⟩, _⟩ := statistics_independent_of_delivery
    hsound.allocator.sound hget hsegment.1 hsegment.2 hrun
  have hreports : reportsOn ⟨1⟩ (labelsOf handlingsOf reporting
      (performAll assigning onMemory).2).flatten =
      {⟨⟨1⟩, 1, 3, 100⟩, ⟨⟨1⟩, 2, 5, 200⟩, ⟨⟨1⟩, 3, 7, 150⟩} := by decide +kernel
  rw [hreports] at hcounts
  refine ⟨segment', hget', hcounts.numRows, hcounts.memSize ⟨⟨1⟩, 3, 7, 150⟩ ⟨by decide, by decide⟩, ?_⟩
  exact hcounts.ledger

end IngestCoordinator.Coordinator
