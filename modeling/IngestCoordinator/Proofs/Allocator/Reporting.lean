-- SUMMARY: Each report is answered by whether its number is new, and counts once.
import IngestCoordinator.Proofs.Allocator.Runs
import IngestCoordinator.Proofs.Allocator.Writing
import IngestCoordinator.Proofs.Segment.Statistics

/-!
# Reporting

Reports on a segment are handled one by one, alone or in batches. While the store takes
writes and the segment has not been flushed behind the cut-off, the first report of each
number is applied and all others of that number are duplicates, whatever else is
reported in between. A report whose number overflows the ledger ends its batch; as long as
the largest word is not among the numbers on a segment, none of them does.
-/

namespace IngestCoordinator.Allocator

open Operation

/-! ## One report -/

section

variable {a b : Allocator} {id : SegmentId} {segment segment' : Segment} {report : Report}

theorem ensures_dropReport (outcome : ReportOutcome) : Ensures (dropReport outcome) a
    (fun answer b => answer = outcome ∧ b.segments = a.segments) (fun _ _ => False) :=
  ⟨rfl, rfl⟩

/-- A report that the store can take is a duplicate if the ledger has its number, and else applied. -/
theorem ensures_handleReport_current (hsound : a.Sound) (hwritable : a.store.Writable)
    (hget : a.segments.get? report.segment = some segment)
    (hcurrent : ¬ (segment.state = .flushed ∧ segment.flushedTime ≤ a.cutoff))
    (hafter : segment.after? report = some segment') :
    Ensures (handleReport report) a
      (fun outcome b =>
        outcome = (if segment.ledger.contains report.seq then .duplicate else .applied) ∧
          b.segments.get? report.segment = some segment')
      (fun _ _ => False) := by
  rw [handleReport, ensures_bind, ensures_segment?_iff hsound.truthful, hget]
  dsimp only
  rw [ensures_bind, ensures_get, if_neg hcurrent]
  split
  · rename_i hcontains
    refine (ensures_dropReport _).imp (fun answer b h => ⟨h.1, ?_⟩) fun _ _ h => h
    rw [h.2, hget, ← hafter, Segment.after?_of_contains hcontains]
  · rw [ensures_bind]
    refine (ensures_update _ _).imp (fun updated b h => ?_) fun e b h => ?_
    · obtain ⟨old, hold, hok, hid, hstored⟩ := h
      cases hget.symm.trans hold
      cases hafter.symm.trans (Segment.report_eq_ok_iff.1 hok)
      refine ⟨rfl, ?_⟩
      rw [hstored.segments, SortedMap.get?_insert, if_pos hid.symm]
    · refine h.2 segment _ hget (Segment.report_eq_ok_iff.2 hafter) ?_ hwritable
      exact (Segment.id_of_after? hafter).trans (hsound.coherent.numbered hget)

/-- A report leaves other segments alone, whatever becomes of it. -/
theorem ensures_handleReport_other (hsound : a.Sound) (hne : id ≠ report.segment) :
    Ensures (handleReport report) a (fun _ b => b.segments.get? id = a.segments.get? id)
      (fun _ b => b.segments.get? id = a.segments.get? id) := by
  have hdropped (outcome : ReportOutcome) : Ensures (dropReport outcome) a
      (fun _ b => b.segments.get? id = a.segments.get? id)
      (fun _ b => b.segments.get? id = a.segments.get? id) := rfl
  rw [handleReport, ensures_bind, ensures_segment?_iff hsound.truthful]
  cases a.segments.get? report.segment with
  | none => exact hdropped _
  | some segment =>
    dsimp only
    rw [ensures_bind, ensures_get]
    split
    · exact hdropped _
    · split
      · exact hdropped _
      · rw [ensures_bind]
        refine (ensures_update _ _).imp (fun updated b h => ?_) fun _ _ h => by rw [h.1.segments]
        obtain ⟨_, _, _, hid, hstored⟩ := h
        rw [ensures_pure, hstored.segments, SortedMap.get?_insert, if_neg (hid ▸ hne)]

theorem Sound.handleReport (h : a.Sound) (report : Report) :
    ((handleReport report).attempt a).2.Sound := by
  obtain ⟨_, hevolves, _⟩ := (@writes_handleReport 0 (fun _ => True) (fun _ _ _ _ => trivial)
    report).attempt a UInt64.zero_le |>.evolved
  exact (hevolves.extends h).sound

end

/-! ## Reports one after another -/

/-- A report that is handled, and the allocator that handles it. -/
structure Handling where
  allocator : Allocator
  report : Report

namespace Handling

/-- What the report is answered with. -/
def answer (handling : Handling) : Except Error ReportOutcome :=
  ((handleReport handling.report).attempt handling.allocator).1

/-- The allocator that has handled it. -/
def next (handling : Handling) : Allocator :=
  ((handleReport handling.report).attempt handling.allocator).2

/-- The report overflows the ledger, so those after it are not handled. -/
def Overflows (handling : Handling) : Prop :=
  handling.answer = .error .overflow

instance decidableOverflows (handling : Handling) : Decidable handling.Overflows :=
  inferInstanceAs (Decidable (handling.answer = .error .overflow))

end Handling

/-- The store takes writes, and the segment has not been flushed behind the cut-off. -/
structure Handling.Current (handling : Handling) : Prop where
  writable : handling.allocator.store.Writable
  unflushed : ∀ segment ∈ handling.allocator.segments.get? handling.report.segment,
    ¬ (segment.state = .flushed ∧ segment.flushedTime ≤ handling.allocator.cutoff)

instance decidableWritable (store : GuardedStore) : Decidable store.Writable :=
  decidable_of_iff ((store.metadata.backend.unavailable = false ∧
      store.metadata.backend.refusals = [] ∧ store.metadata.backend.tableDropped = false) ∧
      store.faults.update = .empty)
    ⟨fun ⟨⟨h₁, h₂, h₃⟩, h⟩ => ⟨⟨h₁, h₂, h₃⟩, h⟩, fun ⟨⟨h₁, h₂, h₃⟩, h⟩ => ⟨⟨h₁, h₂, h₃⟩, h⟩⟩

instance decidableCurrent (handling : Handling) : Decidable handling.Current :=
  decidable_of_iff (handling.allocator.store.Writable ∧
      ∀ segment ∈ handling.allocator.segments.get? handling.report.segment,
        ¬ (segment.state = .flushed ∧ segment.flushedTime ≤ handling.allocator.cutoff))
    ⟨fun ⟨h, h'⟩ => ⟨h, h'⟩, fun ⟨h, h'⟩ => ⟨h, h'⟩⟩

/-- Some reports are handled in order, until one of them overflows its ledger. -/
def handlings : List Report → Allocator → List Handling
  | [], _ => []
  | report :: reports, a =>
    let first : Handling := ⟨a, report⟩
    first :: if first.Overflows then [] else handlings reports first.next

/-- The allocator that has handled some reports in order, until one of them overflows its ledger. -/
def handleAll : List Report → Allocator → Allocator
  | [], a => a
  | report :: reports, a =>
    let first : Handling := ⟨a, report⟩
    if first.Overflows then first.next else handleAll reports first.next

/-- What is made of the answer to a report, and of the batch that follows it. -/
def goOn (reports : List Report) :
    Except Error ReportOutcome → StateM Allocator (Option (List ReportOutcome))
  | .ok outcome => return (← handleBatch? reports).map (outcome :: ·)
  | .error error => if error = .overflow then return none else handleBatch? reports

/--
A batch is handled report by report, and its answers are those that are no errors; there are
none if a report overflows.
-/
theorem handleBatch?_eq (reports : List Report) (a : Allocator) : handleBatch? reports a =
    (if ∃ handling ∈ handlings reports a, handling.Overflows then none
      else some ((handlings reports a).filterMap fun handling => handling.answer.toOption),
      handleAll reports a) := by
  induction reports generalizing a with
  | nil => rfl
  | cons report reports ih =>
    change goOn reports (Handling.answer ⟨a, report⟩) (Handling.next ⟨a, report⟩) = _
    rw [handlings, handleAll]
    generalize (⟨a, report⟩ : Handling) = first
    by_cases hoverflows : first.Overflows
    · rw [if_pos hoverflows, if_pos hoverflows, if_pos ⟨first, List.mem_singleton_self _, hoverflows⟩,
        show first.answer = .error .overflow from hoverflows]
      rfl
    · rw [if_neg hoverflows, if_neg hoverflows, List.filterMap_cons]
      simp only [List.exists_mem_cons_iff, hoverflows, false_or]
      cases hanswer : first.answer with
      | ok outcome =>
        rw [goOn, step_bind, ih]
        split <;> rfl
      | error error =>
        have hne : error ≠ .overflow := fun heq =>
          hoverflows (hanswer.trans (congrArg Except.error heq))
        rw [goOn, if_neg hne, ih]
        rfl

/-- After an overflow the reports that follow make no difference. -/
theorem handleAll_append (reports reports' : List Report) (a : Allocator) :
    handleAll (reports ++ reports') a =
      if ∃ handling ∈ handlings reports a, handling.Overflows then handleAll reports a
      else handleAll reports' (handleAll reports a) := by
  induction reports generalizing a with
  | nil => rfl
  | cons report reports ih =>
    rw [List.cons_append, handleAll, handleAll, handlings]
    generalize (⟨a, report⟩ : Handling) = first
    by_cases hoverflows : first.Overflows
    · rw [if_pos hoverflows, if_pos hoverflows, if_pos hoverflows,
        if_pos ⟨first, List.mem_singleton_self _, hoverflows⟩]
    · rw [if_neg hoverflows, if_neg hoverflows, if_neg hoverflows]
      simp only [List.exists_mem_cons_iff, hoverflows, false_or]
      exact ih first.next

theorem handleBatch?_snd (reports : List Report) (a : Allocator) :
    (handleBatch? reports a).2 = handleAll reports a :=
  congrArg Prod.snd (handleBatch?_eq reports a)

section

variable {a b : Allocator} {id : SegmentId} {base segment : Segment} {report : Report}
  {log log' : List Handling} {handling : Handling}

/-- The reports on a segment that have been handled, if they are numbered from 1 up. -/
def reportsOn (id : SegmentId) (log : List Handling) : Finset Report :=
  ((log.map Handling.report).filter fun report => report.segment = id ∧ 0 < report.seq).toFinset

theorem mem_reportsOn : report ∈ reportsOn id log ↔
    (∃ handling ∈ log, handling.report = report) ∧ report.segment = id ∧ 0 < report.seq := by
  simp [reportsOn]

/--
Reports on a segment have numbers below the largest word, and those that have the same number
say the same.
-/
structure Agreeing (id : SegmentId) (log : List Handling) : Prop where
  below : ∀ handling ∈ log, handling.report.segment = id →
    handling.report.seq < 0xFFFFFFFFFFFFFFFF
  same : ∀ handling ∈ log, ∀ handling' ∈ log, handling.report.segment = id →
    handling'.report.segment = id → handling.report.seq = handling'.report.seq →
      handling.report.rowDelta = handling'.report.rowDelta ∧
        handling.report.memSize = handling'.report.memSize

instance decidableAgreeing : Decidable (Agreeing id log) :=
  decidable_of_iff ((∀ handling ∈ log, handling.report.segment = id →
      handling.report.seq < 0xFFFFFFFFFFFFFFFF) ∧
    ∀ handling ∈ log, ∀ handling' ∈ log, handling.report.segment = id →
      handling'.report.segment = id → handling.report.seq = handling'.report.seq →
        handling.report.rowDelta = handling'.report.rowDelta ∧
          handling.report.memSize = handling'.report.memSize)
    ⟨fun ⟨h, h'⟩ => ⟨h, h'⟩, fun ⟨h, h'⟩ => ⟨h, h'⟩⟩

theorem Agreeing.of_append (h : Agreeing id (log ++ log')) : Agreeing id log where
  below handling hmem := h.below handling (List.mem_append_left _ hmem)
  same handling hmem handling' hmem' :=
    h.same handling (List.mem_append_left _ hmem) handling' (List.mem_append_left _ hmem')

theorem Agreeing.distinct (h : Agreeing id log) : Segment.Distinct (reportsOn id log) where
  numbered report hmem := (mem_reportsOn.1 hmem).2.2
  below report hmem := by
    obtain ⟨⟨handling, hhandling, rfl⟩, hon, _⟩ := mem_reportsOn.1 hmem
    exact h.below handling hhandling hon
  injective report hmem report' hmem' hseq := by
    obtain ⟨⟨handling, hhandling, rfl⟩, hon, _⟩ := mem_reportsOn.1 hmem
    obtain ⟨⟨handling', hhandling', rfl⟩, hon', _⟩ := mem_reportsOn.1 hmem'
    obtain ⟨hrows, hsize⟩ := h.same handling hhandling handling' hhandling' hon hon' hseq
    cases hreport : handling.report
    cases hreport' : handling'.report
    simp_all

theorem reportsOn_concat (id : SegmentId) (log : List Handling) (handling : Handling) :
    reportsOn id (log ++ [handling]) =
      if handling.report.segment = id ∧ 0 < handling.report.seq
      then insert handling.report (reportsOn id log) else reportsOn id log := by
  rw [reportsOn, List.map_append, List.filter_append, List.toFinset_append, List.map_singleton,
    List.filter_singleton, Finset.union_comm]
  by_cases hon : handling.report.segment = id ∧ 0 < handling.report.seq
  · rw [if_pos hon, decide_eq_true hon]
    rfl
  · rw [if_neg hon, decide_eq_false hon]
    exact Finset.empty_union _

/--
Of the reports on a segment the first of each number, from 1 up, has been applied, and
all others were duplicates.
-/
def Answered (id : SegmentId) (log : List Handling) : Prop :=
  ∀ before handling after, log = before ++ handling :: after → handling.report.segment = id →
    handling.answer = .ok (if 0 < handling.report.seq ∧ ∀ earlier ∈ before,
        earlier.report.segment = id → earlier.report.seq ≠ handling.report.seq
      then .applied else .duplicate)

/-- The ledger has the numbers of the reports that have been handled, and 0. -/
theorem contains_iff_not_first (hcounts : base.Counts (reportsOn id log) segment)
    (hagree : Agreeing id log) {seq : UInt64} : segment.ledger.contains seq = true ↔
      ¬ (0 < seq ∧ ∀ earlier ∈ log, earlier.report.segment = id → earlier.report.seq ≠ seq) := by
  rw [hcounts.contains_iff hagree.distinct]
  constructor
  · rintro (rfl | ⟨report, hmem, rfl⟩) ⟨hpos, hall⟩
    · exact UInt64.lt_irrefl 0 hpos
    · obtain ⟨⟨handling, hlog, rfl⟩, hon, _⟩ := mem_reportsOn.1 hmem
      exact hall handling hlog hon rfl
  · intro hnot
    by_cases hzero : seq = 0
    · exact .inl hzero
    · have hpos := UInt64.pos_iff_ne_zero.2 hzero
      refine .inr (not_not.1 fun hno => hnot ⟨hpos, fun earlier hmem hon heq => hno ?_⟩)
      exact ⟨earlier.report, mem_reportsOn.2 ⟨⟨earlier, hmem, rfl⟩, hon, heq ▸ hpos⟩, heq⟩

theorem answered_nil : Answered id [] := fun _ _ _ heq => by simp at heq

theorem Answered.concat (h : Answered id log) (hlast : handling.report.segment = id →
    handling.answer = .ok (if 0 < handling.report.seq ∧ ∀ earlier ∈ log,
        earlier.report.segment = id → earlier.report.seq ≠ handling.report.seq
      then .applied else .duplicate)) : Answered id (log ++ [handling]) := by
  intro before handling' after heq hon
  rcases List.eq_nil_or_concat after with rfl | ⟨after, last, rfl⟩
  · obtain ⟨rfl, hsame⟩ := List.append_inj' heq rfl
    cases hsame
    exact hlast hon
  · rw [List.concat_eq_append, ← List.cons_append, ← List.append_assoc] at heq
    obtain ⟨rfl, -⟩ := List.append_inj' heq rfl
    exact h before handling' after rfl hon

/-- The statistics of a segment are those of the reports in a log, which have been answered. -/
structure Tallies (id : SegmentId) (base : Segment) (log : List Handling) (a : Allocator) : Prop where
  counts : ∃ segment, a.segments.get? id = some segment ∧ base.Counts (reportsOn id log) segment
  answered : Answered id log

theorem Tallies.of_same (h : Tallies id base log a) (hsame : ∀ segment, a.segments.get? id = some segment →
    ∃ segment', b.segments.get? id = some segment' ∧ segment.SameStatistics segment') :
    Tallies id base log b := by
  obtain ⟨segment, hget, hcounts⟩ := h.counts
  obtain ⟨segment', hget', hsame⟩ := hsame segment hget
  exact ⟨⟨segment', hget', hcounts.of_same hsame⟩, h.answered⟩

/-- One more report is answered as it should be, and counts if it is a new one. -/
theorem Tallies.handle (h : Tallies id base log a) (hsound : a.Sound)
    (hagree : Agreeing id (log ++ [⟨a, report⟩]))
    (hcurrent : report.segment = id → Handling.Current ⟨a, report⟩) :
    Tallies id base (log ++ [⟨a, report⟩]) ((handleReport report).attempt a).2 := by
  obtain ⟨segment, hget, hcounts⟩ := h.counts
  have hreports := reportsOn_concat id log ⟨a, report⟩
  by_cases hon : report.segment = id
  · subst hon
    obtain ⟨hwritable, hunflushed⟩ := hcurrent rfl
    have hcontains := @contains_iff_not_first _ _ _ _ hcounts hagree.of_append report.seq
    have hafter : ∃ segment', segment.after? report = some segment' ∧
        base.Counts (reportsOn report.segment (log ++ [⟨a, report⟩])) segment' := by
      by_cases hpos : 0 < report.seq
      · rw [if_pos ⟨rfl, hpos⟩] at hreports
        rw [hreports]
        exact hcounts.after (hreports ▸ hagree.distinct)
      · rw [if_neg fun hboth => hpos hboth.2] at hreports
        have hzero := hcontains.2 fun hfirst => hpos hfirst.1
        exact ⟨segment, Segment.after?_of_contains hzero, hreports ▸ hcounts⟩
    obtain ⟨segment', hafter, hcounts'⟩ := hafter
    obtain ⟨_, hanswer, rfl, hstored⟩ := (ensures_handleReport_current hsound hwritable hget
      (hunflushed segment hget) hafter).attempt_done
    refine ⟨⟨segment', hstored, hcounts'⟩, h.answered.concat fun _ => ?_⟩
    rw [Handling.answer, hanswer, if_congr hcontains rfl rfl, ite_not]
  · rw [if_neg fun hboth => hon hboth.1] at hreports
    have hother := (ensures_handleReport_other hsound (Ne.symm hon)).attempt_snd
    exact ⟨⟨segment, hother.trans hget, hreports ▸ hcounts⟩, h.answered.concat fun h => absurd h hon⟩

theorem Tallies.handleAll (reports : List Report) (h : Tallies id base log a) (hsound : a.Sound)
    (hagree : Agreeing id (log ++ handlings reports a))
    (hcurrent : ∀ handling ∈ handlings reports a, handling.report.segment = id → handling.Current) :
    (handleAll reports a).Sound ∧
      Tallies id base (log ++ handlings reports a) (handleAll reports a) := by
  induction reports generalizing a log with
  | nil => exact ⟨hsound, by simpa [handlings, Allocator.handleAll] using h⟩
  | cons report reports ih =>
    rw [handlings, List.append_cons] at hagree
    obtain ⟨hfirst, hrest⟩ := List.forall_mem_cons.1 hcurrent
    have hnext := h.handle hsound hagree.of_append hfirst
    have hsound' := hsound.handleReport report
    rw [handlings, List.append_cons, Allocator.handleAll]
    split at hagree
    · rename_i hoverflows
      rw [if_pos hoverflows, if_pos hoverflows, List.append_nil]
      exact ⟨hsound', hnext⟩
    · rename_i hoverflows
      rw [if_neg hoverflows] at hrest
      rw [if_neg hoverflows, if_neg hoverflows]
      exact ih hnext hsound' hagree hrest

/-- A segment without statistics has those of no reports. -/
theorem tallies_nil (hget : a.segments.get? id = some segment) (hrows : segment.numRows = 0)
    (hledger : segment.ledger = {}) : Tallies id segment [] a :=
  ⟨⟨segment, hget, Segment.counts_empty hrows hledger⟩, answered_nil⟩

theorem Tallies.evolved (h : Tallies id base log a)
    (hevolved : a.Evolved (fun write => write.isReport = false) b) : Tallies id base log b := by
  obtain ⟨writes, hevolves, hno⟩ := hevolved
  exact h.of_same fun _ hget => hevolves.history.sameStatistics hno hget

theorem Tallies.of_segments_eq (h : Tallies id base log a) (heq : b.segments = a.segments) :
    Tallies id base log b :=
  h.of_same fun segment hget => ⟨segment, heq ▸ hget, .refl segment⟩

end

end IngestCoordinator.Allocator
