-- SUMMARY: What reports make of a segment's statistics depends on the set of reports alone.
import IngestCoordinator.Message
import IngestCoordinator.Proofs.Segment.History
import IngestCoordinator.Proofs.Segment.Ledger
import Mathlib.Algebra.BigOperators.Group.Finset.Basic
import Mathlib.Data.Finset.Image
import Mathlib.Data.Finset.Max

/-!
# Statistics

A segment whose reports have been applied in some order, and some of them more than
once, has the rows of all of them together, the memory size of the one with the highest
number, and the ledger of the set of their numbers. Nothing but a report changes any
of these.
-/

namespace IngestCoordinator

variable {segment segment' base : Segment} {reports : Finset Report} {report report' : Report}

/-- Whether the write applies a report on statistics. -/
def Write.isReport : Write → Bool
  | .change _ (.report ..) => true
  | _ => false

namespace Segment

/-- The statistics of two segments are the same. -/
structure SameStatistics (segment segment' : Segment) : Prop where
  numRows : segment'.numRows = segment.numRows
  memSize : segment'.memSize = segment.memSize
  ledger : segment'.ledger = segment.ledger

theorem SameStatistics.refl (segment : Segment) : segment.SameStatistics segment :=
  ⟨rfl, rfl, rfl⟩

theorem SameStatistics.trans {a b c : Segment} (h : a.SameStatistics b) (h' : b.SameStatistics c) :
    a.SameStatistics c :=
  ⟨h'.numRows.trans h.numRows, h'.memSize.trans h.memSize, h'.ledger.trans h.ledger⟩

theorem SameStatistics.of_change {id : SegmentId} {change : Change}
    (hno : (Write.change id change).isReport = false) (happly : change.apply segment = .ok segment') :
    segment.SameStatistics segment' := by
  cases change with
  | report => cases hno
  | grow =>
    obtain ⟨_, rfl⟩ := grow_eq_ok_iff.1 happly
    exact ⟨rfl, rfl, rfl⟩
  | grant =>
    obtain ⟨_, _, rfl⟩ := grant_eq_ok_iff.1 happly
    exact ⟨rfl, rfl, rfl⟩
  | supersede =>
    rcases supersede_eq_ok_iff.1 happly with ⟨_, rfl⟩ | ⟨_, rfl⟩
    · exact ⟨rfl, rfl, rfl⟩
    · exact ⟨rfl, rfl, rfl⟩
  | sealAt =>
    rcases sealAt_eq_ok_iff.1 happly with ⟨_, rfl⟩ | ⟨_, _, rfl⟩
    · exact ⟨rfl, rfl, rfl⟩
    · exact ⟨rfl, rfl, rfl⟩
  | flush =>
    rcases flush_eq_ok_iff.1 happly with ⟨_, rfl⟩ | ⟨_, rfl⟩
    · exact ⟨rfl, rfl, rfl⟩
    · exact ⟨rfl, rfl, rfl⟩

end Segment

/-- Nothing but a report changes the statistics of a stored segment. -/
theorem History.sameStatistics {before after : Segments} {writes : List Write}
    (hhistory : History before writes after) (hno : ∀ write ∈ writes, write.isReport = false)
    {id : SegmentId} (hget : before.get? id = some segment) :
    ∃ segment', after.get? id = some segment' ∧ segment.SameStatistics segment' :=
  hhistory.keeps_of_mem (fun hmem _ _ happly h => h.trans (.of_change (hno _ hmem) happly))
    ⟨segment, hget, .refl segment⟩

namespace Segment

/-! ## One report after the other -/

/-- What a report makes of a segment. `none` if it overflows the ledger. -/
def after? (segment : Segment) (report : Report) : Option Segment :=
  (segment.applyReport? report.seq report.rowDelta report.memSize).map Prod.snd

theorem report_eq_ok_iff : segment.report report.seq report.rowDelta report.memSize = .ok segment' ↔
    segment.after? report = some segment' := by
  unfold Segment.report after?
  cases segment.applyReport? report.seq report.rowDelta report.memSize with
  | none => simp
  | some applied => simp

theorem after?_of_contains (h : segment.ledger.contains report.seq = true) :
    segment.after? report = some segment := by
  have hrecord : segment.ledger.record? report.seq = some (false, segment.ledger) := by
    rw [Ledger.record?, if_pos h]
  rw [after?, applyReport?, hrecord]
  rfl

theorem after?_of_not_contains {isNew : Bool} {ledger : Ledger}
    (h : segment.ledger.contains report.seq = false)
    (hrecord : segment.ledger.record? report.seq = some (isNew, ledger)) :
    segment.after? report = some { segment with
      numRows := Saturating.add segment.numRows report.rowDelta
      memSize := if segment.ledger.sizeSeq < report.seq then report.memSize else segment.memSize
      ledger := { ledger with sizeSeq := max segment.ledger.sizeSeq report.seq } } := by
  have hrecords := Ledger.records hrecord
  have hnew : isNew = true := by rw [hrecords.isNew, h]; rfl
  rw [after?, applyReport?, hrecord, hnew]
  refine congrArg some ?_
  dsimp only
  by_cases hlatest : segment.ledger.sizeSeq < report.seq
  · rw [if_pos hlatest, if_pos hlatest, Word.max_eq_right (UInt64.le_of_lt hlatest)]
  · rw [if_neg hlatest, if_neg hlatest, Word.max_eq_left (UInt64.not_lt.1 hlatest),
      ← hrecords.sizeSeq]

theorem id_of_after? (h : segment.after? report = some segment') : segment'.id = segment.id := by
  obtain ⟨_, _, _, rfl⟩ := report_eq_ok (report_eq_ok_iff.2 h)
  rfl

/-! ## All reports together -/

/--
The reports are numbered from 1 up and below the largest word, and each number is that of one
report only.
-/
structure Distinct (reports : Finset Report) : Prop where
  numbered : ∀ report ∈ reports, 0 < report.seq
  below : ∀ report ∈ reports, report.seq < 0xFFFFFFFFFFFFFFFF
  injective : ∀ report ∈ reports, ∀ report' ∈ reports, report.seq = report'.seq → report = report'

/-- The report is the one with the highest number. -/
structure Highest (reports : Finset Report) (report : Report) : Prop where
  mem : report ∈ reports
  le : ∀ other ∈ reports, other.seq ≤ report.seq

theorem Distinct.zero_notMem (h : Distinct reports) : 0 ∉ reports.image Report.seq := by
  intro hzero
  obtain ⟨report, hmem, heq⟩ := Finset.mem_image.1 hzero
  have hpos := h.numbered report hmem
  rw [heq] at hpos
  cases hpos

theorem Distinct.of_insert (h : Distinct (insert report reports)) : Distinct reports where
  numbered other hmem := h.numbered other (Finset.mem_insert_of_mem hmem)
  below other hmem := h.below other (Finset.mem_insert_of_mem hmem)
  injective other hmem other' hmem' :=
    h.injective other (Finset.mem_insert_of_mem hmem) other' (Finset.mem_insert_of_mem hmem')

theorem Distinct.eq_of_highest (h : Distinct reports) (hhighest : Highest reports report)
    (hhighest' : Highest reports report') : report = report' :=
  h.injective report hhighest.mem report' hhighest'.mem <|
    UInt64.le_antisymm (hhighest'.le report hhighest.mem) (hhighest.le report' hhighest'.mem)

/-- The statistics of a segment are those of some reports, and it had none before. -/
structure Counts (base : Segment) (reports : Finset Report) (segment : Segment) : Prop where
  /-- The sum of all rows, or the largest word if that is less. -/
  numRows : segment.numRows.toNat =
    min 0xFFFFFFFFFFFFFFFF (∑ report ∈ reports, report.rowDelta.toNat)
  /-- The memory size of the report with the highest number. -/
  memSize : ∀ report, Highest reports report → segment.memSize = report.memSize
  /-- The memory size from before, if there is no report. -/
  unsized : reports = ∅ → segment.memSize = base.memSize
  ledger : Ledger.ofSeqs? (reports.image Report.seq) = some segment.ledger

theorem counts_empty (hrows : base.numRows = 0) (hledger : base.ledger = {}) :
    base.Counts ∅ base where
  numRows := by
    rw [hrows]
    rfl
  memSize _ h := by cases h.mem
  unsized _ := rfl
  ledger := by rw [hledger, Finset.image_empty, Ledger.ofSeqs?_empty]

theorem Counts.of_same (h : base.Counts reports segment) (hsame : segment.SameStatistics segment') :
    base.Counts reports segment' where
  numRows := hsame.numRows ▸ h.numRows
  memSize := hsame.memSize ▸ h.memSize
  unsized := hsame.memSize ▸ h.unsized
  ledger := hsame.ledger ▸ h.ledger

/-- What the ledger contains is the number of a report, or no number at all. -/
theorem Counts.contains_iff (h : base.Counts reports segment) (hdistinct : Distinct reports)
    {seq : UInt64} : segment.ledger.contains seq = true ↔
      seq = 0 ∨ ∃ report ∈ reports, report.seq = seq := by
  rw [((Ledger.ofSeqs?_eq_some_iff hdistinct.zero_notMem).1 h.ledger).2.1, Finset.mem_image]

theorem Counts.sizeSeq (h : base.Counts reports segment) (hdistinct : Distinct reports) :
    (∀ report ∈ reports, report.seq ≤ segment.ledger.sizeSeq) ∧
      (segment.ledger.sizeSeq = 0 ∨ ∃ top ∈ reports, top.seq = segment.ledger.sizeSeq) := by
  obtain ⟨-, -, hsize⟩ := (Ledger.ofSeqs?_eq_some_iff hdistinct.zero_notMem).1 h.ledger
  obtain ⟨hbound, hmem⟩ := Ledger.highest_eq_iff.1 hsize.symm
  exact ⟨fun report hreport => hbound _ (Finset.mem_image_of_mem _ hreport),
    hmem.imp And.right Finset.mem_image.1⟩

/-- With one more report the memory size is still that of the highest one. -/
theorem Counts.memSize_insert (h : base.Counts reports segment)
    (hdistinct : Distinct (insert report reports)) (hhighest : Highest (insert report reports) report') :
    (if segment.ledger.sizeSeq < report.seq then report.memSize else segment.memSize) =
      report'.memSize := by
  obtain ⟨hbound, hlargest⟩ := h.sizeSeq hdistinct.of_insert
  have hself := Finset.mem_insert_self report reports
  split
  · rename_i hlatest
    have hnew : Highest (insert report reports) report := by
      refine ⟨hself, Finset.forall_mem_insert _ _ _ |>.2 ⟨UInt64.le_refl _, fun other hmem => ?_⟩⟩
      exact UInt64.le_of_lt (UInt64.lt_of_le_of_lt (hbound other hmem) hlatest)
    rw [hdistinct.eq_of_highest hhighest hnew]
  · rename_i hlatest
    have hle := UInt64.not_lt.1 hlatest
    have hpos := UInt64.lt_of_lt_of_le (hdistinct.numbered report hself) hle
    obtain ⟨top, htop, heq⟩ := hlargest.resolve_left (UInt64.pos_iff_ne_zero.1 hpos)
    have hbefore : Highest reports top := ⟨htop, fun other hmem => heq ▸ hbound other hmem⟩
    have hstill : Highest (insert report reports) top :=
      ⟨Finset.mem_insert_of_mem htop, Finset.forall_mem_insert _ _ _ |>.2 ⟨heq ▸ hle, hbefore.le⟩⟩
    rw [hdistinct.eq_of_highest hhighest hstill]
    exact h.memSize top hbefore

/-- With one more report the ledger does not overflow: it never has the largest word. -/
theorem Counts.exists_record? (h : base.Counts reports segment)
    (hdistinct : Distinct (insert report reports)) :
    ∃ isNew ledger, segment.ledger.record? report.seq = some (isNew, ledger) := by
  have hbelow := hdistinct.below report (Finset.mem_insert_self report reports)
  refine Ledger.exists_record? (UInt64.ne_of_lt hbelow).symm (Bool.eq_false_iff.2 fun hin => ?_)
  rcases (h.contains_iff hdistinct.of_insert).1 hin with hzero | ⟨other, hmem, hlast⟩
  · cases hzero
  · exact UInt64.ne_of_lt (hdistinct.of_insert.below other hmem) hlast

/-- A report counts once: it is added to the others if it is not among them. -/
theorem Counts.after (h : base.Counts reports segment) (hdistinct : Distinct (insert report reports)) :
    ∃ segment', segment.after? report = some segment' ∧
      base.Counts (insert report reports) segment' := by
  have hself := Finset.mem_insert_self report reports
  have hcontains : segment.ledger.contains report.seq = true ↔ report ∈ reports := by
    rw [h.contains_iff hdistinct.of_insert]
    refine ⟨fun hor => ?_, fun hmem => .inr ⟨report, hmem, rfl⟩⟩
    have hpos := UInt64.pos_iff_ne_zero.1 (hdistinct.numbered report hself)
    obtain ⟨other, hmem, heq⟩ := hor.resolve_left hpos
    exact hdistinct.injective other (Finset.mem_insert_of_mem hmem) report hself heq ▸ hmem
  by_cases hin : report ∈ reports
  · exact ⟨segment, after?_of_contains (hcontains.2 hin), by rwa [Finset.insert_eq_self.2 hin]⟩
  · obtain ⟨isNew, ledger, hrecord⟩ := h.exists_record? hdistinct
    have hout := Bool.eq_false_iff.2 fun htrue => hin (hcontains.1 htrue)
    refine ⟨_, after?_of_not_contains hout hrecord, ?_, fun other => h.memSize_insert hdistinct,
      fun hempty => absurd hempty (Finset.insert_ne_empty _ _), ?_⟩
    · rw [Saturating.toNat_add, h.numRows, Finset.sum_insert hin]
      omega
    · have hzero := hdistinct.zero_notMem
      rw [Finset.image_insert] at hzero ⊢
      exact Ledger.ofSeqs?_insert hzero h.ledger hrecord

/-- The reports determine the statistics. -/
theorem Counts.same (h : base.Counts reports segment) (h' : base.Counts reports segment') :
    segment.SameStatistics segment' where
  numRows := UInt64.toNat_inj.1 (h'.numRows.trans h.numRows.symm)
  memSize := by
    rcases reports.eq_empty_or_nonempty with hempty | hsome
    · rw [h.unsized hempty, h'.unsized hempty]
    · obtain ⟨top, htop, hall⟩ := reports.exists_max_image (fun report => report.seq.toNat) hsome
      have hhighest : Highest reports top :=
        ⟨htop, fun other hmem => UInt64.le_iff_toNat_le.2 (hall other hmem)⟩
      rw [h.memSize top hhighest, h'.memSize top hhighest]
  ledger := Option.some.inj (h'.ledger.symm.trans h.ledger)

end Segment

end IngestCoordinator
