-- SUMMARY: Which writes of segments each operation of the allocator makes.
import IngestCoordinator.Allocator.Grant
import IngestCoordinator.Allocator.Recovery
import IngestCoordinator.Allocator.Reports
import IngestCoordinator.Allocator.Sealing
import IngestCoordinator.Proofs.Allocator.Evolution

/-!
# Writing

Every operation but the grant is a sequence of writes of known kinds, wherever it
stops. Opening grows one segment, sealing seals, a completed flush flushes, a report
is applied; all but the last two may supersede segments on the way. Anything that
none of these kinds does, the operation does not do.
-/

namespace IngestCoordinator.Allocator

open Operation

variable {bound : Timestamp} {kind : Write → Prop} {a : Allocator}

theorem writes_supersede {id : SegmentId} (h : kind (.change id .supersede)) :
    Writes bound kind (supersede id) :=
  writes_update id .supersede rfl (fun _ heq => nomatch heq) h

theorem writes_sealSegment {id : SegmentId} {time : Timestamp} (h : kind (.change id (.sealAt time)))
    (htime : time ≤ bound) : Writes bound kind (sealSegment id time) := by
  refine (writes_update id (.sealAt time) rfl (fun _ heq => ?_) h).bind fun segment => ?_
  · cases heq
    exact htime
  · exact (writes_count _).bind fun _ => .pure segment

section

variable (hsupersede : ∀ id, kind (.change id .supersede))

include hsupersede

/-! ## Opening -/

theorem writes_retireTarget (key : SegmentKey) : Writes bound kind (retireTarget key) := by
  refine Writes.get.bind fun a => ?_
  split
  · exact .pure ()
  · refine (writes_segment? _).bind fun found => ?_
    dsimp only
    cases found with
    | none => exact writes_reindex _
    | some segment =>
      dsimp only
      split
      · exact (Writes.throw _).bind fun _ => by
          split
          · exact (writes_supersede (hsupersede _)).bind fun _ => writes_reindex _
          · exact writes_reindex _
      · split
        · exact (writes_supersede (hsupersede _)).bind fun _ => writes_reindex _
        · exact writes_reindex _

theorem writes_openSegment (segment : Segment) (hgrow : kind (.change segment.id .grow)) :
    Writes bound kind (openSegment segment) := by
  refine (writes_segment? _).bind fun found => ?_
  cases found with
  | none => exact .throw _
  | some stored =>
    dsimp only
    split
    · exact .throw _
    · refine (writes_retireTarget hsupersede _).bind fun _ => ?_
      refine (writes_update _ .grow rfl (fun _ h => nomatch h) hgrow).bind fun opened => ?_
      exact (writes_reindex _).bind fun _ => (writes_count _).bind fun _ => .pure opened

/-! ## Sealing -/

theorem writes_retireIfFull (key : SegmentKey) (target : SegmentId) :
    Writes bound kind (retireIfFull key target) := by
  refine (writes_segment? _).bind fun found => ?_
  split
  · exact writes_reindex _
  · refine Writes.get.bind fun a => ?_
    dsimp only
    split
    · split
      · exact (writes_supersede (hsupersede _)).bind fun _ => writes_reindex _
      · exact writes_reindex _
    · exact .pure _

omit hsupersede in
theorem writes_prune (key : SegmentKey) : StepWrites bound kind
    (modify fun a : Allocator => { a with index := a.index.prune key }) :=
  .modify fun _ => .of_eq rfl rfl

section

variable {watermark : Timestamp} (hseal : ∀ id, kind (.change id (.sealAt watermark)))

include hseal

theorem writes_sealOrDefer (key : SegmentKey) (id : SegmentId) :
    Writes watermark kind (sealOrDefer key id watermark) := by
  refine (writes_segment? _).bind fun found => ?_
  split
  · exact (writes_reindex _).bind fun _ => .pure _
  · split
    · exact (writes_sealSegment (hseal _) (UInt64.le_refl _)).bind fun _ =>
        (writes_reindex _).bind fun _ => .pure _
    · split
      · exact (writes_supersede (hsupersede _)).bind fun _ =>
          (writes_reindex _).bind fun _ => .pure _
      · exact (writes_reindex _).bind fun _ => .pure _

theorem writes_sealEach (key : SegmentKey) (ids : List SegmentId) :
    StepWrites watermark kind (sealEach key watermark ids) := by
  induction ids with
  | nil => exact .pure _
  | cons id ids ih =>
    refine (writes_sealOrDefer hsupersede hseal key id).attempt.bind fun step =>
      ih.bind fun rest => ?_
    split <;> exact .pure _

theorem writes_sealKeys (keys : List SegmentKey) :
    StepWrites watermark kind (sealKeys watermark keys) := by
  induction keys with
  | nil => exact .pure _
  | cons key keys ih =>
    refine StepWrites.get.bind fun a => ?_
    exact (writes_sealEach hsupersede hseal key _).bind fun _ =>
      (writes_prune key).bind fun _ => ih.bind fun _ => .pure _

omit hsupersede in
theorem writes_sealRetired (key : SegmentKey) (ids : List SegmentId) :
    Writes watermark kind (sealRetired key watermark ids) := by
  induction ids with
  | nil => exact .pure _
  | cons id ids ih =>
    refine (writes_segment? _).bind fun found => ?_
    split
    · exact (writes_reindex _).bind fun _ => ih
    · split
      · refine (Writes.ofStep (writes_sealSegment (hseal id) (UInt64.le_refl _)).attempt).bind
          fun sealed => ?_
        cases sealed with
        | ok segment => exact (writes_reindex _).bind fun _ => ih.bind fun _ => .pure _
        | error e => exact ih
      · exact ih

theorem writes_sealReadyOf (key : SegmentKey) :
    Writes watermark kind (sealReadyOf key watermark) := by
  refine Writes.get.bind fun a => ?_
  dsimp only
  split
  · exact Writes.get.bind fun _ => writes_sealRetired hseal _ _
  · refine (writes_retireIfFull hsupersede key _).bind fun _ => ?_
    exact Writes.get.bind fun _ => writes_sealRetired hseal _ _

theorem writes_sealReadyKeys (keys : List SegmentKey) :
    StepWrites watermark kind (sealReadyKeys watermark keys) := by
  induction keys with
  | nil => exact .pure _
  | cons key keys ih =>
    refine (writes_sealReadyOf hsupersede hseal key).attempt.bind fun sealed => ?_
    refine (writes_prune key).bind fun _ => ih.bind fun _ => ?_
    split <;> exact .pure _

end

theorem wrote_sealAll (collection : CollectionId)
    (hseal : ∀ id, kind (.change id (.sealAt a.watermark))) :
    a.Wrote kind (sealAll collection a).2 :=
  writes_sealKeys hsupersede hseal _ a (UInt64.le_refl _)

/-- The background duty first moves the watermark, and then seals no later than that. -/
theorem wrote_sealReady (watermark : Timestamp)
    (hseal : ∀ id, kind (.change id (.sealAt (max a.watermark watermark)))) :
    Wrote kind { a with watermark := max a.watermark watermark } (sealReady watermark a).2 :=
  writes_sealReadyKeys hsupersede hseal _ { a with watermark := max a.watermark watermark }
    (UInt64.le_refl _)

theorem evolved_sealReady (watermark : Timestamp)
    (hseal : ∀ id, kind (.change id (.sealAt (max a.watermark watermark)))) :
    a.Evolved kind (sealReady watermark a).2 := by
  have hraise : a.Evolved kind { a with watermark := max a.watermark watermark } :=
    .of_eq rfl (Word.le_max_left ..)
  exact hraise.trans (wrote_sealReady hsupersede watermark hseal).evolved

/-! ## Recovery -/

theorem writes_retireEach (entry : KeyEntry) (group : List Segment) :
    Writes bound kind (retireEach entry group) := by
  induction group generalizing entry with
  | nil => exact .pure _
  | cons segment rest ih =>
    rw [retireEach]
    split
    · exact ih entry
    · dsimp only
      split
      · exact (writes_supersede (hsupersede _)).bind fun _ => ih _
      · exact ih _

theorem writes_repair (groups : List (SegmentKey × List Segment)) :
    Writes bound kind (repair groups) := by
  induction groups with
  | nil => exact .pure _
  | cons group rest ih =>
    exact (writes_retireEach hsupersede _ _).bind fun _ => ih.bind fun _ => .pure _

/-- Recovery only supersedes; it moves the watermark once that is done. -/
theorem ensures_recover_evolved : Ensures recover a (fun _ b => a.Evolved kind b)
    (fun _ b => a.Wrote kind b) := by
  rw [recover, ensures_bind, ensures_get, ensures_bind, ensures_ofExcept]
  refine ⟨fun segments _ => ?_, fun _ _ => .refl a⟩
  rw [ensures_bind]
  refine (writes_repair hsupersede _ a (UInt64.le_refl _)).imp (fun index b hb => ?_)
    fun _ _ hb => hb
  exact hb.evolved.trans (.of_eq rfl (Word.le_max_left ..))

end

/-! ## Reports -/

theorem writes_dropReport (outcome : ReportOutcome) : Writes bound kind (dropReport outcome) :=
  (writes_count _).bind fun _ => .pure _

/-- What handling a report preserves, handling a batch does, wherever an overflow ends it. -/
theorem stepPreserves_handleBatch? {p : Allocator → Prop}
    (h : ∀ report, StepPreserves p (handleReport report).attempt) (reports : List Report) :
    StepPreserves p (handleBatch? reports) := by
  induction reports with
  | nil => exact .pure _
  | cons report reports ih =>
    refine (h report).bind fun outcome => ?_
    cases outcome with
    | ok outcome => exact ih.bind fun rest => .pure _
    | error e =>
      dsimp only
      split
      · exact .pure _
      · exact ih

section

variable (hreport : ∀ id seq rowDelta memSize, kind (.change id (.report seq rowDelta memSize)))

include hreport

theorem writes_handleReport (report : Report) : Writes bound kind (handleReport report) := by
  refine (writes_segment? _).bind fun found => ?_
  cases found with
  | none => exact writes_dropReport _
  | some segment =>
    refine Writes.get.bind fun a => ?_
    split
    · exact writes_dropReport _
    · split
      · exact writes_dropReport _
      · exact (writes_update _ (.report report.seq report.rowDelta report.memSize) rfl
          (fun _ h => nomatch h) (hreport ..)).bind fun _ => .pure _

theorem writes_handleBatch? (reports : List Report) :
    StepWrites bound kind (handleBatch? reports) := fun a hbound =>
  stepPreserves_handleBatch? (p := a.Wrote kind) (fun report _ hwrote =>
    hwrote.trans ((writes_handleReport hreport report).attempt _ (hwrote.watermark ▸ hbound)))
    reports a (.refl a)

end

theorem writes_handleFlushCompleted (completed : FlushCompleted)
    (hflush : kind (.change completed.segment (.flush completed.timestamp))) :
    Writes bound kind (handleFlushCompleted completed) := by
  refine (writes_segment? _).bind fun found => ?_
  cases found with
  | none => exact (writes_count _).bind fun _ => .pure _
  | some segment =>
    dsimp only
    split
    · exact .pure _
    · exact (writes_count _).bind fun _ => .pure _
    · exact (writes_count _).bind fun _ => .pure _
    · exact (writes_update _ (.flush completed.timestamp) rfl (fun _ h => nomatch h) hflush).bind
        fun _ => (writes_count _).bind fun _ => .pure _

end IngestCoordinator.Allocator
