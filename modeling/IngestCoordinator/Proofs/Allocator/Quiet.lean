-- SUMMARY: Every operation of the allocator but the grant is quiet.
import IngestCoordinator.Proofs.Allocator.Writing

/-!
# Quiet operations

Opening, sealing, recovery and reports change segments by the steps of their life
and grant nothing, wherever they stop. Only a granting request that is answered
makes a grant, and it makes the one that it answers.
-/

namespace IngestCoordinator.Allocator

open Operation

variable {bound : Timestamp}

theorem noGrant_supersede (id : SegmentId) : NoGrant (.change id .supersede) := rfl

theorem noGrant_sealAt (time : Timestamp) (id : SegmentId) : NoGrant (.change id (.sealAt time)) :=
  rfl

theorem quietly_supersede (id : SegmentId) : Quietly bound (supersede id) :=
  (writes_supersede (noGrant_supersede id)).quietly

theorem quietly_sealSegment (id : SegmentId) {time : Timestamp} (h : time ≤ bound) :
    Quietly bound (sealSegment id time) :=
  (writes_sealSegment (noGrant_sealAt time id) h).quietly

theorem quietly_retireTarget (key : SegmentKey) : Quietly bound (retireTarget key) :=
  (writes_retireTarget noGrant_supersede key).quietly

theorem quietly_openSegment (segment : Segment) : Quietly bound (openSegment segment) :=
  (writes_openSegment noGrant_supersede segment rfl).quietly

theorem quietly_sealOrDefer (key : SegmentKey) (id : SegmentId) (watermark : Timestamp) :
    Quietly watermark (sealOrDefer key id watermark) :=
  (writes_sealOrDefer noGrant_supersede (noGrant_sealAt watermark) key id).quietly

theorem quietStep_sealEach (key : SegmentKey) (watermark : Timestamp) (ids : List SegmentId) :
    QuietStep watermark (sealEach key watermark ids) :=
  (writes_sealEach noGrant_supersede (noGrant_sealAt watermark) key ids).quietStep

theorem quietStep_sealKeys (watermark : Timestamp) (keys : List SegmentKey) :
    QuietStep watermark (sealKeys watermark keys) :=
  (writes_sealKeys noGrant_supersede (noGrant_sealAt watermark) keys).quietStep

theorem quiet_sealAll (collection : CollectionId) (a : Allocator) :
    a.Quiet (sealAll collection a).2 :=
  quietStep_sealKeys a.watermark _ a (UInt64.le_refl _)

theorem quietly_retireIfFull (key : SegmentKey) (target : SegmentId) :
    Quietly bound (retireIfFull key target) :=
  (writes_retireIfFull noGrant_supersede key target).quietly

theorem quietly_sealReadyOf (key : SegmentKey) (watermark : Timestamp) :
    Quietly watermark (sealReadyOf key watermark) :=
  (writes_sealReadyOf noGrant_supersede (noGrant_sealAt watermark) key).quietly

theorem quiet_sealReady (watermark : Timestamp) (a : Allocator) :
    a.Quiet (sealReady watermark a).2 :=
  (evolved_sealReady noGrant_supersede watermark (noGrant_sealAt _)).quiet

theorem quietly_recover : Quietly bound recover := fun _ _ =>
  (ensures_recover_evolved noGrant_supersede).imp (fun _ _ hb => hb.quiet)
    fun _ _ hb => hb.evolved.quiet

theorem quietStep_handleBatch? (reports : List Report) : QuietStep bound (handleBatch? reports) :=
  StepWrites.quietStep (writes_handleBatch? (fun _ _ _ _ => rfl) reports)

theorem quietly_handleFlushCompleted (completed : FlushCompleted) :
    Quietly bound (handleFlushCompleted completed) :=
  Writes.quietly (writes_handleFlushCompleted completed rfl)

end IngestCoordinator.Allocator
