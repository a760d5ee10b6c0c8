-- SUMMARY: The requests of a coordinator that write segments and do nothing else.
import IngestCoordinator.Coordinator.Assignment
import IngestCoordinator.Coordinator.Background
import IngestCoordinator.Coordinator.Collections
import IngestCoordinator.Proofs.Allocator.Granting
import IngestCoordinator.Proofs.Allocator.Runs
import IngestCoordinator.Proofs.Allocator.Writing
import IngestCoordinator.Proofs.Channels
import IngestCoordinator.Proofs.Coordinator.Answers

/-!
# Requests that write segments

To answer a request for rows, and to apply what nodes report, segments are written
one after another; nodes, barrier and channels stay as they are. Each segment that
is added belongs to a group of its collection, and only segments that the request
has added itself begin to grow.
-/

namespace IngestCoordinator.Coordinator

open Operation

variable {α : Type} {kind : Write → Prop} {base c d e : Coordinator}

/-- Segments have been written in ways of one kind, and nodes and channels are as they were. -/
structure Wrote (kind : Write → Prop) (c d : Coordinator) : Prop where
  allocator : c.allocator.Wrote kind d.allocator
  cluster : d.cluster = c.cluster
  barrier : d.barrier = c.barrier
  channels : d.channels = c.channels

theorem Wrote.of_eq (hallocator : d.allocator = c.allocator) (hcluster : d.cluster = c.cluster)
    (hbarrier : d.barrier = c.barrier) (hchannels : d.channels = c.channels) : c.Wrote kind d :=
  ⟨hallocator ▸ .refl _, hcluster, hbarrier, hchannels⟩

theorem Wrote.refl (c : Coordinator) : c.Wrote kind c :=
  .of_eq rfl rfl rfl rfl

theorem Wrote.trans (h : c.Wrote kind d) (h' : d.Wrote kind e) : c.Wrote kind e :=
  ⟨h.allocator.trans h'.allocator, h'.cluster.trans h.cluster, h'.barrier.trans h.barrier,
    h'.channels.trans h.channels⟩

theorem Wrote.of_allocator {b : Allocator} (h : c.allocator.Wrote kind b) :
    c.Wrote kind { c with allocator := b } :=
  ⟨h, rfl, rfl, rfl⟩

theorem Wrote.sound (h : c.Wrote kind d) (hsound : c.allocator.Sound) : d.allocator.Sound := by
  obtain ⟨writes, hevolves, _⟩ := h.allocator.evolved
  exact (hevolves.extends hsound).sound

/-- What is absent after some writes was absent before them. -/
theorem Wrote.absent (h : c.Wrote kind d) {id : SegmentId}
    (habsent : d.allocator.segments.get? id = none) : c.allocator.segments.get? id = none := by
  obtain ⟨writes, hevolves, _⟩ := h.allocator.evolved
  cases hget : c.allocator.segments.get? id with
  | none => rfl
  | some segment =>
    obtain ⟨_, hget', _⟩ := hevolves.history.key_eq hget
    cases habsent.symm.trans hget'

theorem preserves_onAllocator {call : Operation Allocator α} (h : Allocator.Writes 0 kind call) :
    Preserves (base.Wrote kind) (onAllocator call) := fun c hc => by
  rw [onAllocator, ensures_onPart]
  exact (h c.allocator UInt64.zero_le).imp (fun _ _ hb => hc.trans (.of_allocator hb))
    fun _ _ hb => hc.trans (.of_allocator hb)

theorem wrote_stepAllocator {step : StateM Allocator α} (h : Allocator.StepWrites 0 kind step) :
    c.Wrote kind (stepAllocator step c).2 :=
  .of_allocator (h c.allocator UInt64.zero_le)

theorem preserves_requireCollection (id : CollectionId) :
    Preserves (base.Wrote kind) (requireCollection id) := by
  refine Preserves.get.bind fun c => (Preserves.ofExcept _).bind fun found => ?_
  cases found with
  | none => exact .throw _
  | some collection => exact .pure _

theorem preserves_addCollection (collection : Collection) :
    Preserves (base.Wrote kind) (addCollection collection) :=
  preserves_onAllocator
    (Allocator.writes_onStore fun _ => GuardedStore.ensures_addCollection collection)

/-! ## Requests for rows -/

section

variable (hsound : base.allocator.Sound)
  (hadd : ∀ segment, base.channels.Names segment.collection segment.group → kind (.add segment))
  (hgrow : ∀ id, base.allocator.segments.get? id = none → kind (.change id .grow))
  (hgrant : ∀ grant, kind (Allocator.writeOf grant))
  (hsupersede : ∀ id, kind (.change id .supersede))

include hadd hgrow hsupersede in
/-- A segment of a known group is opened if none of its number had been stored. -/
theorem preserves_addSegment_openSegment {segment : Segment} (hfresh : segment.IsFresh)
    (hnames : base.channels.Names segment.collection segment.group) :
    Preserves (base.Wrote kind) (do
      onAllocator (Allocator.onStore (GuardedStore.addSegment segment))
      onAllocator (Allocator.openSegment segment)) := fun c hc => by
  have habsent := Allocator.ensures_addSegment_absent (a := c.allocator) segment
  have hadded := (Allocator.writes_addSegment hfresh (hadd segment hnames)) c.allocator
    (UInt64.le_refl _)
  simp only [ensures_bind, onAllocator, ensures_onPart]
  refine (hadded.and habsent).imp (fun _ b hb => ?_) fun _ b hb => hc.trans (.of_allocator hb.1)
  have hbase := hc.trans (.of_allocator hb.1)
  have hgrows := hgrow segment.id (hc.absent hb.2)
  have hopened := Allocator.writes_openSegment hsupersede segment hgrows b (UInt64.le_refl _)
  exact hopened.imp (fun _ _ hopened => hbase.trans (.of_allocator hopened))
    fun _ _ hopened => hbase.trans (.of_allocator hopened)

include hsound in
theorem preserves_openTarget? (key : SegmentKey) :
    Preserves (base.Wrote kind) (onAllocator (Allocator.openTarget? key)) := fun c hc => by
  rw [onAllocator, ensures_onPart]
  exact (Allocator.ensures_openTarget? key (hc.sound hsound).truthful).imp
    (fun _ _ hb => hb.1.symm ▸ hc) fun _ _ hb => hb.elim

include hsound hadd hgrow hsupersede in
theorem preserves_openSegment (key : SegmentKey) : Preserves (base.Wrote kind) (openSegment key) := by
  refine (preserves_openTarget? hsound key).bind fun target => ?_
  cases target with
  | some target => exact fun c h => h
  | none =>
    refine (preserves_requireCollection key.collection).bind fun collection => ?_
    dsimp only
    split
    · exact fun c h => h
    · intro c hc
      rw [ensures_bind, ensures_get, ensures_bind, ensures_ofExcept]
      refine ⟨fun group hgroup => ?_, fun _ _ => hc⟩
      have hnames : base.channels.Names key.collection group.name :=
        hc.channels ▸ Channels.names_of_groupOf hgroup
      refine ((Preserves.ofExcept _).bind fun width => ?_) c hc
      refine (preserves_onAllocator (Allocator.writes_onIds _)).bind fun id => ?_
      refine (preserves_onAllocator (Allocator.writes_onIds _)).bind fun openTime => ?_
      exact preserves_addSegment_openSegment hadd hgrow hsupersede rfl hnames

include hsound hgrant in
theorem preserves_alloc (key : SegmentKey) (wanted : UInt64) :
    Preserves (base.Wrote kind) (onAllocator (Allocator.alloc key wanted)) := fun c hc => by
  have hsound' := hc.sound hsound
  rw [onAllocator, ensures_onPart]
  exact (Allocator.ensures_alloc_granted key wanted hsound'.truthful hsound'.coherent).imp
    (fun grant _ hb => hc.trans (.of_allocator (hb.wrote (hgrant grant))))
    fun _ _ hb => hc.trans (.of_allocator hb)

include hsound hadd hgrow hgrant hsupersede

theorem preserves_assignOne (request : RowRequest) (opens : Nat) :
    Preserves (base.Wrote kind) (assignOne request opens) := by
  induction opens with
  | zero => exact preserves_alloc hsound hgrant request.key request.count
  | succ opens ih =>
    refine (preserves_alloc hsound hgrant request.key request.count).ofAttempt.bind fun answer => ?_
    split
    · exact .pure _
    · refine (preserves_openSegment hsound hadd hgrow hsupersede request.key).ofAttempt.bind
        fun opened => ?_
      split
      · exact ih
      · exact ih
      · exact .throw _
    · exact .throw _

theorem wrote_assign (requests : List RowRequest) (h : base.Wrote kind c) :
    base.Wrote kind (assign requests c).2 := by
  induction requests generalizing c with
  | nil => exact h
  | cons request requests ih =>
    have hcounted : base.Wrote kind (assignCounted request c).2 := by
      have hone := preserves_assignOne hsound hadd hgrow hgrant hsupersede request
        c.settings.segment.maxOpenAttempts.toNat c h
      rcases assignCounted_cases hone with ⟨grant, d, hcounted, hd⟩ | ⟨error, d, hcounted, hd⟩
      · rw [hcounted]
        exact hd
      · rw [hcounted]
        exact hd.trans (.of_eq rfl rfl rfl rfl)
    simp only [assign, step_bind]
    exact ih hcounted

end

/-! ## Reports -/

theorem wrote_readStatistics
    (hreport : ∀ id seq rowDelta memSize, kind (.change id (.report seq rowDelta memSize))) :
    c.Wrote kind c.readStatistics :=
  keeps_readStatistics (p := c.Wrote kind) (fun _ _ h => h.trans (.of_eq rfl rfl rfl rfl))
    (fun reports _ h =>
      h.trans (wrote_stepAllocator (Allocator.writes_handleBatch? hreport reports)))
    (.refl c)

theorem wrote_readFlushes (hflush : ∀ id time, kind (.change id (.flush time))) :
    c.Wrote kind c.readFlushes :=
  List.foldlRecOn (motive := c.Wrote kind) _ _ (.of_eq rfl rfl rfl rfl) fun _ h completed _ =>
    h.trans (wrote_stepAllocator
      (Allocator.writes_handleFlushCompleted completed (hflush _ _)).attempt)

end IngestCoordinator.Coordinator
