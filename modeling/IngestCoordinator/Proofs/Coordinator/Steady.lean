-- SUMMARY: Every operation of a coordinator but the assignment of rows is steady.
import IngestCoordinator.Proofs.Allocator.Emptying
import IngestCoordinator.Proofs.Coordinator.Progress

/-!
# Steady operations

Registering and removing nodes, dividing channels, flushing, the background duties
and a start grant no rows. They keep the store sound wherever they stop, and ask
the nodes to flush only what has been sealed.
-/

namespace IngestCoordinator.Coordinator

open Operation

variable {c d : Coordinator} {log : List Allocator.Returned}

theorem ensures_requireCollection (id : CollectionId) :
    Ensures (requireCollection id) c (fun _ d => d = c) (fun _ d => d = c) := by
  rw [requireCollection, ensures_bind, ensures_get, ensures_bind, ensures_ofExcept]
  refine ⟨fun found _ => ?_, fun _ _ => rfl⟩
  cases found with
  | none => exact rfl
  | some collection => exact rfl

theorem steady_requireCollection (id : CollectionId) : Steady (requireCollection id) :=
  fun _ h => (ensures_requireCollection id).imp (fun _ _ heq => heq.symm ▸ .refl h)
    fun _ _ heq => heq.symm ▸ .refl h

/-! ## Nodes -/

theorem steady_askDdChannel : Steady askDdChannel := by
  refine Steady.get.bind fun c => ?_
  split
  · exact .pure _
  · refine (Steady.modify fun c h => ?_).bind fun _ => Steady.get.bind fun c =>
      (Steady.ofExcept _).bind fun channel => (Steady.modify fun c h => ?_).bind fun _ => .pure _
    · exact .of_eq h rfl fun _ hmem => hmem
    · exact .of_eq h rfl fun _ hmem => hmem

theorem steady_register (address : String) (node : NodeId) : Steady (register address node) := by
  refine steady_askDdChannel.bind fun channel => ?_
  refine (steady_onCluster fun cluster p hnames => ?_).bind fun registered => ?_
  · simp only [Cluster.register, Cluster.onRegistry, ensures_bind, ensures_get, ensures_onPart]
    refine .of_forall (fun registered _ => ?_) fun _ _ => hnames
    split
    · exact hnames
    · exact hnames
  · refine (Steady.modify fun c h => ?_).bind fun _ => Steady.get.bind fun c => .pure _
    exact .of_eq h rfl fun _ hmem => hmem

theorem steady_deregister (node : NodeId) : Steady (deregister node) := by
  refine (steady_onCluster fun cluster p hnames => ?_).bind fun info => .modify fun c h => ?_
  · simp only [Cluster.deregister, Cluster.onRegistry, ensures_bind, ensures_onPart]
    exact .of_forall (fun _ _ => hnames) fun _ _ => hnames
  · exact .of_eq h rfl fun _ hmem => hmem

theorem proceeds_deregisterEach (nodes : List NodeId) (h : c.Sound) :
    c.Proceeds [] (deregisterEach nodes c).2 := by
  induction nodes generalizing c with
  | nil => exact .refl h
  | cons node nodes ih =>
    have hfirst := (steady_deregister node).attempt h
    have hrest := ih hfirst.sound
    simp only [deregisterEach, step_bind]
    cases ((deregister node).attempt c).1 with
    | ok => exact hfirst.trans hrest
    | error e => exact hfirst.trans hrest

theorem proceeds_reap (h : c.Sound) : c.Proceeds [] (reap c).2 :=
  proceeds_deregisterEach _ h

/-! ## Collections -/

theorem steady_addCollection (collection : Collection) : Steady (addCollection collection) :=
  steady_onAllocator (Allocator.silent_addCollection collection)

theorem steady_watch (groups : List ChannelGroup) : Steady (onCluster (Cluster.watch groups)) := by
  refine steady_onCluster fun cluster p hnames => ?_
  simp only [Cluster.watch, Cluster.onRegistry, ensures_bind, ensures_onPart, ensures_modify,
    ensures_pure]
  refine .of_forall (fun done registry command hmem => ?_) fun _ _ => hnames
  rcases Cluster.mem_post hmem with hmem | hmem
  · exact hnames command hmem
  · obtain ⟨⟨record, groups⟩, _, rfl⟩ := List.mem_map.1 hmem
    exact List.forall_mem_nil _

/-- Flushing again asks only for segments that are stored as sealed. -/
theorem Proceeds.flushOrphans (collection : CollectionId) (h : c.Proceeds log d) :
    c.Proceeds log (flushOrphans collection d) := by
  unfold Coordinator.flushOrphans
  split
  · exact h
  · rename_i segments hsegments
    refine h.requestFlush fun segment hmem => ?_
    obtain ⟨hmem, horphan⟩ := List.mem_filter.1 hmem
    have hsealed : segment.state = .sealed := by
      simp only [isOrphan, Bool.and_eq_true, beq_iff_eq] at horphan
      exact horphan.1
    have hstored : segment ∈ d.allocator.store.metadata.segments := by
      unfold GuardedStore.segmentsOf at hsegments
      split at hsegments
      · cases hsegments
      · cases hsegments
        exact (List.mem_filter.1 hmem).1
    exact ⟨segment, (Allocator.mem_segments_iff h.sound.allocator.coherent.toNumbered).1 hstored,
      by rw [hsealed]; rfl⟩

theorem steady_insertChannels (collection : CollectionId) : Steady (insertChannels collection) := by
  refine (steady_requireCollection collection).bind fun _ => Steady.get.bind fun c => ?_
  refine (steady_onChannels _).bind fun allocated => Steady.get.bind fun c => ?_
  dsimp only
  split
  · refine (steady_watch _).bind fun _ => Steady.bind ?_ fun _ => .pure _
    exact .modify fun c h => (Proceeds.refl h).flushOrphans collection
  · exact .pure _

/-- The segments of a collection that grow. -/
def growing (c : Coordinator) (collection : CollectionId) : List SegmentId :=
  ((c.allocator.store.metadata.segmentsOf collection).filter fun segment =>
    segment.state == .growing).map Segment.id

/-- If flushing a collection answers that all is sealed, then all that grew is. -/
theorem ensures_flush (collection : CollectionId) (h : c.Sound) : Ensures (flush collection) c
    (fun outcome d => c.Proceeds [] d ∧ (outcome.allSealed = true →
      ∀ id ∈ c.growing collection, ClosedIn d.allocator.segments id))
    (fun _ d => c.Proceeds [] d) := by
  rw [flush, ensures_bind]
  refine (ensures_requireCollection collection).imp (fun _ d hd => ?_) fun _ d hd => hd.symm ▸ .refl h
  subst d
  simp only [ensures_bind, ensures_ofStep, ensures_modify, ensures_pure]
  have hrun := Allocator.run_request (a := c.allocator) (.sealAll collection)
    (Allocator.asStored_of_ne (by simp)) rfl
  refine ⟨(Proceeds.of_run h hrun).requestFlush
    (Allocator.closes_sealAll collection h.allocator.truthful).closed, fun hall id hmem => ?_⟩
  obtain ⟨segment, hsegment, rfl⟩ := List.mem_map.1 hmem
  obtain ⟨hin, hgrowing⟩ := List.mem_filter.1 hsegment
  obtain ⟨hstored, hcollection⟩ := List.mem_filter.1 hin
  exact Allocator.closed_sealAll_of_allSealed h.allocator collection hall
    ((Allocator.mem_segments_iff h.allocator.coherent.toNumbered).1 hstored) (by simpa using hcollection)
    (by simpa using hgrowing)

/-! ## Background duties -/

theorem proceeds_onWatermark (watermark : Timestamp) (h : c.Sound) :
    c.Proceeds [] (onWatermark watermark c).2 ∧
      Allocator.Closed (onWatermark watermark c).1 (onWatermark watermark c).2.allocator := by
  have hrun := Allocator.run_request (a := c.allocator) (.sealReady watermark)
    (Allocator.asStored_of_ne (by simp)) rfl
  have hclosed := (Allocator.closes_sealReady watermark h.allocator.truthful).closed
  have hflushed := (Proceeds.of_run h hrun).requestFlush hclosed
  have hcutoff := Allocator.run_request
    (a := (Allocator.sealReady watermark c.allocator).2) (.setCutoff watermark)
    (Allocator.asStored_of_ne (by simp)) rfl
  exact ⟨hflushed.trans (.of_run hflushed.sound hcutoff), hclosed⟩

theorem Proceeds.withPhase (h : c.Sound) (phase : Phase) : c.Proceeds [] { c with phase } :=
  .of_eq h rfl fun _ hmem => hmem

theorem proceeds_onTick (tick : TimeTick) (h : c.Sound) : c.Proceeds [] (c.onTick tick) :=
  .of_eq h rfl fun _ hmem => hmem

theorem proceeds_foldl {α : Type} {step : Coordinator → α → Coordinator}
    (hstep : ∀ (c : Coordinator) x, c.Sound → c.Proceeds [] (step c x)) (xs : List α)
    (h : c.Sound) : c.Proceeds [] (xs.foldl step c) := by
  induction xs generalizing c with
  | nil => exact .refl h
  | cons x xs ih => exact (hstep c x h).trans (ih (hstep c x h).sound)

theorem proceeds_readTimeTicks (h : c.Sound) : c.Proceeds [] c.readTimeTicks := by
  have hread : c.Proceeds [] { c with timeTicks := c.timeTicks.emptied } :=
    .of_eq h rfl fun _ hmem => hmem
  exact hread.trans (proceeds_foldl (fun _ tick h => proceeds_onTick tick h) _ hread.sound)

/-- What batches of reports keep, and the mailbox does not matter to, reading the reports keeps. -/
theorem keeps_readStatistics {p : Coordinator → Prop}
    (hmailbox : ∀ (c : Coordinator) statistics, p c → p { c with statistics })
    (hbatch : ∀ reports, StepPreserves p (stepAllocator (Allocator.handleBatch? reports)))
    (h : p c) : p c.readStatistics := by
  have hbatches (batches : List ReportBatch) : StepPreserves p (handleBatches batches) := by
    induction batches with
    | nil => exact .pure _
    | cons batch batches ih =>
      refine (hbatch batch.reports).bind fun outcomes => ?_
      cases outcomes with
      | none => exact .pure _
      | some outcomes => exact ih
  have hread := hbatches c.statistics.unread _ (hmailbox c c.statistics.emptied h)
  rw [readStatistics]
  generalize handleBatches c.statistics.unread _ = answered at hread ⊢
  obtain ⟨goesOn, d⟩ := answered
  cases goesOn with
  | true => exact hread
  | false => exact hmailbox _ _ hread

theorem proceeds_readStatistics (h : c.Sound) : c.Proceeds [] c.readStatistics := by
  refine keeps_readStatistics (p := c.Proceeds []) (fun d _ hd => ?_) (fun reports d hd => ?_)
    (.refl h)
  · exact hd.trans (.of_eq hd.sound rfl fun _ hmem => hmem)
  · exact hd.trans (.of_run hd.sound (Allocator.run_request (a := d.allocator) (.report reports)
      (Allocator.asStored_of_ne (by simp)) rfl))

theorem proceeds_readFlushes (h : c.Sound) : c.Proceeds [] c.readFlushes := by
  have hread : c.Proceeds [] { c with flushes := c.flushes.emptied } :=
    .of_eq h rfl fun _ hmem => hmem
  refine hread.trans (proceeds_foldl (fun c completed h => ?_) _ hread.sound)
  exact .of_run h (Allocator.run_request (a := c.allocator) (.completeFlush completed)
    (Allocator.asStored_of_ne (by simp)) rfl)

theorem proceeds_runWatcher (h : c.Sound) : c.Proceeds [] c.runWatcher := by
  unfold runWatcher
  split
  · dsimp only
    split
    · refine (Proceeds.withPhase h _).trans (proceeds_onWatermark _ ?_).1
      exact (Proceeds.withPhase h _).sound
    · exact .refl h
  · exact .refl h
  · exact .refl h

theorem proceeds_runReaper (h : c.Sound) : c.Proceeds [] c.runReaper := by
  unfold runReaper
  split
  · dsimp only
    split
    · refine (Proceeds.withPhase h _).trans (proceeds_reap ?_)
      exact (Proceeds.withPhase h _).sound
    · exact .refl h
  · exact .refl h
  · exact .refl h

theorem proceeds_settle (h : c.Sound) : c.Proceeds [] c.settle := by
  unfold settle
  split
  · have hticks := proceeds_readTimeTicks h
    have hwatched := hticks.trans (proceeds_runWatcher hticks.sound)
    have hstatistics := hwatched.trans (proceeds_readStatistics hwatched.sound)
    have hflushes := hstatistics.trans (proceeds_readFlushes hstatistics.sound)
    have hreaped := hflushes.trans (proceeds_runReaper hflushes.sound)
    exact hreaped.trans (proceeds_runWatcher hreaped.sound)
  · exact .refl h
  · exact .refl h

/-! ## The life of a coordinator -/

theorem steady_prepare : Steady prepare := by
  refine Steady.get.bind fun c => ?_
  refine (steady_onCluster fun cluster p hnames => ?_).bind fun nodes => ?_
  · simp only [Cluster.await, ensures_bind, ensures_get]
    split
    · exact hnames
    · split
      · exact hnames
      · exact hnames
  · refine Steady.bind ?_ fun _ => (steady_onAllocator Allocator.silent_recover).bind fun _ =>
      .pure _
    exact Steady.get.bind fun c => steady_onAllocator (Allocator.silent_loadCatalog c.catalog)

theorem steady_start : Steady start := by
  refine Steady.get.bind fun c => ?_
  split
  · exact .throw _
  · exact .throw _
  · refine steady_prepare.ofAttempt.bind fun prepared => ?_
    split
    · exact .modify fun c h => .of_eq h rfl fun _ hmem => hmem
    · refine Steady.bind ?_ fun _ => .throw _
      exact .modify fun c h => .of_eq h rfl fun _ hmem => hmem

theorem proceeds_stop (h : c.Sound) : c.Proceeds [] c.stop := by
  unfold stop
  dsimp only
  split
  · exact .of_eq h rfl fun _ hmem => hmem
  · exact .of_eq h rfl fun _ hmem => hmem
  · exact .of_eq h rfl fun _ hmem => hmem

end IngestCoordinator.Coordinator
