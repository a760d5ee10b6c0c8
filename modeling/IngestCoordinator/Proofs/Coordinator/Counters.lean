-- SUMMARY: In every run the counters of a coordinator move by what it answers and by what becomes of the segments.
import IngestCoordinator.Proofs.Allocator.Counters
import IngestCoordinator.Proofs.Coordinator.Effects

/-!
# Counters in a run

Clients and nodes ask, duties are done, writes fail and the process is restarted. Over any
stretch of a run the counters move by the grants and the errors that were answered in it,
and by the segments that grew, were sealed and were flushed in it. No increment is missed,
made twice, or made for a write that the store has refused.
-/

namespace IngestCoordinator

/-! ## Requests that fail -/

namespace ServiceMetrics

theorem failed_showOutcome (metrics : ServiceMetrics) (outcome : Barrier.Outcome) :
    (metrics.showOutcome outcome).failed = metrics.failed := by
  unfold showOutcome
  split <;> rfl

theorem failed_countTick (metrics : ServiceMetrics) (outcome : Barrier.Outcome) :
    (metrics.countTick outcome).failed = metrics.failed := by
  unfold countTick
  split
  · rfl
  · exact failed_showOutcome ..

end ServiceMetrics

namespace Coordinator

open Operation

variable {α : Type} {base c d e : Coordinator}

/-- What has been answered to requests for rows. -/
structure Answers where
  grants : List Allocator.Returned := []
  /-- The number of requests of a batch that were answered by an error. -/
  errors : Nat := 0
  deriving DecidableEq, Repr

/-- What has been answered first, and then what has been answered later. -/
def Answers.append (answers answers' : Answers) : Answers where
  grants := answers.grants ++ answers'.grants
  errors := answers.errors + answers'.errors

/-- What has been answered in several steps. -/
def Answers.all (answers : List Answers) : Answers where
  grants := answers.flatMap Answers.grants
  errors := (answers.map Answers.errors).sum

/-- The answers to a batch of requests. -/
def Answers.ofBatch (requests : List RowRequest) (answers : List (Except Error Grant)) :
    Answers where
  grants := returnedOf requests answers
  errors := answers.countP fun answer => !answer.isOk

theorem Answers.all_concat (answers : List Answers) (last : Answers) :
    all (answers ++ [last]) = (all answers).append last := by
  simp [all, append]

theorem Answers.ofBatch_cons (request : RowRequest) (requests : List RowRequest)
    (answer : Except Error Grant) (answers : List (Except Error Grant)) :
    ofBatch (request :: requests) (answer :: answers) =
      (ofBatch [request] [answer]).append (ofBatch requests answers) := by
  cases answer with
  | ok grant => simp [ofBatch, append, returnedOf, List.countP_cons, Nat.add_comm]
  | error error => simp [ofBatch, append, returnedOf, List.countP_cons, Nat.add_comm]

/--
The counters have moved by what was answered, and by what became of the segments.
-/
structure Balances (answers : Answers) (c d : Coordinator) : Prop where
  allocator : c.allocator.Balances answers.grants d.allocator
  failed : d.metrics.failed = c.metrics.failed + answers.errors

/-- Nothing has been answered to requests for rows, and nothing is counted that has not happened. -/
structure Evens (c d : Coordinator) : Prop where
  allocator : c.allocator.Evens d.allocator
  failed : d.metrics.failed = c.metrics.failed

theorem Evens.refl (h : c.allocator.Sound) : c.Evens c :=
  ⟨.refl h, rfl⟩

theorem Evens.of_eq (h : c.Evens d) (hallocator : e.allocator = d.allocator)
    (hfailed : e.metrics.failed = d.metrics.failed) : c.Evens e :=
  ⟨hallocator ▸ h.allocator, hfailed.trans h.failed⟩

theorem evens_onAllocator {call : Operation Allocator α}
    (h : Preserves base.allocator.Evens call) : Preserves base.Evens (onAllocator call) :=
  fun c hc => by
    rw [onAllocator, ensures_onPart]
    exact (h c.allocator hc.allocator).imp (fun _ _ hb => ⟨hb, hc.failed⟩)
      fun _ _ hb => ⟨hb, hc.failed⟩

theorem evens_stepAllocator {step : StateM Allocator α}
    (h : StepPreserves base.allocator.Evens step) : StepPreserves base.Evens (stepAllocator step) :=
  fun c hc => ⟨h c.allocator hc.allocator, hc.failed⟩

theorem evens_onCluster (call : Operation Cluster α) : Preserves base.Evens (onCluster call) :=
  fun c hc => by
    rw [onCluster, ensures_onPart]
    exact .of_forall (fun _ _ => hc.of_eq rfl rfl) fun _ _ => hc.of_eq rfl rfl

theorem evens_onChannels (call : Operation Channels α) : Preserves base.Evens (onChannels call) :=
  fun c hc => by
    rw [onChannels, ensures_onPart]
    exact .of_forall (fun _ _ => hc.of_eq rfl rfl) fun _ _ => hc.of_eq rfl rfl

theorem evens_requireCollection (id : CollectionId) :
    Preserves base.Evens (requireCollection id) := by
  refine Preserves.get.bind fun c => (Preserves.ofExcept _).bind fun found => ?_
  cases found with
  | none => exact .throw _
  | some collection => exact .pure _

/-! ## Nodes -/

theorem evens_askDdChannel : Preserves base.Evens askDdChannel := by
  refine Preserves.get.bind fun c => ?_
  split
  · exact .pure _
  · exact (Preserves.modify fun _ hc => hc.of_eq rfl rfl).bind fun _ => Preserves.get.bind fun _ =>
      (Preserves.ofExcept _).bind fun _ =>
        (Preserves.modify fun _ hc => hc.of_eq rfl rfl).bind fun _ => .pure _

theorem evens_register (address : String) (node : NodeId) :
    Preserves base.Evens (register address node) :=
  evens_askDdChannel.bind fun _ => (evens_onCluster _).bind fun _ =>
    (Preserves.modify fun _ hc => hc.of_eq rfl rfl).bind fun _ =>
      Preserves.get.bind fun _ => .pure _

theorem evens_deregister (node : NodeId) : Preserves base.Evens (deregister node) :=
  (evens_onCluster _).bind fun _ =>
    .modify fun _ hc => hc.of_eq rfl (ServiceMetrics.failed_showOutcome ..)

theorem evens_deregisterEach (nodes : List NodeId) :
    StepPreserves base.Evens (deregisterEach nodes) := by
  induction nodes with
  | nil => exact .pure _
  | cons node nodes ih =>
    refine (evens_deregister node).step.bind fun left => ih.bind fun rest => ?_
    split <;> exact .pure _

theorem evens_reap : StepPreserves base.Evens reap :=
  StepPreserves.get.bind fun _ => evens_deregisterEach _

/-! ## Collections -/

theorem evens_insertChannels (collection : CollectionId) :
    Preserves base.Evens (insertChannels collection) := by
  have horphans : Preserves base.Evens (modify (flushOrphans collection)) := by
    refine .modify fun c hc => ?_
    unfold flushOrphans
    split
    · exact hc
    · exact hc.of_eq rfl rfl
  refine (evens_requireCollection collection).bind fun _ => Preserves.get.bind fun c => ?_
  refine (evens_onChannels _).bind fun allocated => Preserves.get.bind fun c => ?_
  dsimp only
  split
  · exact (evens_onCluster _).bind fun _ => horphans.bind fun _ => .pure _
  · exact .pure _

theorem evens_flush (collection : CollectionId) : Preserves base.Evens (flush collection) :=
  (evens_requireCollection collection).bind fun _ =>
    (evens_stepAllocator (Allocator.evens_sealAll collection)).ofStep.bind fun _ =>
      (Preserves.modify fun _ hc => hc.of_eq rfl rfl).bind fun _ => .pure _

theorem evens_addCollection (collection : Collection) :
    Preserves base.Evens (addCollection collection) :=
  evens_onAllocator (Allocator.evens_onStore fun _ => GuardedStore.ensures_addCollection collection)

/-! ## The life of a coordinator -/

theorem evens_prepare : Preserves base.Evens prepare := by
  have hload : Preserves base.Evens loadCatalog := Preserves.get.bind fun c =>
    evens_onAllocator (Allocator.evens_onStore fun _ => c.catalog.ensures_load)
  exact Preserves.get.bind fun _ => (evens_onCluster _).bind fun _ => hload.bind fun _ =>
    (evens_onAllocator Allocator.evens_recover).bind fun _ => .pure _

theorem evens_start : Preserves base.Evens start := by
  refine Preserves.get.bind fun c => ?_
  split
  · exact .throw _
  · exact .throw _
  · refine evens_prepare.ofAttempt.bind fun prepared => ?_
    split
    · exact .modify fun _ hc => hc.of_eq rfl rfl
    · exact (Preserves.modify fun _ hc => hc.of_eq rfl rfl).bind fun _ => .throw _

theorem Evens.stop (h : c.Evens d) : c.Evens d.stop := by
  unfold Coordinator.stop
  dsimp only
  split <;> exact h.of_eq rfl rfl

/-! ## Duties -/

theorem evens_onWatermark (watermark : Timestamp) :
    StepPreserves base.Evens (onWatermark watermark) := by
  refine (evens_stepAllocator (Allocator.evens_sealReady watermark)).bind fun sealed => ?_
  refine (StepPreserves.modify fun _ hc => hc.of_eq rfl rfl).bind fun _ => ?_
  refine (StepPreserves.modify fun c hc => ?_).bind fun _ => .pure _
  exact ⟨hc.allocator.of_eq rfl (SegmentMetrics.sameCounts_refl _), hc.failed⟩

theorem Evens.readTimeTicks (h : c.Evens d) : c.Evens d.readTimeTicks :=
  List.foldlRecOn (motive := c.Evens) _ _ (h.of_eq rfl rfl) fun _ hc _ _ =>
    hc.of_eq rfl (ServiceMetrics.failed_countTick ..)

theorem Evens.readStatistics (h : c.Evens d) : c.Evens d.readStatistics :=
  keeps_readStatistics (fun _ _ hc => hc.of_eq rfl rfl)
    (fun reports => evens_stepAllocator (Allocator.evens_handleBatch? reports)) h

theorem Evens.readFlushes (h : c.Evens d) : c.Evens d.readFlushes :=
  List.foldlRecOn (motive := c.Evens) _ _ (h.of_eq rfl rfl) fun _ hc completed _ =>
    evens_stepAllocator (Allocator.evens_handleFlushCompleted completed).step _ hc

theorem Evens.runWatcher (h : c.Evens d) : c.Evens d.runWatcher := by
  unfold Coordinator.runWatcher
  split
  · dsimp only
    split
    · exact evens_onWatermark _ _ (h.of_eq rfl rfl)
    · exact h
  · exact h
  · exact h

theorem Evens.runReaper (h : c.Evens d) : c.Evens d.runReaper := by
  unfold Coordinator.runReaper
  split
  · dsimp only
    split
    · exact evens_reap _ (h.of_eq rfl rfl)
    · exact h
  · exact h
  · exact h

theorem Evens.settle (h : c.Evens d) : c.Evens d.settle := by
  unfold Coordinator.settle
  split
  · exact h.readTimeTicks.runWatcher.readStatistics.readFlushes.runReaper.runWatcher
  · exact h
  · exact h

/-! ## Requests for rows -/

theorem evens_openSegment (key : SegmentKey) : Preserves base.Evens (openSegment key) := by
  refine (evens_onAllocator (Allocator.evens_openTarget? key)).bind fun target => ?_
  cases target with
  | some target => exact fun _ hc => hc
  | none =>
    refine (evens_requireCollection key.collection).bind fun collection => ?_
    dsimp only
    split
    · exact fun _ hc => hc
    · refine Preserves.get.bind fun c => (Preserves.ofExcept _).bind fun group => ?_
      refine (Preserves.ofExcept _).bind fun width => ?_
      refine (evens_onAllocator (Allocator.evens_onIds _)).bind fun id => ?_
      refine (evens_onAllocator (Allocator.evens_onIds _)).bind fun openTime => ?_
      refine (evens_onAllocator (Allocator.evens_addSegment ?_)).bind fun _ =>
        evens_onAllocator (Allocator.evens_openSegment _)
      rfl

theorem ensures_alloc_balances (key : SegmentKey) (wanted : UInt64) (h : c.Evens d) :
    Ensures (onAllocator (Allocator.alloc key wanted)) d
      (fun grant e => c.Balances ⟨[⟨wanted, grant⟩], 0⟩ e ∧ e.allocator.Sound)
      (fun _ e => c.Evens e) := by
  rw [onAllocator, ensures_onPart]
  refine (Allocator.ensures_alloc_balances key wanted h.allocator.sound).imp (fun grant b hb => ?_)
    fun _ b hb => ⟨h.allocator.trans hb, h.failed⟩
  exact ⟨⟨h.allocator.balances.trans hb.1, h.failed⟩, hb.2⟩

/-- However many segments are opened for it, a request is counted as the grant that it answers. -/
theorem ensures_assignOne_balances (request : RowRequest) (opens : Nat) (h : c.Evens d) :
    Ensures (assignOne request opens) d
      (fun grant e => c.Balances ⟨[⟨request.count, grant⟩], 0⟩ e ∧ e.allocator.Sound)
      (fun _ e => c.Evens e) := by
  induction opens generalizing d with
  | zero => exact ensures_alloc_balances request.key request.count h
  | succ opens ih =>
    have halloc := (ensures_alloc_balances request.key request.count h).attempt
    rw [assignOne, ensures_bind, ensures_ofStep]
    generalize (onAllocator (Allocator.alloc request.key request.count)).attempt d = attempted
      at halloc ⊢
    obtain ⟨result, e⟩ := attempted
    cases result with
    | ok grant => exact halloc
    | error error =>
      have hfailed : c.Evens e := halloc
      dsimp only
      split
      · rename_i heq
        cases heq
      · rw [ensures_bind, ensures_ofStep]
        have hopened := (evens_openSegment request.key).attempt hfailed
        split
        · exact ih hopened
        · exact ih hopened
        · exact hopened
      · exact hfailed

theorem Balances.trans {answers answers' : Answers} (h : c.Balances answers d)
    (h' : d.Balances answers' e) :
    c.Balances (answers.append answers') e where
  allocator := h.allocator.trans h'.allocator
  failed := by
    rw [h'.failed, h.failed, Nat.add_assoc]
    rfl

theorem Evens.balances (h : c.Evens d) : c.Balances {} d :=
  ⟨h.allocator.balances, h.failed⟩

/-- An error is counted as one, whatever it is, and a grant is not. -/
theorem balances_assignCounted (request : RowRequest) (h : c.allocator.Sound) :
    c.Balances (.ofBatch [request] [(assignCounted request c).1]) (assignCounted request c).2 ∧
      (assignCounted request c).2.allocator.Sound := by
  rcases assignCounted_cases (ensures_assignOne_balances request _ (.refl h)) with
    ⟨grant, d, hcounted, hgranted⟩ | ⟨error, d, hcounted, hfailed⟩
  · rw [hcounted]
    exact hgranted
  · rw [hcounted]
    exact ⟨⟨hfailed.allocator.balances, congrArg (· + 1) hfailed.failed⟩, hfailed.allocator.sound⟩

/-- The answers to a batch are counted one by one. -/
theorem balances_assign (requests : List RowRequest) (h : c.allocator.Sound) :
    c.Balances (.ofBatch requests (assign requests c).1) (assign requests c).2 ∧
      (assign requests c).2.allocator.Sound := by
  induction requests generalizing c with
  | nil => exact ⟨(Evens.refl h).balances, h⟩
  | cons request requests ih =>
    obtain ⟨hfirst, hsound⟩ := balances_assignCounted request h
    obtain ⟨hrest, hsound'⟩ := ih hsound
    have hboth := hfirst.trans hrest
    rw [← Answers.ofBatch_cons] at hboth
    exact ⟨hboth, hsound'⟩

/-! ## Runs -/

/-- What a request is answered, as far as it is for rows. -/
def answersOf : Request → Coordinator → Answers
  | .assign requests, c => .ofBatch requests (assign requests c).1
  | _, _ => {}

/--
One thing happens, and what is answered to requests for rows in it. Anything may be asked
of the coordinator, or of its allocator alone; backend, identifiers and clock go their way;
and the process is restarted on what the backend has kept.
-/
inductive Replies : Coordinator → Answers → Coordinator → Prop where
  | request {c : Coordinator} (request : Request) :
    Replies c (answersOf request c) (perform request c).2
  | allocator {c : Coordinator} (request : Allocator.Request) :
    Replies c ⟨(Allocator.perform request c.allocator).1, 0⟩
      { c with allocator := (Allocator.perform request c.allocator).2 }
  /-- Nothing is counted for what goes on around the coordinator. -/
  | surroundings {c d : Coordinator} (h : c.allocator.Surroundings d.allocator)
    (hmetrics : d.allocator.metrics = c.allocator.metrics)
    (hfailed : d.metrics.failed = c.metrics.failed) : Replies c {} d
  | restarted {c d : Coordinator} (h : restart c = .ok () d) : Replies c {} d

theorem balances_perform (request : Request) (h : c.allocator.Sound) :
    c.Balances (answersOf request c) (perform request c).2 ∧
      (perform request c).2.allocator.Sound := by
  have heven {d : Coordinator} (hd : c.Evens d) : c.Balances {} d ∧ d.allocator.Sound :=
    ⟨hd.balances, hd.allocator.sound⟩
  have hself : c.Evens c := .refl h
  cases request with
  | start => exact heven (evens_start.attempt hself)
  | stop => exact heven hself.stop
  | addCollection collection => exact heven ((evens_addCollection collection).attempt hself)
  | assign requests => exact balances_assign requests h
  | openSegment key => exact heven ((evens_openSegment key).attempt hself)
  | flush collection =>
    rw [perform_flush_snd]
    exact heven ((evens_flush collection).attempt hself)
  | insertChannels collection => exact heven ((evens_insertChannels collection).attempt hself)
  | times id =>
    simp only [perform]
    split <;> exact heven hself
  | register address node => exact heven ((evens_register address node).attempt hself)
  | deregister node => exact heven ((evens_deregister node).attempt hself)
  | reap => exact heven (evens_reap c hself)
  | sendTimeTick tick => exact heven (hself.of_eq rfl rfl)
  | sendStatistics batch => exact heven (hself.of_eq rfl rfl)
  | sendFlushCompleted completed => exact heven (hself.of_eq rfl rfl)
  | watermark watermark => exact heven (evens_onWatermark watermark c hself)
  | readTimeTicks => exact heven hself.readTimeTicks
  | readStatistics => exact heven hself.readStatistics
  | readFlushes => exact heven hself.readFlushes
  | runWatcher => exact heven hself.runWatcher
  | runReaper => exact heven hself.runReaper
  | settle => exact heven hself.settle
  | deliver => exact heven (hself.of_eq rfl rfl)

/-- The counters go on counting after a restart. -/
theorem ensures_restart_metrics (c : Coordinator) : Ensures restart c
    (fun _ d => d.allocator.metrics = c.allocator.metrics ∧ d.metrics = c.metrics)
    (fun _ _ => True) := by
  have hstop : c.stop.allocator.metrics = c.allocator.metrics ∧ c.stop.metrics = c.metrics := by
    unfold stop
    dsimp only
    split <;> exact ⟨rfl, rfl⟩
  simp only [restart, Allocator.onStore, onAllocator, ensures_bind, ensures_modify, ensures_onPart]
  exact .of_forall (fun _ _ => hstop) fun _ _ => trivial

theorem Replies.balances {answers : Answers} (h : Replies c answers d)
    (hsound : c.allocator.Sound) : c.Balances answers d ∧ d.allocator.Sound := by
  cases h with
  | request request => exact balances_perform request hsound
  | allocator request =>
    obtain ⟨hbalances, hsound'⟩ := Allocator.balances_perform request hsound
    exact ⟨⟨hbalances, rfl⟩, hsound'⟩
  | surroundings h hmetrics hfailed =>
    exact ⟨⟨.of_eq h.segments (.of_eq hmetrics), hfailed⟩, h.sound hsound⟩
  | restarted h =>
    obtain ⟨hsegments, hsound'⟩ := segments_restart h hsound
    obtain ⟨hmetrics, hfailed⟩ := (ensures_restart_metrics c).ok h
    exact ⟨⟨.of_eq hsegments (.of_eq hmetrics), congrArg ServiceMetrics.failed hfailed⟩, hsound'⟩

/--
Over any stretch of a run the counters move by what was answered and by what became of the
segments, so they never drift from either.
-/
theorem counters_never_drift {answers : List Answers} (hsound : c.allocator.Sound)
    (hrun : Path Replies c answers d) : c.Balances (.all answers) d := by
  have hboth : c.Balances (.all answers) d ∧ d.allocator.Sound := by
    induction hrun with
    | nil => exact ⟨(Evens.refl hsound).balances, hsound⟩
    | snoc _ hstep ih =>
      obtain ⟨hbalances, hsound'⟩ := hstep.balances ih.2
      rw [Answers.all_concat]
      exact ⟨ih.1.trans hbalances, hsound'⟩
  exact hboth.1

/-- Rows are granted in full and cut, a request fails, and a segment is sealed and flushed. -/
def serving : List Request :=
  assigning ++
    [.assign [⟨⟨⟨1⟩, ⟨2⟩, "channel-1_0"⟩, 20⟩, ⟨⟨⟨7⟩, ⟨2⟩, "channel-7_0"⟩, 5⟩], .watermark 9,
      .sendFlushCompleted ⟨⟨1⟩, 12⟩, .readFlushes]

/-- The backend takes one more call: a third segment is stored, but not opened. -/
def served : Coordinator :=
  (performAll [assignRows 5] ((performAll serving onMemory).2.dying 1 9)).2

/-- Two grants have been counted, two errors, and no segment that was not opened. -/
theorem served_counted : onMemory.Balances
    ⟨[⟨10, ⟨1⟩, 0, 10, 5⟩, ⟨20, ⟨2⟩, 0, 10, 262145⟩], 2⟩ served := by
  have hreplies (requests : List Request) (c : Coordinator) :
      Path Replies c (labelsOf answersOf requests c) (performAll requests c).2 :=
    path_performAll (fun request _ _ => .request request) c
  have hdying (c : Coordinator) : Replies c {} (c.dying 1 9) :=
    .surroundings ⟨rfl, rfl, fun _ _ => rfl, rfl, rfl, rfl, rfl, rfl, rfl, rfl, rfl⟩ rfl rfl
  have hrun := ((hreplies serving onMemory).snoc (hdying _)).append (hreplies [assignRows 5] _)
  have hbalances := counters_never_drift initial_onMemory.allocator.sound hrun
  have hanswers : Answers.all (labelsOf answersOf serving onMemory ++ [({} : Answers)] ++
      labelsOf answersOf [assignRows 5] ((performAll serving onMemory).2.dying 1 9)) =
        ⟨[⟨10, ⟨1⟩, 0, 10, 5⟩, ⟨20, ⟨2⟩, 0, 10, 262145⟩], 2⟩ := by decide +kernel
  rwa [hanswers] at hbalances

end Coordinator

end IngestCoordinator
