-- SUMMARY: Runs of a coordinator: what it is asked, what goes on around it, and restarts.
import IngestCoordinator.Proofs.Coordinator.Answers

/-!
# Runs of a coordinator

A coordinator answers clients and nodes, does its duties, and is restarted on what
the backend has kept. A run lists what has been told to others in it: the grants,
and the segments that were reported as sealed. To the allocator it is a run too.
-/

namespace IngestCoordinator.Coordinator

open Operation

variable {c d e : Coordinator}

/-! ## Requests -/

/-- What others are told. -/
inductive Event where
  | granted (returned : Allocator.Returned)
  | sealed (id : SegmentId)
  deriving DecidableEq, Repr

/-- The grants that have been returned. -/
def grantedIn (events : List Event) : List Allocator.Returned :=
  events.filterMap fun
    | .granted returned => some returned
    | .sealed _ => none

theorem grantedIn_append (events events' : List Event) :
    grantedIn (events ++ events') = grantedIn events ++ grantedIn events' :=
  List.filterMap_append

@[simp] theorem grantedIn_granted (log : List Allocator.Returned) :
    grantedIn (log.map .granted) = log := by
  simp [grantedIn, List.filterMap_map]

@[simp] theorem grantedIn_sealed (ids : List SegmentId) : grantedIn (ids.map .sealed) = [] := by
  simp [grantedIn, List.filterMap_map]

/-- What a coordinator can be asked, by clients, by nodes and by its own duties. -/
inductive Request where
  | start
  | stop
  | addCollection (collection : Collection)
  | assign (requests : List RowRequest)
  | openSegment (key : SegmentKey)
  | flush (collection : CollectionId)
  | insertChannels (collection : CollectionId)
  /-- Asks where a segment stands. -/
  | times (id : SegmentId)
  | register (address : String) (node : NodeId)
  | deregister (node : NodeId)
  | reap
  | sendTimeTick (tick : TimeTick)
  | sendStatistics (batch : ReportBatch)
  | sendFlushCompleted (completed : FlushCompleted)
  | watermark (watermark : Timestamp)
  | readTimeTicks
  | readStatistics
  | readFlushes
  | runWatcher
  | runReaper
  | settle
  /-- The queued commands reach the nodes. -/
  | deliver
  deriving Repr

/-- Does what is asked: what others are told, and the coordinator afterwards. -/
def perform : Request → Coordinator → List Event × Coordinator
  | .start, c => ([], (start.attempt c).2)
  | .stop, c => ([], c.stop)
  | .addCollection collection, c => ([], ((addCollection collection).attempt c).2)
  | .assign requests, c =>
    ((returnedOf requests (assign requests c).1).map .granted, (assign requests c).2)
  | .openSegment key, c => ([], ((openSegment key).attempt c).2)
  | .flush collection, c =>
    match flush collection c with
    | .ok outcome d => (if outcome.allSealed then (c.growing collection).map .sealed else [], d)
    | .error _ d => ([], d)
  | .insertChannels collection, c => ([], ((insertChannels collection).attempt c).2)
  | .times id, c =>
    match c.segmentTimes id with
    | .ok times => (if times.state.isImmutable then [.sealed id] else [], c)
    | .error _ => ([], c)
  | .register address node, c => ([], ((register address node).attempt c).2)
  | .deregister node, c => ([], ((deregister node).attempt c).2)
  | .reap, c => ([], (reap c).2)
  | .sendTimeTick tick, c => ([], (sendTimeTick tick c).2)
  | .sendStatistics batch, c => ([], (sendStatistics batch c).2)
  | .sendFlushCompleted completed, c => ([], (sendFlushCompleted completed c).2)
  | .watermark watermark, c =>
    (((onWatermark watermark c).1.map Segment.id).map .sealed, (onWatermark watermark c).2)
  | .readTimeTicks, c => ([], c.readTimeTicks)
  | .readStatistics, c => ([], c.readStatistics)
  | .readFlushes, c => ([], c.readFlushes)
  | .runWatcher, c => ([], c.runWatcher)
  | .runReaper, c => ([], c.runReaper)
  | .settle, c => ([], c.settle)
  | .deliver, c =>
    ((c.cluster.outbox.drain.1.flatMap Command.segments).map .sealed,
      { c with cluster.outbox := c.cluster.outbox.drain.2 })

theorem perform_flush_snd (collection : CollectionId) (c : Coordinator) :
    (perform (.flush collection) c).2 = ((flush collection).attempt c).2 := by
  simp only [perform, Operation.attempt]
  cases flush collection c with
  | ok outcome d => rfl
  | error error d => rfl

/-! ## Surroundings -/

/--
What may happen around a coordinator: what may happen around its allocator, and
commands may be lost. Nothing is said about nodes, channels, catalog and clocks.
-/
structure Surroundings (c d : Coordinator) : Prop where
  allocator : c.allocator.Surroundings d.allocator
  commands : ∀ command ∈ d.cluster.outbox.queued, command ∈ c.cluster.outbox.queued

/--
The process is down: its successor has been put on the store as the backend kept
it, and has not recovered yet.
-/
inductive Down : Coordinator → Coordinator → Prop where
  | restarted {c d : Coordinator} (h : restart c = .ok () d) : Down c d
  | surroundings {c d e : Coordinator} (h : Down c d) (h' : d.Surroundings e) : Down c e
  | notRecovered {c d e : Coordinator} {error : Error} (h : Down c d)
    (h' : onAllocator Allocator.recover d = .error error e) : Down c e
  | notStarted {c d e : Coordinator} {error : Error} (h : Down c d)
    (h' : start d = .error error e) : Down c e
  | restartedAgain {c d e : Coordinator} (h : Down c d) (h' : restart d = .ok () e) : Down c e

/-- The process has been restarted, by a recovery on its own or by a start. -/
def Restarts (c d : Coordinator) : Prop :=
  ∃ c' down, c.Surroundings c' ∧ Down c' down ∧
    ((∃ count, onAllocator Allocator.recover down = .ok count d) ∨ start down = .ok () d)

/-- One thing happens. -/
inductive Step : Coordinator → List Event → Coordinator → Prop where
  | request {c : Coordinator} (request : Request) :
    Step c (perform request c).1 (perform request c).2
  | surroundings {c d : Coordinator} (h : c.Surroundings d) : Step c [] d
  | restart {c d : Coordinator} (h : c.Restarts d) : Step c [] d

/-- Things happen one after another; what others are told is listed in order. -/
def Run : Coordinator → List Event → Coordinator → Prop :=
  Course Step

/-- A new coordinator over a store that has been opened and holds no segment. -/
structure Initial (c : Coordinator) : Prop where
  allocator : c.allocator.Initial
  commands : c.cluster.outbox.queued = []

/-! ## What happens in one step -/

/-- What others have been told, and the coordinator that it is true of. -/
structure Tells (c : Coordinator) (events : List Event) (d : Coordinator) : Prop where
  proceeds : c.Proceeds (grantedIn events) d
  sealed : ∀ id, .sealed id ∈ events → ClosedIn d.allocator.segments id

theorem Proceeds.tells (h : c.Proceeds [] d) : c.Tells [] d :=
  ⟨h, by simp⟩

theorem Proceeds.tells_sealed {ids : List SegmentId} (h : c.Proceeds [] d)
    (hclosed : ∀ id ∈ ids, ClosedIn d.allocator.segments id) : c.Tells (ids.map .sealed) d where
  proceeds := by
    rw [grantedIn_sealed]
    exact h
  sealed id hmem := by
    obtain ⟨id', hmem, heq⟩ := List.mem_map.1 hmem
    cases heq
    exact hclosed id hmem

theorem closedIn_of_segmentTimes (h : c.Sound) {id : SegmentId} {times : SegmentTimes}
    (hanswer : c.segmentTimes id = .ok times) (hclosed : times.state.isImmutable = true) :
    ClosedIn c.allocator.segments id := by
  have hstored : c.store.segment? id = .ok (c.allocator.segments.get? id) :=
    h.allocator.truthful.segment?_eq id
  unfold segmentTimes at hanswer
  rw [hstored] at hanswer
  cases hget : c.allocator.segments.get? id with
  | none =>
    rw [hget] at hanswer
    cases hanswer
  | some segment =>
    rw [hget] at hanswer
    cases hanswer
    exact ⟨segment, hget, hclosed⟩

theorem tells_perform (request : Request) (h : c.Sound) :
    c.Tells (perform request c).1 (perform request c).2 := by
  cases request with
  | start => exact (steady_start.attempt h).tells
  | stop => exact (proceeds_stop h).tells
  | addCollection collection => exact ((steady_addCollection collection).attempt h).tells
  | assign requests =>
    refine ⟨?_, fun id hmem => ?_⟩
    · simpa [perform] using proceeds_assign requests h
    · simp [perform] at hmem
  | openSegment key => exact ((steady_openSegment key).attempt h).tells
  | flush collection =>
    have hflush := ensures_flush collection h
    unfold Ensures at hflush
    simp only [perform]
    split at hflush
    · rename_i outcome d heq
      obtain ⟨hproceeds, hall⟩ := hflush
      simp only [heq]
      split
      · rename_i hsealed
        exact hproceeds.tells_sealed (hall hsealed)
      · exact hproceeds.tells
    · rename_i heq
      simp only [heq]
      exact Proceeds.tells hflush
  | insertChannels collection => exact ((steady_insertChannels collection).attempt h).tells
  | times id =>
    simp only [perform]
    split
    · rename_i times hanswer
      split
      · rename_i hclosed
        change c.Tells ([id].map .sealed) c
        refine (Proceeds.refl h).tells_sealed fun id' hmem => ?_
        rw [List.mem_singleton.1 hmem]
        exact closedIn_of_segmentTimes h hanswer hclosed
      · exact (Proceeds.refl h).tells
    · exact (Proceeds.refl h).tells
  | register address node => exact ((steady_register address node).attempt h).tells
  | deregister node => exact ((steady_deregister node).attempt h).tells
  | reap => exact (proceeds_reap h).tells
  | sendTimeTick tick => exact Proceeds.tells (.of_eq h rfl fun _ hmem => hmem)
  | sendStatistics batch => exact Proceeds.tells (.of_eq h rfl fun _ hmem => hmem)
  | sendFlushCompleted completed => exact Proceeds.tells (.of_eq h rfl fun _ hmem => hmem)
  | watermark watermark =>
    obtain ⟨hproceeds, hclosed⟩ := proceeds_onWatermark watermark h
    refine hproceeds.tells_sealed fun id hmem => ?_
    obtain ⟨segment, hsegment, rfl⟩ := List.mem_map.1 hmem
    exact hclosed segment hsegment
  | readTimeTicks => exact (proceeds_readTimeTicks h).tells
  | readStatistics => exact (proceeds_readStatistics h).tells
  | readFlushes => exact (proceeds_readFlushes h).tells
  | runWatcher => exact (proceeds_runWatcher h).tells
  | runReaper => exact (proceeds_runReaper h).tells
  | settle => exact (proceeds_settle h).tells
  | deliver =>
    have hdrained : c.Proceeds [] { c with cluster.outbox := c.cluster.outbox.drain.2 } :=
      .of_eq h rfl (List.forall_mem_nil _)
    refine hdrained.tells_sealed fun id hmem => ?_
    obtain ⟨command, hcommand, hmem⟩ := List.mem_flatMap.1 hmem
    exact h.commands command hcommand id hmem

theorem Surroundings.proceeds (h : c.Surroundings d) (hsound : c.Sound) : c.Proceeds [] d where
  run := .single (.surroundings h.allocator)
  sound := by
    refine ⟨h.allocator.consistent hsound.allocator, fun command hmem => ?_⟩
    rw [h.allocator.segments]
    exact hsound.commands command (h.commands command hmem)

/-! ## Restarts -/

/-- The allocator over a backend that has become available again. -/
def available (c : Coordinator) : Allocator :=
  { c.allocator with
    store.metadata.backend := c.allocator.store.metadata.backend.setUnavailable false }

theorem surroundings_available (c : Coordinator) : c.allocator.Surroundings c.available :=
  ⟨rfl, rfl, fun _ _ => rfl, rfl, rfl, rfl, rfl, rfl, rfl, rfl, rfl⟩

/-- A restart opens the store again, and the queued commands are still on their way. -/
theorem ensures_restart (c : Coordinator) : Ensures restart c
    (fun _ d => ∃ a, Allocator.reopen c.available = .ok () a ∧ d.allocator = a.restarted ∧
      d.cluster.outbox = c.cluster.outbox)
    (fun e _ => ∃ a, Allocator.reopen c.available = .error e a) := by
  have hstop : c.stop.allocator = c.allocator ∧ c.stop.cluster = c.cluster := by
    unfold stop
    dsimp only
    split <;> exact ⟨rfl, rfl⟩
  simp only [restart, ensures_bind, ensures_modify, onAllocator, ensures_onPart]
  have hreopen := Ensures.self Allocator.reopen c.available
  simp only [available, ← hstop.1] at hreopen
  refine hreopen.imp (fun _ a h => ⟨a, ?_, rfl, ?_⟩) fun e a h => ⟨a, ?_⟩
  · simpa only [available, hstop.1] using h
  · change c.stop.cluster.outbox = c.cluster.outbox
    rw [hstop.2]
  · simpa only [available, hstop.1] using h

/-- The segments are stored after a restart as they were before it. -/
theorem segments_restart (h : restart c = .ok () d) (hsound : c.allocator.Sound) :
    d.allocator.segments = c.allocator.segments ∧ d.allocator.Sound := by
  obtain ⟨a, hreopen, hallocator, _⟩ := (ensures_restart c).ok h
  have havailable := surroundings_available c
  obtain ⟨hsegments, hsound', _⟩ :=
    (Allocator.ensures_reopen_segments (havailable.sound hsound)).ok hreopen
  rw [hallocator]
  exact ⟨hsegments.trans havailable.segments, hsound'⟩

theorem ensures_onAllocator {α : Type} (call : Operation Allocator α) : Ensures (onAllocator call) c
    (fun value d => ∃ b, call c.allocator = .ok value b ∧ d = { c with allocator := b })
    (fun e d => ∃ b, call c.allocator = .error e b ∧ d = { c with allocator := b }) := by
  rw [onAllocator, ensures_onPart]
  exact (Ensures.self call c.allocator).imp (fun _ b h => ⟨b, h, rfl⟩) fun _ b h => ⟨b, h, rfl⟩

/-- The allocator of a coordinator that is down is down itself, and queued commands may be lost. -/
structure Rests (c d : Coordinator) : Prop where
  allocator : ∃ a, c.allocator.Surroundings a ∧ Allocator.Down a d.allocator
  commands : ∀ command ∈ d.cluster.outbox.queued, command ∈ c.cluster.outbox.queued

theorem ensures_prepare {a : Allocator} (hdown : Allocator.Down a c.allocator) : Ensures prepare c
    (fun _ d => (∃ down count, Allocator.Down a down ∧
      Allocator.recover down = .ok count d.allocator) ∧ d.cluster.outbox = c.cluster.outbox)
    (fun _ d => Allocator.Down a d.allocator ∧ d.cluster.outbox = c.cluster.outbox) := by
  have hawait (cluster : Cluster) (expected timeoutMs : Nat) (calledOff : Bool) :
      Ensures (Cluster.await expected timeoutMs calledOff) cluster
        (fun _ cluster' => cluster'.outbox = cluster.outbox)
        (fun _ cluster' => cluster'.outbox = cluster.outbox) := by
    simp only [Cluster.await, ensures_bind, ensures_get]
    split
    · rfl
    · split
      · rfl
      · rfl
  simp only [prepare, ensures_bind, ensures_get, onCluster, ensures_onPart]
  refine (hawait _ _ _ _).imp (fun _ cluster hcluster => ?_) fun _ cluster hcluster =>
    ⟨hdown, hcluster⟩
  simp only [loadCatalog, ensures_bind, ensures_get, onAllocator, ensures_onPart]
  have hload : Ensures (Allocator.onStore c.catalog.load) c.allocator
      (fun _ b => Allocator.Down a b) (fun _ b => Allocator.Down a b) :=
    .of_attempt_snd (.catalog hdown c.catalog)
  refine hload.imp (fun _ b hb => ?_) fun _ b hb => ⟨hb, hcluster⟩
  exact (Ensures.self Allocator.recover b).imp
    (fun count d hd => ⟨⟨b, count, hb, hd⟩, hcluster⟩) fun e d hd => ⟨.failed hb hd, hcluster⟩

theorem ensures_start {a : Allocator} (hdown : Allocator.Down a c.allocator) : Ensures start c
    (fun _ d => (∃ down count, Allocator.Down a down ∧
      Allocator.recover down = .ok count d.allocator) ∧ d.cluster.outbox = c.cluster.outbox)
    (fun _ d => Allocator.Down a d.allocator ∧ d.cluster.outbox = c.cluster.outbox) := by
  rw [start, ensures_bind, ensures_get]
  split
  · exact ⟨hdown, rfl⟩
  · exact ⟨hdown, rfl⟩
  · have hprepare := (ensures_prepare hdown).attempt
    rw [ensures_bind, ensures_ofStep]
    generalize prepare.attempt c = prepared at hprepare ⊢
    obtain ⟨result, d⟩ := prepared
    cases result with
    | ok nodes => exact hprepare
    | error e => exact hprepare

theorem Down.rests (h : Down c d) : c.Rests d := by
  induction h with
  | @restarted d h =>
    obtain ⟨a, hreopen, hallocator, houtbox⟩ := (ensures_restart c).ok h
    refine ⟨⟨_, surroundings_available c, ?_⟩, fun _ hmem => houtbox ▸ hmem⟩
    rw [hallocator]
    exact .reopened hreopen
  | surroundings _ h ih =>
    obtain ⟨⟨a, hsurroundings, hdown⟩, hcommands⟩ := ih
    exact ⟨⟨a, hsurroundings, .surroundings hdown h.allocator⟩,
      fun command hmem => hcommands command (h.commands command hmem)⟩
  | notRecovered _ h ih =>
    obtain ⟨⟨a, hsurroundings, hdown⟩, hcommands⟩ := ih
    obtain ⟨b, hrecover, rfl⟩ := (ensures_onAllocator Allocator.recover).error h
    exact ⟨⟨a, hsurroundings, .failed hdown hrecover⟩, hcommands⟩
  | notStarted _ h ih =>
    obtain ⟨⟨a, hsurroundings, hdown⟩, hcommands⟩ := ih
    obtain ⟨hdown', houtbox⟩ := (ensures_start hdown).error h
    exact ⟨⟨a, hsurroundings, hdown'⟩, fun command hmem => hcommands command (houtbox ▸ hmem)⟩
  | @restartedAgain d e _ h ih =>
    obtain ⟨⟨a, hsurroundings, hdown⟩, hcommands⟩ := ih
    obtain ⟨b, hreopen, hallocator, houtbox⟩ := (ensures_restart d).ok h
    refine ⟨⟨a, hsurroundings, ?_⟩, fun command hmem => hcommands command (houtbox ▸ hmem)⟩
    rw [hallocator]
    exact .reopenedAgain (.surroundings hdown (surroundings_available d)) hreopen

/-- To the allocator a restart of the coordinator is a restart. -/
theorem Restarts.allocator (h : c.Restarts d) : c.allocator.Restarts d.allocator ∧
    ∀ command ∈ d.cluster.outbox.queued, command ∈ c.cluster.outbox.queued := by
  obtain ⟨before, down, hbefore, hdown, hback⟩ := h
  obtain ⟨⟨a, hsurroundings, hrests⟩, hcommands⟩ := hdown.rests
  have hlost : ∀ command ∈ down.cluster.outbox.queued, command ∈ c.cluster.outbox.queued :=
    fun command hmem => hbefore.commands command (hcommands command hmem)
  have hboth := hbefore.allocator.trans hsurroundings
  rcases hback with ⟨count, hback⟩ | hstart
  · obtain ⟨b, hrecover, rfl⟩ := (ensures_onAllocator Allocator.recover).ok hback
    exact ⟨⟨a, _, count, hboth, hrests, hrecover⟩, hlost⟩
  · obtain ⟨⟨down', count, hdown', hrecover⟩, houtbox⟩ := (ensures_start hrests).ok hstart
    exact ⟨⟨a, down', count, hboth, hdown', hrecover⟩, fun command hmem =>
      hlost command (houtbox ▸ hmem)⟩

theorem Restarts.proceeds (h : c.Restarts d) (hsound : c.Sound) : c.Proceeds [] d where
  run := .single (.restart h.allocator.1)
  sound := by
    obtain ⟨hextends, hconsistent, _⟩ := h.allocator.1.extends hsound.allocator.sound
    obtain ⟨writes, hhistory, _⟩ := hextends.history
    refine ⟨hconsistent, fun command hmem => ?_⟩
    exact (hsound.commands command (h.allocator.2 command hmem)).imp fun _ hclosed =>
      hhistory.closedIn hclosed

/-! ## What happens in a run -/

theorem Tells.trans {events events' : List Event} (h : c.Tells events d) (h' : d.Tells events' e)
    (hsound : d.Sound) : c.Tells (events ++ events') e where
  proceeds := by
    rw [grantedIn_append]
    exact h.proceeds.trans h'.proceeds
  sealed id hmem := by
    rcases List.mem_append.1 hmem with hmem | hmem
    · exact closedIn_of_run h'.proceeds.run hsound.allocator.sound (h.sealed id hmem)
    · exact h'.sealed id hmem

theorem Step.tells {events : List Event} (h : Step c events d) (hsound : c.Sound) :
    c.Tells events d := by
  cases h with
  | request request => exact tells_perform request hsound
  | surroundings h => exact (h.proceeds hsound).tells
  | restart h => exact (h.proceeds hsound).tells

/-- What others are told in a run is true, and stays true. -/
theorem Run.tells {events : List Event} (h : Run c events d) (hsound : c.Sound) :
    c.Tells events d := by
  induction h using Course.induct with
  | nil => exact (Proceeds.refl hsound).tells
  | snoc _ hstep ih => exact ih.trans (hstep.tells ih.proceeds.sound) ih.proceeds.sound

theorem Initial.sound (h : c.Initial) : c.Sound where
  allocator := h.allocator.consistent
  commands command hmem := by
    rw [h.commands] at hmem
    cases hmem

end IngestCoordinator.Coordinator
