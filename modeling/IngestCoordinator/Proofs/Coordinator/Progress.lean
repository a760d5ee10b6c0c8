-- SUMMARY: What the operations of a coordinator make of its allocator and of its queue of commands.
import IngestCoordinator.Coordinator.Assignment
import IngestCoordinator.Coordinator.Collections
import IngestCoordinator.Coordinator.Lifecycle
import IngestCoordinator.Proofs.Allocator.Closing
import IngestCoordinator.Proofs.Allocator.Runs
import IngestCoordinator.Proofs.Coordinator.Commands

/-!
# Progress

To its allocator every operation of a coordinator is a run: requests made one after
another, with what goes on around them. The grants of the run are those that are
answered. Commands to flush segments are queued only for segments that are sealed.
-/

namespace IngestCoordinator

open Operation

/-! ## Silent calls -/

namespace Allocator

variable {α : Type} {a b : Allocator}

/-- To the allocator the call is a run that returns no grant. -/
def Silent (call : Operation Allocator α) : Prop :=
  ∀ a : Allocator, a.Sound →
    Ensures call a (fun _ b => Run asStored a [] b) (fun _ b => Run asStored a [] b)

/-- A request that returns no grant, wherever it stops. -/
theorem run_request (request : Request) (hadmits : asStored a request)
    (hlog : (perform request a).1 = []) : Run asStored a [] (perform request a).2 := by
  have hstep : Run asStored a _ _ := .single (.request request hadmits)
  rwa [hlog] at hstep

theorem asStored_of_ne {request : Request} (h : ∀ segment, request ≠ .openSegment segment) :
    asStored a request :=
  fun segment heq => absurd heq (h segment)

theorem silent_of_attempt {call : Operation Allocator α}
    (h : ∀ a, Run asStored a [] (call.attempt a).2) : Silent call :=
  fun a _ => .of_attempt_snd (h a)

theorem silent_addCollection (collection : Collection) :
    Silent (onStore (GuardedStore.addCollection collection)) :=
  silent_of_attempt fun _ =>
    run_request (.addCollection collection) (asStored_of_ne (by simp)) rfl

theorem silent_loadCatalog (catalog : Catalog) : Silent (onStore catalog.load) :=
  silent_of_attempt fun _ => run_request (.loadCatalog catalog) (asStored_of_ne (by simp)) rfl

theorem silent_recover : Silent recover :=
  silent_of_attempt fun _ => run_request .recover (asStored_of_ne (by simp)) rfl

theorem silent_onIds (call : Operation IdSource α) : Silent (onIds call) := fun a _ => by
  have hrun (b : Allocator) : (∃ ids, b = { a with ids }) → Run asStored a [] b := by
    rintro ⟨ids, rfl⟩
    exact .single (.surroundings ⟨rfl, rfl, fun _ _ => rfl, rfl, rfl, rfl, rfl, rfl, rfl, rfl, rfl⟩)
  exact ensures_onIds.imp (fun _ => hrun) fun _ => hrun

theorem silent_openTarget? (key : SegmentKey) : Silent (openTarget? key) := fun a hsound =>
  (ensures_openTarget? key hsound.truthful).imp (fun _ _ h => h.1.symm ▸ .nil a) fun _ _ h => h.elim

/-- An added segment is stored as it was built. -/
theorem ensures_addSegment_stored (id : SegmentId) (key : SegmentKey) (group : String)
    (node : Option NodeId) (capacity : UInt64) (openTime : Timestamp) :
    let segment := Segment.fresh id key group node capacity openTime
    Ensures (onStore (GuardedStore.addSegment segment)) a
      (fun _ b => Run asStored a [] b ∧ b.segments.get? id = some segment)
      (fun _ b => Run asStored a [] b) := by
  intro segment
  have hrun := run_request (a := a) (.addSegment id key group node capacity openTime)
    (asStored_of_ne (by simp)) rfl
  have hstored : Ensures (onStore (GuardedStore.addSegment segment)) a
      (fun _ b => b.segments.get? id = some segment) (fun _ _ => True) := by
    rw [onStore, ensures_onPart, GuardedStore.addSegment, GuardedStore.onMetadata, ensures_onPart]
    refine (Metadata.ensures_addSegment segment).imp (fun _ m h => ?_) fun _ _ _ => trivial
    change m.records.segments.get? id = some segment
    rw [h.2.segments, SortedMap.get?_insert]
    exact if_pos rfl
  exact ((Ensures.of_attempt_snd hrun).and hstored).imp (fun _ _ h => h) fun _ _ h => h.1

end Allocator

/-! ## Progress of a coordinator -/

namespace Coordinator

variable {α β : Type} {c d e : Coordinator} {log log' : List Allocator.Returned}

/-- The allocator is consistent, and every segment that is to be flushed has been sealed. -/
structure Sound (c : Coordinator) : Prop where
  allocator : c.allocator.Consistent
  commands : ∀ command ∈ c.cluster.outbox.queued, command.Names (ClosedIn c.allocator.segments)

/-- To the allocator it was a run with these answers, and all is sound afterwards. -/
structure Proceeds (c : Coordinator) (log : List Allocator.Returned) (d : Coordinator) : Prop where
  run : Allocator.Run Allocator.asStored c.allocator log d.allocator
  sound : d.Sound

theorem Proceeds.refl (h : c.Sound) : c.Proceeds [] c :=
  ⟨.nil _, h⟩

theorem Proceeds.trans (h : c.Proceeds log d) (h' : d.Proceeds log' e) :
    c.Proceeds (log ++ log') e :=
  ⟨h.run.append h'.run, h'.sound⟩

/-- What is no segment and no command does not count. -/
theorem Proceeds.of_eq (h : c.Sound) (hallocator : d.allocator = c.allocator)
    (houtbox : ∀ command ∈ d.cluster.outbox.queued, command ∈ c.cluster.outbox.queued) :
    c.Proceeds [] d where
  run := hallocator ▸ .nil _
  sound := by
    refine ⟨hallocator ▸ h.allocator, fun command hmem => ?_⟩
    rw [hallocator]
    exact h.commands command (houtbox command hmem)

theorem closedIn_of_run {a b : Allocator} {admits : Allocator → Allocator.Request → Prop}
    (h : Allocator.Run admits a log b) (hsound : a.Sound) {id : SegmentId}
    (hclosed : ClosedIn a.segments id) : ClosedIn b.segments id := by
  obtain ⟨writes, hhistory, _⟩ := (h.extends hsound).1.history
  exact hhistory.closedIn hclosed

/-- The allocator has run, and nothing else has happened. -/
theorem Proceeds.of_run {b : Allocator} (h : c.Sound)
    (hrun : Allocator.Run Allocator.asStored c.allocator log b) :
    c.Proceeds log { c with allocator := b } where
  run := hrun
  sound := {
    allocator := hrun.consistent h.allocator
    commands := fun command hmem => (h.commands command hmem).imp fun _ hclosed =>
      closedIn_of_run hrun h.allocator.sound hclosed }

/-- Asking for sealed segments to be flushed. -/
theorem Proceeds.requestFlush {segments : List Segment} (h : c.Proceeds log d)
    (hclosed : Allocator.Closed segments d.allocator) :
    c.Proceeds log (d.changeCluster fun cluster => cluster.requestFlush segments) where
  run := h.run
  sound := by
    refine ⟨h.sound.allocator, fun command hmem => ?_⟩
    rcases Cluster.mem_post hmem with hmem | hmem
    · exact h.sound.commands command hmem
    · exact Registry.names_of_mem_flushCommands hclosed hmem

/-! ## Steady operations -/

/-- The operation answers no grant, and keeps all sound wherever it stops. -/
def Steady (operation : Operation Coordinator α) : Prop :=
  ∀ c : Coordinator, c.Sound →
    Ensures operation c (fun _ d => c.Proceeds [] d) (fun _ d => c.Proceeds [] d)

variable {operation : Operation Coordinator α}

theorem Steady.pure (value : α) : Steady (pure value) :=
  fun _ h => .refl h

theorem Steady.throw (e : Error) : Steady (throw e : Operation Coordinator α) :=
  fun _ h => .refl h

theorem Steady.get : Steady get :=
  fun _ h => .refl h

theorem Steady.ofExcept (result : Except Error α) :
    Steady (ofExcept result : Operation Coordinator α) := fun c h => by
  rw [ensures_ofExcept]
  exact ⟨fun _ _ => .refl h, fun _ _ => .refl h⟩

theorem Steady.modify {f : Coordinator → Coordinator}
    (hf : ∀ c : Coordinator, c.Sound → c.Proceeds [] (f c)) : Steady (modify f) :=
  fun c h => hf c h

theorem Steady.bind {f : α → Operation Coordinator β} (h : Steady operation)
    (hf : ∀ value, Steady (f value)) : Steady (operation >>= f) := fun c hsound => by
  rw [ensures_bind]
  refine (h c hsound).imp (fun value d hd => ?_) fun _ _ hd => hd
  exact (hf value d hd.sound).imp (fun _ _ he => hd.trans he) fun _ _ he => hd.trans he

theorem Steady.attempt (h : Steady operation) (hsound : c.Sound) :
    c.Proceeds [] (operation.attempt c).2 :=
  (h c hsound).attempt_snd

theorem Steady.ofAttempt (h : Steady operation) : Steady (ofStep operation.attempt) :=
  fun _ hsound => ensures_ofStep.2 (h.attempt hsound)

theorem steady_onAllocator {call : Operation Allocator α} (h : Allocator.Silent call) :
    Steady (onAllocator call) := fun c hsound => by
  rw [onAllocator, ensures_onPart]
  exact (h c.allocator hsound.allocator.sound).imp (fun _ _ hrun => .of_run hsound hrun)
    fun _ _ hrun => .of_run hsound hrun

/-- A call to the cluster that queues no commands but those with which nothing is flushed. -/
theorem steady_onCluster {call : Operation Cluster α}
    (h : ∀ cluster p, (∀ command ∈ cluster.outbox.queued, Command.Names p command) →
      Ensures call cluster
        (fun _ cluster' => ∀ command ∈ cluster'.outbox.queued, Command.Names p command)
        (fun _ cluster' => ∀ command ∈ cluster'.outbox.queued, Command.Names p command)) :
    Steady (onCluster call) := fun c hsound => by
  rw [onCluster, ensures_onPart]
  exact (h c.cluster _ hsound.commands).imp
    (fun _ _ hnames => ⟨.nil _, hsound.allocator, hnames⟩)
    fun _ _ hnames => ⟨.nil _, hsound.allocator, hnames⟩

theorem steady_onChannels (call : Operation Channels α) : Steady (onChannels call) :=
  fun c hsound => by
    rw [onChannels, ensures_onPart]
    exact .of_forall (fun _ _ => .of_eq hsound rfl fun _ hmem => hmem)
      fun _ _ => .of_eq hsound rfl fun _ hmem => hmem

end Coordinator

end IngestCoordinator
