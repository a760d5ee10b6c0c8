-- SUMMARY: The barrier tracks exactly the nodes that are registered, whatever is asked of a coordinator.
import IngestCoordinator.Proofs.Coordinator.Concerns
import IngestCoordinator.Proofs.Coordinator.Moments
import IngestCoordinator.Proofs.Watermark

/-!
# Attendance

The registry and the barrier each keep their own account of the nodes, and they are
changed one after the other. A node is in both or in neither after every request: also
if its address was known under another number, if its number was taken, if it was not
there to leave, or if the catalog was silent. So the watermark is held back by the
registered nodes and by nobody else.
-/

namespace IngestCoordinator.Coordinator

open Operation

variable {c d : Coordinator} {node : NodeId} {admits : Coordinator → Request → Prop}
  {moment : Moment} {moments : List Moment}

/-- The barrier tracks the registered nodes, and is settled. -/
structure Attended (c : Coordinator) : Prop where
  registry : c.cluster.registry.Sound
  barrier : c.barrier.Settled
  tracked : ∀ node, c.barrier.Tracks node ↔ c.cluster.registry.Has node

theorem Attended.of_same (h : c.Attended)
    (hregistry : c.cluster.registry.SameNodes d.cluster.registry) (hbarrier : d.barrier = c.barrier) :
    d.Attended := by
  obtain ⟨hsound, hsame⟩ := hregistry h.registry
  refine ⟨hsound, hbarrier ▸ h.barrier, fun node => ?_⟩
  rw [hbarrier, hsame node]
  exact h.tracked node

/-! ## Nodes come and go -/

theorem preserves_askDdChannel_attended : Preserves Attended askDdChannel :=
  preserves_askDdChannel fun _ _ _ hcluster hbarrier _ h =>
    h.of_same (.of_eq (hcluster ▸ rfl)) hbarrier

/-- The node that the barrier is told of is the one that the registry answers with. -/
theorem preserves_register_attended (address : String) (id : NodeId) :
    Preserves Attended (register address id) := by
  refine preserves_askDdChannel_attended.bind fun ddChannel c h => ?_
  rw [ensures_bind, onCluster, ensures_onPart]
  simp only [Cluster.register, Cluster.onRegistry, ensures_bind, ensures_get, ensures_onPart]
  refine ((Registry.ensures_register c.cluster.now address id).and
    (Registry.ensures_register_has c.cluster.now address id h.registry)).imp
      (fun answer registry hb => ?_) fun _ registry hb => ?_
  · obtain ⟨hfrees, hhas⟩ := hb
    have hattended (cluster : Cluster) (hcluster : cluster.registry = registry) :
        Attended { c with cluster, barrier := c.barrier.add answer.1.id } := by
      refine ⟨hcluster ▸ hfrees.sound h.registry, h.barrier.add _, fun node => ?_⟩
      rw [hcluster, hhas node, ← h.tracked node]
      exact Barrier.tracks_add
    split
    · exact hattended _ rfl
    · exact hattended _ rfl
  · exact h.of_same (.of_eq hb.2) rfl

theorem preserves_deregister_attended (id : NodeId) : Preserves Attended (deregister id) := fun c h => by
  rw [deregister, ensures_bind, onCluster, ensures_onPart]
  simp only [Cluster.deregister, Cluster.onRegistry, ensures_bind, ensures_onPart]
  refine ((Registry.ensures_deregister id).and (Registry.ensures_deregister_has id)).imp
    (fun _ registry hb => ?_) fun _ registry hb => h.of_same (.of_eq hb.2) rfl
  obtain ⟨hfrees, hhas⟩ := hb
  refine ⟨hfrees.sound h.registry, h.barrier.remove id, fun node => ?_⟩
  refine Barrier.tracks_remove.trans ?_
  rw [h.tracked node]
  exact (hhas node).symm

theorem Attended.deregisterEach (nodes : List NodeId) (h : c.Attended) :
    (deregisterEach nodes c).2.Attended := by
  induction nodes generalizing c with
  | nil => exact h
  | cons node nodes ih =>
    have hfirst := (preserves_deregister_attended node).attempt h
    simp only [Coordinator.deregisterEach, step_bind]
    cases ((deregister node).attempt c).1 with
    | ok => exact ih hfirst
    | error e => exact ih hfirst

theorem Attended.reap (h : c.Attended) : (reap c).2.Attended :=
  h.deregisterEach _

theorem Attended.runReaper (h : c.Attended) : c.runReaper.Attended := by
  unfold Coordinator.runReaper
  split
  · dsimp only
    split
    · refine Attended.reap ?_
      exact h.of_same (.of_eq rfl) rfl
    · exact h
  · exact h
  · exact h

/-- A tick is a heartbeat to the registry, and moves nobody in either account. -/
theorem Attended.onTick (h : c.Attended) (tick : TimeTick) : (c.onTick tick).Attended := by
  refine ⟨(Registry.frees_touch _ c.cluster.now tick.node).sound h.registry,
    h.barrier.observe tick, fun node => ?_⟩
  exact (Barrier.tracks_observe tick).trans ((h.tracked node).trans (Registry.has_touch ..).symm)

theorem Attended.readTimeTicks (h : c.Attended) : c.readTimeTicks.Attended :=
  List.foldlRecOn (motive := Attended) _ _ (h.of_same (.of_eq rfl) rfl) fun _ h tick _ =>
    h.onTick tick

/-! ## Whatever happens -/

/-- Requests about nodes are always admitted, and all others while the store reads truthfully. -/
def attending (c : Coordinator) (request : Request) : Prop :=
  request.isAboutNodes = true ∨ c.allocator.Sound

theorem Attended.perform (h : c.Attended) (request : Request) (hsettle : request ≠ .settle)
    (hadmits : attending c request) : (perform request c).2.Attended := by
  have hnodes (hrequest : request.isAboutNodes = true) : (Coordinator.perform request c).2.Attended := by
    cases request with
    | register address node => exact (preserves_register_attended address node).attempt h
    | deregister node => exact (preserves_deregister_attended node).attempt h
    | reap => exact h.reap
    | sendTimeTick tick => exact h.of_same (.of_eq rfl) rfl
    | readTimeTicks => exact h.readTimeTicks
    | runReaper => exact h.runReaper
    | _ => cases hrequest
  rcases hadmits with hrequest | hsound
  · exact hnodes hrequest
  · cases concerns_perform request hsettle hsound with
    | nodes hrequest => exact hnodes hrequest
    | statistics _ hwrote => exact h.of_same (.of_eq (hwrote.cluster ▸ rfl)) hwrote.barrier
    | neither hspares => exact h.of_same hspares.registry hspares.barrier

theorem Attended.operates (h : c.Attended) (hstep : Operates attending c moment d) :
    d.Attended := by
  cases hstep with
  | request request hsettle hadmits => exact h.perform request hsettle hadmits
  | tick tick => exact h.onTick tick
  | waits hwaits => exact h.of_same (.of_eq hwaits.registry) hwaits.barrier

theorem attended_of_empty (hregistry : c.cluster.registry = {}) (hbarrier : c.barrier = {}) :
    c.Attended where
  registry := hregistry ▸ Registry.sound_empty
  barrier := hbarrier ▸ Barrier.settled_empty
  tracked node := by
    rw [hregistry, hbarrier]
    exact ⟨(fun ⟨_, hget⟩ => nomatch hget), fun hhas => (Registry.has_empty hhas).elim⟩

/--
After every step of every run that starts without nodes, whether what was asked was done
or refused, the nodes that the barrier tracks are those that are registered. While there
is one, the watermark is the least last tick of the registered nodes.
-/
theorem barrier_tracks_registered (hregistry : c.cluster.registry = {}) (hbarrier : c.barrier = {})
    (hrun : Path (Operates attending) c moments d) :
    (∀ node, d.barrier.Tracks node ↔ d.cluster.registry.Has node) ∧
    ((∃ node, d.cluster.registry.Has node) →
      IsLeast {tick | ∃ node, d.cluster.registry.Has node ∧ d.barrier.ticks.get? node = some tick}
        d.barrier.watermark) := by
  have hattended : d.Attended :=
    hrun.invariant (fun _ _ _ h hstep => h.operates hstep) (attended_of_empty hregistry hbarrier)
  refine ⟨hattended.tracked, fun ⟨node, hhas⟩ => ?_⟩
  have hsame : {tick | ∃ node, d.cluster.registry.Has node ∧
      d.barrier.ticks.get? node = some tick} = d.barrier.lastTicks := by
    ext tick
    exact exists_congr fun node => and_iff_right_of_imp fun hget =>
      (hattended.tracked node).1 ⟨tick, hget⟩
  obtain ⟨tick, hget⟩ := (hattended.tracked node).2 hhas
  rw [hsame]
  exact hattended.barrier ⟨tick, node, hget⟩

/-- Of two nodes one registers again under another number, and a third wants a number that is taken. -/
def registering : List Request :=
  [.register "first" ⟨1⟩, .register "second" ⟨2⟩, .register "first" ⟨7⟩, .register "third" ⟨2⟩,
    .sendTimeTick ⟨⟨1⟩, 20⟩, .sendTimeTick ⟨⟨2⟩, 30⟩, .readTimeTicks, .deregister ⟨7⟩]

/-- The number that was asked for in vain holds nothing back. -/
theorem tracked_under_first_number :
    let c := (performAll registering onMemory).2
    c.barrier.Tracks ⟨1⟩ ∧ ¬ c.barrier.Tracks ⟨7⟩ ∧ c.barrier.watermark = 20 ∧
      IsLeast {tick | ∃ node, c.cluster.registry.Has node ∧ c.barrier.ticks.get? node = some tick}
        c.barrier.watermark := by
  have hadmits : ∀ request ∈ registering, ∀ c, attending c request := by
    simp [registering, attending, Request.isAboutNodes]
  have hrun := path_performAll (operates_of_mem registering (by simp [registering]) hadmits) onMemory
  obtain ⟨htracked, hleast⟩ := barrier_tracks_registered rfl rfl hrun
  have hfirst : (performAll registering onMemory).2.cluster.registry.Has ⟨1⟩ :=
    ⟨⟨⟨1⟩, "first", []⟩, by decide +kernel⟩
  have hseventh : ¬ (performAll registering onMemory).2.cluster.registry.Has ⟨7⟩ := by
    rintro ⟨info, hinfo⟩
    have hnone : (performAll registering onMemory).2.cluster.registry.node? ⟨7⟩ = none := by
      decide +kernel
    cases hnone.symm.trans hinfo
  exact ⟨(htracked _).2 hfirst, fun h => hseventh ((htracked _).1 h), by decide +kernel,
    hleast ⟨_, hfirst⟩⟩

end IngestCoordinator.Coordinator
