-- SUMMARY: Exactly the nodes that have been silent for too long are removed, with their groups and ticks.
import IngestCoordinator.Coordinator.Collections
import IngestCoordinator.Proofs.Coordinator.Attendance
import IngestCoordinator.Proofs.Coordinator.InsertChannels
import IngestCoordinator.Proofs.Heartbeats

/-!
# Silent nodes

A node that has not been heard of for longer than the timeout is removed: from the
registry, with the ownership of its groups, and from the barrier. A node counts as heard
of when its address is registered again and by any tick with its number, also by one that
is too old to move the barrier. Whoever has been heard of in time keeps its groups and its
tick, so it still holds the watermark back.
-/

namespace IngestCoordinator.Coordinator

open Operation Registry

variable {c d e : Coordinator} {log : List (Option Heartbeat)} {gone : List NodeId} {id : NodeId}

/-! ## Removing nodes -/

/-- Some nodes are gone from registry and barrier, with their groups; time stands still. -/
structure Without (gone : List NodeId) (c d : Coordinator) : Prop where
  members : ∀ id, d.cluster.registry.members.get? id =
    if id ∈ gone then none else c.cluster.registry.members.get? id
  owners : ∀ name, d.cluster.registry.ownerOf name =
    (c.cluster.registry.ownerOf name).filter (· ∉ gone)
  ticks : ∀ id, d.barrier.ticks.get? id = if id ∈ gone then none else c.barrier.ticks.get? id
  now : d.cluster.now = c.cluster.now
  settings : d.settings = c.settings

theorem Without.refl (c : Coordinator) : Without [] c c where
  members _ := rfl
  owners name := by cases c.cluster.registry.ownerOf name <;> simp [Option.filter]
  ticks _ := rfl
  now := rfl
  settings := rfl

theorem Without.cons (h : Without [id] c d) (h' : Without gone d e) : Without (id :: gone) c e where
  members node := by
    rw [h'.members, h.members]
    by_cases hfirst : node = id <;> simp [hfirst]
  owners name := by
    rw [h'.owners, h.owners, Option.filter_filter]
    simp
  ticks node := by
    rw [h'.ticks, h.ticks]
    by_cases hfirst : node = id <;> simp [hfirst]
  now := h'.now.trans h.now
  settings := h'.settings.trans h.settings

theorem Without.has (h : Without gone c d) :
    d.cluster.registry.Has id ↔ id ∉ gone ∧ c.cluster.registry.Has id := by
  rw [has_iff, h.members, has_iff]
  by_cases hgone : id ∈ gone <;> simp [hgone]

/-- A registered node can be removed. -/
theorem exists_deregister (hhas : c.cluster.registry.Has id) :
    ∃ d, deregister id c = .ok () d ∧ Without [id] c d := by
  obtain ⟨member, hget⟩ := has_iff.1 hhas
  have hremoved : Ensures (deregister id) c (fun _ d => Without [id] c d) fun _ _ => False := by
    simp only [deregister, onCluster, Cluster.deregister, Cluster.onRegistry, Registry.deregister,
      ensures_bind, ensures_onPart, ensures_get, hget, ensures_set, ensures_pure, ensures_modify]
    constructor
    case members => simp [untrack, Cluster.showSize, SortedMap.get?_erase]
    case owners => simp [untrack, Cluster.showSize, ownerOf, SortedMap.get?_filter]
    case ticks => simp [untrack, Barrier.get?_ticks_remove]
    case now => rfl
    case settings => rfl
  obtain ⟨_, d, hok, hwithout⟩ := exists_ok_of_ensures hremoved
  exact ⟨d, hok, hwithout⟩

/-- Registered nodes can be removed one after another, since none of them goes twice. -/
theorem deregisterEach_without (hnodup : gone.Nodup)
    (hhas : ∀ id ∈ gone, c.cluster.registry.Has id) :
    (deregisterEach gone c).1 = gone ∧ Without gone c (deregisterEach gone c).2 := by
  induction gone generalizing c with
  | nil => exact ⟨rfl, .refl c⟩
  | cons id gone ih =>
    obtain ⟨hfresh, hnodup⟩ := List.nodup_cons.1 hnodup
    obtain ⟨hfirst, hrest⟩ := List.forall_mem_cons.1 hhas
    obtain ⟨d, hok, hwithout⟩ := exists_deregister hfirst
    have hstill : ∀ node ∈ gone, d.cluster.registry.Has node := by
      intro node hmem
      apply hwithout.has.2
      exact ⟨List.mem_singleton.not.2 (ne_of_mem_of_not_mem hmem hfresh), hrest node hmem⟩
    obtain ⟨hanswer, hothers⟩ := ih hnodup hstill
    simp only [deregisterEach, step_bind, attempt, hok, step_pure, hanswer]
    exact ⟨trivial, hwithout.cons hothers⟩

/-! ## Runs -/

/-- What concerns who is registered, and when a node was last heard of. -/
inductive Visit where
  | register (address : String) (id : NodeId)
  | tick (tick : TimeTick)
  | deregister (id : NodeId)
  | reap
  | insertChannels (collection : CollectionId)
  | wait (ms : Nat)
  deriving Repr

/-- Does what is asked; what fails may leave something done. -/
def visit : Visit → Coordinator → Coordinator
  | .register address id, c => ((register address id).attempt c).2
  | .tick tick, c => c.onTick tick
  | .deregister id, c => ((deregister id).attempt c).2
  | .reap, c => (reap c).2
  | .insertChannels collection, c => ((insertChannels collection).attempt c).2
  | .wait ms, c => c.changeCluster fun cluster => cluster.advance ms

/-- A registration is a heartbeat unless it is refused, and so is every tick. -/
def Visit.heartbeat? : Visit → Coordinator → Option Heartbeat
  | .register address id, c =>
    match ((Coordinator.register address id).attempt c).1 with
    | .ok _ => some ⟨.registered address, c.cluster.now⟩
    | .error _ => none
  | .tick sent, c => some ⟨.ticked sent.node, c.cluster.now⟩
  | .deregister _, _ | .reap, _ | .insertChannels _, _ | .wait _, _ => none

/-- Something is done about nodes, or anything that registry and barrier do not notice. -/
inductive Passes : Coordinator → Option Heartbeat → Coordinator → Prop where
  | visit {c : Coordinator} (v : Visit) : Passes c (v.heartbeat? c) (visit v c)
  | otherwise {c d : Coordinator} (hregistry : d.cluster.registry = c.cluster.registry)
    (hbarrier : d.barrier = c.barrier) : Passes c none d

/-- Registry and barrier agree, and the log tells when nodes were last heard of. -/
structure Followed (log : List (Option Heartbeat)) (c : Coordinator) : Prop where
  aligned : c.cluster.registry.Aligned
  attended : c.Attended
  logged : c.cluster.registry.LoggedIn log

theorem Followed.quiet (h : Followed log c) : Followed (log ++ [none]) c :=
  ⟨h.aligned, h.attended, loggedIn_append_none.2 h.logged⟩

theorem Followed.of_quiet (h : Followed (log ++ [none]) c) : Followed log c :=
  ⟨h.aligned, h.attended, loggedIn_append_none.1 h.logged⟩

theorem Followed.of_same (h : Followed log c) (hregistry : d.cluster.registry = c.cluster.registry)
    (hbarrier : d.barrier = c.barrier) : Followed log d :=
  ⟨hregistry ▸ h.aligned, h.attended.of_same (.of_eq hregistry) hbarrier, hregistry ▸ h.logged⟩

/-- The registry has kept what it knew, and has heard what is in the entry. -/
theorem Followed.step {entry : Option Heartbeat} (h : Followed log c) (gone : Option NodeId)
    (hkeeps : Registry.Keeps gone c.cluster.registry d.cluster.registry)
    (hhears : Hears entry c.cluster.registry d.cluster.registry) (hattended : d.Attended) :
    Followed (log ++ [entry]) d :=
  ⟨hkeeps.aligned h.aligned, hattended, hhears.loggedIn h.logged⟩

theorem ensures_register_hears (address : String) (id : NodeId)
    (haligned : c.cluster.registry.Aligned) : Ensures (register address id) c
      (fun _ d => Registry.Keeps none c.cluster.registry d.cluster.registry ∧
        Hears (some ⟨.registered address, c.cluster.now⟩) c.cluster.registry d.cluster.registry)
      (fun _ d => d.cluster.registry = c.cluster.registry) := by
  have hask : Preserves (fun d : Coordinator => d.cluster = c.cluster) askDdChannel :=
    preserves_askDdChannel fun _ _ _ hcluster _ _ hsame => hcluster.trans hsame
  rw [register, ensures_bind]
  apply (hask c rfl).imp
  · intro _ d hd
    have hkeeps : Ensures (Registry.register c.cluster.now address id) c.cluster.registry
        (fun _ registry => Registry.Keeps none c.cluster.registry registry)
        (fun _ registry => Registry.Keeps none c.cluster.registry registry) :=
      Registry.ensures_register_keeps c.cluster.now address id
    have hhears := Registry.ensures_register_hears c.cluster.now address id haligned
    simp only [onCluster, Cluster.register, Cluster.onRegistry, ensures_bind, ensures_onPart,
      ensures_get, hd]
    apply (hkeeps.and hhears).imp
    · intro answer registry hregistry
      split
      · exact hregistry
      · exact hregistry
    · exact fun _ registry hregistry => hregistry.2
  · exact fun _ d hd => congrArg Cluster.registry hd

theorem Followed.register (h : Followed log c) (address : String) (id : NodeId) :
    Followed (log ++ [(Visit.register address id).heartbeat? c])
      ((register address id).attempt c).2 := by
  have hattended := (preserves_register_attended address id).attempt h.attended
  have hregister := (ensures_register_hears address id h.aligned).attempt
  simp only [Visit.heartbeat?]
  cases hanswer : ((Coordinator.register address id).attempt c).1 with
  | ok registration =>
    rw [hanswer] at hregister
    exact h.step none hregister.1 hregister.2 hattended
  | error error =>
    rw [hanswer] at hregister
    have hsame : ((Coordinator.register address id).attempt c).2.cluster.registry =
      c.cluster.registry := hregister
    exact h.step none (hsame ▸ .refl none _) (hsame ▸ .refl _) hattended

/-- Groups of nodes may be given away, if anything is done at all. -/
theorem ensures_insertChannels_given (collection : CollectionId)
    (haligned : c.cluster.registry.Aligned) :
    let given (d : Coordinator) := d.barrier = c.barrier ∧
      Registry.Keeps none c.cluster.registry d.cluster.registry ∧
      ∃ new, c.cluster.registry.Given new d.cluster.registry
    Ensures (insertChannels collection) c (fun _ d => given d) (fun _ d => given d) := by
  intro given
  have hsame (d : Coordinator) (hregistry : d.cluster.registry = c.cluster.registry)
      (hbarrier : d.barrier = c.barrier) : given d :=
    ⟨hbarrier, hregistry ▸ .refl none _, [], hregistry ▸ .refl _⟩
  rw [insertChannels, ensures_bind]
  apply (ensures_requireCollection collection).imp
  · intro _ d hd
    subst d
    rw [ensures_bind, ensures_get, ensures_bind, onChannels, ensures_onPart]
    apply Ensures.of_forall
    · intro answer channels
      simp only [ensures_bind, ensures_get]
      split
      · by_cases hsome : ∃ id, c.cluster.registry.Has id
        · have hdeals := deals_giveAll answer.1 haligned.sound.toNumbered hsome
          have hkeeps : Registry.Keeps none c.cluster.registry _ :=
            Registry.keeps_foldl answer.1 { registry := c.cluster.registry } haligned
          simp only [ensures_bind, onCluster, ensures_onPart,
            ensures_of_ok (Cluster.watch_eq_ok answer.1 hsome), ensures_modify, ensures_pure]
          unfold flushOrphans
          split
          · exact ⟨rfl, hkeeps, _, hdeals.given⟩
          · exact ⟨rfl, hkeeps, _, hdeals.given⟩
        · simp only [ensures_bind, onCluster, ensures_onPart,
            ensures_of_error (Cluster.watch_eq_error answer.1 hsome)]
          exact hsame _ rfl rfl
      · exact hsame _ rfl rfl
    · exact fun _ channels => hsame _ rfl rfl
  · exact fun _ d hd => hsame d (hd ▸ rfl) (hd ▸ rfl)

theorem Followed.insertChannels (h : Followed log c) (collection : CollectionId) :
    Followed (log ++ [none]) ((insertChannels collection).attempt c).2 := by
  obtain ⟨hbarrier, hkeeps, new, hgiven⟩ :=
    (ensures_insertChannels_given collection h.aligned).attempt_snd
  refine h.step none hkeeps hgiven.hears (h.attended.of_same (fun hsound => ?_) hbarrier)
  exact ⟨(hkeeps.aligned h.aligned).sound, fun _ => hgiven.has⟩

theorem Followed.deregister (h : Followed log c) (id : NodeId) :
    Followed (log ++ [none]) ((deregister id).attempt c).2 := by
  have hderegister : Ensures (Coordinator.deregister id) c
      (fun _ d => Registry.Keeps (some id) c.cluster.registry d.cluster.registry ∧
        Hears none c.cluster.registry d.cluster.registry)
      (fun _ d => Registry.Keeps (some id) c.cluster.registry d.cluster.registry ∧
        Hears none c.cluster.registry d.cluster.registry) := by
    rw [Coordinator.deregister, ensures_bind, onCluster, ensures_onPart]
    simp only [Cluster.deregister, Cluster.onRegistry, ensures_bind, ensures_onPart]
    apply ((Registry.ensures_deregister_keeps id).and (ensures_deregister_hears id)).imp
    · exact fun _ _ hregistry => hregistry
    · exact fun _ _ hregistry => ⟨hregistry.1, hregistry.2 ▸ .refl _⟩
  obtain ⟨hkeeps, hhears⟩ := hderegister.attempt_snd
  exact h.step (some id) hkeeps hhears ((preserves_deregister_attended id).attempt h.attended)

theorem Followed.deregisterEach (ids : List NodeId) (h : Followed log c) :
    Followed log (deregisterEach ids c).2 := by
  induction ids generalizing c with
  | nil => exact h
  | cons id ids ih =>
    have hfirst := ih (h.deregister id).of_quiet
    simp only [Coordinator.deregisterEach, step_bind]
    cases ((Coordinator.deregister id).attempt c).1 with
    | ok => exact hfirst
    | error e => exact hfirst

theorem Followed.tick (h : Followed log c) (tick : TimeTick) :
    Followed (log ++ [some ⟨.ticked tick.node, c.cluster.now⟩]) (c.onTick tick) :=
  h.step none (keeps_touch _ _ _)
    (hears_touch h.aligned.sound.toNumbered c.cluster.now tick.node) (h.attended.onTick tick)

theorem Followed.visit (h : Followed log c) (v : Visit) :
    Followed (log ++ [v.heartbeat? c]) (visit v c) := by
  cases v with
  | register address id => exact h.register address id
  | tick tick => exact h.tick tick
  | deregister id => exact h.deregister id
  | reap => exact (h.deregisterEach _).quiet
  | insertChannels collection => exact h.insertChannels collection
  | wait ms =>
    have hsame : Followed log (Coordinator.visit (.wait ms) c) := h.of_same rfl rfl
    exact hsame.quiet

theorem followed_of_path (hregistry : c.cluster.registry = {}) (hbarrier : c.barrier = {})
    (hrun : Path Passes c log d) : Followed log d := by
  induction hrun with
  | nil =>
    exact ⟨hregistry ▸ aligned_empty, attended_of_empty hregistry hbarrier,
      hregistry ▸ loggedIn_empty⟩
  | snoc _ hstep ih =>
    cases hstep with
    | visit v => exact ih.visit v
    | otherwise hregistry hbarrier => exact (ih.of_same hregistry hbarrier).quiet

/-! ## Removing the silent ones -/

/-- The nodes that are silent now. -/
def silent (c : Coordinator) : List NodeId :=
  c.cluster.silentNodes c.settings.cluster.silenceTimeoutMs

theorem reap_eq (hsound : c.cluster.registry.Sound) :
    (reap c).1 = c.silent ∧ Without c.silent c (reap c).2 := by
  apply deregisterEach_without
  · apply (ascending_silentNodes hsound.toNumbered).imp
    rintro id _ hlt rfl
    simp at hlt
  · intro id hmem
    obtain ⟨member, hget, -⟩ := (mem_silentNodes_iff hsound.toNumbered).1 hmem
    exact has_iff.2 ⟨member, hget⟩

theorem reap_of_silent_eq_nil (h : c.silent = []) : reap c = ([], c) := by
  change deregisterEach c.silent c = ([], c)
  rw [h]
  rfl

/-- Nobody becomes silent by the removal of others. -/
theorem Without.silent_eq_nil (h : Without c.silent c d) (hsound : c.cluster.registry.Sound)
    (hafter : d.cluster.registry.Sound) : d.silent = [] := by
  apply List.eq_nil_iff_forall_not_mem.2
  intro id hmem
  obtain ⟨member, hget, hlate⟩ := (mem_silentNodes_iff hafter.toNumbered).1 hmem
  rw [h.members] at hget
  obtain ⟨hstays, hget⟩ := Option.ite_none_left_eq_some.1 hget
  rw [h.now, h.settings] at hlate
  exact hstays ((mem_silentNodes_iff hsound.toNumbered).2 ⟨member, hget, hlate⟩)

/-- The groups without a new owner are those on the lists of the nodes that are gone. -/
theorem Without.released_iff (h : Without gone c d) (haligned : c.cluster.registry.Aligned)
    {name : String} :
    c.cluster.registry.ownerOf name ≠ none ∧ d.cluster.registry.ownerOf name = none ↔
      ∃ id ∈ gone, ∃ info, c.cluster.registry.node? id = some info ∧ name ∈ info.groups := by
  simp only [← haligned.owner, h.owners]
  cases c.cluster.registry.ownerOf name with
  | none => simp
  | some owner => simp

/--
Whatever visits there have been, the removal of silent nodes takes those, in order, whose
latest heartbeat is longer ago than the timeout. They are gone from registry and barrier,
and the groups on their lists are without an owner. Every other node keeps its record, its
groups, its heartbeat and its tick. There is nobody left to remove at the same moment.
-/
theorem reap_removes_silent (hregistry : c.cluster.registry = {}) (hbarrier : c.barrier = {})
    (hrun : Path Passes c log d) :
    let silent := (reap d).1
    let e := (reap d).2
    (∀ id ∈ silent, d.cluster.registry.Has id ∧ d.barrier.Tracks id) ∧
    (∀ id info, d.cluster.registry.node? id = some info →
      ∃ time, Heartbeat.latest log info = some time ∧
        (id ∈ silent ↔ time + d.settings.cluster.silenceTimeoutMs < d.cluster.now)) ∧
    silent.Pairwise (fun id id' => compare id id' = .lt) ∧
    (∀ id, e.cluster.registry.members.get? id =
      if id ∈ silent then none else d.cluster.registry.members.get? id) ∧
    (∀ id, e.barrier.ticks.get? id = if id ∈ silent then none else d.barrier.ticks.get? id) ∧
    (∀ name, d.cluster.registry.ownerOf name ≠ none ∧ e.cluster.registry.ownerOf name = none ↔
      ∃ id ∈ silent, ∃ info, d.cluster.registry.node? id = some info ∧ name ∈ info.groups) ∧
    (∀ name owner, e.cluster.registry.ownerOf name = some owner ↔
      d.cluster.registry.ownerOf name = some owner ∧ owner ∉ silent) ∧
    e.cluster.now = d.cluster.now ∧ reap e = ([], e) := by
  have hfollowed := followed_of_path hregistry hbarrier hrun
  have hnumbered := hfollowed.aligned.sound.toNumbered
  obtain ⟨hsilent, hwithout⟩ := reap_eq hfollowed.aligned.sound
  have hafter : Followed log (reap d).2 := hfollowed.deregisterEach _
  simp only [hsilent]
  refine ⟨?_, ?_, ascending_silentNodes hnumbered, hwithout.members, hwithout.ticks,
    fun _ => hwithout.released_iff hfollowed.aligned, ?_, hwithout.now, ?_⟩
  · intro id hmem
    obtain ⟨member, hget, -⟩ := (mem_silentNodes_iff hnumbered).1 hmem
    have hhas : d.cluster.registry.Has id := has_iff.2 ⟨member, hget⟩
    exact ⟨hhas, (hfollowed.attended.tracked id).2 hhas⟩
  · intro id info hinfo
    obtain ⟨member, hget, rfl⟩ := Option.map_eq_some_iff.1 hinfo
    refine ⟨member.lastHeartbeat, hfollowed.logged id member hget, ?_⟩
    rw [silent, Cluster.silentNodes, mem_silentNodes_iff hnumbered, hget]
    simp
  · intro name owner
    rw [hwithout.owners, Option.filter_eq_some_iff, decide_eq_true_eq]
  · apply reap_of_silent_eq_nil
    exact hwithout.silent_eq_nil hfollowed.aligned.sound hafter.aligned.sound

/-- Pays visits one after the other. -/
def visitAll (visits : List Visit) (c : Coordinator) : Coordinator :=
  visits.foldl (fun c v => visit v c) c

/-- The log of visits. -/
def logOf : List Visit → Coordinator → List (Option Heartbeat)
  | [], _ => []
  | v :: visits, c => v.heartbeat? c :: logOf visits (visit v c)

theorem path_visitAll (visits : List Visit) (c : Coordinator) :
    Path Passes c (logOf visits c) (visitAll visits c) := by
  induction visits generalizing c with
  | nil => exact .nil c
  | cons v visits ih => exact (Path.single (.visit v)).append (ih _)

/-- A coordinator that has a collection with three channels, and no nodes. -/
def stocked : Coordinator :=
  (performAll [.addCollection ⟨⟨1⟩, ⟨"schema", [⟨"field", .int64, 0⟩]⟩, [⟨2⟩]⟩] threeChannels).2

/-- Of three nodes one registers again, one sends a tick that is too old, and one is quiet. -/
def quietThird : List Visit :=
  [.register "first" ⟨1⟩, .register "second" ⟨2⟩, .register "third" ⟨3⟩, .tick ⟨⟨2⟩, 70⟩,
    .insertChannels ⟨1⟩, .wait 20000, .register "first" ⟨7⟩, .tick ⟨⟨2⟩, 60⟩, .tick ⟨⟨9⟩, 80⟩,
    .wait 15000]

/-- The quiet one goes after thirty seconds, and the others keep what they watch. -/
theorem reap_removes_silent_third :
    ∃ d, d = visitAll quietThird stocked ∧
      Heartbeat.latest (logOf quietThird stocked) ⟨⟨3⟩, "third", ["1-group-2"]⟩ = some 0 ∧
      (reap d).1 = [⟨3⟩] ∧ (reap d).2.barrier.ticks.get? ⟨3⟩ = none ∧
      (reap d).2.barrier.ticks.get? ⟨2⟩ = some 70 ∧
      (reap d).2.cluster.registry.ownerOf "1-group-2" = none ∧
      (reap d).2.cluster.registry.ownerOf "1-group-0" = some ⟨1⟩ ∧
      reap (reap d).2 = ([], (reap d).2) := by
  obtain ⟨d, hd⟩ : ∃ d, d = visitAll quietThird stocked := ⟨_, rfl⟩
  have hgone : (reap d).1 = [⟨3⟩] := by
    rw [hd]
    decide +kernel
  have hinfo : d.cluster.registry.node? ⟨3⟩ = some ⟨⟨3⟩, "third", ["1-group-2"]⟩ := by
    rw [hd]
    decide +kernel
  have htick : d.barrier.ticks.get? ⟨2⟩ = some 70 := by
    rw [hd]
    decide +kernel
  have howner : d.cluster.registry.ownerOf "1-group-0" = some ⟨1⟩ := by
    rw [hd]
    decide +kernel
  have hrun : Path Passes stocked (logOf quietThird stocked) d := hd ▸ path_visitAll _ _
  obtain ⟨-, -, -, -, hticks, hreleased, hkept, -, hagain⟩ := reap_removes_silent rfl rfl hrun
  refine ⟨d, hd, by decide +kernel, hgone, ?_, ?_, ?_, ?_, hagain⟩
  · simp [hticks, hgone]
  · simp [hticks, hgone, htick]
  · exact ((hreleased "1-group-2").2 ⟨⟨3⟩, by simp [hgone], _, hinfo, by simp⟩).2
  · exact (hkept "1-group-0" ⟨1⟩).2 ⟨howner, by simp [hgone]⟩

end IngestCoordinator.Coordinator
