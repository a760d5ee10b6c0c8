-- SUMMARY: Insert channels are the same in every answer, and each is watched when it is given.
import IngestCoordinator.Proofs.Channels.Division
import IngestCoordinator.Proofs.Cluster.Giving
import IngestCoordinator.Proofs.Coordinator.Effects

/-!
# Insert channels

A process divides the channels of a collection once, and answers every request for them
with the same names in the same order. Nodes come and go in between and take ownership
with them, but what a request answers is watched at that moment by registered nodes. A
request that fails leaves everything as it was. None of this depends on what the store
holds or whether it takes writes.
-/

namespace IngestCoordinator.Coordinator

open Operation

variable {α : Type} {base c d e : Coordinator} {blank : Channels} {collection : CollectionId}
  {groups : List ChannelGroup}

/-! ## What leaves owners and channels alone -/

/-- Nodes, owners and channels are as they were. -/
structure Stays (c d : Coordinator) : Prop where
  registry : d.cluster.registry = c.cluster.registry
  channels : d.channels = c.channels

theorem Stays.refl (c : Coordinator) : c.Stays c :=
  ⟨rfl, rfl⟩

theorem Stays.of_eq (h : c.Stays d) (hregistry : e.cluster.registry = d.cluster.registry)
    (hchannels : e.channels = d.channels) : c.Stays e :=
  ⟨hregistry.trans h.registry, hchannels.trans h.channels⟩

theorem stays_onAllocator (call : Operation Allocator α) :
    Preserves base.Stays (onAllocator call) := by
  intro c hc
  rw [onAllocator, ensures_onPart]
  exact .of_forall (fun _ _ => hc.of_eq rfl rfl) fun _ _ => hc.of_eq rfl rfl

theorem stays_stepAllocator (step : StateM Allocator α) :
    StepPreserves base.Stays (stepAllocator step) :=
  fun _ hc => hc.of_eq rfl rfl

theorem stays_requireCollection (id : CollectionId) :
    Preserves base.Stays (requireCollection id) := by
  intro c hc
  apply (ensures_requireCollection id).imp
  · exact fun _ _ hsame => hsame ▸ hc
  · exact fun _ _ hsame => hsame ▸ hc

theorem stays_await (expected timeoutMs : Nat) (calledOff : Bool) :
    Preserves base.Stays (onCluster (Cluster.await expected timeoutMs calledOff)) := by
  intro c hc
  simp only [onCluster, ensures_onPart, Cluster.await, ensures_bind, ensures_get]
  split
  · exact hc
  · split
    · exact hc
    · exact hc.of_eq rfl rfl

theorem stays_start : Preserves base.Stays start := by
  have hload : Preserves base.Stays loadCatalog :=
    Preserves.get.bind fun _ => stays_onAllocator _
  have hprepare : Preserves base.Stays prepare :=
    Preserves.get.bind fun _ => (stays_await _ _ _).bind fun _ =>
      hload.bind fun _ => (stays_onAllocator _).bind fun _ => .pure _
  refine Preserves.get.bind fun c => ?_
  split
  · exact .throw _
  · exact .throw _
  · refine hprepare.ofAttempt.bind fun prepared => ?_
    split
    · exact .modify fun _ hc => hc.of_eq rfl rfl
    · exact (Preserves.modify fun _ hc => hc.of_eq rfl rfl).bind fun _ => .throw _

theorem stays_openSegment (key : SegmentKey) : Preserves base.Stays (openSegment key) := by
  refine (stays_onAllocator _).bind fun target => ?_
  cases target with
  | some target => exact .throw _
  | none =>
    refine (stays_requireCollection key.collection).bind fun collection => ?_
    dsimp only
    split
    · exact .throw _
    · refine Preserves.get.bind fun c => (Preserves.ofExcept _).bind fun group => ?_
      refine (Preserves.ofExcept _).bind fun width => ?_
      refine (stays_onAllocator _).bind fun id => (stays_onAllocator _).bind fun openTime => ?_
      exact (stays_onAllocator _).bind fun _ => stays_onAllocator _

theorem stays_assignOne (request : RowRequest) (opens : Nat) :
    Preserves base.Stays (assignOne request opens) := by
  induction opens with
  | zero => exact stays_onAllocator _
  | succ opens ih =>
    refine (stays_onAllocator _).ofAttempt.bind fun answer => ?_
    split
    · exact .pure _
    · refine (stays_openSegment request.key).ofAttempt.bind fun opened => ?_
      split
      · exact ih
      · exact ih
      · exact .throw _
    · exact .throw _

theorem stays_assign (requests : List RowRequest) : StepPreserves base.Stays (assign requests) := by
  induction requests with
  | nil => exact .pure _
  | cons request requests ih =>
    have hcounted : StepPreserves base.Stays (assignCounted request) := by
      refine StepPreserves.get.bind fun c => (stays_assignOne request _).step.bind fun answer => ?_
      cases answer with
      | ok grant => exact .pure _
      | error error =>
        exact (StepPreserves.modify fun _ hc => hc.of_eq rfl rfl).bind fun _ => .pure _
    exact hcounted.bind fun _ => ih.bind fun _ => .pure _

theorem stays_flush (collection : CollectionId) : Preserves base.Stays (flush collection) :=
  (stays_requireCollection collection).bind fun _ =>
    (stays_stepAllocator _).ofStep.bind fun _ =>
      (Preserves.modify fun _ hc => hc.of_eq rfl rfl).bind fun _ => .pure _

theorem stays_onWatermark (watermark : Timestamp) :
    StepPreserves base.Stays (onWatermark watermark) :=
  (stays_stepAllocator _).bind fun _ => (StepPreserves.modify fun _ hc => hc.of_eq rfl rfl).bind
    fun _ => (StepPreserves.modify fun _ hc => hc.of_eq rfl rfl).bind fun _ => .pure _

theorem stays_stop : c.Stays c.stop := by
  unfold stop
  dsimp only
  split <;> exact ⟨rfl, rfl⟩

theorem stays_readStatistics : c.Stays c.readStatistics :=
  keeps_readStatistics (fun _ _ h => h.of_eq rfl rfl) (fun _ => stays_stepAllocator _) (.refl c)

theorem stays_readFlushes : c.Stays c.readFlushes :=
  List.foldlRecOn (motive := c.Stays) _ _ ⟨rfl, rfl⟩ fun _ h _ _ => stays_stepAllocator _ _ h

theorem stays_runWatcher : c.Stays c.runWatcher := by
  unfold runWatcher
  split
  · dsimp only
    split
    · exact stays_onWatermark _ _ ⟨rfl, rfl⟩
    · exact .refl c
  · exact .refl c
  · exact .refl c

/-! ## A request for channels -/

/-- The channels of a collection can be given: it is stored, and there are nodes and channels. -/
structure Answerable (c : Coordinator) (collection : CollectionId) : Prop where
  stored : ∃ stored, c.store.collection? collection = .ok (some stored)
  registered : ∃ node, c.cluster.registry.Has node
  positive : 0 < c.channels.perCollection.toNat

theorem requireCollection_eq_ok {stored : Collection}
    (h : c.store.collection? collection = .ok (some stored)) :
    requireCollection collection c = .ok stored c := by
  apply eq_ok_of_ensures
  simp [requireCollection, h]

theorem requireCollection_eq_error
    (h : ¬ ∃ stored, c.store.collection? collection = .ok (some stored)) :
    ∃ error, requireCollection collection c = .error error c := by
  cases hread : c.store.collection? collection with
  | error error =>
    refine ⟨error, eq_error_of_ensures ?_⟩
    simp [requireCollection, hread]
  | ok found =>
    cases found with
    | none =>
      refine ⟨.notFound (.collection collection), eq_error_of_ensures ?_⟩
      simp [requireCollection, hread]
    | some stored => exact absurd ⟨stored, hread⟩ h

/-- What has been done when a request for channels is answered. -/
structure Allots (c : Coordinator) (collection : CollectionId) (names : List String)
    (d : Coordinator) : Prop where
  asks : ∃ call, Channels.Asks c.channels call d.channels
  groups : ∃ groups, d.channels.groups.get? collection = some groups ∧
    groups.flatMap ChannelGroup.channels = names ∧
    Registry.Gives (groups.map ChannelGroup.name) c.cluster.registry d.cluster.registry

/-- The groups are those that there are or that are made now, and those without owners get some. -/
theorem ensures_insertChannels_answerable (h : c.Answerable collection)
    (hsound : c.cluster.registry.Sound) :
    Ensures (insertChannels collection) c (fun names d => c.Allots collection names d)
      (fun _ _ => False) := by
  obtain ⟨⟨stored, hstored⟩, hsome, hcount⟩ := h
  obtain ⟨groups, created, channels, hallocate, hget⟩ :=
    Channels.exists_allocate collection (Registry.size_pos_iff.2 hsome) hcount
  have hasks : ∃ call, Channels.Asks c.channels call channels :=
    ⟨⟨collection, c.cluster.registry.size, .ok (groups, created)⟩, by
      rw [Channels.Asks, attempt, hallocate]⟩
  have hgives := (Registry.ensures_watch groups).ok (Registry.watch_eq_ok groups hsome) hsound
  simp only [insertChannels, ensures_bind, ensures_of_ok (requireCollection_eq_ok hstored),
    ensures_get, onChannels, ensures_onPart, ensures_of_ok hallocate]
  split
  · simp only [ensures_bind, onCluster, ensures_onPart,
      ensures_of_ok (Cluster.watch_eq_ok groups hsome), ensures_modify, ensures_pure]
    unfold flushOrphans
    split
    · exact ⟨hasks, groups, hget, rfl, hgives⟩
    · exact ⟨hasks, groups, hget, rfl, hgives⟩
  · rename_i hlacks
    refine ⟨hasks, groups, hget, rfl, .of_owned hsound fun name hmem hnone => hlacks ?_⟩
    obtain ⟨group, hgroup, rfl⟩ := List.mem_map.1 hmem
    exact List.any_eq_true.2 ⟨group, hgroup, by rw [hnone]; rfl⟩

/-- Owners are registered, and the channels have been divided by calls. -/
structure Housed (blank : Channels) (c : Coordinator) : Prop where
  registry : c.cluster.registry.Sound
  channels : ∃ calls, Path Channels.Asks blank calls c.channels
  empty : blank.groups = .empty

theorem Housed.perCollection (h : c.Housed blank) :
    c.channels.perCollection = blank.perCollection := by
  obtain ⟨calls, hcalls⟩ := h.channels
  exact (Channels.settings_of_path hcalls).1

theorem Housed.divided (h : c.Housed blank)
    (hget : c.channels.groups.get? collection = some groups) :
    0 < blank.perCollection.toNat ∧ ∃ nodes, 0 < nodes ∧
      Channels.Divided blank.stem collection blank.perCollection.toNat nodes groups := by
  obtain ⟨calls, hcalls⟩ := h.channels
  exact Channels.divided_of_path hcalls h.empty hget

/-- Where nobody is registered, nobody owns a group. -/
theorem Housed.any_unowned (h : c.Housed blank)
    (hget : c.channels.groups.get? collection = some groups)
    (hnobody : ¬ ∃ node, c.cluster.registry.Has node) :
    (groups.any fun group => (c.cluster.registry.ownerOf group.name).isNone) = true := by
  obtain ⟨hcount, nodes, hnodes, hdivided⟩ := h.divided hget
  have hlength : 0 < groups.length := by
    rw [hdivided.length]
    omega
  obtain ⟨group, hmem⟩ := List.exists_mem_of_length_pos hlength
  have hnone : c.cluster.registry.ownerOf group.name = none := by
    rw [Option.eq_none_iff_forall_ne_some]
    intro node howner
    exact hnobody ⟨node, Registry.has_iff.2 (h.registry.owned howner)⟩
  exact List.any_eq_true.2 ⟨group, hmem, by rw [hnone]; rfl⟩

/-- In all other cases the request is refused, and nothing has changed. -/
theorem Housed.insertChannels_eq_error (h : c.Housed blank) (hfails : ¬ c.Answerable collection) :
    ∃ error, insertChannels collection c = .error error c := by
  by_cases hstored : ∃ stored, c.store.collection? collection = .ok (some stored)
  · obtain ⟨stored, hstored⟩ := hstored
    have hlacks : (∃ node, c.cluster.registry.Has node) → c.channels.perCollection.toNat = 0 :=
      fun hsome => Nat.eq_zero_of_not_pos fun hcount => hfails ⟨⟨stored, hstored⟩, hsome, hcount⟩
    cases hget : c.channels.groups.get? collection with
    | none =>
      have hzero : c.cluster.registry.size = 0 ∨ c.channels.perCollection.toNat = 0 := by
        rcases Nat.eq_zero_or_pos c.cluster.registry.size with hsize | hsize
        · exact .inl hsize
        · exact .inr (hlacks (Registry.size_pos_iff.1 hsize))
      obtain ⟨error, hallocate⟩ := Channels.allocate_refused hget hzero
      refine ⟨error, eq_error_of_ensures ?_⟩
      simp only [insertChannels, ensures_bind, ensures_of_ok (requireCollection_eq_ok hstored),
        ensures_get, onChannels, ensures_onPart, ensures_of_error hallocate, and_self]
    | some groups =>
      -- There are channels, since they have been divided, so it is a node that is missing.
      have hnobody : ¬ ∃ node, c.cluster.registry.Has node := by
        intro hsome
        have hcount := (h.divided hget).1
        rw [← h.perCollection, hlacks hsome] at hcount
        exact Nat.lt_irrefl 0 hcount
      refine ⟨_, eq_error_of_ensures (e := .nodeUnavailable none .noneRegistered) ?_⟩
      simp only [insertChannels, ensures_bind, ensures_of_ok (requireCollection_eq_ok hstored),
        ensures_get, onChannels, ensures_onPart, ensures_of_ok (Channels.allocate_of_some hget _),
        if_pos (h.any_unowned hget hnobody), onCluster,
        ensures_of_error (Cluster.watch_eq_error groups hnobody), and_self]
  · obtain ⟨error, hrequire⟩ := requireCollection_eq_error hstored
    refine ⟨error, eq_error_of_ensures ?_⟩
    simp only [insertChannels, ensures_bind, ensures_of_error hrequire, and_self]

/-- A request is answered, or refused without a trace. -/
theorem Housed.insertChannels_cases (h : c.Housed blank) (collection : CollectionId) :
    (c.Answerable collection ∧
      ∃ names d, insertChannels collection c = .ok names d ∧ c.Allots collection names d) ∨
    (¬ c.Answerable collection ∧ ∃ error, insertChannels collection c = .error error c) := by
  by_cases hanswerable : c.Answerable collection
  · exact .inl ⟨hanswerable,
      exists_ok_of_ensures (ensures_insertChannels_answerable hanswerable h.registry)⟩
  · exact .inr ⟨hanswerable, h.insertChannels_eq_error hanswerable⟩

/-! ## Runs -/

theorem Housed.stays (h : c.Housed blank) (hstays : c.Stays d) : d.Housed blank where
  registry := hstays.registry ▸ h.registry
  channels := hstays.channels ▸ h.channels
  empty := h.empty

theorem Housed.moves (h : c.Housed blank) (hmoves : c.Moves d) : d.Housed blank where
  registry := hmoves.registry.sound h.registry
  channels := hmoves.channels ▸ h.channels
  empty := h.empty

theorem Housed.allots {names : List String} (h : c.Housed blank)
    (hallots : c.Allots collection names d) : d.Housed blank := by
  obtain ⟨⟨call, hasks⟩, groups, -, -, hgives⟩ := hallots
  obtain ⟨calls, hcalls⟩ := h.channels
  exact ⟨hgives.sound, ⟨_, hcalls.snoc hasks⟩, h.empty⟩

theorem Housed.settle (h : c.Housed blank) : c.settle.Housed blank := by
  unfold Coordinator.settle
  split
  · exact (((((h.moves moves_readTimeTicks).stays stays_runWatcher).stays
      stays_readStatistics).stays stays_readFlushes).moves moves_runReaper).stays stays_runWatcher
  · exact h
  · exact h

theorem Housed.perform (h : c.Housed blank) (request : Request) :
    (perform request c).2.Housed blank := by
  cases request with
  | start => exact h.stays (stays_start.attempt (.refl c))
  | stop => exact h.stays stays_stop
  | addCollection collection => exact h.stays ((stays_onAllocator _).attempt (.refl c))
  | assign requests => exact h.stays (stays_assign requests c (.refl c))
  | openSegment key => exact h.stays ((stays_openSegment key).attempt (.refl c))
  | flush collection =>
    rw [perform_flush_snd]
    exact h.stays ((stays_flush collection).attempt (.refl c))
  | insertChannels collection =>
    simp only [Coordinator.perform, attempt]
    rcases h.insertChannels_cases collection with ⟨-, names, d, hok, hallots⟩ | ⟨-, error, hrefused⟩
    · rw [hok]
      exact h.allots hallots
    · rw [hrefused]
      exact h
  | times id =>
    simp only [Coordinator.perform]
    split <;> exact h
  | register address node => exact h.moves ((preserves_register address node).attempt (.refl c))
  | deregister node => exact h.moves ((preserves_deregister node).attempt (.refl c))
  | reap => exact h.moves moves_reap
  | watermark watermark => exact h.stays (stays_onWatermark watermark c (.refl c))
  | readTimeTicks => exact h.moves moves_readTimeTicks
  | readStatistics => exact h.stays stays_readStatistics
  | readFlushes => exact h.stays stays_readFlushes
  | runWatcher => exact h.stays stays_runWatcher
  | runReaper => exact h.moves moves_runReaper
  | settle => exact h.settle
  | sendTimeTick | sendStatistics | sendFlushCompleted | deliver => exact h.stays ⟨rfl, rfl⟩

/-- A process begins without nodes, and with no channels divided. -/
structure Begins (c : Coordinator) : Prop where
  registry : c.cluster.registry = {}
  channels : c.channels = {
    perCollection := c.settings.channels.perCollection
    stem := c.settings.channels.insertStem }

theorem begins_create (settings : Settings) (store : GuardedStore) (ids : IdSource)
    (catalog : Catalog) : (create settings store ids catalog).Begins :=
  ⟨rfl, rfl⟩

theorem begins_restart (h : restart c = .ok () d) : d.Begins := by
  have hrestart : Ensures restart c (fun _ d => d.Begins) fun _ _ => True := by
    simp only [restart, ensures_bind, ensures_modify, onAllocator, ensures_onPart]
    exact .of_forall (fun _ _ => ⟨rfl, rfl⟩) fun _ _ => trivial
  exact hrestart.ok h

theorem Begins.housed (h : c.Begins) : c.Housed c.channels where
  registry := h.registry ▸ Registry.sound_empty
  channels := ⟨[], .nil _⟩
  empty := by rw [h.channels]

/-- A request is made, a tick arrives, or nodes and channels are not concerned. -/
inductive Occurs : Coordinator → Option Request → Coordinator → Prop where
  | request {c : Coordinator} (request : Request) : Occurs c (some request) (perform request c).2
  | tick {c : Coordinator} (tick : TimeTick) : Occurs c none (c.onTick tick)
  | otherwise {c d : Coordinator} (h : c.Stays d) : Occurs c none d

theorem Housed.occurs {label : Option Request} (h : c.Housed blank) (hstep : Occurs c label d) :
    d.Housed blank := by
  cases hstep with
  | request request => exact h.perform request
  | tick tick => exact h.moves (moves_onTick tick)
  | otherwise hstays => exact h.stays hstays

/-- An answer lists the channels by number, and registered nodes watch them then. -/
theorem Housed.answered {names : List String} (h : c.Housed blank)
    (hallots : c.Allots collection names d) :
    names = Channels.channelNames blank.stem collection blank.perCollection.toNat ∧
    (∃ groups, d.channels.groups.get? collection = some groups ∧
      groups.flatMap ChannelGroup.channels = names ∧
      ∀ group ∈ groups, ∃ node, d.cluster.registry.ownerOf group.name = some node ∧
        d.cluster.registry.Has node) ∧
    ∀ name node, c.cluster.registry.ownerOf name = some node →
      d.cluster.registry.ownerOf name = some node := by
  have hafter := h.allots hallots
  obtain ⟨-, groups, hget, hnames, hgives⟩ := hallots
  obtain ⟨-, nodes, -, hdivided⟩ := hafter.divided hget
  refine ⟨hnames.symm.trans hdivided.inOrder, ⟨groups, hget, hnames, fun group hmem => ?_⟩, ?_⟩
  · have howned := hgives.owned group.name (List.mem_map_of_mem hmem)
    obtain ⟨node, howner⟩ := Option.ne_none_iff_exists'.1 howned
    exact ⟨node, howner, Registry.has_iff.2 (hgives.sound.owned howner)⟩
  · intro name node howner
    have hkept := hgives.kept name (howner ▸ Option.some_ne_none node)
    exact hkept.trans howner

/--
Wherever in its life a process is asked for the channels of a collection, it answers the
same names by number. Then each group of the collection is owned by a registered node, and
whoever owned a group before still does. A request that is refused changes nothing. None is
refused if the collection is stored, a node is registered and there are channels at all.
-/
theorem insertChannels_stable {labels : List (Option Request)} (hbegins : c.Begins)
    (hrun : Path Occurs c labels d) (collection : CollectionId) :
    (∀ names e, insertChannels collection d = .ok names e →
      names = Channels.channelNames c.settings.channels.insertStem collection
        c.settings.channels.perCollection.toNat ∧
      (∃ groups, e.channels.groups.get? collection = some groups ∧
        groups.flatMap ChannelGroup.channels = names ∧
        ∀ group ∈ groups, ∃ node, e.cluster.registry.ownerOf group.name = some node ∧
          e.cluster.registry.Has node) ∧
      ∀ name node, d.cluster.registry.ownerOf name = some node →
        e.cluster.registry.ownerOf name = some node) ∧
    (∀ error e, insertChannels collection d = .error error e → e = d) ∧
    ((∃ names e, insertChannels collection d = .ok names e) ↔
      (∃ stored, d.store.collection? collection = .ok (some stored)) ∧
      (∃ node, d.cluster.registry.Has node) ∧
      0 < c.settings.channels.perCollection.toNat) := by
  have hhoused : d.Housed c.channels :=
    hrun.invariant (fun _ _ _ h hstep => h.occurs hstep) hbegins.housed
  have hstem : c.channels.stem = c.settings.channels.insertStem := by rw [hbegins.channels]
  have hcount : c.channels.perCollection = c.settings.channels.perCollection := by
    rw [hbegins.channels]
  rw [← hstem, ← hcount]
  rcases hhoused.insertChannels_cases collection with
    ⟨hanswerable, names, e, hok, hallots⟩ | ⟨hfails, error, hrefused⟩
  · refine ⟨fun names' e' hok' => ?_, fun error e' herror => ?_, fun _ => ?_, fun _ => ⟨_, _, hok⟩⟩
    · cases hok.symm.trans hok'
      exact hhoused.answered hallots
    · cases hok.symm.trans herror
    · exact ⟨hanswerable.stored, hanswerable.registered,
        hhoused.perCollection ▸ hanswerable.positive⟩
  · refine ⟨fun names' e' hok => ?_, fun error' e' herror => ?_, fun hanswered => ?_, fun h => ?_⟩
    · cases hrefused.symm.trans hok
    · cases hrefused.symm.trans herror
      rfl
    · obtain ⟨names, e, hok⟩ := hanswered
      cases hrefused.symm.trans hok
    · exact absurd ⟨h.1, h.2.1, hhoused.perCollection ▸ h.2.2⟩ hfails

/-- A new coordinator with three channels for a collection. -/
def threeChannels : Coordinator :=
  create { channels := { perCollection := 3, insertStem := "channel-" } }
    { metadata := { backend := {}, root := ⟨"root"⟩, records := {} } } {}
    { ddChannel := "dd", collections := .empty }

/-- Two nodes are given the channels; one of them leaves, and another node joins. -/
def replacing : List Request :=
  [.addCollection ⟨⟨1⟩, ⟨"schema", [⟨"field", .int64, 0⟩]⟩, [⟨2⟩]⟩, .register "first" ⟨1⟩,
    .register "second" ⟨2⟩, .insertChannels ⟨1⟩, .deregister ⟨1⟩, .register "third" ⟨3⟩]

/-- The names are the same as before, and the group that had lost its node has another. -/
theorem insertChannels_stable_replacing :
    let d := (performAll replacing threeChannels).2
    d.cluster.registry.ownerOf "1-group-0" = none ∧
    ∃ names e, insertChannels ⟨1⟩ d = .ok names e ∧
      names = ["channel-1_0", "channel-1_1", "channel-1_2"] ∧
      e.cluster.registry.ownerOf "1-group-0" = some ⟨3⟩ ∧
      e.cluster.registry.ownerOf "1-group-1" = some ⟨2⟩ := by
  intro d
  have hrun : Path Occurs threeChannels
      (labelsOf (fun request _ => some request) replacing threeChannels) d :=
    path_performAll (fun request _ _ => .request request) threeChannels
  obtain ⟨hanswers, -, hanswerable⟩ := insertChannels_stable (begins_create ..) hrun ⟨1⟩
  have hstored : ∃ stored, d.store.collection? ⟨1⟩ = .ok (some stored) := ⟨_, rfl⟩
  have hsecond : d.cluster.registry.Has ⟨2⟩ := ⟨⟨⟨2⟩, "second", ["1-group-1"]⟩, by decide +kernel⟩
  obtain ⟨names, e, hok⟩ := hanswerable.2 ⟨hstored, ⟨_, hsecond⟩, by decide⟩
  obtain ⟨hnames, -, hkept⟩ := hanswers names e hok
  refine ⟨by decide +kernel, names, e, hok, ?_, ?_, ?_⟩
  · rw [hnames]
    decide +kernel
  · have he : ((insertChannels ⟨1⟩).attempt d).2 = e := by rw [attempt, hok]
    rw [← he]
    decide +kernel
  · exact hkept _ _ (by decide +kernel)

end IngestCoordinator.Coordinator
