-- SUMMARY: What one request can do to a coordinator, said once for all requests.
import IngestCoordinator.Proofs.Allocator.Closing
import IngestCoordinator.Proofs.Barrier
import IngestCoordinator.Proofs.Coordinator.Crash
import IngestCoordinator.Proofs.Coordinator.Writing
import IngestCoordinator.Proofs.Path
import IngestCoordinator.Proofs.Registry

/-!
# Effects

Every request does one of a few things. It writes segments and seals none; it
recovers them; it seals some and has the nodes store them; nodes come and go; groups
are divided and given to nodes; or commands reach the nodes. Whatever all of these
keep, every request keeps.
-/

namespace IngestCoordinator

open Operation

/-! ## Sealing -/

namespace Allocator

variable {a b : Allocator} {marks : Timestamp → Prop} {sealed : List Segment} {bound : Timestamp}

/-- Segments have been sealed, on request or at one of the marks, and these are listed. -/
inductive Seals (marks : Timestamp → Prop) (a : Allocator) : List Segment → Allocator → Prop where
  | onRequest (collection : CollectionId) :
    Seals marks a (sealAll collection a).1.sealed (sealAll collection a).2
  | atMark {watermark : Timestamp} (h : marks watermark) :
    Seals marks a (sealReady watermark a).1 ((sealReady watermark a).2.setCutoff watermark)

theorem Seals.evolved {kind : Write → Prop} (h : a.Seals marks sealed b)
    (hsupersede : ∀ id, kind (.change id .supersede))
    (hseal : ∀ id time, kind (.change id (.sealAt time))) : a.Evolved kind b := by
  cases h with
  | onRequest collection => exact (wrote_sealAll hsupersede collection fun _ => hseal ..).evolved
  | atMark h =>
    exact (evolved_sealReady hsupersede _ fun _ => hseal ..).trans
      (.of_eq rfl (UInt64.le_refl _) (Word.le_max_left ..))

/-- The listed segments are those that have been sealed. -/
theorem Seals.closes (h : a.Seals marks sealed b) (htruthful : a.store.Truthful) :
    Closes sealed a b := by
  cases h with
  | onRequest collection => exact closes_sealAll collection htruthful
  | @atMark mark h =>
    have hcutoff : Closes [] (sealReady mark a).2 ((sealReady mark a).2.setCutoff mark) :=
      .of_eq rfl (UInt64.le_refl _) (Word.le_max_left ..)
    simpa using (closes_sealReady mark htruthful).trans hcutoff

/-- The watermark moves no further than the marks. -/
theorem Seals.watermark_le (h : a.Seals marks sealed b) (hbound : a.watermark ≤ bound)
    (hmarks : ∀ mark, marks mark → mark ≤ bound) : b.watermark ≤ bound := by
  cases h with
  | onRequest collection =>
    have hwrote : a.Wrote (fun _ => True) (sealAll collection a).2 :=
      wrote_sealAll (fun _ => trivial) collection fun _ => trivial
    rwa [hwrote.watermark]
  | @atMark mark h =>
    have hwrote : Wrote (fun _ => True) { a with watermark := max a.watermark mark }
        (sealReady mark a).2 := wrote_sealReady (fun _ => trivial) mark fun _ => trivial
    change (sealReady mark a).2.watermark ≤ bound
    rw [hwrote.watermark]
    exact Word.max_le hbound (hmarks mark h)

end Allocator

namespace Coordinator

variable {α : Type} {base c d e : Coordinator} {marks : Timestamp → Prop}
  {goal : Option SegmentState}

/-! ## Effects -/

/-- The writes of a request with one goal: segments are added under groups that are known. -/
def Admits (c : Coordinator) (goal : Option SegmentState) (write : Write) : Prop :=
  write.Serves c.allocator.segments goal ∧
    ∀ segment, write = .add segment → c.channels.Names segment.collection segment.group

/-- Segments have been superseded, and the watermark is no further than the latest sealing. -/
structure Recovers (c d : Coordinator) : Prop where
  allocator : c.allocator.Evolved Allocator.Supersedes d.allocator
  behind : ∀ bound, c.allocator.watermark ≤ bound → SealedBy bound c.allocator.segments →
    d.allocator.watermark ≤ bound
  registry : d.cluster.registry = c.cluster.registry
  outbox : d.cluster.outbox = c.cluster.outbox
  barrier : d.barrier = c.barrier
  channels : d.channels = c.channels

/-- Nodes have joined, left or reported; nothing else has happened. -/
structure Moves (c d : Coordinator) : Prop where
  allocator : d.allocator = c.allocator
  registry : c.cluster.registry.Frees d.cluster.registry
  outbox : d.cluster.outbox = c.cluster.outbox
  barrier : c.barrier.Reaches d.barrier
  channels : d.channels = c.channels

/-- Channels may have been divided. -/
structure Divides (c d : Coordinator) : Prop where
  allocator : d.allocator = c.allocator
  cluster : d.cluster = c.cluster
  barrier : d.barrier = c.barrier
  channels : c.channels.Extends d.channels

/--
The groups of a collection have been given to nodes, and the nodes have been asked
again for its sealed segments whose own node is gone.
-/
structure Watches (collection : CollectionId) (groups : List ChannelGroup) (c d : Coordinator) :
    Prop where
  allocator : d.allocator = c.allocator
  registry : c.cluster.registry.Sound →
    Registry.Gives (groups.map ChannelGroup.name) c.cluster.registry d.cluster.registry
  outbox : ∃ commands, d.cluster.outbox = (commands ++ d.cluster.registry.flushCommands
    ((c.allocator.store.metadata.segmentsOf collection).filter d.isOrphan)).foldl
      Outbox.post c.cluster.outbox
  barrier : d.barrier = c.barrier
  channels : c.channels.Extends d.channels
  divided : d.channels.groups.get? collection = some groups

/-- What one request can do, writing for one goal and sealing at no other time than the marks. -/
inductive Effect (marks : Timestamp → Prop) (goal : Option SegmentState) (c d : Coordinator) :
    Prop where
  | wrote (h : c.Wrote (c.Admits goal) d)
  | recovered (h : c.Recovers d)
  | sealed (sealed : List Segment) (h : c.allocator.Seals marks sealed d.allocator)
    (hcluster : d.cluster = c.cluster.requestFlush sealed) (hbarrier : d.barrier = c.barrier)
    (hchannels : d.channels = c.channels)
  | moved (h : c.Moves d)
  | divided (h : c.Divides d)
  | watched (collection : CollectionId) (groups : List ChannelGroup)
    (h : c.Watches collection groups d)
  | delivered (h : d = { c with cluster.outbox := c.cluster.outbox.drain.2 })

/-- What touches neither segments nor nodes is no effect at all. -/
theorem Effect.of_eq (hallocator : d.allocator = c.allocator) (hcluster : d.cluster = c.cluster)
    (hbarrier : d.barrier = c.barrier) (hchannels : d.channels = c.channels) :
    Effect marks goal c d :=
  .wrote (.of_eq hallocator hcluster hbarrier hchannels)

/-! ## Writing -/

theorem admits_supersede (goal : Option SegmentState) (id : SegmentId) :
    c.Admits goal (.change id .supersede) :=
  ⟨.inl trivial, fun _ h => nomatch h⟩

theorem admits_add (goal : Option SegmentState) (segment : Segment)
    (h : c.channels.Names segment.collection segment.group) : c.Admits goal (.add segment) := by
  refine ⟨trivial, fun _ heq => ?_⟩
  cases heq
  exact h

theorem admits_grow (goal : Option SegmentState) (id : SegmentId)
    (h : c.allocator.segments.get? id = none) : c.Admits goal (.change id .grow) :=
  ⟨.inr ⟨h, rfl⟩, fun _ h => nomatch h⟩

theorem admits_grant (grant : Grant) : c.Admits none (Allocator.writeOf grant) :=
  ⟨.inl rfl, fun _ h => nomatch h⟩

theorem admits_report (goal : Option SegmentState) (id : SegmentId) (seq rowDelta memSize : UInt64) :
    c.Admits goal (.change id (.report seq rowDelta memSize)) :=
  ⟨.inl trivial, fun _ h => nomatch h⟩

theorem admits_flush (id : SegmentId) (time : Timestamp) :
    c.Admits (some .flushed) (.change id (.flush time)) :=
  ⟨.inl rfl, fun _ h => nomatch h⟩

theorem admits_seal (id : SegmentId) (time : Timestamp) :
    c.Admits (some .sealed) (.change id (.sealAt time)) :=
  ⟨.inl rfl, fun _ h => nomatch h⟩

theorem effect_assign (requests : List RowRequest) (hsound : c.allocator.Sound) :
    Effect marks none c (assign requests c).2 :=
  .wrote <| wrote_assign hsound (admits_add none) (admits_grow none) admits_grant
    (admits_supersede none) requests (.refl c)

theorem effect_openSegment (key : SegmentKey) (hsound : c.allocator.Sound) :
    Effect marks none c ((openSegment key).attempt c).2 :=
  .wrote <| (preserves_openSegment hsound (admits_add none) (admits_grow none)
    (admits_supersede none) key).attempt (.refl c)

/-! ## Recovery -/

theorem Recovers.refl (c : Coordinator) : c.Recovers c :=
  ⟨.of_eq rfl (UInt64.le_refl _), fun _ h _ => h, rfl, rfl, rfl, rfl⟩

/-- What is not in the store, the index or the cluster does not count. -/
theorem Recovers.of_eq (h : c.Recovers d) (hallocator : e.allocator = d.allocator)
    (hcluster : e.cluster = d.cluster) (hbarrier : e.barrier = d.barrier)
    (hchannels : e.channels = d.channels) : c.Recovers e :=
  ⟨hallocator ▸ h.allocator, hallocator ▸ h.behind, hcluster ▸ h.registry, hcluster ▸ h.outbox,
    hbarrier ▸ h.barrier, hchannels ▸ h.channels⟩

theorem Recovers.sound (h : c.Recovers d) (hsound : c.allocator.Sound) : d.allocator.Sound := by
  obtain ⟨writes, hevolves, _⟩ := h.allocator
  exact (hevolves.extends hsound).sound

theorem preserves_await (expected timeoutMs : Nat) (calledOff : Bool) :
    Preserves base.Recovers (onCluster (Cluster.await expected timeoutMs calledOff)) := fun c hc => by
  simp only [onCluster, ensures_onPart, Cluster.await, ensures_bind, ensures_get]
  split
  · exact hc
  · split
    · exact hc
    · exact ⟨hc.allocator, hc.behind, hc.registry, hc.outbox, hc.barrier, hc.channels⟩

theorem preserves_loadCatalog : Preserves base.Recovers loadCatalog := by
  refine Preserves.get.bind fun coordinator c hc => ?_
  have hload : Allocator.Writes 0 Allocator.Supersedes
      (Allocator.onStore coordinator.catalog.load) :=
    Allocator.writes_onStore fun _ => coordinator.catalog.ensures_load
  have hwrote (b : Allocator) (h : c.allocator.Wrote Allocator.Supersedes b) :
      base.Recovers { c with allocator := b } :=
    ⟨hc.allocator.trans h.evolved, fun bound hbound hsealed => h.watermark ▸
      hc.behind bound hbound hsealed, hc.registry, hc.outbox, hc.barrier, hc.channels⟩
  rw [onAllocator, ensures_onPart]
  exact (hload c.allocator UInt64.zero_le).imp (fun _ b => hwrote b) fun _ b => hwrote b

theorem preserves_recover (hsound : base.allocator.Sound) :
    Preserves base.Recovers (onAllocator Allocator.recover) := fun c hc => by
  have hsound' := hc.sound hsound
  have hsupersedes (id : SegmentId) : Allocator.Supersedes (.change id .supersede) := ⟨id, rfl⟩
  rw [onAllocator, ensures_onPart]
  refine ((Allocator.ensures_recover_evolved hsupersedes).and
    (Allocator.ensures_recover_watermark hsound'.truthful hsound'.coherent)).imp
      (fun _ b hb => ?_) fun _ b hb => ?_
  · -- Recovery raises the watermark to the latest sealing, which the bound is not behind.
    refine ⟨hc.allocator.trans hb.1, fun bound hbound hsealed => ?_, hc.registry, hc.outbox,
      hc.barrier, hc.channels⟩
    have hmark := hc.behind bound hbound hsealed
    obtain ⟨writes, hevolves, _⟩ := hc.allocator
    have hlatest := Allocator.latestSealing_le hsound'.coherent.toNumbered (hevolves.sealedBy hsealed hmark)
    exact hb.2 ▸ Word.max_le hmark hlatest
  · exact ⟨hc.allocator.trans hb.1.evolved, fun bound hbound hsealed => hb.2 ▸
      hc.behind bound hbound hsealed, hc.registry, hc.outbox, hc.barrier, hc.channels⟩

theorem recovers_start (hsound : c.allocator.Sound) : c.Recovers (start.attempt c).2 := by
  have hprepare : Preserves c.Recovers prepare :=
    Preserves.get.bind fun _ => (preserves_await _ _ _).bind fun _ =>
      preserves_loadCatalog.bind fun _ => (preserves_recover hsound).bind fun _ => .pure _
  refine Preserves.attempt ?_ (.refl c)
  refine Preserves.get.bind fun _ => ?_
  split
  · exact .throw _
  · exact .throw _
  · refine hprepare.ofAttempt.bind fun prepared => ?_
    split
    · exact .modify fun d h => h.of_eq rfl rfl rfl rfl
    · exact (Preserves.modify fun d h => h.of_eq rfl rfl rfl rfl).bind fun _ => .throw _

/-! ## Nodes -/

theorem Moves.refl (c : Coordinator) : c.Moves c :=
  ⟨rfl, .refl _, rfl, .refl _, rfl⟩

theorem Moves.trans (h : c.Moves d) (h' : d.Moves e) : c.Moves e :=
  ⟨h'.allocator.trans h.allocator, h.registry.trans h'.registry, h'.outbox.trans h.outbox,
    h.barrier.trans h'.barrier, h'.channels.trans h.channels⟩

theorem Moves.of_eq (hallocator : d.allocator = c.allocator) (hcluster : d.cluster = c.cluster)
    (hbarrier : d.barrier = c.barrier) (hchannels : d.channels = c.channels) : c.Moves d :=
  ⟨hallocator, hcluster ▸ .refl _, hcluster ▸ rfl, hbarrier ▸ .refl _, hchannels⟩

/-- Asking for the channel keeps what depends on segments, nodes and channels alone. -/
theorem preserves_askDdChannel {p : Coordinator → Prop}
    (hp : ∀ c d : Coordinator, d.allocator = c.allocator → d.cluster = c.cluster →
      d.barrier = c.barrier → d.channels = c.channels → p c → p d) :
    Preserves p askDdChannel := by
  refine Preserves.get.bind fun _ => ?_
  split
  · exact .pure _
  · refine (Preserves.modify fun c hc => hp c _ ?_ ?_ ?_ ?_ hc).bind fun _ =>
      Preserves.get.bind fun _ => (Preserves.ofExcept _).bind fun _ =>
        (Preserves.modify fun c hc => hp c _ ?_ ?_ ?_ ?_ hc).bind fun _ => .pure _
    all_goals rfl

/-- A call to the cluster by which nodes come or go and no command is queued. -/
theorem preserves_onCluster {call : Operation Cluster α} (h : ∀ cluster, Ensures call cluster
      (fun _ cluster' => cluster.registry.Frees cluster'.registry ∧ cluster'.outbox = cluster.outbox)
      (fun _ cluster' => cluster.registry.Frees cluster'.registry ∧
        cluster'.outbox = cluster.outbox)) : Preserves base.Moves (onCluster call) := fun c hc => by
  rw [onCluster, ensures_onPart]
  exact (h c.cluster).imp (fun _ _ hcluster => hc.trans ⟨rfl, hcluster.1, hcluster.2, .refl _, rfl⟩)
    fun _ _ hcluster => hc.trans ⟨rfl, hcluster.1, hcluster.2, .refl _, rfl⟩

theorem preserves_register (address : String) (node : NodeId) :
    Preserves base.Moves (register address node) := by
  have hask : Preserves base.Moves askDdChannel := preserves_askDdChannel
    fun _ _ hallocator hcluster hbarrier hchannels hc =>
      hc.trans (.of_eq hallocator hcluster hbarrier hchannels)
  refine hask.bind fun _ => ?_
  refine (preserves_onCluster fun cluster => ?_).bind fun registered => ?_
  · simp only [Cluster.register, Cluster.onRegistry, ensures_bind, ensures_get, ensures_onPart]
    refine (Registry.ensures_register cluster.now address node).imp (fun answer registry h => ?_)
      fun _ registry h => ⟨h, trivial⟩
    split
    · exact ⟨h, rfl⟩
    · exact ⟨h, rfl⟩
  · refine (Preserves.modify fun c hc => hc.trans ?_).bind fun _ => Preserves.get.bind fun _ => .pure _
    exact ⟨rfl, .refl _, rfl, .add (.refl _) _, rfl⟩

theorem preserves_deregister (node : NodeId) : Preserves base.Moves (deregister node) := by
  refine (preserves_onCluster fun cluster => ?_).bind fun _ => .modify fun c hc => hc.trans ?_
  · simp only [Cluster.deregister, Cluster.onRegistry, ensures_bind, ensures_onPart]
    exact (Registry.ensures_deregister node).imp (fun _ _ h => ⟨h, rfl⟩) fun _ _ h => ⟨h, trivial⟩
  · exact ⟨rfl, .refl _, rfl, .remove (.refl _) node, rfl⟩

theorem moves_deregisterEach (nodes : List NodeId) : c.Moves (deregisterEach nodes c).2 := by
  induction nodes generalizing c with
  | nil => exact .refl c
  | cons node nodes ih =>
    have hfirst := (preserves_deregister node).attempt (.refl c)
    simp only [deregisterEach, step_bind]
    cases ((deregister node).attempt c).1 with
    | ok => exact hfirst.trans ih
    | error e => exact hfirst.trans ih

theorem moves_reap : c.Moves (reap c).2 :=
  moves_deregisterEach _

theorem moves_runReaper : c.Moves c.runReaper := by
  have hphase (phase : Phase) : c.Moves { c with phase } := .of_eq rfl rfl rfl rfl
  unfold runReaper
  split
  · dsimp only
    split
    · exact (hphase _).trans moves_reap
    · exact .refl c
  · exact .refl c
  · exact .refl c

theorem moves_onTick (tick : TimeTick) : c.Moves (c.onTick tick) where
  allocator := rfl
  registry := Registry.frees_touch ..
  outbox := rfl
  barrier := .observe (.refl _) tick
  channels := rfl

theorem moves_readTimeTicks : c.Moves c.readTimeTicks :=
  List.foldlRecOn (motive := c.Moves) _ _ (.of_eq rfl rfl rfl rfl) fun _ h tick _ =>
    h.trans (moves_onTick tick)

/-! ## Sealing -/

/-- To flush a collection is to seal its segments, unless the collection is unknown. -/
theorem flush_cases (collection : CollectionId) :
    (perform (.flush collection) c).2 = c ∨
      ∃ sealed, c.allocator.Seals marks sealed (perform (.flush collection) c).2.allocator ∧
        (perform (.flush collection) c).2.cluster = c.cluster.requestFlush sealed ∧
        (perform (.flush collection) c).2.barrier = c.barrier ∧
        (perform (.flush collection) c).2.channels = c.channels := by
  have hflush : Ensures (flush collection) c
      (fun _ d => ∃ sealed, c.allocator.Seals marks sealed d.allocator ∧
        d.cluster = c.cluster.requestFlush sealed ∧ d.barrier = c.barrier ∧ d.channels = c.channels)
      (fun _ d => d = c) := by
    rw [flush, ensures_bind]
    refine (ensures_requireCollection collection).imp (fun _ d hd => ?_) fun _ d hd => hd
    subst d
    exact ⟨_, .onRequest collection, rfl, rfl, rfl⟩
  unfold Ensures at hflush
  simp only [perform]
  split at hflush
  · rename_i heq
    exact .inr (by simpa only [heq] using hflush)
  · rename_i heq
    exact .inl (by simpa only [heq] using hflush)

theorem effect_flush (collection : CollectionId) :
    Effect marks goal c (perform (.flush collection) c).2 := by
  rcases flush_cases collection with heq | ⟨sealed, hseals, hcluster, hbarrier, hchannels⟩
  · rw [heq]
    exact .of_eq rfl rfl rfl rfl
  · exact .sealed sealed hseals hcluster hbarrier hchannels

theorem effect_onWatermark {watermark : Timestamp} (h : marks watermark) (phase : Phase) :
    Effect marks goal c (onWatermark watermark { c with phase }).2 :=
  .sealed _ (.atMark h) rfl rfl rfl

theorem effect_runWatcher (h : marks c.barrier.feed.latest) : Effect marks goal c c.runWatcher := by
  unfold runWatcher
  split
  · dsimp only
    split
    · exact effect_onWatermark h _
    · exact .of_eq rfl rfl rfl rfl
  · exact .of_eq rfl rfl rfl rfl
  · exact .of_eq rfl rfl rfl rfl

/-! ## Insert channels -/

theorem ensures_watch (groups : List ChannelGroup) : Ensures (onCluster (Cluster.watch groups)) c
    (fun _ d => ∃ registry commands,
      (c.cluster.registry.Sound →
        Registry.Gives (groups.map ChannelGroup.name) c.cluster.registry registry) ∧
      d = { c with cluster := { c.cluster with registry }.post commands })
    (fun _ d => d = c) := by
  simp only [onCluster, Cluster.watch, Cluster.onRegistry, ensures_bind, ensures_onPart,
    ensures_modify, ensures_pure]
  refine (Registry.ensures_watch groups).imp (fun done registry h => ?_) fun _ _ h => by rw [h]
  exact ⟨registry, done.commands, h, rfl⟩

/--
If the insert channels of a collection are answered, all their groups had nodes, or
they have been given to nodes now.
-/
theorem ensures_insertChannels (collection : CollectionId) (htruthful : c.store.Truthful) :
    Ensures (insertChannels collection) c
      (fun _ d => ∃ groups, d.channels.groups.get? collection = some groups ∧
        ((∀ group ∈ groups, c.cluster.registry.ownerOf group.name ≠ none) ∧ c.Divides d ∨
          c.Watches collection groups d))
      (fun _ d => c.Divides d) := by
  have hsame : c.Divides c := ⟨rfl, rfl, rfl, .refl _⟩
  have hlisted : c.store.segmentsOf collection =
      .ok (c.allocator.store.metadata.segmentsOf collection) := by
    rw [GuardedStore.segmentsOf, htruthful.list]
    rfl
  rw [insertChannels, ensures_bind]
  refine (ensures_requireCollection collection).imp (fun _ d hd => ?_) fun _ d hd => hd.symm ▸ hsame
  subst d
  rw [ensures_bind, ensures_get, ensures_bind, onChannels, ensures_onPart]
  refine (Channels.ensures_allocate collection _).imp (fun answer channels h => ?_)
    fun _ channels h => by rwa [h]
  obtain ⟨hextends, hgroups⟩ := h
  obtain ⟨groups, created⟩ := answer
  simp only [ensures_bind, ensures_get]
  split
  · rw [ensures_bind]
    refine (ensures_watch groups).imp (fun _ d hd => ?_) fun _ d hd => ?_
    · obtain ⟨registry, commands, hgives, rfl⟩ := hd
      rw [ensures_bind, ensures_modify]
      refine ⟨groups, ?_, .inr ?_⟩
      · unfold flushOrphans
        split <;> exact hgroups
      · unfold flushOrphans
        simp only [store] at hlisted ⊢
        rw [hlisted]
        exact ⟨rfl, hgives, ⟨commands, List.foldl_append.symm⟩, rfl, hextends, hgroups⟩
    · subst d
      exact ⟨rfl, rfl, rfl, hextends⟩
  · -- No group lacked an owner, so nothing is watched and nobody is asked again.
    rename_i howned
    refine ⟨groups, hgroups, .inl ⟨fun group hmem hnone => howned ?_, rfl, rfl, rfl, hextends⟩⟩
    exact List.any_eq_true.2 ⟨group, hmem, by rw [hnone]; rfl⟩

theorem effect_insertChannels (collection : CollectionId) (hsound : c.allocator.Sound) :
    Effect marks goal c ((insertChannels collection).attempt c).2 := by
  refine Ensures.attempt_snd ((ensures_insertChannels collection hsound.truthful).imp
    (fun _ d h => ?_) fun _ d h => .divided h)
  obtain ⟨groups, _, ⟨_, hdivides⟩ | hwatches⟩ := h
  · exact .divided hdivides
  · exact .watched collection groups hwatches

/-! ## What every effect does -/

/-- An effect serves one goal, and has segments flushed only if that is what it is for. -/
theorem Effect.evolved (h : Effect marks goal c d) :
    ∃ goal', c.allocator.Evolved (c.Admits goal') d.allocator ∧
      (goal' = some .flushed → goal = some .flushed) := by
  have hsame (heq : d.allocator = c.allocator) : ∃ goal',
      c.allocator.Evolved (c.Admits goal') d.allocator ∧
        (goal' = some .flushed → goal = some .flushed) := by
    rw [heq]
    exact ⟨none, .of_eq rfl (UInt64.le_refl _), fun h => nomatch h⟩
  cases h with
  | wrote h => exact ⟨goal, h.allocator.evolved, fun h => h⟩
  | recovered h =>
    refine ⟨none, h.allocator.mono ?_, fun h => nomatch h⟩
    rintro _ ⟨id, rfl⟩
    exact admits_supersede none id
  | sealed sealed h _ _ _ =>
    exact ⟨some .sealed, h.evolved (admits_supersede _) admits_seal, fun h => nomatch h⟩
  | moved h => exact hsame h.allocator
  | divided h => exact hsame h.allocator
  | watched collection groups h => exact hsame h.allocator
  | delivered h => exact hsame (by rw [h])

/-! ## Requests -/

/-- The state to which a request takes segments, if it takes them to any and seals none. -/
def Request.goal? : Request → Option SegmentState
  | .readFlushes => some .flushed
  | _ => none

theorem Request.goal?_ne_sealed (request : Request) : request.goal? ≠ some .sealed := by
  cases request <;> simp [goal?]

/-- Every request but the settling of all duties has one effect, and seals at most at one mark. -/
theorem effect_perform (request : Request) (hsettle : request ≠ .settle)
    (hsound : c.allocator.Sound) :
    Effect (fun mark => request = .watermark mark ∨ mark = c.barrier.feed.latest) request.goal? c
      (perform request c).2 := by
  cases request with
  | start => exact .recovered (recovers_start hsound)
  | stop =>
    change Effect _ _ c c.stop
    unfold stop
    dsimp only
    split <;> exact .of_eq rfl rfl rfl rfl
  | addCollection collection =>
    exact .wrote ((preserves_addCollection collection).attempt (.refl c))
  | assign requests => exact effect_assign requests hsound
  | openSegment key => exact effect_openSegment key hsound
  | flush collection => exact effect_flush collection
  | insertChannels collection => exact effect_insertChannels collection hsound
  | times id =>
    simp only [perform]
    split <;> exact .of_eq rfl rfl rfl rfl
  | register address node => exact .moved ((preserves_register address node).attempt (.refl c))
  | deregister node => exact .moved ((preserves_deregister node).attempt (.refl c))
  | reap => exact .moved moves_reap
  | sendTimeTick tick => exact .of_eq rfl rfl rfl rfl
  | sendStatistics batch => exact .of_eq rfl rfl rfl rfl
  | sendFlushCompleted completed => exact .of_eq rfl rfl rfl rfl
  | watermark watermark => exact effect_onWatermark (.inl rfl) c.phase
  | readTimeTicks => exact .moved moves_readTimeTicks
  | readStatistics => exact .wrote (wrote_readStatistics (admits_report none))
  | readFlushes => exact .wrote (wrote_readFlushes admits_flush)
  | runWatcher => exact effect_runWatcher (.inr rfl)
  | runReaper => exact .moved moves_runReaper
  | settle => exact absurd rfl hsettle
  | deliver => exact .delivered rfl

/-- The duties, in the order in which a coordinator that settles does them. -/
def duties : List Request :=
  [.readTimeTicks, .runWatcher, .readStatistics, .readFlushes, .runReaper, .runWatcher]

/-- The labels of requests that are made one after another. -/
def labelsOf {τ : Type} (label : Request → Coordinator → τ) : List Request → Coordinator → List τ
  | [], _ => []
  | request :: requests, c => label request c :: labelsOf label requests (perform request c).2

/-- Requests that are steps of one kind make a path if they are made one after another. -/
theorem path_performAll {τ : Type} {step : Coordinator → τ → Coordinator → Prop}
    {label : Request → Coordinator → τ} {requests : List Request}
    (h : ∀ request ∈ requests, ∀ c, step c (label request c) (perform request c).2)
    (c : Coordinator) :
    Path step c (labelsOf label requests c) (performAll requests c).2 := by
  induction requests generalizing c with
  | nil => exact .nil c
  | cons request requests ih =>
    obtain ⟨hfirst, hrest⟩ := List.forall_mem_cons.1 h
    exact (Path.single (hfirst c)).append (ih hrest _)

/-- To settle is to do the duties one after another, or nothing if they do not run. -/
theorem settle_eq (c : Coordinator) : c.settle = c ∨ c.settle = (performAll duties c).2 := by
  unfold settle
  split
  · exact .inr rfl
  · exact .inl rfl
  · exact .inl rfl

theorem settle_notMem_duties : .settle ∉ duties := by simp [duties]

/-- So it is a run of its own wherever the duties are steps. -/
theorem exists_path_settle {τ : Type} {step : Coordinator → τ → Coordinator → Prop}
    {label : Request → Coordinator → τ}
    (h : ∀ request ∈ duties, ∀ c, step c (label request c) (perform request c).2)
    (c : Coordinator) : ∃ labels, Path step c labels c.settle := by
  rcases settle_eq c with heq | heq
  · rw [heq]
    exact ⟨[], .nil c⟩
  · rw [heq]
    exact ⟨_, path_performAll h c⟩

end Coordinator

end IngestCoordinator
