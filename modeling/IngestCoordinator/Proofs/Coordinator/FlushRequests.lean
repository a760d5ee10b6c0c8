-- SUMMARY: Who asks for sealed segments to be stored, and the one case in which nobody does.
import IngestCoordinator.Proofs.Coordinator.Moments

/-!
# Flush requests

When a segment is sealed a node is asked to store it, unless its own node is gone and
its group has no owner. Then it waits until its group is given to a node again, and is
asked for at that moment. There is one exception: if its own node has registered again
in the meantime, the segment does not look like one that has lost its node, and nobody
is asked.
-/

namespace IngestCoordinator

open Operation

/-! ## Who is to store a segment -/

/-- Records of one segment are to be stored by one node. -/
theorem Registry.flusherOf_eq {segment segment' : Segment} (h : segment.SameOrigin segment')
    (registry : Registry) : registry.flusherOf segment' = registry.flusherOf segment := by
  rw [flusherOf, h.node, h.group, ← flusherOf]

namespace Coordinator

variable {c d e : Coordinator} {marks : Timestamp → Prop} {goal : Option SegmentState}
  {admits : Coordinator → Request → Prop} {id : SegmentId} {segment segment' : Segment}
  {moment m : Moment} {moments later : List Moment} {collection : CollectionId}
  {groups : List ChannelGroup}

namespace Moment

/-- The commands that are queued in the step. -/
def issued (moment : Moment) : List Command :=
  moment.after.cluster.outbox.queued.drop moment.before.cluster.outbox.queued.length

/-- The segment becomes sealed in the step. -/
def Seals (moment : Moment) (id : SegmentId) : Prop :=
  ¬ ClosedIn moment.before.allocator.segments id ∧ ClosedIn moment.after.allocator.segments id

/-- A registered node is asked in the step to store the segment. -/
def Requests (moment : Moment) (id : SegmentId) : Prop :=
  ∃ node collection ids, moment.after.cluster.registry.node? node.id = some node ∧
    .flush node collection ids ∈ moment.issued ∧ id ∈ ids

/-- In the step there is no node to store the segment. -/
def Skips (moment : Moment) (segment : Segment) : Prop :=
  moment.after.cluster.registry.flusherOf segment = none

end Moment

/-! ## What holds at every moment -/

/-- Nodes, groups and commands are in order, and each stored segment belongs to a group. -/
structure Orderly (c : Coordinator) : Prop where
  allocator : c.allocator.Sound
  registry : c.cluster.registry.Sound
  outbox : c.cluster.outbox.isOpen = true
  channels : c.channels.Sound
  named : ∀ id segment, c.allocator.segments.get? id = some segment →
    c.channels.Names segment.collection segment.group

theorem New.orderly (h : c.New) : c.Orderly where
  allocator := h.allocator.sound
  registry := h.registry ▸ Registry.sound_empty
  outbox := h.outbox
  channels collection groups hget := by
    rw [h.channels] at hget
    cases hget
  named id segment hget := by
    rw [h.allocator.noSegments] at hget
    cases hget

theorem Effect.channels (h : Effect marks goal c d) : c.channels.Extends d.channels := by
  cases h with
  | wrote h => exact h.channels ▸ .refl _
  | recovered h => exact h.channels ▸ .refl _
  | sealed sealed _ _ _ hchannels => exact hchannels ▸ .refl _
  | moved h => exact h.channels ▸ .refl _
  | divided h => exact h.channels
  | watched collection groups h => exact h.channels
  | delivered h =>
    rw [h]
    exact .refl _

theorem Effect.registry (h : Effect marks goal c d) (hsound : c.cluster.registry.Sound) :
    d.cluster.registry.Sound := by
  cases h with
  | wrote h => exact h.cluster ▸ hsound
  | recovered h => exact h.registry ▸ hsound
  | sealed sealed _ hcluster _ _ => exact hcluster ▸ hsound
  | moved h => exact h.registry.sound hsound
  | divided h => exact h.cluster ▸ hsound
  | watched collection groups h => exact (h.registry hsound).sound
  | delivered h =>
    rw [h]
    exact hsound

theorem Effect.outbox (h : Effect marks goal c d) (hopen : c.cluster.outbox.isOpen = true) :
    d.cluster.outbox.isOpen = true := by
  have hpost (commands : List Command) :
      (commands.foldl Outbox.post c.cluster.outbox).isOpen = true := by
    rw [Outbox.foldl_post commands hopen]
    exact hopen
  cases h with
  | wrote h => exact h.cluster ▸ hopen
  | recovered h => exact h.outbox ▸ hopen
  | sealed sealed _ hcluster _ _ =>
    rw [hcluster]
    exact hpost _
  | moved h => exact h.outbox ▸ hopen
  | divided h => exact h.cluster ▸ hopen
  | watched collection groups h =>
    obtain ⟨commands, houtbox⟩ := h.outbox
    rw [houtbox]
    exact hpost _
  | delivered h =>
    rw [h]
    exact hopen

/-- Segments are added under groups that are known, and groups are never given up. -/
theorem Effect.named (h : Effect marks goal c d) (hc : c.Orderly) :
    ∀ id segment, d.allocator.segments.get? id = some segment →
      d.channels.Names segment.collection segment.group := by
  obtain ⟨goal', ⟨writes, hevolves, hadmits⟩, _⟩ := h.evolved
  refine hevolves.history.forall_origin (fun hsame hnames => ?_) (fun segment hmem => ?_)
    fun id segment hget => h.channels.names (hc.named id segment hget)
  · rwa [hsame.collection, hsame.group]
  · exact h.channels.names ((hadmits _ hmem).2 segment rfl)

theorem Operates.orderly (h : Operates admits c moment d) (hc : c.Orderly) : d.Orderly := by
  rcases h.effect hc.allocator with hwaits | ⟨goal, _, heffect⟩
  · refine ⟨hwaits.allocator.sound hc.allocator, hwaits.registry ▸ hc.registry,
      hwaits.outbox ▸ hc.outbox, hwaits.channels ▸ hc.channels, ?_⟩
    rw [hwaits.allocator.segments, hwaits.channels]
    exact hc.named
  · obtain ⟨_, ⟨writes, hevolves, _⟩, _⟩ := heffect.evolved
    exact ⟨(hevolves.extends hc.allocator).sound, heffect.registry hc.registry,
      heffect.outbox hc.outbox, heffect.channels.sound hc.channels, heffect.named hc⟩

/-! ## What one step does -/

/-- A segment that a step seals is among those that it has nodes store. -/
theorem Operates.flushes (h : Operates admits c moment d) (hc : c.Orderly)
    (hopen : ¬ ClosedIn c.allocator.segments id)
    (hget : d.allocator.segments.get? id = some segment) (hclosed : segment.state.isImmutable = true) :
    ∃ sealed, d.cluster = c.cluster.requestFlush sealed ∧
      ∃ listed ∈ sealed, listed.SameOrigin segment := by
  have hunsealed {kind : Write → Prop} (hevolved : c.allocator.Evolved kind d.allocator)
      (hkind : ∀ write, kind write → write.sealTime? = none) : False := by
    obtain ⟨writes, hevolves, hall⟩ := hevolved
    have hunsealed : ∀ write ∈ writes, write.sealTime? = none := fun write hmem =>
      hkind write (hall write hmem)
    exact hopen (hevolves.history.closedIn_of_unsealed hunsealed ⟨segment, hget, hclosed⟩)
  -- Of all effects only sealing closes a segment; after any other it would still be open.
  have hsame (heq : d.allocator.segments = c.allocator.segments) : False :=
    hopen ⟨segment, heq ▸ hget, hclosed⟩
  rcases h.effect hc.allocator with hwaits | ⟨goal, hgoal, heffect⟩
  · exact (hsame hwaits.allocator.segments).elim
  · cases heffect with
    | wrote h =>
      exact (hunsealed h.allocator.evolved fun _ hadmits => hadmits.1.sealTime?_eq_none hgoal).elim
    | recovered h => exact (hunsealed h.allocator fun _ h => h.sealTime?_eq_none).elim
    | sealed sealed hseals hcluster _ _ =>
      have hcloses := hseals.closes hc.allocator.truthful
      obtain ⟨listed, hmem, rfl⟩ :=
        (hcloses.listed id ⟨segment, hget, hclosed⟩).resolve_left hopen
      obtain ⟨stored, hstored, hsame⟩ := hcloses.origin listed hmem
      cases hget.symm.trans hstored
      exact ⟨sealed, hcluster, listed, hmem, hsame⟩
    | moved h => exact (hsame (by rw [h.allocator])).elim
    | divided h => exact (hsame (by rw [h.allocator])).elim
    | watched collection groups h => exact (hsame (by rw [h.allocator])).elim
    | delivered h => exact (hsame (by rw [h])).elim

/-- A group without owner gets one only when it is watched. -/
theorem Operates.owner (h : Operates admits c moment d) (hc : c.Orderly) {name : String}
    (hnone : c.cluster.registry.ownerOf name = none) :
    d.cluster.registry.ownerOf name = none ∨ ∃ collection groups, c.Watches collection groups d ∧
      ∃ group ∈ groups, group.name = name := by
  rcases h.effect hc.allocator with hwaits | ⟨goal, _, heffect⟩
  · exact .inl (hwaits.registry ▸ hnone)
  · cases heffect with
    | wrote h => exact .inl (h.cluster ▸ hnone)
    | recovered h => exact .inl (h.registry ▸ hnone)
    | sealed sealed _ hcluster _ _ => exact .inl (hcluster ▸ hnone)
    -- A node that leaves frees its groups, and one that joins has none yet.
    | moved h => exact .inl (h.registry.ownerless name hnone)
    | divided h => exact .inl (h.cluster ▸ hnone)
    | watched collection groups h =>
      by_cases hmem : name ∈ groups.map ChannelGroup.name
      · exact .inr ⟨collection, groups, h, List.mem_map.1 hmem⟩
      · exact .inl ((h.registry hc.registry).others name hmem ▸ hnone)
    | delivered h =>
      rw [h]
      exact .inl hnone

/-- A command to a node that is queued in a step asks for what it names. -/
theorem requests_of_posted (hd : d.cluster.registry.Sound) {commands : List Command}
    {segments : List Segment} (hopen : c.cluster.outbox.isOpen = true)
    (houtbox : d.cluster.outbox =
      (commands ++ d.cluster.registry.flushCommands segments).foldl Outbox.post c.cluster.outbox)
    (hmem : segment ∈ segments) (hsome : d.cluster.registry.flusherOf segment ≠ none)
    (told : List Event) : Moment.Requests ⟨c, d, told⟩ segment.id := by
  obtain ⟨node, hnode⟩ := Option.ne_none_iff_exists'.1 hsome
  obtain ⟨info, ids, hinfo, hcommand, hid⟩ := Registry.exists_flushCommand hd hmem hnode
  refine ⟨info, segment.collection, ids, hinfo, ?_, hid⟩
  rw [Outbox.foldl_post _ hopen] at houtbox
  simp only [Moment.issued, houtbox, List.drop_left]
  exact List.mem_append_right _ hcommand

/-- When its group is watched a sealed segment is asked for, unless its own node is there. -/
theorem Watches.requests (h : c.Watches collection groups d) (hc : c.Orderly)
    (hget : c.allocator.segments.get? id = some segment) (hsealed : segment.state = .sealed)
    (hcollection : segment.collection = collection)
    (howned : d.cluster.registry.ownerOf segment.group ≠ none) (told : List Event) :
    Moment.Requests ⟨c, d, told⟩ segment.id ∨
      ∃ node, segment.node = some node ∧ d.cluster.registry.Has node := by
  cases horphan : d.isOrphan segment with
  | true =>
    left
    have hstored : segment ∈ c.allocator.store.metadata.segmentsOf collection :=
      List.mem_filter.2 ⟨(Allocator.mem_segments_iff hc.allocator.coherent.toNumbered).2
        (hc.allocator.coherent.numbered hget ▸ hget), by simpa using hcollection⟩
    obtain ⟨commands, houtbox⟩ := h.outbox
    refine requests_of_posted (h.registry hc.registry).sound hc.outbox houtbox
      (List.mem_filter.2 ⟨hstored, horphan⟩) (fun hnone => ?_) told
    exact howned (Registry.flusherOf_eq_none hnone).2
  | false =>
    right
    have hsome : (segment.node.bind d.cluster.registry.node?).isSome = true := by
      simpa [isOrphan, hsealed] using horphan
    obtain ⟨info, hbind⟩ := Option.isSome_iff_exists.1 hsome
    obtain ⟨node, hnode, hinfo⟩ := Option.bind_eq_some_iff.1 hbind
    exact ⟨node, hnode, info, hinfo⟩

/-! ## What becomes of a sealed segment -/

/-- The segment was sealed at the moment, and the later ones have followed. -/
structure SealedAt (id : SegmentId) (moments : List Moment) (moment : Moment) (later : List Moment) :
    Prop where
  followed : ∃ earlier, moments = earlier ++ moment :: later
  seals : moment.Seals id

theorem SealedAt.snoc (h : SealedAt id moments moment later) (m : Moment) :
    SealedAt id (moments ++ [m]) moment (later ++ [m]) := by
  obtain ⟨earlier, rfl⟩ := h.followed
  exact ⟨⟨earlier, by simp⟩, h.seals⟩

theorem SealedAt.subset (h : SealedAt id moments moment later) : moment :: later ⊆ moments := by
  obtain ⟨earlier, rfl⟩ := h.followed
  exact List.subset_append_right ..

/--
What has become of a segment that was sealed at the moment. A node has been asked for
it; or there was none to ask, and then either its own node has registered again or its
group still has no owner.
-/
inductive Traced (segment : Segment) (moment : Moment) (later : List Moment) (d : Coordinator) :
    Prop where
  | requested (h : ∃ m ∈ moment :: later, m.Requests segment.id)
  | returned (hskips : moment.Skips segment)
    (h : ∃ node, segment.node = some node ∧ ∃ m ∈ later, m.after.cluster.registry.Has node)
  | waiting (hskips : moment.Skips segment) (h : d.cluster.registry.ownerOf segment.group = none)

theorem Traced.of_sameOrigin (h : Traced segment moment later d)
    (hsame : segment.SameOrigin segment') : Traced segment' moment later d := by
  have hskips (hskips : moment.Skips segment) : moment.Skips segment' :=
    (Registry.flusherOf_eq hsame _).trans hskips
  cases h with
  | requested h => exact .requested (hsame.id ▸ h)
  | returned h h' => exact .returned (hskips h) (hsame.node ▸ h')
  | waiting h h' => exact .waiting (hskips h) (hsame.group ▸ h')

/-- One more step does not lose sight of a sealed segment. -/
theorem Traced.snoc (h : Traced segment moment later c) (hstep : Operates admits c m d)
    (hc : c.Orderly) (hget : c.allocator.segments.get? id = some segment)
    (hsealed : segment.state = .sealed) : Traced segment moment (later ++ [m]) d := by
  obtain ⟨rfl, rfl⟩ : m.before = c ∧ m.after = d := ⟨hstep.before_eq, hstep.after_eq⟩
  have hlast : m ∈ later ++ [m] := List.mem_append_right _ (List.mem_singleton_self _)
  cases h with
  | requested h =>
    obtain ⟨m', hmem, hrequests⟩ := h
    exact .requested ⟨m', List.mem_append_left [m] hmem, hrequests⟩
  | returned hskips h =>
    obtain ⟨node, hnode, m', hmem, hhas⟩ := h
    exact .returned hskips ⟨node, hnode, m', List.mem_append_left _ hmem, hhas⟩
  | waiting hskips h =>
    rcases hstep.owner hc h with hnone | ⟨collection, groups, hwatches, group, hgroup, hname⟩
    · exact .waiting hskips hnone
    · -- The group's name tells whose it is, so this is the collection that is watched.
      have hnames : m.after.channels.Names collection segment.group :=
        ⟨groups, hwatches.divided, group, hgroup, hname⟩
      have hcollection : segment.collection = collection :=
        (hstep.orderly hc).channels.collection_eq
          (hwatches.channels.names (hc.named id segment hget)) hnames
      have howned : m.after.cluster.registry.ownerOf segment.group ≠ none :=
        (hwatches.registry hc.registry).owned _ (List.mem_map.2 ⟨group, hgroup, hname⟩)
      rcases hwatches.requests hc hget hsealed hcollection howned m.told with
        hrequests | ⟨node, hnode, hhas⟩
      · exact .requested ⟨m, List.mem_cons_of_mem _ hlast, hrequests⟩
      · exact .returned hskips ⟨node, hnode, m, hlast, hhas⟩

/-- The step that seals a segment asks a node for it if there is one. -/
theorem traced_of_seals (hstep : Operates admits c m d) (hc : c.Orderly)
    (hopen : ¬ ClosedIn c.allocator.segments id)
    (hget : d.allocator.segments.get? id = some segment) (hclosed : segment.state.isImmutable = true) :
    Traced segment m [] d := by
  obtain ⟨sealed, hcluster, listed, hmem, hsame⟩ := hstep.flushes hc hopen hget hclosed
  obtain ⟨rfl, rfl⟩ : m.before = c ∧ m.after = d := ⟨hstep.before_eq, hstep.after_eq⟩
  cases hflusher : m.after.cluster.registry.flusherOf segment with
  | none => exact .waiting hflusher (Registry.flusherOf_eq_none hflusher).2
  | some node =>
    have hsome : m.after.cluster.registry.flusherOf listed ≠ none := by
      rw [← Registry.flusherOf_eq hsame, hflusher]
      simp
    have houtbox : m.after.cluster.outbox =
        ([] ++ m.after.cluster.registry.flushCommands sealed).foldl Outbox.post
          m.before.cluster.outbox := by
      rw [hcluster]
      rfl
    have hrequests :=
      requests_of_posted (hstep.orderly hc).registry hc.outbox houtbox hmem hsome m.told
    exact .requested ⟨m, List.mem_singleton_self _, hsame.id ▸ hrequests⟩

/-- In a run no sealed segment is lost sight of. -/
theorem exists_traced (hrun : Path (Operates admits) c moments d) (hnew : c.New) :
    d.Orderly ∧ ∀ id segment, d.allocator.segments.get? id = some segment → segment.state = .sealed →
      ∃ moment later, SealedAt id moments moment later ∧ Traced segment moment later d := by
  induction hrun with
  | nil =>
    refine ⟨hnew.orderly, fun id segment hget _ => ?_⟩
    rw [hnew.allocator.noSegments] at hget
    cases hget
  | @snoc d e moments m _ hstep ih =>
    obtain ⟨hd, htraced⟩ := ih
    refine ⟨hstep.orderly hd, fun id segment hget hsealed => ?_⟩
    have hclosed := SegmentState.isImmutable_of_sealed hsealed
    by_cases hbefore : ClosedIn d.allocator.segments id
    · -- What is sealed now and was closed before the step has been sealed since an earlier one.
      obtain ⟨writes, hhistory⟩ := hstep.history hd.allocator
      obtain ⟨old, hold, hstill, hsame⟩ := hhistory.sealed_before hbefore hget hsealed
      obtain ⟨moment, later, hat, htrace⟩ := htraced id old hold hstill
      exact ⟨moment, later ++ [m], hat.snoc m, (htrace.snoc hstep hd hold hstill).of_sameOrigin hsame⟩
    · have hseals : m.Seals id := by
        rw [Moment.Seals, hstep.before_eq, hstep.after_eq]
        exact ⟨hbefore, segment, hget, hclosed⟩
      exact ⟨m, [], ⟨⟨moments, rfl⟩, hseals⟩, traced_of_seals hstep hd hbefore hget hclosed⟩

/-! ## Watching the groups of a collection -/

/--
Whenever the insert channels of a collection are answered, a registered node has been
asked for each of its sealed segments since that was sealed. The only exception is a
segment whose own node was gone then, with the group left without an owner, and has
registered again since.
-/
theorem sealed_segments_requested (hnew : c.New) (hrun : Path (Operates anything) c moments d)
    {channels : List String} (hanswer : insertChannels collection d = .ok channels e) :
    ∀ id segment, e.allocator.segments.get? id = some segment →
      segment.collection = collection → segment.state = .sealed →
        ∃ moment later, SealedAt id (moments ++ [⟨d, e, []⟩]) moment later ∧
          ((∃ m ∈ moment :: later, m.Requests id) ∨
            moment.Skips segment ∧ ∃ node, segment.node = some node ∧
              ∃ m ∈ later, m.after.cluster.registry.Has node) := by
  intro id segment hget hcollection hsealed
  have hstep : Operates anything d ⟨d, e, []⟩ e := by
    have hrequest : Operates anything d _ _ :=
      .request (.insertChannels collection) (by simp) trivial
    simp only [momentOf, perform, Operation.attempt, hanswer] at hrequest
    exact hrequest
  have hd := (exists_traced hrun hnew).1
  obtain ⟨he, htraced⟩ := exists_traced (hrun.snoc hstep) hnew
  obtain ⟨moment, later, hat, htrace⟩ := htraced id segment hget hsealed
  obtain rfl := he.allocator.coherent.numbered hget
  refine ⟨moment, later, hat, ?_⟩
  cases htrace with
  | requested h => exact .inl h
  | returned hskips h => exact .inr ⟨hskips, h⟩
  | waiting hskips hnone =>
    -- By the time of the answer all groups of the collection have owners.
    obtain ⟨groups, hgroups, howners⟩ :=
      (ensures_insertChannels collection hd.allocator.truthful).ok hanswer
    obtain ⟨groups', hgroups', group, hgroup, hname⟩ := he.named _ segment hget
    rw [hcollection, hgroups] at hgroups'
    cases hgroups'
    refine absurd hnone (hname ▸ ?_)
    rcases howners with ⟨howned, hdivides⟩ | hwatches
    · rw [hdivides.cluster]
      exact howned group hgroup
    · exact (hwatches.registry hd.registry).owned _ (List.mem_map_of_mem hgroup)

/-- A collection with one group, which a node watches that is gone when rows are granted. -/
def leaving : List Request :=
  [.addCollection ⟨⟨1⟩, ⟨"schema", [⟨"field", .int64, 0⟩]⟩, [⟨2⟩]⟩, .register "address" ⟨1⟩,
    .insertChannels ⟨1⟩, .deregister ⟨1⟩, assignRows 10, .watermark 9, .register "another" ⟨2⟩]

/-- The segment has never had a node, and the next node that comes is asked for it. -/
theorem next_node_is_asked :
    ∃ channels e, insertChannels ⟨1⟩ (performAll leaving onMemory).2 = .ok channels e ∧
      ∃ m ∈ labelsOf momentOf leaving onMemory ++ [⟨(performAll leaving onMemory).2, e, []⟩],
        m.Requests ⟨1⟩ := by
  have hrun : Path (Operates anything) onMemory _ _ := path_performAll (operates_of_mem leaving
    (by simp [leaving, assignRows]) fun _ _ _ => trivial) onMemory
  have hanswer : insertChannels ⟨1⟩ (performAll leaving onMemory).2 = .ok ["channel-1_0"] _ :=
    eq_ok_of_attempt (by decide +kernel)
  have hsegment :
      (((insertChannels ⟨1⟩).attempt (performAll leaving onMemory).2).2.allocator.segments.get? ⟨1⟩).map
        (fun segment => (segment.collection, segment.state, segment.node)) =
          some (⟨1⟩, .sealed, none) := by decide +kernel
  obtain ⟨segment, hget, hsegment⟩ := Option.map_eq_some_iff.1 hsegment
  simp only [Prod.mk.injEq] at hsegment
  obtain ⟨hcollection, hsealed, hnode⟩ := hsegment
  obtain ⟨moment, later, hat, hfate⟩ :=
    sealed_segments_requested new_onMemory hrun hanswer ⟨1⟩ segment hget hcollection hsealed
  refine ⟨_, _, hanswer, ?_⟩
  rcases hfate with ⟨m, hmem, hrequests⟩ | ⟨_, node, hsome, _⟩
  · exact ⟨m, hat.subset hmem, hrequests⟩
  · cases hnode.symm.trans hsome

/--
Ten rows are granted on the group of the first node, which then leaves. It is back
once the watermark has moved and the segment has been sealed.
-/
def returning : List Request :=
  [.addCollection ⟨⟨1⟩, ⟨"schema", [⟨"field", .int64, 0⟩]⟩, [⟨2⟩]⟩, .register "address" ⟨1⟩,
    .register "another" ⟨2⟩, .insertChannels ⟨1⟩, assignRows 10, .deregister ⟨1⟩,
    .sendTimeTick ⟨⟨2⟩, 9⟩, .readTimeTicks, .watermark 9, .register "address" ⟨1⟩]

/-- The group is given to the node again, but nobody is ever asked for the segment. -/
theorem returned_node_is_not_asked :
    ∃ moments d channels e, Path (Operates anything) onMemory moments d ∧
      insertChannels ⟨1⟩ d = .ok channels e ∧
      (∃ segment, e.allocator.segments.get? ⟨1⟩ = some segment ∧ segment.collection = ⟨1⟩ ∧
        segment.state = .sealed) ∧
      ∀ m ∈ moments ++ [⟨d, e, []⟩], ¬ m.Requests ⟨1⟩ := by
  have hrun : Path (Operates anything) onMemory _ _ := path_performAll (operates_of_mem returning
    (by simp [returning, assignRows]) fun _ _ _ => trivial) onMemory
  have hanswer : insertChannels ⟨1⟩ (performAll returning onMemory).2 = .ok ["channel-1_0"] _ :=
    eq_ok_of_attempt (by decide +kernel)
  have hsegment :
      (((insertChannels ⟨1⟩).attempt (performAll returning onMemory).2).2.allocator.segments.get? ⟨1⟩).map
        (fun segment => (segment.collection, segment.state)) = some (⟨1⟩, .sealed) := by
    decide +kernel
  have hsilent : ∀ m ∈ labelsOf momentOf returning onMemory ++ [⟨(performAll returning onMemory).2,
      ((insertChannels ⟨1⟩).attempt (performAll returning onMemory).2).2, []⟩],
      ∀ command ∈ m.issued, ⟨1⟩ ∉ command.segments := by decide +kernel
  obtain ⟨segment, hget, hsegment⟩ := Option.map_eq_some_iff.1 hsegment
  rw [Prod.mk.injEq] at hsegment
  refine ⟨_, _, _, _, hrun, hanswer, ⟨segment, hget, hsegment⟩, fun m hmem hrequests => ?_⟩
  obtain ⟨node, collection, ids, _, hcommand, hid⟩ := hrequests
  exact hsilent m hmem _ hcommand hid

end Coordinator

end IngestCoordinator
