-- SUMMARY: Which nodes are asked to store sealed segments, and that each segment is asked for once.
import IngestCoordinator.Proofs.Ownership

/-!
# Flush targets

Sealed segments are asked for by node and collection. A segment goes to the node that it
was opened on as long as that is registered, and to the owner of its group otherwise.
Since owners are registered, no command is lost, and none names a segment that another
names too.
-/

namespace IngestCoordinator

open Registry (FlushTarget)

/-- The node and the collection that a flush command is about. -/
def Command.target? : Command → Option FlushTarget
  | .watch _ _ => none
  | .flush node collection _ => some ⟨node.id, collection⟩

/-- The commands name the segment once in all, and the one that does so goes to the node. -/
def NamedOnce (commands : List Command) (id : SegmentId) (node : NodeId) : Prop :=
  (commands.flatMap Command.segments).count id = 1 ∧
    ∃ command ∈ commands, command.node.id = node ∧ id ∈ command.segments

namespace Registry

variable {registry : Registry} {segment : Segment} {segments : List Segment} {node : NodeId}
  {target : FlushTarget} {ids : List SegmentId} {command : Command}

/-! ## Who is to store a segment -/

theorem flusherOf_of_has (hnode : segment.node = some node) (hhas : registry.Has node) :
    registry.flusherOf segment = some node := by
  have hsome : (segment.node.filter fun id => (registry.node? id).isSome) = some node := by
    rw [Option.filter_eq_some_iff]
    exact ⟨hnode, Option.isSome_iff_exists.2 hhas⟩
  simp [flusherOf, hsome]

theorem flusherOf_of_gone (hgone : ∀ node, segment.node = some node → ¬ registry.Has node) :
    registry.flusherOf segment = registry.ownerOf segment.group := by
  have hnone : (segment.node.filter fun id => (registry.node? id).isSome) = none := by
    rw [Option.filter_eq_none_iff]
    intro id hid hsome
    exact hgone id hid (Option.isSome_iff_exists.1 hsome)
  simp [flusherOf, hnone]

/-! ## Commands apart -/

theorem target?_of_flushCommand (hnumbered : registry.Numbered)
    (h : (registry.flushCommand target.node target.collection ids).toOption = some command) :
    command.target? = some target := by
  cases hnode : registry.node? target.node with
  | none => simp [flushCommand, hnode, Except.toOption] at h
  | some info =>
    simp only [flushCommand, hnode, Except.toOption, Option.some.injEq] at h
    subst h
    rw [Command.target?, hnumbered.info_id hnode]

/-- There is at most one command for a target. -/
theorem nodup_targets (hnumbered : registry.Numbered) (segments : List Segment) :
    ((registry.flushCommands segments).map Command.target?).Nodup := by
  simp only [List.Nodup, flushCommands, List.pairwise_map, List.pairwise_filterMap]
  have hkeys := List.pairwise_map.1 (registry.flushBatches segments).nodup_keys
  refine hkeys.imp fun {batch batch'} hne command hcommand command' hcommand' hsame => hne ?_
  rw [target?_of_flushCommand hnumbered hcommand, target?_of_flushCommand hnumbered hcommand']
    at hsame
  exact Option.some.inj hsame

/-- A segment has one target only, so that it is in one command and once in that. -/
theorem nodup_flushed (hnumbered : registry.Numbered) (hids : (segments.map Segment.id).Nodup) :
    ((registry.flushCommands segments).flatMap Command.segments).Nodup := by
  rw [List.nodup_flatMap]
  constructor
  · intro command hmem
    obtain ⟨target, info, -, -, rfl⟩ := mem_flushCommands.1 hmem
    exact hids.sublist (List.filter_sublist.map Segment.id)
  · have htargets := List.pairwise_map.1 (nodup_targets hnumbered segments)
    refine htargets.imp_of_mem fun {command command'} hmem hmem' hne id hid hid' => hne ?_
    obtain ⟨target, info, hinfo, -, rfl⟩ := mem_flushCommands.1 hmem
    obtain ⟨target', info', hinfo', -, rfl⟩ := mem_flushCommands.1 hmem'
    obtain ⟨segment, hsegment, rfl⟩ := List.mem_map.1 hid
    obtain ⟨segment', hsegment', hsame⟩ := List.mem_map.1 hid'
    obtain ⟨hlisted, hflusher, hcollection⟩ := mem_batchFor.1 hsegment
    obtain ⟨hlisted', hflusher', hcollection'⟩ := mem_batchFor.1 hsegment'
    -- Two records of one number are one record, and that has one node and one collection.
    obtain rfl := List.inj_on_of_nodup_map hids hlisted' hlisted hsame
    rw [Command.target?, Command.target?, hnumbered.info_id hinfo, hnumbered.info_id hinfo',
      ← hcollection, ← hcollection']
    simpa using hflusher.symm.trans hflusher'

/-- A segment for which there is a registered node is named in a command to that node. -/
theorem namedOnce_flushCommands (hsound : registry.Sound) (hids : (segments.map Segment.id).Nodup)
    (hmem : segment ∈ segments) (hflusher : registry.flusherOf segment = some node) :
    NamedOnce (registry.flushCommands segments) segment.id node := by
  obtain ⟨info, hinfo⟩ := has_of_flusherOf hsound hflusher
  have hbatch : segment ∈ registry.batchFor segments ⟨node, segment.collection⟩ :=
    mem_batchFor.2 ⟨hmem, hflusher, rfl⟩
  have hcommand := mem_flushCommands.2
    ⟨⟨node, segment.collection⟩, info, hinfo, List.ne_nil_of_mem hbatch, rfl⟩
  have hnamed := List.mem_map_of_mem (f := Segment.id) hbatch
  refine ⟨?_, _, hcommand, hsound.toNumbered.info_id hinfo, hnamed⟩
  apply List.count_eq_one_of_mem (nodup_flushed hsound.toNumbered hids)
  exact List.mem_flatMap.2 ⟨_, hcommand, hnamed⟩

end Registry

/-! ## Requests -/

namespace Cluster

variable {c d : Cluster} {labels : List (Option Request)}

/--
Segments are asked for by commands that are queued after those that wait already, unless
the queue is closed. Each goes to a registered node and names segments of one collection,
in the order of the list; for a node and a collection there is at most one.
A segment is named once: to its own node if that is registered, and otherwise to the owner
of its group. If the group has no owner either, it is named in no command.
-/
theorem requestFlush_names_once (hstart : c.registry = {}) (hrun : Path Happens c labels d)
    (segments : List Segment) (hids : (segments.map Segment.id).Nodup) :
    let commands := d.registry.flushCommands segments
    (d.outbox.isOpen = true →
      d.requestFlush segments = { d with outbox.queued := d.outbox.queued ++ commands }) ∧
    (d.outbox.isOpen = false → d.requestFlush segments = d) ∧
    (∀ segment ∈ segments,
      (∀ node, segment.node = some node → d.registry.Has node →
        NamedOnce commands segment.id node) ∧
      ((∀ node, segment.node = some node → ¬ d.registry.Has node) →
        (∀ owner, d.registry.ownerOf segment.group = some owner →
          NamedOnce commands segment.id owner) ∧
        (d.registry.ownerOf segment.group = none →
          ∀ command ∈ commands, segment.id ∉ command.segments))) ∧
    (commands.map Command.target?).Nodup ∧
    ∀ command ∈ commands, ∃ info collection listed,
      command = .flush info collection (listed.map Segment.id) ∧
      d.registry.node? info.id = some info ∧ listed ≠ [] ∧ listed.Sublist segments ∧
      ∀ segment ∈ listed, segment.collection = collection := by
  have haligned : d.registry.Aligned := by
    apply aligned_of_path hrun
    exact hstart ▸ Registry.aligned_empty
  have hsound := haligned.sound
  refine ⟨fun hopen => post_of_open hopen _, fun hclosed => post_of_closed hclosed _,
    fun segment hmem => ⟨?_, fun hgone => ⟨?_, ?_⟩⟩, Registry.nodup_targets hsound.toNumbered segments, ?_⟩
  · intro node hnode hhas
    exact Registry.namedOnce_flushCommands hsound hids hmem (Registry.flusherOf_of_has hnode hhas)
  · intro owner howner
    have hflusher := (Registry.flusherOf_of_gone hgone).trans howner
    exact Registry.namedOnce_flushCommands hsound hids hmem hflusher
  · intro hnone command hcommand hnamed
    obtain ⟨target, info, -, -, rfl⟩ := Registry.mem_flushCommands.1 hcommand
    obtain ⟨segment', hbatch, hsame⟩ := List.mem_map.1 hnamed
    obtain ⟨hmem', hflusher, -⟩ := Registry.mem_batchFor.1 hbatch
    obtain rfl := List.inj_on_of_nodup_map hids hmem' hmem hsame
    rw [Registry.flusherOf_of_gone hgone, hnone] at hflusher
    cases hflusher
  · intro command hcommand
    obtain ⟨target, info, hinfo, hne, rfl⟩ := Registry.mem_flushCommands.1 hcommand
    refine ⟨info, target.collection, _, rfl, ?_, hne, List.filter_sublist, ?_⟩
    · rwa [hsound.toNumbered.info_id hinfo]
    · exact fun segment hsegment => (Registry.mem_batchFor.1 hsegment).2.2

/-- Group `b` passes from the second node to the first, and the second node is gone. -/
def passing : List Request :=
  [.register "first" ⟨1⟩, .register "second" ⟨2⟩, .watch [⟨"a", ⟨7⟩, []⟩, ⟨"b", ⟨7⟩, []⟩],
    .deregister ⟨2⟩, .watch [⟨"b", ⟨7⟩, []⟩], .register "third" ⟨3⟩]

/-- Segments of two collections from all three nodes, and one whose group nobody owns. -/
def collected : List Segment :=
  let closed (id node collection : Int64) (group : String) : Segment :=
    { Segment.fresh ⟨id⟩ ⟨⟨collection⟩, ⟨1⟩, "channel"⟩ group (some ⟨node⟩) 100 0 with
      state := .sealed }
  [closed 10 3 7 "a", closed 11 1 7 "a", closed 12 2 8 "b", closed 13 2 7 "b", closed 14 2 7 "c"]

theorem requestFlush_names_once_passing :
    let d := performAll passing {}
    let commands := d.registry.flushCommands collected
    (collected.map Segment.id).Nodup ∧
    commands =
      [.flush ⟨⟨1⟩, "first", ["a", "b"]⟩ ⟨7⟩ [⟨11⟩, ⟨13⟩],
        .flush ⟨⟨1⟩, "first", ["a", "b"]⟩ ⟨8⟩ [⟨12⟩],
        .flush ⟨⟨3⟩, "third", []⟩ ⟨7⟩ [⟨10⟩]] ∧
    (d.requestFlush collected).outbox.queued = d.outbox.queued ++ commands ∧
    NamedOnce commands ⟨10⟩ ⟨3⟩ ∧ NamedOnce commands ⟨13⟩ ⟨1⟩ ∧
    ∀ command ∈ commands, ⟨14⟩ ∉ command.segments := by
  intro d commands
  have hids : (collected.map Segment.id).Nodup := by decide
  obtain ⟨hqueued, -, hnamed, -⟩ :=
    requestFlush_names_once rfl (path_performAll passing {}) collected hids
  have hgone (node : NodeId) (hnode : some ⟨2⟩ = some node) : ¬ d.registry.Has node := by
    cases hnode
    have hnone : d.registry.node? ⟨2⟩ = none := by decide +kernel
    rintro ⟨info, hinfo⟩
    simp [hnone] at hinfo
  refine ⟨hids, by decide +kernel, ?_, ?_, ?_, ?_⟩
  · rw [hqueued (by decide +kernel)]
  · exact (hnamed collected[0] (by decide)).1 ⟨3⟩ rfl ⟨⟨⟨3⟩, "third", []⟩, by decide +kernel⟩
  · exact ((hnamed collected[3] (by decide)).2 hgone).1 ⟨1⟩ (by decide +kernel)
  · exact ((hnamed collected[4] (by decide)).2 hgone).2 (by decide +kernel)

end Cluster

end IngestCoordinator
