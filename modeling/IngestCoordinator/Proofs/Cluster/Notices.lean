-- SUMMARY: What nodes are told when they get groups, and how far their records lag behind.
import IngestCoordinator.Proofs.Cluster.Giving

/-!
# Notices

Each node that gets groups is told once, and is told of all of them. With the groups
goes the node's record, and that is taken when the node gets the first of them: it
names that one and none of the others, so it is the node's record in the registry only
for a node that gets a single group.
-/

namespace IngestCoordinator

namespace Registry

variable {a : Registry} {groups carried : List ChannelGroup} {id : NodeId} {record : NodeInfo}
  {command : Command}

/-! ## What a node has got -/

theorem unowned_sublist (groups : List ChannelGroup) : (a.unowned groups).Sublist groups := by
  induction groups generalizing a with
  | nil => simp [unowned]
  | cons group groups ih =>
    by_cases hfree : a.ownerOf group.name = none
    · obtain ⟨b, hcons, -⟩ := exists_unowned_cons hfree groups
      exact hcons ▸ ih.cons_cons group
    · rw [unowned_cons_of_owned hfree]
      exact ih.cons group

/-- The groups of a list that a node has got, in their order and each name once. -/
structure Received (before after : Registry) (groups : List ChannelGroup) (id : NodeId)
    (carried : List ChannelGroup) : Prop where
  ordered : carried.Sublist groups
  once : (carried.map ChannelGroup.name).Nodup
  names : ∀ name, name ∈ carried.map ChannelGroup.name ↔
    name ∈ groups.map ChannelGroup.name ∧ before.ownerOf name = none ∧
      after.ownerOf name = some id

theorem received_share (before after : Registry) (groups : List ChannelGroup) (id : NodeId) :
    Received before after groups id (after.share (before.unowned groups) id) where
  ordered := List.filter_sublist.trans (unowned_sublist groups)
  once := nodup_names_unowned.sublist (List.filter_sublist.map ChannelGroup.name)
  names name := by
    rw [← and_assoc, ← mem_names_unowned]
    simp only [share, List.mem_map, List.mem_filter, beq_iff_eq]
    constructor
    · rintro ⟨group, ⟨hmem, howner⟩, rfl⟩
      exact ⟨⟨group, hmem, rfl⟩, howner⟩
    · rintro ⟨⟨group, hmem, rfl⟩, howner⟩
      exact ⟨group, ⟨hmem, howner⟩, rfl⟩

theorem Received.ne_nil_iff {before after : Registry}
    (h : Received before after groups id carried) :
    carried ≠ [] ↔ ∃ group ∈ groups, before.ownerOf group.name = none ∧
      after.ownerOf group.name = some id := by
  constructor
  · intro hne
    obtain ⟨first, hfirst⟩ := List.exists_mem_of_ne_nil carried hne
    obtain ⟨hmem, hnew⟩ := (h.names first.name).1 (List.mem_map_of_mem hfirst)
    obtain ⟨group, hgroup, hname⟩ := List.mem_map.1 hmem
    exact ⟨group, hgroup, hname ▸ hnew⟩
  · rintro ⟨group, hgroup, hnew⟩ rfl
    exact nomatch (h.names group.name).2 ⟨List.mem_map_of_mem hgroup, hnew⟩

/-! ## What it is told -/

/-- The record that is noted with the groups is the node's after it had got the first. -/
theorem get?_batches_giveAll (hnumbered : a.Numbered) (hsome : ∃ id, a.Has id) :
    (a.giveAll groups).batches.get? id = some (record, carried) ↔
      ∃ member first rest, a.members.get? id = some member ∧
        (a.giveAll groups).registry.share (a.unowned groups) id = first :: rest ∧
        record = (member.plus [first.name]).info ∧ carried = first :: rest := by
  have hdeals := deals_giveAll groups hnumbered hsome
  cases hmember : a.members.get? id with
  | none => simp [hdeals.unnoted id hmember]
  | some member =>
    rw [hdeals.noted id member hmember]
    cases (a.giveAll groups).registry.share (a.unowned groups) id with
    | nil => simp [Assignment.note]
    | cons first rest => simp [Assignment.note, eq_comm]

theorem mem_commands_giveAll (hnumbered : a.Numbered) (hsome : ∃ id, a.Has id) :
    command ∈ (a.giveAll groups).commands ↔
      ∃ member first rest, a.members.get? member.info.id = some member ∧
        (a.giveAll groups).registry.share (a.unowned groups) member.info.id = first :: rest ∧
        command = .watch (member.plus [first.name]).info (first :: rest) := by
  simp only [Assignment.commands, List.mem_map, SortedMap.mem_values_iff, Prod.exists,
    get?_batches_giveAll hnumbered hsome]
  constructor
  · rintro ⟨_, _, ⟨id, member, first, rest, hmember, hshare, rfl, rfl⟩, rfl⟩
    obtain rfl := hnumbered id member hmember
    exact ⟨member, first, rest, hmember, hshare, rfl⟩
  · rintro ⟨member, first, rest, hmember, hshare, rfl⟩
    exact ⟨_, _, ⟨member.info.id, member, first, rest, hmember, hshare, rfl, rfl⟩, rfl⟩

/-- No node is told twice. -/
theorem nodup_nodes_commands (hnumbered : a.Numbered) (hsome : ∃ id, a.Has id) :
    ((a.giveAll groups).commands.map fun command => command.node.id).Nodup := by
  have hkeys : ((a.giveAll groups).commands.map fun command => command.node.id) =
      (a.giveAll groups).batches.keys := by
    simp only [Assignment.commands, SortedMap.values, SortedMap.keys, List.map_map]
    apply List.map_congr_left
    rintro ⟨id, record, carried⟩ hmem
    obtain ⟨member, first, rest, hmember, -, rfl, -⟩ :=
      (get?_batches_giveAll hnumbered hsome).1 (SortedMap.mem_toList_iff.1 hmem)
    exact hnumbered id member hmember
  exact hkeys ▸ SortedMap.nodup_keys _

/-- A node is told of groups if it gets some. -/
theorem exists_command_iff (hnumbered : a.Numbered) (hsome : ∃ id, a.Has id) :
    (∃ command ∈ (a.giveAll groups).commands, command.node.id = id) ↔
      (a.giveAll groups).registry.share (a.unowned groups) id ≠ [] := by
  constructor
  · rintro ⟨command, hmem, rfl⟩
    obtain ⟨member, first, rest, -, hshare, rfl⟩ := (mem_commands_giveAll hnumbered hsome).1 hmem
    exact hshare ▸ List.cons_ne_nil first rest
  · intro hne
    obtain ⟨first, rest, hshare⟩ := List.exists_cons_of_ne_nil hne
    have hfirst : first ∈ (a.giveAll groups).registry.share (a.unowned groups) id :=
      hshare ▸ List.mem_cons_self
    simp only [share, List.mem_filter, beq_iff_eq] at hfirst
    -- An owner is registered, so the group has been noted for it.
    obtain ⟨owner, howner, hhas⟩ := (deals_giveAll groups hnumbered hsome).given.owned _ hfirst.1
    obtain rfl := Option.some.inj (howner.symm.trans hfirst.2)
    obtain ⟨member, hmember⟩ := has_iff.1 hhas
    obtain rfl := hnumbered owner member hmember
    have hmem := (mem_commands_giveAll hnumbered hsome).2
      ⟨member, first, rest, hmember, hshare, rfl⟩
    exact ⟨_, hmem, rfl⟩

end Registry

/-! ## Watching -/

namespace Cluster

variable {c : Cluster}

/--
Each node that gets some of the groups is sent one notice, which carries all that it gets,
and no other node is sent any. The record in the notice names the first of these groups
after those that the node had; the registry's record names the others as well, so the two
are the same exactly if there are no others.
-/
theorem watch_notifies_nodes (hnumbered : c.registry.Numbered) (hsome : ∃ id, c.registry.Has id)
    (groups : List ChannelGroup) :
    ∃ done d, Registry.watch groups c.registry = .ok done d.registry ∧
      watch groups c = .ok done.owners d ∧
      d.outbox = (c.post done.commands).outbox ∧
      (done.commands.map fun command => command.node.id).Nodup ∧
      (∀ id, (∃ command ∈ done.commands, command.node.id = id) ↔
        ∃ group ∈ groups, c.registry.ownerOf group.name = none ∧
          d.registry.ownerOf group.name = some id) ∧
      ∀ command ∈ done.commands, ∃ info first rest,
        let record := { info with groups := info.groups ++ [first.name] }
        command = .watch record (first :: rest) ∧
        c.registry.node? info.id = some info ∧
        Registry.Received c.registry d.registry groups info.id (first :: rest) ∧
        d.registry.node? info.id =
          some { record with groups := record.groups ++ rest.map ChannelGroup.name } ∧
        (d.registry.node? info.id = some record ↔ rest = []) := by
  have hgiven := (Registry.deals_giveAll groups hnumbered hsome).given
  refine ⟨c.registry.giveAll groups, _, Registry.watch_eq_ok groups hsome, watch_eq_ok groups hsome,
    rfl, Registry.nodup_nodes_commands hnumbered hsome, fun id => ?_, fun command hmem => ?_⟩
  · rw [Registry.exists_command_iff hnumbered hsome]
    exact (Registry.received_share ..).ne_nil_iff
  · obtain ⟨member, first, rest, hmember, hshare, rfl⟩ :=
      (Registry.mem_commands_giveAll hnumbered hsome).1 hmem
    have hreceived := Registry.received_share c.registry (c.registry.giveAll groups).registry groups
      member.info.id
    rw [hshare] at hreceived
    have hnode : (c.registry.giveAll groups).registry.node? member.info.id =
        some (member.plus ((first :: rest).map ChannelGroup.name)).info := by
      simp [Registry.node?, hgiven.get?, hmember, hshare]
    refine ⟨member.info, first, rest, rfl, ?_, hreceived, ?_, ?_⟩
    · simp [Registry.node?, hmember]
    · simp [Cluster.post, hnode, Member.plus]
    · simp [Cluster.post, hnode, Member.plus]

/-- Two groups of one collection. -/
def couple : List ChannelGroup :=
  [⟨"a", ⟨7⟩, ["a-0"]⟩, ⟨"b", ⟨7⟩, ["b-0"]⟩]

/-- Of three groups the first node gets two, and its record in the notice names one. -/
theorem watch_notifies_nodes_three :
    let c := performAll [.register "first" ⟨1⟩, .register "second" ⟨2⟩] {}
    let groups := couple ++ [⟨"c", ⟨7⟩, ["c-0"]⟩]
    ∃ owners d, watch groups c = .ok owners d ∧
      d.outbox.queued =
        [.watch ⟨⟨1⟩, "first", ["a"]⟩ [⟨"a", ⟨7⟩, ["a-0"]⟩, ⟨"c", ⟨7⟩, ["c-0"]⟩],
          .watch ⟨⟨2⟩, "second", ["b"]⟩ [⟨"b", ⟨7⟩, ["b-0"]⟩]] ∧
      (d.outbox.queued.map fun command => command.node.id).Nodup ∧
      d.registry.node? ⟨1⟩ = some ⟨⟨1⟩, "first", ["a", "c"]⟩ ∧
      d.registry.node? ⟨2⟩ = some ⟨⟨2⟩, "second", ["b"]⟩ := by
  intro c groups
  have hnumbered : c.registry.Numbered :=
    (aligned_of_path (path_performAll _ {}) Registry.aligned_empty).sound.toNumbered
  have hfirst : c.registry.Has ⟨1⟩ := ⟨⟨⟨1⟩, "first", []⟩, by decide +kernel⟩
  obtain ⟨done, d, -, hwatch, houtbox, hnodup, -⟩ :=
    watch_notifies_nodes hnumbered ⟨_, hfirst⟩ groups
  have hqueued : d.outbox.queued = done.commands := by
    have hempty : c.outbox = {} := by decide +kernel
    rw [houtbox, post, Outbox.foldl_post done.commands (by rw [hempty]), hempty, List.nil_append]
  have hperform : perform (.watch groups) c = d := by
    simp [perform, Operation.attempt, hwatch]
  subst hperform
  refine ⟨done.owners, _, hwatch, by decide +kernel, hqueued ▸ hnodup, ?_, ?_⟩
  · decide +kernel
  · decide +kernel

/-- The only node gets two groups, and is told of both with a record that lacks the second. -/
theorem notice_lacks_second_group :
    ∃ owners d record info group,
      watch couple (performAll [.register "only" ⟨1⟩] {}) = .ok owners d ∧
      d.outbox.queued = [.watch record couple] ∧
      d.registry.node? record.id = some info ∧ record ≠ info ∧
      group ∈ couple ∧ group.name ∈ info.groups ∧ group.name ∉ record.groups := by
  refine ⟨_, _, ⟨⟨1⟩, "only", ["a"]⟩, ⟨⟨1⟩, "only", ["a", "b"]⟩, ⟨"b", ⟨7⟩, ["b-0"]⟩, rfl, ?_⟩
  decide +kernel

end Cluster

end IngestCoordinator
