-- SUMMARY: Giving groups away levels the loads of the nodes, and never pulls them further apart.
import IngestCoordinator.Proofs.Cluster.Giving
import Mathlib.Algebra.BigOperators.Group.List.Basic
import Mathlib.Algebra.GroupWithZero.Nat

/-!
# Balance

The load of a node is the number of groups it watches. A group goes to a node whose load
is the least, so a load that has risen above all that there were before is at most one
above any other. Loads that were uneven before, because nodes have come and gone, are
left to even out; none is lowered.
-/

namespace IngestCoordinator

namespace Registry

variable {a b : Registry} {group : ChannelGroup} {groups new : List ChannelGroup}
  {member : Member} {before after : Assignment} {bound load : Nat}

/-- The number of groups that each node watches. -/
def loads (registry : Registry) : List Nat :=
  registry.nodes.map fun info => info.groups.length

theorem mem_loads : load ∈ a.loads ↔
    ∃ id member, a.members.get? id = some member ∧ member.info.groups.length = load := by
  simp only [loads, nodes, List.map_map, List.mem_map, SortedMap.mem_values_iff]
  constructor
  · rintro ⟨member, ⟨id, hget⟩, hload⟩
    exact ⟨id, member, hget, hload⟩
  · rintro ⟨id, member, hget, hload⟩
    exact ⟨member, ⟨id, hget⟩, hload⟩

/-! ## The largest and the smallest load -/

/-- Loads above the bound are at most one above any other. -/
def Level (bound : Nat) (registry : Registry) : Prop :=
  ∀ load ∈ registry.loads, load ≤ bound ∨ ∀ other ∈ registry.loads, load ≤ other + 1

theorem level_zero : a.Level 0 ↔ ∀ load ∈ a.loads, ∀ other ∈ a.loads, load ≤ other + 1 := by
  constructor
  · intro h load hload other hother
    rcases h load hload with hzero | hall
    · omega
    · exact hall other hother
  · exact fun h load hload => .inr (h load hload)

theorem Hands.mem_loads (h : Hands member group before after)
    (hload : load ∈ after.registry.loads) :
    load = member.info.groups.length + 1 ∨ load ∈ before.registry.loads := by
  obtain ⟨id, other, hget, rfl⟩ := Registry.mem_loads.1 hload
  rw [h.get?] at hget
  split at hget
  · cases hget
    left
    simp [Member.plus]
  · exact .inr (Registry.mem_loads.2 ⟨id, other, hget, rfl⟩)

/-- The member that gets a group had the least load, so one more is at most one too many. -/
theorem Hands.level (h : Hands member group before after) (hlevel : before.registry.Level bound) :
    after.registry.Level bound := by
  have hleast : ∀ load ∈ before.registry.loads, member.info.groups.length ≤ load := by
    intro load hload
    obtain ⟨id, other, hget, rfl⟩ := Registry.mem_loads.1 hload
    exact h.fewest id other hget
  have hmember : member.info.groups.length ∈ before.registry.loads :=
    Registry.mem_loads.2 ⟨_, member, h.registered, rfl⟩
  intro load hload
  rcases h.mem_loads hload with rfl | hload
  · right
    intro other hother
    rcases h.mem_loads hother with rfl | hother
    · omega
    · have := hleast other hother
      omega
  · rcases hlevel load hload with hbound | hall
    · exact .inl hbound
    · right
      intro other hother
      rcases h.mem_loads hother with rfl | hother
      · have := hall _ hmember
        omega
      · exact hall other hother

theorem level_giveAll (groups : List ChannelGroup) (hnumbered : a.Numbered) (h : a.Level bound) :
    (a.giveAll groups).registry.Level bound :=
  foldl_give_of_hands groups { registry := a } (fun _ _ _ _ hhands hlevel => hhands.level hlevel)
    hnumbered h

theorem loads_ne_nil (hsome : ∃ id, a.Has id) : a.loads ≠ [] := by
  obtain ⟨id, hid⟩ := hsome
  obtain ⟨member, hget⟩ := has_iff.1 hid
  exact List.ne_nil_of_mem (mem_loads.2 ⟨id, member, hget, rfl⟩)

/-! ## All loads together -/

/-- The nodes are those that there were, each with its share at the end of its list. -/
theorem Given.nodes_eq (h : a.Given new b) (hnumbered : a.Numbered) :
    b.nodes = a.nodes.map fun info =>
      { info with groups := info.groups ++ (b.share new info.id).map ChannelGroup.name } := by
  have hmembers : b.members =
      a.members.map fun id member => member.plus ((b.share new id).map ChannelGroup.name) := by
    apply SortedMap.ext_get?
    intro id
    rw [h.get?, SortedMap.get?_map]
  simp only [nodes, hmembers, SortedMap.values, SortedMap.map, List.map_map]
  apply List.map_congr_left
  intro entry hmem
  have hid : entry.2.info.id = entry.1 :=
    hnumbered entry.1 entry.2 (SortedMap.mem_toList_iff.1 hmem)
  simp [Member.plus, hid]

/-- The shares of all nodes together are as many groups as there are. -/
theorem sum_share {ids : List NodeId} (hids : ids.Nodup)
    (h : ∀ group ∈ new, ∃ id, b.ownerOf group.name = some id ∧ id ∈ ids) :
    (ids.map fun id => (b.share new id).length).sum = new.length := by
  induction new with
  | nil => simp [share]
  | cons group new ih =>
    obtain ⟨⟨owner, howner, hmem⟩, hrest⟩ := List.forall_mem_cons.1 h
    have hstep (id : NodeId) : (b.share (group :: new) id).length =
        (b.share new id).length + if id = owner then 1 else 0 := by
      by_cases hid : id = owner
      · simp [share, howner, hid]
      · simp [share, howner, hid, Ne.symm hid]
    have hone : (ids.map fun id => if id = owner then 1 else 0).sum = 1 := by
      rw [List.sum_map_eq_nsmul_single owner _ (by simp +contextual),
        List.count_eq_one_of_mem hids hmem]
      simp
    simp only [hstep, List.sum_map_add, ih hrest, hone, List.length_cons]

theorem Given.sum_loads (h : a.Given new b) (hnumbered : a.Numbered) :
    b.loads.sum = a.loads.sum + new.length := by
  have hshares := sum_share hnumbered.nodup_ids fun group hmem => by
    obtain ⟨id, howner, hhas⟩ := h.owned group hmem
    obtain ⟨member, hget⟩ := has_iff.1 hhas
    refine ⟨id, howner, ?_⟩
    rw [hnumbered.ids_eq_keys]
    exact SortedMap.mem_keys_iff.2 ⟨member, hget⟩
  rw [← hshares, loads, h.nodes_eq hnumbered]
  simp [loads, List.sum_map_add, Function.comp_def]

end Registry

/-! ## Watching -/

namespace Cluster

variable {c : Cluster}

/--
If watching raises the largest load, then the largest and the smallest differ by at most
one afterwards; loads that differed by at most one still do. Each group of the list that
nobody owned gets one owner, and is added to that node's list only; all others keep their
owners, and neither they nor repetitions add to a load.
-/
theorem watch_levels_loads (hnumbered : c.registry.Numbered) (hsome : ∃ id, c.registry.Has id)
    (groups : List ChannelGroup) :
    ∃ owners d, watch groups c = .ok owners d ∧
      (∃ highest highest' lowest', c.registry.loads.max? = some highest ∧
        d.registry.loads.max? = some highest' ∧ d.registry.loads.min? = some lowest' ∧
        (highest < highest' → highest' ≤ lowest' + 1)) ∧
      ((∀ load ∈ c.registry.loads, ∀ other ∈ c.registry.loads, load ≤ other + 1) →
        ∀ load ∈ d.registry.loads, ∀ other ∈ d.registry.loads, load ≤ other + 1) ∧
      (d.registry.nodes = c.registry.nodes.map fun info => { info with
        groups := info.groups ++
          (d.registry.share (c.registry.unowned groups) info.id).map ChannelGroup.name }) ∧
      (∀ name ∈ groups.map ChannelGroup.name, c.registry.ownerOf name = none →
        ∃ id, d.registry.ownerOf name = some id ∧ d.registry.Has id ∧ ∀ node,
          name ∈ (d.registry.share (c.registry.unowned groups) node).map ChannelGroup.name ↔
            node = id) ∧
      (∀ name id, c.registry.ownerOf name = some id → d.registry.ownerOf name = some id) ∧
      d.registry.loads.sum = c.registry.loads.sum + (c.registry.unowned groups).length := by
  have hgiven := (Registry.deals_giveAll groups hnumbered hsome).given
  refine ⟨_, _, watch_eq_ok groups hsome, ?_, ?_, hgiven.nodes_eq hnumbered, ?_, ?_,
    hgiven.sum_loads hnumbered⟩
  · obtain ⟨highest, hhighest⟩ :=
      Option.ne_none_iff_exists'.1 (mt List.max?_eq_none_iff.1 (Registry.loads_ne_nil hsome))
    have hsome' := hsome.imp fun _ => hgiven.has.2
    obtain ⟨highest', hhighest'⟩ :=
      Option.ne_none_iff_exists'.1 (mt List.max?_eq_none_iff.1 (Registry.loads_ne_nil hsome'))
    obtain ⟨lowest', hlowest'⟩ :=
      Option.ne_none_iff_exists'.1 (mt List.min?_eq_none_iff.1 (Registry.loads_ne_nil hsome'))
    refine ⟨highest, highest', lowest', hhighest, hhighest', hlowest', fun hraised => ?_⟩
    have hbounded : c.registry.Level highest := fun load hload =>
      .inl ((List.max?_eq_some_iff.1 hhighest).2 load hload)
    have hlevel := Registry.level_giveAll groups hnumbered hbounded
    rcases hlevel highest' (List.max?_mem hhighest') with hbound | hall
    · omega
    · exact hall lowest' (List.min?_mem hlowest')
  · intro heven
    have hlevel := Registry.level_giveAll groups hnumbered (Registry.level_zero.2 heven)
    exact Registry.level_zero.1 hlevel
  · intro name hmem hnone
    obtain ⟨group, hgroup, rfl⟩ := List.mem_map.1 (Registry.mem_names_unowned.2 ⟨hmem, hnone⟩)
    obtain ⟨id, howner, hhas⟩ := hgiven.owned group hgroup
    refine ⟨id, howner, hgiven.has.2 hhas, fun node => ?_⟩
    simp only [Registry.share, List.mem_map, List.mem_filter, beq_iff_eq]
    constructor
    · rintro ⟨other, ⟨-, howner'⟩, hsame⟩
      rw [hsame] at howner'
      exact Option.some.inj (howner'.symm.trans howner)
    · rintro rfl
      exact ⟨group, ⟨hgroup, howner⟩, rfl⟩
  · intro name id howner
    have hno : name ∉ (c.registry.unowned groups).map ChannelGroup.name := by
      simp [Registry.mem_names_unowned, howner]
    exact (hgiven.others name hno).trans howner

/-- The second node has come after three groups had been given to the first. -/
def uneven : List Request :=
  [.register "first" ⟨1⟩, .watch [⟨"a", ⟨7⟩, []⟩, ⟨"b", ⟨7⟩, []⟩, ⟨"c", ⟨7⟩, []⟩],
    .register "second" ⟨2⟩]

/-- A list with a group that has an owner and one that stands in it twice. -/
def evening : List ChannelGroup :=
  [⟨"a", ⟨7⟩, []⟩, ⟨"d", ⟨7⟩, []⟩, ⟨"e", ⟨7⟩, []⟩, ⟨"d", ⟨7⟩, []⟩, ⟨"f", ⟨7⟩, []⟩, ⟨"g", ⟨7⟩, []⟩,
    ⟨"h", ⟨7⟩, []⟩, ⟨"i", ⟨7⟩, []⟩]

/-- The second node catches up, and only then does the first get groups again. -/
theorem watch_levels_loads_uneven :
    (performAll uneven {}).registry.loads = [3, 0] ∧
    ∃ owners d, watch evening (performAll uneven {}) = .ok owners d ∧ d.registry.loads = [5, 4] ∧
      ∃ highest lowest, d.registry.loads.max? = some highest ∧
        d.registry.loads.min? = some lowest ∧ highest ≤ lowest + 1 := by
  have hnumbered : (performAll uneven {}).registry.Numbered :=
    (aligned_of_path (path_performAll uneven {}) Registry.aligned_empty).sound.toNumbered
  have hfirst : (performAll uneven {}).registry.Has ⟨1⟩ :=
    ⟨⟨⟨1⟩, "first", ["a", "b", "c"]⟩, by decide +kernel⟩
  have hbefore : (performAll uneven {}).registry.loads = [3, 0] := by decide +kernel
  obtain ⟨owners, d, hwatch, hlevels, -⟩ := watch_levels_loads hnumbered ⟨_, hfirst⟩ evening
  have hafter : d.registry.loads = [5, 4] := by
    have hperform : perform (.watch evening) (performAll uneven {}) = d := by
      simp [perform, Operation.attempt, hwatch]
    rw [← hperform]
    decide +kernel
  obtain ⟨highest, highest', lowest', hhighest, hhighest', hlowest', hraised⟩ := hlevels
  refine ⟨hbefore, owners, d, hwatch, hafter, highest', lowest', hhighest', hlowest', hraised ?_⟩
  rw [hbefore] at hhighest
  rw [hafter] at hhighest'
  cases hhighest
  cases hhighest'
  decide

end Cluster

end IngestCoordinator
