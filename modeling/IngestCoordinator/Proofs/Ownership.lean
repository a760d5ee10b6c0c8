-- SUMMARY: Who owns a channel group, as the registry says it and as the nodes' own lists say it.
import IngestCoordinator.Cluster
import IngestCoordinator.Proofs.Path
import IngestCoordinator.Proofs.Registry
import Mathlib.Data.List.Nodup

/-!
# Ownership of channel groups

The registry says in two places who watches a group: in the map of owners, and in the
list that the node's record carries. Both say the same after every call, so a group is
watched once. Numbers and addresses name one node each. An owner stays the owner until
it leaves, whoever else comes and goes and whatever groups are given away.
-/

namespace IngestCoordinator

open Operation

namespace Registry

variable {registry a b c : Registry} {id node : NodeId} {info : NodeInfo} {name : String}
  {gone : Option NodeId}

/-- The registered nodes, by number. -/
def nodes (registry : Registry) : List NodeInfo :=
  registry.members.values.map Member.info

theorem mem_nodes_iff : info ∈ registry.nodes ↔ ∃ id, registry.node? id = some info := by
  simp only [nodes, List.mem_map, SortedMap.mem_values_iff, node?, Option.map_eq_some_iff]
  constructor
  · rintro ⟨member, ⟨id, hget⟩, hinfo⟩
    exact ⟨id, member, hget, hinfo⟩
  · rintro ⟨id, member, hget, hinfo⟩
    exact ⟨member, ⟨id, hget⟩, hinfo⟩

theorem Numbered.ids_eq_keys (h : registry.Numbered) :
    registry.nodes.map NodeInfo.id = registry.members.keys := by
  simp only [nodes, SortedMap.values, SortedMap.keys, List.map_map]
  apply List.map_congr_left
  intro entry hmem
  exact h entry.1 entry.2 (SortedMap.mem_toList_iff.1 hmem)

theorem Numbered.nodup_ids (h : registry.Numbered) : (registry.nodes.map NodeInfo.id).Nodup :=
  h.ids_eq_keys ▸ registry.members.nodup_keys

/-- Numbers and addresses name one node each, and owners and lists of groups say the same. -/
structure Aligned (registry : Registry) : Prop where
  numbered : ∀ {id info}, registry.node? id = some info → info.id = id
  addresses : ∀ {id id' info info'}, registry.node? id = some info →
    registry.node? id' = some info' → info.address = info'.address → id = id'
  owner : ∀ {name id}, registry.ownerOf name = some id ↔
    ∃ info, registry.node? id = some info ∧ name ∈ info.groups
  once : ∀ {id info}, registry.node? id = some info → info.groups.Nodup

theorem aligned_empty : Aligned {} where
  numbered h := nomatch h
  addresses h := nomatch h
  owner := ⟨(fun h => nomatch h), fun ⟨_, h, _⟩ => nomatch h⟩
  once h := nomatch h

/-- The registry stays aligned, and nobody but the node that has gone loses a group. -/
structure Keeps (gone : Option NodeId) (a b : Registry) : Prop where
  aligned : a.Aligned → b.Aligned
  owner : a.Aligned → ∀ {name id}, a.ownerOf name = some id → gone ≠ some id →
    b.ownerOf name = some id

theorem Keeps.refl (gone : Option NodeId) (a : Registry) : Keeps gone a a :=
  ⟨id, fun _ _ _ h _ => h⟩

theorem Keeps.trans (h : Keeps gone a b) (h' : Keeps gone b c) : Keeps gone a c where
  aligned := h'.aligned ∘ h.aligned
  owner haligned _ _ howner hstays := by
    have hkept := h.owner haligned howner hstays
    exact h'.owner (h.aligned haligned) hkept hstays

/-- Heartbeats aside, nothing has changed. -/
theorem Keeps.of_same (hnodes : ∀ id, b.node? id = a.node? id)
    (howners : ∀ name, b.ownerOf name = a.ownerOf name) : Keeps gone a b where
  aligned h :=
    { numbered := fun hget => h.numbered (hnodes _ ▸ hget)
      addresses := fun hget hget' => h.addresses (hnodes _ ▸ hget) (hnodes _ ▸ hget')
      owner := by simp only [hnodes, howners, h.owner, implies_true]
      once := fun hget => h.once (hnodes _ ▸ hget) }
  owner _ _ _ howner _ := by simpa only [howners] using howner

/-! ## Single calls -/

theorem node?_touch (a : Registry) (now : Nat) (id node : NodeId) :
    (a.touch now id).node? node = a.node? node := by
  unfold touch
  split
  · rfl
  · rename_i member hget
    by_cases hnode : node = id
    · simp [node?, hnode, hget]
    · simp [node?, SortedMap.get?_insert, hnode]

theorem ownerOf_touch (a : Registry) (now : Nat) (id : NodeId) (name : String) :
    (a.touch now id).ownerOf name = a.ownerOf name := by
  unfold touch
  split <;> rfl

theorem keeps_touch (a : Registry) (now : Nat) (id : NodeId) : Keeps gone a (a.touch now id) :=
  .of_same (node?_touch a now id) (ownerOf_touch a now id)

theorem address_ne_of_memberAt? {address : String} (h : a.memberAt? address = none)
    (hget : a.node? id = some info) : info.address ≠ address := by
  obtain ⟨member, hmember, rfl⟩ := Option.map_eq_some_iff.1 hget
  have hother := List.find?_eq_none.1 h member (SortedMap.mem_values_iff.2 ⟨id, hmember⟩)
  simpa using hother

/-- Where one node has a new record, records are this one or what they were. -/
theorem node?_cases {new : NodeInfo}
    (hnodes : ∀ id, b.node? id = if id = node then some new else a.node? id)
    (hget : b.node? id = some info) : id = node ∧ info = new ∨ id ≠ node ∧ a.node? id = some info := by
  rw [hnodes] at hget
  split at hget
  · rename_i heq
    exact .inl ⟨heq, (Option.some.inj hget).symm⟩
  · rename_i hne
    exact .inr ⟨hne, hget⟩

/-- A node comes under a number and an address that are free, and owns nothing yet. -/
theorem Keeps.of_join (hid : a.node? node = none)
    (haddress : ∀ {id info}, a.node? id = some info → info.address ≠ address)
    (hnodes : ∀ id, b.node? id = if id = node then some ⟨node, address, []⟩ else a.node? id)
    (howners : ∀ name, b.ownerOf name = a.ownerOf name) : Keeps gone a b where
  owner _ _ _ howner _ := by simpa only [howners] using howner
  aligned h := by
    constructor
    case numbered =>
      intro id info hget
      obtain ⟨rfl, rfl⟩ | ⟨-, hold⟩ := node?_cases hnodes hget
      · rfl
      · exact h.numbered hold
    case addresses =>
      intro id id' info info' hget hget' hsame
      obtain ⟨rfl, rfl⟩ | ⟨-, hold⟩ := node?_cases hnodes hget <;>
        obtain ⟨rfl, rfl⟩ | ⟨-, hold'⟩ := node?_cases hnodes hget'
      · rfl
      · exact absurd hsame.symm (haddress hold')
      · exact absurd hsame (haddress hold)
      · exact h.addresses hold hold' hsame
    case owner =>
      intro name id
      simp only [howners, h.owner]
      constructor
      · rintro ⟨info, hget, hmem⟩
        have hne : id ≠ node := by
          rintro rfl
          simp [hid] at hget
        exact ⟨info, by simpa [hnodes, hne] using hget, hmem⟩
      · rintro ⟨info, hget, hmem⟩
        obtain ⟨rfl, rfl⟩ | ⟨-, hold⟩ := node?_cases hnodes hget
        · cases hmem
        · exact ⟨info, hold, hmem⟩
    case once =>
      intro id info hget
      obtain ⟨rfl, rfl⟩ | ⟨-, hold⟩ := node?_cases hnodes hget
      · exact List.nodup_nil
      · exact h.once hold

theorem ensures_register_keeps (now : Nat) (address : String) (id : NodeId) :
    Ensures (register now address id) a (fun _ b => Keeps gone a b)
      (fun _ b => Keeps gone a b) := by
  simp only [register, ensures_bind, ensures_get]
  split
  · exact keeps_touch a now _
  · rename_i hfree
    split
    · exact .refl gone a
    · rename_i habsent
      have hid : a.node? id = none := by
        simpa [node?, SortedMap.contains] using habsent
      apply Keeps.of_join hid (address_ne_of_memberAt? hfree)
      · intro id'
        simp only [node?, SortedMap.get?_insert]
        split <;> rfl
      · exact fun _ => rfl

/-- A node leaves, and its groups are left without an owner. -/
theorem Keeps.of_leave (hnodes : ∀ id, b.node? id = if id = node then none else a.node? id)
    (howners : ∀ name, b.ownerOf name = (a.ownerOf name).filter (· ≠ node)) :
    Keeps (some node) a b where
  owner _ _ _ howner hstays := by
    have hne := fun heq => hstays (congrArg some heq).symm
    simpa [howners, howner] using hne
  aligned h := by
    have hold {id : NodeId} {info : NodeInfo} (hget : b.node? id = some info) :
        a.node? id = some info := by
      simp only [hnodes] at hget
      exact (Option.ite_none_left_eq_some.1 hget).2
    constructor
    case numbered => exact fun hget => h.numbered (hold hget)
    case addresses => exact fun hget hget' => h.addresses (hold hget) (hold hget')
    case once => exact fun hget => h.once (hold hget)
    case owner =>
      intro name id
      by_cases heq : id = node
      · simp [howners, hnodes, heq, Option.filter_eq_some_iff]
      · simp [howners, hnodes, heq, Option.filter_eq_some_iff, h.owner]

theorem ensures_deregister_keeps (id : NodeId) : Ensures (deregister id) a
    (fun _ b => Keeps (some id) a b) (fun _ b => Keeps (some id) a b) := by
  simp only [deregister, ensures_bind, ensures_get]
  split
  · exact .refl _ a
  · apply Keeps.of_leave
    · intro id'
      simp only [node?, SortedMap.get?_erase]
      split <;> rfl
    · intro name
      exact SortedMap.get?_filter ..

/-! ## A group is handed to a node -/

namespace Hands

variable {member : Member} {group : ChannelGroup} {before after : Assignment}

/-- The records of the nodes are what they were, but for the group that is handed. -/
theorem node? (h : Hands member group before after) (id : NodeId) :
    after.registry.node? id = if id = member.info.id then some (member.plus [group.name]).info
      else before.registry.node? id := by
  simp only [Registry.node?, h.get?]
  split <;> rfl

theorem node?_before (h : Hands member group before after) :
    before.registry.node? member.info.id = some member.info := by
  simp [Registry.node?, h.registered]

/-- Nobody has it in his list yet. -/
theorem not_watched (h : Hands member group before after) (haligned : before.registry.Aligned)
    (hget : before.registry.node? id = some info) : group.name ∉ info.groups := by
  intro hmem
  have howned := haligned.owner.2 ⟨info, hget, hmem⟩
  simp [h.free] at howned

theorem address_eq (h : Hands member group before after)
    (hget : after.registry.node? id = some info) :
    ∃ old, before.registry.node? id = some old ∧ info.address = old.address := by
  obtain ⟨rfl, rfl⟩ | ⟨-, hold⟩ := node?_cases h.node? hget
  · exact ⟨member.info, h.node?_before, rfl⟩
  · exact ⟨info, hold, rfl⟩

theorem nodup_groups (h : Hands member group before after) (haligned : before.registry.Aligned)
    (hget : after.registry.node? id = some info) : info.groups.Nodup := by
  obtain ⟨rfl, rfl⟩ | ⟨-, hold⟩ := node?_cases h.node? hget
  · have hfresh : ∀ other ∈ member.info.groups, other ≠ group.name := by
      rintro _ hmem rfl
      exact h.not_watched haligned h.node?_before hmem
    simpa [Member.plus, List.nodup_append] using ⟨haligned.once h.node?_before, hfresh⟩
  · exact haligned.once hold

/-- Owners and lists say the same of the group that is handed, and of the others as before. -/
theorem owner_iff (h : Hands member group before after) (haligned : before.registry.Aligned) :
    after.registry.ownerOf name = some id ↔
      ∃ info, after.registry.node? id = some info ∧ name ∈ info.groups := by
  by_cases hid : id = member.info.id
  · subst hid
    by_cases hname : name = group.name
    · simp [h.ownerOf, h.node?, hname, Member.plus]
    · simp [h.ownerOf, h.node?, hname, Member.plus, haligned.owner, h.node?_before]
  · by_cases hname : name = group.name
    · subst hname
      have hnot : ∀ info, before.registry.node? id = some info → group.name ∉ info.groups :=
        fun _ => h.not_watched haligned
      have hne : member.info.id ≠ id := Ne.symm hid
      simpa [h.ownerOf, h.node?, hne, hid] using hnot
    · simp [h.ownerOf, h.node?, hname, hid, haligned.owner]

theorem aligned (h : Hands member group before after) (haligned : before.registry.Aligned) :
    after.registry.Aligned where
  numbered hget := by
    have hnumbered : before.registry.Numbered := fun id other hother =>
      haligned.numbered (Option.map_eq_some_iff.2 ⟨other, hother, rfl⟩)
    exact (h.numbered hnumbered).info_id hget
  addresses hget hget' hsame := by
    obtain ⟨old, hwas, haddress⟩ := h.address_eq hget
    obtain ⟨old', hwas', haddress'⟩ := h.address_eq hget'
    exact haligned.addresses hwas hwas' (haddress.symm.trans (hsame.trans haddress'))
  owner := h.owner_iff haligned
  once := h.nodup_groups haligned

theorem keeps (h : Hands member group before after) :
    Keeps gone before.registry after.registry where
  aligned := h.aligned
  owner _ name id howner _ := by
    have hne : name ≠ group.name := by
      rintro rfl
      simp [h.free] at howner
    simpa [h.ownerOf, hne] using howner

end Hands

theorem keeps_give (done : Assignment) (group : ChannelGroup) (hsound : done.registry.Sound) :
    Keeps gone done.registry (done.give group).registry := by
  rcases give_cases group hsound.toNumbered with ⟨-, hsame, -⟩ | ⟨member, hhands⟩
  · exact hsame ▸ .refl gone _
  · exact hhands.keeps

/-- Aligned registries are sound. -/
theorem Aligned.sound (h : a.Aligned) : a.Sound where
  numbered hget := h.numbered (Option.map_eq_some_iff.2 ⟨_, hget, rfl⟩)
  owned howner := by
    obtain ⟨info, hget, -⟩ := h.owner.1 howner
    exact has_iff.1 ⟨info, hget⟩

theorem keeps_foldl (groups : List ChannelGroup) (done : Assignment)
    (haligned : done.registry.Aligned) :
    Keeps gone done.registry (groups.foldl Assignment.give done).registry := by
  induction groups generalizing done with
  | nil => exact .refl gone _
  | cons group groups ih =>
    have hfirst : Keeps gone done.registry (done.give group).registry :=
      keeps_give done group haligned.sound
    exact hfirst.trans (ih (done.give group) (hfirst.aligned haligned))

theorem ensures_watch_keeps (groups : List ChannelGroup) (haligned : a.Aligned) :
    Ensures (watch groups) a (fun _ b => Keeps gone a b) (fun _ b => Keeps gone a b) := by
  simp only [watch, ensures_bind, ensures_get]
  split
  · exact .refl gone a
  · exact keeps_foldl groups { registry := a } haligned

/-! ## What the lists say together -/

namespace Aligned

/-- The list of nodes has one entry for a number. -/
theorem pairwise_nodes (h : registry.Aligned) : registry.nodes.Pairwise fun x y => x.id ≠ y.id :=
  List.pairwise_map.1 h.sound.toNumbered.nodup_ids

theorem nodup_addresses (h : registry.Aligned) :
    (registry.nodes.map NodeInfo.address).Nodup := by
  apply List.pairwise_map.2
  apply h.pairwise_nodes.imp_of_mem
  intro x y hx hy hne hsame
  obtain ⟨id, hget⟩ := mem_nodes_iff.1 hx
  obtain ⟨id', hget'⟩ := mem_nodes_iff.1 hy
  have hid : id = id' := h.addresses hget hget' hsame
  exact hne (by simp [h.numbered hget, h.numbered hget', hid])

theorem ownerOf_iff (h : registry.Aligned) : registry.ownerOf name = some node ↔
    ∃ info ∈ registry.nodes, info.id = node ∧ name ∈ info.groups := by
  simp only [h.owner, mem_nodes_iff]
  constructor
  · rintro ⟨info, hget, hmem⟩
    exact ⟨info, ⟨node, hget⟩, h.numbered hget, hmem⟩
  · rintro ⟨info, ⟨id, hget⟩, rfl, hmem⟩
    obtain rfl := h.numbered hget
    exact ⟨info, hget, hmem⟩

/-- No group is listed twice, by one node or by two. -/
theorem nodup_groups (h : registry.Aligned) :
    (registry.nodes.flatMap NodeInfo.groups).Nodup := by
  apply List.nodup_flatMap.2
  constructor
  · intro info hmem
    obtain ⟨id, hget⟩ := mem_nodes_iff.1 hmem
    exact h.once hget
  · apply h.pairwise_nodes.imp_of_mem
    intro x y hx hy hne name hname hname'
    have howner : registry.ownerOf name = some x.id := h.ownerOf_iff.2 ⟨x, hx, rfl, hname⟩
    have howner' : registry.ownerOf name = some y.id := h.ownerOf_iff.2 ⟨y, hy, rfl, hname'⟩
    exact hne (Option.some.inj (howner.symm.trans howner'))

end Aligned

end Registry

/-! ## Runs -/

namespace Cluster

variable {c d e : Cluster} {label : Option Request} {labels : List (Option Request)}

/-- What changes who is registered, when a node was last heard of, or who owns what. -/
inductive Request where
  | register (address : String) (id : NodeId)
  | deregister (id : NodeId)
  | touch (id : NodeId)
  | watch (groups : List ChannelGroup)
  deriving DecidableEq, Repr

/-- Makes a call; one that fails may leave something done. -/
def perform : Request → Cluster → Cluster
  | .register address id, c => ((register address id).attempt c).2
  | .deregister id, c => ((deregister id).attempt c).2
  | .touch id, c => c.touch id
  | .watch groups, c => ((watch groups).attempt c).2

/-- The number that a request frees. -/
def Request.frees : Request → Option NodeId
  | .deregister id => some id
  | _ => none

/-- A call is made, or something happens that is no matter of the registry. -/
inductive Happens : Cluster → Option Request → Cluster → Prop where
  | request {c : Cluster} (request : Request) : Happens c (some request) (perform request c)
  | otherwise {c d : Cluster} (h : d.registry = c.registry) : Happens c none d

theorem ensures_register_keeps (address : String) (id : NodeId) :
    Ensures (register address id) c (fun _ d => Registry.Keeps none c.registry d.registry)
      (fun _ d => Registry.Keeps none c.registry d.registry) := by
  simp only [register, onRegistry, ensures_bind, ensures_get, ensures_onPart]
  apply (Registry.ensures_register_keeps c.now address id).imp
  · intro answer registry hkeeps
    split
    · exact hkeeps
    · exact hkeeps
  · exact fun _ _ hkeeps => hkeeps

theorem ensures_deregister_keeps (id : NodeId) :
    Ensures (deregister id) c (fun _ d => Registry.Keeps (some id) c.registry d.registry)
      (fun _ d => Registry.Keeps (some id) c.registry d.registry) := by
  simp only [deregister, onRegistry, ensures_bind, ensures_onPart]
  exact Registry.ensures_deregister_keeps id

theorem ensures_watch_keeps (groups : List ChannelGroup) (haligned : c.registry.Aligned) :
    Ensures (watch groups) c (fun _ d => Registry.Keeps none c.registry d.registry)
      (fun _ d => Registry.Keeps none c.registry d.registry) := by
  simp only [watch, onRegistry, ensures_bind, ensures_onPart]
  exact Registry.ensures_watch_keeps groups haligned

theorem keeps_perform (request : Request) (haligned : c.registry.Aligned) :
    Registry.Keeps request.frees c.registry (perform request c).registry := by
  cases request with
  | register address id => exact (ensures_register_keeps address id).attempt_snd
  | deregister id => exact (ensures_deregister_keeps id).attempt_snd
  | touch id => exact Registry.keeps_touch c.registry c.now id
  | watch groups => exact (ensures_watch_keeps groups haligned).attempt_snd

theorem Happens.keeps (h : Happens c label d) (haligned : c.registry.Aligned) :
    Registry.Keeps (label.bind Request.frees) c.registry d.registry := by
  cases h with
  | request request => exact keeps_perform request haligned
  | otherwise h => exact h ▸ .refl _ _

theorem Happens.aligned (h : Happens c label d) (haligned : c.registry.Aligned) :
    d.registry.Aligned :=
  (h.keeps haligned).aligned haligned

theorem aligned_of_path (h : Path Happens c labels d) (haligned : c.registry.Aligned) :
    d.registry.Aligned :=
  h.invariant (p := fun c => c.registry.Aligned)
    (fun _ _ _ haligned hstep => hstep.aligned haligned) haligned

/-- Only its own departure takes a group from a node. -/
theorem ownerOf_of_path {group : String} {node : NodeId} (h : Path Happens c labels d)
    (haligned : c.registry.Aligned) (hstays : some (.deregister node) ∉ labels)
    (howner : c.registry.ownerOf group = some node) : d.registry.ownerOf group = some node := by
  induction h with
  | nil => exact howner
  | @snoc d e labels label hpath hstep ih =>
    simp only [List.mem_append, List.mem_singleton, not_or] at hstays
    have hmiddle : d.registry.ownerOf group = some node := ih hstays.1
    have hkeeps := hstep.keeps (aligned_of_path hpath haligned)
    apply hkeeps.owner (aligned_of_path hpath haligned) hmiddle
    -- The request that frees a number is the node's deregistration.
    intro hfrees
    obtain ⟨request, hlabel, hrequest⟩ := Option.bind_eq_some_iff.1 hfrees
    cases request with
    | deregister id =>
      cases hrequest
      exact hstays.2 hlabel.symm
    | _ => cases hrequest

/-- The groups that a request gives owners to. -/
def Request.watches : Request → List ChannelGroup
  | .watch groups => groups
  | _ => []

section

variable {name : String} (hnone : c.registry.ownerOf name = none)

include hnone

theorem ensures_register_ownerless (address : String) (id : NodeId) :
    Ensures (register address id) c (fun _ d => d.registry.ownerOf name = none)
      (fun _ d => d.registry.ownerOf name = none) := by
  simp only [register, onRegistry, ensures_bind, ensures_get, ensures_onPart]
  apply (Registry.ensures_register c.now address id).imp
  · intro answer registry hfrees
    split
    · exact hfrees.ownerless name hnone
    · exact hfrees.ownerless name hnone
  · exact fun _ _ hfrees => hfrees.ownerless name hnone

theorem ensures_deregister_ownerless (id : NodeId) :
    Ensures (deregister id) c (fun _ d => d.registry.ownerOf name = none)
      (fun _ d => d.registry.ownerOf name = none) := by
  simp only [deregister, onRegistry, ensures_bind, ensures_onPart]
  exact (Registry.ensures_deregister id).imp (fun _ _ hfrees => hfrees.ownerless name hnone)
    fun _ _ hfrees => hfrees.ownerless name hnone

theorem ensures_watch_ownerless {groups : List ChannelGroup} (haligned : c.registry.Aligned)
    (hno : name ∉ groups.map ChannelGroup.name) :
    Ensures (watch groups) c (fun _ d => d.registry.ownerOf name = none)
      (fun _ d => d.registry.ownerOf name = none) := by
  simp only [watch, onRegistry, ensures_bind, ensures_onPart]
  apply (Registry.ensures_watch groups).imp
  · exact fun _ _ hgives => ((hgives haligned.sound).others name hno).trans hnone
  · exact fun _ _ hsame => hsame ▸ hnone

/-- A group gets no owner from a request that does not list it. -/
theorem ownerless_perform (request : Request) (haligned : c.registry.Aligned)
    (hno : name ∉ request.watches.map ChannelGroup.name) :
    (perform request c).registry.ownerOf name = none := by
  cases request with
  | register address id => exact (ensures_register_ownerless hnone address id).attempt_snd
  | deregister id => exact (ensures_deregister_ownerless hnone id).attempt_snd
  | touch id => exact (Registry.ownerOf_touch c.registry c.now id name).trans hnone
  | watch groups => exact (ensures_watch_ownerless hnone haligned hno).attempt_snd

end

/-- As long as no request lists a group, nobody owns it. -/
theorem ownerless_of_path {name : String} (h : Path Happens c labels d)
    (haligned : c.registry.Aligned) (hnone : c.registry.ownerOf name = none)
    (hno : ∀ request, some request ∈ labels → name ∉ request.watches.map ChannelGroup.name) :
    d.registry.ownerOf name = none := by
  induction h with
  | nil => exact hnone
  | snoc hpath hstep ih =>
    have hbefore := ih fun request hmem => hno request (List.mem_append_left _ hmem)
    cases hstep with
    | otherwise hsame => exact hsame ▸ hbefore
    | request request =>
      have hlabel := hno request (List.mem_append_right _ (List.mem_singleton_self _))
      exact ownerless_perform hbefore request (aligned_of_path hpath haligned) hlabel

/--
Numbers and addresses name one node each; a node owns the groups that its record lists,
and no group is listed twice; and a group stays with its owner until the owner leaves.
-/
theorem owners_match_nodes (hstart : c.registry = {}) (hrun : Path Happens c labels d) :
    (d.registry.nodes.map NodeInfo.id).Nodup ∧
    (d.registry.nodes.map NodeInfo.address).Nodup ∧
    (∀ group node, d.registry.ownerOf group = some node ↔
      ∃ info ∈ d.registry.nodes, info.id = node ∧ group ∈ info.groups) ∧
    (d.registry.nodes.flatMap NodeInfo.groups).Nodup ∧
    ∀ group node later e, d.registry.ownerOf group = some node → Path Happens d later e →
      some (.deregister node) ∉ later → e.registry.ownerOf group = some node := by
  have haligned : d.registry.Aligned := by
    apply aligned_of_path hrun
    exact hstart ▸ Registry.aligned_empty
  refine ⟨List.pairwise_map.2 haligned.pairwise_nodes, haligned.nodup_addresses,
    fun _ _ => haligned.ownerOf_iff, haligned.nodup_groups, ?_⟩
  intro group node later e howner hlater hstays
  exact ownerOf_of_path hlater haligned hstays howner

/-- Makes calls one after the other. -/
def performAll (requests : List Request) (c : Cluster) : Cluster :=
  requests.foldl (fun c request => perform request c) c

theorem path_performAll (requests : List Request) (c : Cluster) :
    Path Happens c (requests.map some) (performAll requests c) := by
  induction requests generalizing c with
  | nil => exact .nil c
  | cons request requests ih => exact (Path.single (.request request)).append (ih _)

/-- A group is given away twice in one list, and its owner is replaced by another node. -/
def handover : List Request :=
  [.register "first" ⟨1⟩, .register "second" ⟨2⟩,
    .watch [⟨"a", ⟨7⟩, []⟩, ⟨"b", ⟨7⟩, []⟩, ⟨"a", ⟨7⟩, []⟩], .deregister ⟨1⟩,
    .register "third" ⟨1⟩, .register "second" ⟨3⟩, .watch [⟨"a", ⟨7⟩, []⟩, ⟨"b", ⟨7⟩, []⟩]]

/-- The second node keeps its group while the first one is replaced. -/
theorem owners_match_nodes_handover :
    ∃ c, c = performAll (handover.take 3) {} ∧ c.registry.ownerOf "b" = some ⟨2⟩ ∧
      ∃ d, d = performAll (handover.drop 3) c ∧ d.registry.ownerOf "b" = some ⟨2⟩ ∧
        d.registry.nodes = [⟨⟨1⟩, "third", ["a"]⟩, ⟨⟨2⟩, "second", ["b"]⟩] ∧
        (d.registry.nodes.flatMap NodeInfo.groups).Nodup := by
  have howner : (performAll (handover.take 3) {}).registry.ownerOf "b" = some ⟨2⟩ := by
    decide +kernel
  have hfirst := owners_match_nodes rfl (path_performAll (handover.take 3) {})
  have hlater := path_performAll (handover.drop 3) (performAll (handover.take 3) {})
  have hwhole := owners_match_nodes rfl ((path_performAll (handover.take 3) {}).append hlater)
  refine ⟨_, rfl, howner, _, rfl, ?_, by decide +kernel, hwhole.2.2.2.1⟩
  exact hfirst.2.2.2.2 _ _ _ _ howner hlater (by decide +kernel)

end Cluster

end IngestCoordinator
