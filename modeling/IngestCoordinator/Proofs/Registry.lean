-- SUMMARY: Owners of channel groups as nodes come and go, and the flush commands that nodes get.
import IngestCoordinator.Proofs.Coordinator.Commands
import IngestCoordinator.Proofs.Operation

/-!
# The registry

Only registered nodes own groups. As nodes join and leave, groups lose owners and
get none; watching gives an owner to every listed group that has none, and to no
other. A segment for which there is a node to store it is in a flush command to that
node.
-/

namespace IngestCoordinator

/-- A member that watches some groups more. -/
def Member.plus (member : Member) (names : List String) : Member :=
  { member with info.groups := member.info.groups ++ names }

namespace Registry

open Operation

variable {registry a b c : Registry} {node : NodeId} {name : String} {segment : Segment}

/-- Members are found under their own numbers, and groups are owned by members. -/
structure Sound (registry : Registry) : Prop where
  numbered : ∀ {id member}, registry.members.get? id = some member → member.info.id = id
  owned : ∀ {name id}, registry.owners.get? name = some id →
    ∃ member, registry.members.get? id = some member

theorem sound_empty : Sound {} :=
  ⟨(fun hget => nomatch hget), (fun hget => nomatch hget)⟩

/-- The node is registered. -/
def Has (registry : Registry) (id : NodeId) : Prop :=
  ∃ info, registry.node? id = some info

theorem has_iff : registry.Has node ↔ ∃ member, registry.members.get? node = some member := by
  simp only [Has, node?, Option.map_eq_some_iff]
  constructor
  · rintro ⟨_, member, hget, _⟩
    exact ⟨member, hget⟩
  · rintro ⟨member, hget⟩
    exact ⟨_, member, hget, rfl⟩

theorem isEmpty_eq_false_iff : registry.members.isEmpty = false ↔ ∃ id, registry.Has id := by
  simp only [has_iff, SortedMap.isEmpty, List.isEmpty_eq_false_iff_exists_mem, Prod.exists,
    SortedMap.mem_toList_iff]

theorem size_pos_iff : 0 < registry.size ↔ ∃ id, registry.Has id := by
  rw [← isEmpty_eq_false_iff, SortedMap.isEmpty, List.isEmpty_eq_false_iff, size, SortedMap.size,
    List.length_pos_iff]

/-! ## Nodes come and go -/

/-- No group has got an owner. -/
structure Frees (a b : Registry) : Prop where
  sound : a.Sound → b.Sound
  ownerless : ∀ name, a.ownerOf name = none → b.ownerOf name = none

theorem Frees.refl (a : Registry) : a.Frees a :=
  ⟨id, fun _ => id⟩

theorem Frees.trans (h : a.Frees b) (h' : b.Frees c) : a.Frees c :=
  ⟨h'.sound ∘ h.sound, fun name hnone => h'.ownerless name (h.ownerless name hnone)⟩

/-- A member's record is replaced by another under the same number. -/
theorem Sound.insert (h : a.Sound) (member : Member) :
    Sound { a with members := a.members.insert member.info.id member } where
  numbered hget := by
    rw [SortedMap.get?_insert] at hget
    split at hget
    · rename_i hid
      cases hget
      exact hid.symm
    · exact h.numbered hget
  owned hget := by
    simp only [SortedMap.get?_insert]
    split
    · exact ⟨member, rfl⟩
    · exact h.owned hget

theorem frees_touch (a : Registry) (now : Nat) (id : NodeId) : a.Frees (a.touch now id) := by
  unfold touch
  split
  · exact .refl a
  · rename_i member hget
    refine ⟨fun h => ?_, fun _ hnone => hnone⟩
    obtain rfl := h.numbered hget
    exact h.insert { member with lastHeartbeat := now }

theorem ensures_register (now : Nat) (address : String) (id : NodeId) :
    Ensures (register now address id) a (fun _ b => a.Frees b) (fun _ b => a.Frees b) := by
  rw [register, ensures_bind, ensures_get]
  dsimp only
  split
  · exact frees_touch a now _
  · split
    · exact .refl a
    · exact ⟨fun h => h.insert ⟨{ id, address, groups := [] }, now⟩, fun _ hnone => hnone⟩

theorem ensures_deregister (id : NodeId) :
    Ensures (deregister id) a (fun _ b => a.Frees b) (fun _ b => a.Frees b) := by
  rw [deregister, ensures_bind, ensures_get]
  split
  · exact .refl a
  · -- The node goes, and with it the ownership of its groups.
    refine ⟨fun h => ⟨fun hget => ?_, fun hget => ?_⟩, fun name hnone => ?_⟩
    · rw [SortedMap.get?_erase] at hget
      split at hget
      · cases hget
      · exact h.numbered hget
    · rw [SortedMap.get?_filter, Option.filter_eq_some_iff] at hget
      obtain ⟨hget, hne⟩ := hget
      simp only [SortedMap.get?_erase, if_neg (of_decide_eq_true hne)]
      exact h.owned hget
    · simp only [ownerOf] at hnone ⊢
      rw [SortedMap.get?_filter, hnone, Option.filter_none]

/-! ## Who is registered -/

theorem has_empty : ¬ Has {} node :=
  fun ⟨_, hget⟩ => nomatch hget

/-- A heartbeat registers nobody. -/
theorem has_touch (now : Nat) (id : NodeId) : (a.touch now id).Has node ↔ a.Has node := by
  unfold touch
  split
  · exact Iff.rfl
  · rename_i member hget
    simp only [has_iff, SortedMap.get?_insert]
    split
    · rename_i hid
      rw [hid, hget]
      exact ⟨fun _ => ⟨member, rfl⟩, fun _ => ⟨_, rfl⟩⟩
    · exact Iff.rfl

theorem has_of_memberAt? (hsound : a.Sound) {address : String} {member : Member}
    (h : a.memberAt? address = some member) : a.Has member.info.id := by
  obtain ⟨id, hget⟩ := SortedMap.mem_values_iff.1 (List.mem_of_find?_eq_some h)
  obtain rfl := hsound.numbered hget
  exact has_iff.2 ⟨member, hget⟩

/-- The node in the answer is registered then, whatever number has been asked for. -/
theorem ensures_register_has (now : Nat) (address : String) (id : NodeId) (hsound : a.Sound) :
    Ensures (register now address id) a
      (fun answer b => ∀ node, b.Has node ↔ node = answer.1.id ∨ a.Has node)
      (fun _ b => b = a) := by
  rw [register, ensures_bind, ensures_get]
  dsimp only
  split
  · rename_i member hmember
    intro node
    rw [has_touch]
    refine ⟨.inr, fun h => h.elim (fun heq => ?_) fun h => h⟩
    exact heq ▸ has_of_memberAt? hsound hmember
  · split
    · exact rfl
    · intro node
      simp only [has_iff, SortedMap.get?_insert]
      split
      · rename_i heq
        exact ⟨fun _ => .inl heq, fun _ => ⟨_, rfl⟩⟩
      · rename_i hne
        exact ⟨.inr, fun h => h.resolve_left hne⟩

theorem ensures_deregister_has (id : NodeId) : Ensures (deregister id) a
    (fun _ b => ∀ node, b.Has node ↔ node ≠ id ∧ a.Has node) (fun _ b => b = a) := by
  rw [deregister, ensures_bind, ensures_get]
  split
  · exact rfl
  · intro node
    simp only [has_iff, SortedMap.get?_erase]
    split
    · rename_i heq
      exact ⟨(fun ⟨_, h⟩ => nomatch h), fun h => absurd heq h.1⟩
    · rename_i hne
      exact ⟨fun h => ⟨hne, h⟩, fun h => h.2⟩

/-! ## Giving groups to nodes -/

theorem leastLoaded?_mem {members : List Member} {member : Member}
    (h : leastLoaded? members = some member) : member ∈ members := by
  induction members generalizing member with
  | nil => cases h
  | cons first rest ih =>
    rw [leastLoaded?] at h
    split at h
    · cases h
      exact List.mem_cons_self
    · rename_i other hother
      split at h
      · cases h
        exact List.mem_cons_self
      · cases h
        exact List.mem_cons_of_mem _ (ih hother)

theorem leastLoaded?_eq_none {members : List Member} (h : leastLoaded? members = none) :
    members = [] := by
  cases members with
  | nil => rfl
  | cons first rest =>
    rw [leastLoaded?] at h
    split at h
    · cases h
    · split at h <;> cases h

/-- No member watches fewer groups. -/
theorem leastLoaded?_le {members : List Member} {member other : Member}
    (h : leastLoaded? members = some member) (hmem : other ∈ members) :
    member.info.groups.length ≤ other.info.groups.length := by
  induction members generalizing member with
  | nil => cases hmem
  | cons first rest ih =>
    rw [leastLoaded?] at h
    split at h
    · rename_i hnone
      cases h
      rw [leastLoaded?_eq_none hnone, List.mem_singleton] at hmem
      exact hmem ▸ Nat.le_refl _
    · rename_i least hleast
      have hrest (hmem : other ∈ rest) := ih hleast hmem
      split at h <;> cases h <;> rcases List.mem_cons.1 hmem with rfl | hmem
      · exact Nat.le_refl _
      · have := hrest hmem
        omega
      · omega
      · exact hrest hmem

/-- Members are found under their own numbers. -/
def Numbered (registry : Registry) : Prop :=
  ∀ id member, registry.members.get? id = some member → member.info.id = id

theorem Sound.toNumbered (h : a.Sound) : a.Numbered :=
  fun _ _ hget => h.numbered hget

theorem Numbered.info_id {id : NodeId} {info : NodeInfo} (h : registry.Numbered)
    (hnode : registry.node? id = some info) : info.id = id := by
  obtain ⟨member, hget, rfl⟩ := Option.map_eq_some_iff.1 hnode
  exact h id member hget

/-- A group that nobody owns is handed to a member that watches no more groups than any other. -/
structure Hands (member : Member) (group : ChannelGroup) (before after : Assignment) : Prop where
  registered : before.registry.members.get? member.info.id = some member
  fewest : ∀ id other, before.registry.members.get? id = some other →
    member.info.groups.length ≤ other.info.groups.length
  free : before.registry.ownerOf group.name = none
  get? : ∀ id, after.registry.members.get? id =
    if id = member.info.id then some (member.plus [group.name]) else before.registry.members.get? id
  ownerOf : ∀ name, after.registry.ownerOf name =
    if name = group.name then some member.info.id else before.registry.ownerOf name
  batches : ∀ id, after.batches.get? id =
    if id = member.info.id then
      let entry := (before.batches.get? id).getD ((member.plus [group.name]).info, [])
      some (entry.1, entry.2 ++ [group])
    else before.batches.get? id

namespace Hands

variable {member : Member} {group : ChannelGroup} {before after : Assignment}

theorem numbered (h : Hands member group before after) (hnumbered : before.registry.Numbered) :
    after.registry.Numbered := by
  intro id other hget
  rw [h.get?] at hget
  split at hget
  · rename_i hid
    cases hget
    exact hid.symm
  · exact hnumbered id other hget

theorem has (h : Hands member group before after) :
    after.registry.Has node ↔ before.registry.Has node := by
  simp only [has_iff, h.get?]
  split
  · rename_i hid
    rw [hid, h.registered]
    exact ⟨fun _ => ⟨_, rfl⟩, fun _ => ⟨_, rfl⟩⟩
  · exact Iff.rfl

end Hands

/-- A group that has an owner is left to it; any other is handed to a member if there is one. -/
theorem give_cases {done : Assignment} (group : ChannelGroup) (hnumbered : done.registry.Numbered) :
    (done.registry.ownerOf group.name ≠ none ∨ ∀ id, ¬ done.registry.Has id) ∧
      (done.give group).registry = done.registry ∧ (done.give group).batches = done.batches ∨
    ∃ member, Hands member group done (done.give group) := by
  unfold Assignment.give
  split
  · rename_i owner howner
    exact .inl ⟨.inl (howner ▸ Option.some_ne_none _), rfl, rfl⟩
  · rename_i hnone
    split
    · rename_i hleast
      refine .inl ⟨.inr fun id hid => ?_, rfl, rfl⟩
      obtain ⟨member, hget⟩ := has_iff.1 hid
      have hmem : member ∈ done.registry.members.values := SortedMap.mem_values_iff.2 ⟨id, hget⟩
      rw [leastLoaded?_eq_none hleast] at hmem
      cases hmem
    · rename_i member hleast
      obtain ⟨id, hget⟩ := SortedMap.mem_values_iff.1 (leastLoaded?_mem hleast)
      obtain rfl := hnumbered id member hget
      exact .inr ⟨member, {
        registered := hget
        fewest := fun id other hother =>
          leastLoaded?_le hleast (SortedMap.mem_values_iff.2 ⟨id, hother⟩)
        free := hnone
        get? := fun _ => SortedMap.get?_insert ..
        ownerOf := fun _ => SortedMap.get?_insert ..
        batches := fun id => by
          rw [SortedMap.get?_insert]
          split
          · rename_i hid
            rw [hid]
            rfl
          · rfl }⟩

/-- The named groups have owners, all others are as they were, and so are the nodes. -/
structure Gives (names : List String) (a b : Registry) : Prop where
  sound : b.Sound
  nodes : ∀ id, b.Has id ↔ a.Has id
  owned : ∀ name ∈ names, b.ownerOf name ≠ none
  kept : ∀ name, a.ownerOf name ≠ none → b.ownerOf name = a.ownerOf name
  others : ∀ name, name ∉ names → b.ownerOf name = a.ownerOf name

/-- Where all have owners already, nothing needs to be given. -/
theorem Gives.of_owned {names : List String} (hsound : a.Sound)
    (howned : ∀ name ∈ names, a.ownerOf name ≠ none) : Gives names a a :=
  ⟨hsound, fun _ => Iff.rfl, howned, fun _ _ => rfl, fun _ _ => rfl⟩

theorem Gives.cons {names : List String} (h : Gives [name] a b) (h' : Gives names b c) :
    Gives (name :: names) a c where
  sound := h'.sound
  nodes id := (h'.nodes id).trans (h.nodes id)
  owned name' hmem := by
    rcases List.mem_cons.1 hmem with rfl | hmem
    · have howned := h.owned _ (List.mem_singleton_self _)
      rwa [h'.kept _ howned]
    · exact h'.owned name' hmem
  kept name' howned := by
    have hfirst := h.kept name' howned
    rw [h'.kept name' (hfirst ▸ howned), hfirst]
  others name' hno := by
    rw [h'.others name' fun hmem => hno (List.mem_cons_of_mem _ hmem), h.others name' fun hmem => ?_]
    exact hno (List.mem_singleton.1 hmem ▸ List.mem_cons_self)

theorem gives_give (done : Assignment) (group : ChannelGroup) (hsound : done.registry.Sound)
    (hsome : ∃ id, done.registry.Has id) :
    Gives [group.name] done.registry (done.give group).registry := by
  rcases give_cases group hsound.toNumbered with ⟨howned, hsame, -⟩ | ⟨member, hhands⟩
  · obtain ⟨id, hid⟩ := hsome
    have howned := howned.resolve_right fun hnobody => hnobody id hid
    rw [hsame]
    exact .of_owned hsound (List.forall_mem_singleton.2 howned)
  · have hother {name : String} (hne : name ≠ group.name) :
        (done.give group).registry.ownerOf name = done.registry.ownerOf name := by
      rw [hhands.ownerOf, if_neg hne]
    refine ⟨⟨hhands.numbered hsound.toNumbered _ _, fun {name id} howner => ?_⟩,
      fun _ => hhands.has, fun name hmem => ?_, fun name howned => hother ?_,
      fun name hno => hother ?_⟩
    · change (done.give group).registry.ownerOf name = some id at howner
      rw [hhands.ownerOf] at howner
      refine has_iff.1 (hhands.has.2 (has_iff.2 ?_))
      split at howner
      · exact Option.some.inj howner ▸ ⟨member, hhands.registered⟩
      · exact hsound.owned howner
    · rw [List.mem_singleton.1 hmem, hhands.ownerOf, if_pos rfl]
      exact Option.some_ne_none _
    · exact fun heq => howned (heq ▸ hhands.free)
    · exact fun heq => hno (heq ▸ List.mem_singleton_self _)

theorem gives_foldl (groups : List ChannelGroup) (done : Assignment)
    (hsound : done.registry.Sound) (hsome : ∃ id, done.registry.Has id) :
    Gives (groups.map ChannelGroup.name) done.registry
      (groups.foldl Assignment.give done).registry := by
  induction groups generalizing done with
  | nil => exact .of_owned hsound (List.forall_mem_nil _)
  | cons group groups ih =>
    have hfirst := gives_give done group hsound hsome
    have hsome' : ∃ id, (done.give group).registry.Has id :=
      hsome.imp fun id hid => (hfirst.nodes id).2 hid
    exact hfirst.cons (ih (done.give group) hfirst.sound hsome')

/-- Watching gives owners to the listed groups, or fails and changes nothing. -/
theorem ensures_watch (groups : List ChannelGroup) : Ensures (watch groups) a
    (fun _ b => a.Sound → Gives (groups.map ChannelGroup.name) a b) (fun _ b => b = a) := by
  rw [watch, ensures_bind, ensures_get]
  dsimp only
  split
  · exact rfl
  · rename_i hsome
    intro hsound
    have hsome := isEmpty_eq_false_iff.1 (Bool.eq_false_iff.2 hsome)
    exact gives_foldl groups { registry := a } hsound hsome

/-! ## Flush commands -/

/-- The node to store a segment is registered. -/
theorem has_of_flusherOf (hsound : registry.Sound) (h : registry.flusherOf segment = some node) :
    registry.Has node := by
  unfold flusherOf at h
  split at h
  · rename_i id hfilter
    cases h
    exact Option.isSome_iff_exists.1 (Option.filter_eq_some_iff.1 hfilter).2
  · exact has_iff.2 (hsound.owned h)

/-- There is no node to store a segment if its own is gone and its group has no owner. -/
theorem flusherOf_eq_none (h : registry.flusherOf segment = none) :
    (∀ id, segment.node = some id → ¬ registry.Has id) ∧
      registry.ownerOf segment.group = none := by
  unfold flusherOf at h
  split at h
  · cases h
  · rename_i hfilter
    refine ⟨fun id hid hhas => ?_, h⟩
    rw [Option.filter_eq_none_iff] at hfilter
    exact hfilter id hid (Option.isSome_iff_exists.2 hhas)

/-- A segment that a node is to store is in a command to that node. -/
theorem exists_flushCommand {segments : List Segment} (hsound : registry.Sound)
    (hmem : segment ∈ segments) (hflusher : registry.flusherOf segment = some node) :
    ∃ info ids, registry.node? info.id = some info ∧
      .flush info segment.collection ids ∈ registry.flushCommands segments ∧ segment.id ∈ ids := by
  obtain ⟨info, hinfo⟩ := has_of_flusherOf hsound hflusher
  obtain rfl := hsound.toNumbered.info_id hinfo
  have hbatch : segment ∈ registry.batchFor segments ⟨info.id, segment.collection⟩ :=
    mem_batchFor.2 ⟨hmem, hflusher, rfl⟩
  refine ⟨info, _, hinfo, mem_flushCommands.2 ?_, List.mem_map_of_mem hbatch⟩
  exact ⟨_, _, hinfo, List.ne_nil_of_mem hbatch, rfl⟩

end Registry

end IngestCoordinator
