-- SUMMARY: Which groups of a list are given away, to whom, and what is noted for the nodes that get some.
import IngestCoordinator.Cluster
import IngestCoordinator.Proofs.Ownership

/-!
# Giving groups away

Of a list of groups those are given away that nobody owns, each name once. Every node
has the groups that it gets at the end of its list, in the order in which they were
given; nobody loses a group, and nobody gets one that had an owner. For each node that
gets some groups they are noted together with its record as it was after the first.
-/

namespace IngestCoordinator

open Operation

namespace Member

variable (member : Member) (names names' : List String)

@[simp] theorem plus_nil : member.plus [] = member := by
  simp [plus]

@[simp] theorem plus_plus : (member.plus names).plus names' = member.plus (names ++ names') := by
  simp [plus]

end Member

namespace Registry

variable {a b c : Registry} {group : ChannelGroup} {groups new : List ChannelGroup}
  {id node : NodeId} {name : String} {member : Member} {before after done : Assignment}

/-! ## The groups to be given -/

/-- The groups of a list that nobody owns, each name once and where it stands first. -/
def unowned (registry : Registry) (groups : List ChannelGroup) : List ChannelGroup :=
  (groups.filter fun group => (registry.ownerOf group.name).isNone).eraseDupsBy
    fun later first => later.name == first.name

/-- Those of some groups that belong to a node. -/
def share (registry : Registry) (groups : List ChannelGroup) (id : NodeId) : List ChannelGroup :=
  groups.filter fun group => registry.ownerOf group.name == some id

theorem unowned_cons_of_owned (h : a.ownerOf group.name ≠ none) :
    a.unowned (group :: groups) = a.unowned groups := by
  simp [unowned, h]

/-- What is left to be given after the first group is what nobody owns then. -/
theorem unowned_cons_of_free (hfree : a.ownerOf group.name = none)
    (howners : ∀ name, b.ownerOf name = if name = group.name then some id else a.ownerOf name) :
    a.unowned (group :: groups) = group :: b.unowned groups := by
  have hleft (later : ChannelGroup) : (b.ownerOf later.name).isNone =
      (decide ((later.name == group.name) = false) && (a.ownerOf later.name).isNone) := by
    by_cases h : later.name = group.name <;> simp [howners, h]
  simp only [unowned, hleft, ← List.filter_filter, ← List.eraseDupsBy_cons]
  simp [hfree]

theorem exists_unowned_cons (hfree : a.ownerOf group.name = none) (groups : List ChannelGroup) :
    ∃ b : Registry, a.unowned (group :: groups) = group :: b.unowned groups ∧
      ∀ name, b.ownerOf name = none ↔ name ≠ group.name ∧ a.ownerOf name = none := by
  have howners (name : String) :
      ({ a with owners := a.owners.insert group.name ⟨0⟩ } : Registry).ownerOf name =
        if name = group.name then some ⟨0⟩ else a.ownerOf name :=
    SortedMap.get?_insert ..
  refine ⟨_, unowned_cons_of_free hfree howners, fun name => ?_⟩
  rw [howners]
  split <;> simp_all

/-- The names to be given are those in the list that nobody owns. -/
theorem mem_names_unowned : name ∈ (a.unowned groups).map ChannelGroup.name ↔
    name ∈ groups.map ChannelGroup.name ∧ a.ownerOf name = none := by
  induction groups generalizing a with
  | nil => simp [unowned]
  | cons group groups ih =>
    by_cases hfree : a.ownerOf group.name = none
    · obtain ⟨b, hcons, hnone⟩ := exists_unowned_cons hfree groups
      simp only [hcons, List.map_cons, List.mem_cons, ih, hnone]
      by_cases hname : name = group.name <;> simp [hname, hfree]
    · simp only [unowned_cons_of_owned hfree, ih, List.map_cons, List.mem_cons]
      constructor
      · exact fun h => ⟨.inr h.1, h.2⟩
      · rintro ⟨rfl | hmem, hnone⟩
        · exact absurd hnone hfree
        · exact ⟨hmem, hnone⟩

theorem nodup_names_unowned : ((a.unowned groups).map ChannelGroup.name).Nodup := by
  induction groups generalizing a with
  | nil => simp [unowned]
  | cons group groups ih =>
    by_cases hfree : a.ownerOf group.name = none
    · obtain ⟨b, hcons, hnone⟩ := exists_unowned_cons hfree groups
      have hfresh : group.name ∉ (b.unowned groups).map ChannelGroup.name := by
        simp [mem_names_unowned, hnone]
      simpa only [hcons, List.map_cons] using List.nodup_cons.2 ⟨hfresh, ih⟩
    · simpa only [unowned_cons_of_owned hfree] using ih

/-! ## Who gets them -/

/-- The groups have been added to the lists of their owners, and all else is as it was. -/
structure Given (a : Registry) (new : List ChannelGroup) (b : Registry) : Prop where
  get? : ∀ id, b.members.get? id = (a.members.get? id).map fun member =>
    member.plus ((b.share new id).map ChannelGroup.name)
  owned : ∀ group ∈ new, ∃ id, b.ownerOf group.name = some id ∧ a.Has id
  others : ∀ name, name ∉ new.map ChannelGroup.name → b.ownerOf name = a.ownerOf name

theorem Given.refl (a : Registry) : a.Given [] a where
  get? id := by simp [share]
  owned := List.forall_mem_nil _
  others _ _ := rfl

theorem Given.numbered (h : a.Given new b) (hnumbered : a.Numbered) : b.Numbered := by
  intro id member hget
  rw [h.get?, Option.map_eq_some_iff] at hget
  obtain ⟨old, hold, rfl⟩ := hget
  exact hnumbered id old hold

theorem Given.has (h : a.Given new b) : b.Has id ↔ a.Has id := by
  simp only [has_iff, h.get?, Option.map_eq_some_iff]
  exact ⟨fun ⟨_, member, hget, _⟩ => ⟨member, hget⟩, fun ⟨member, hget⟩ => ⟨_, member, hget, rfl⟩⟩

theorem Hands.given (h : Hands member group before after) :
    before.registry.Given [group] after.registry where
  get? id := by
    have howner : after.registry.ownerOf group.name = some member.info.id := by
      simp [h.ownerOf]
    rw [h.get?]
    by_cases hid : id = member.info.id
    · simp [hid, h.registered, share, howner]
    · simp [hid, share, howner, Ne.symm hid]
  owned other hmem := by
    rw [List.mem_singleton.1 hmem]
    exact ⟨member.info.id, by simp [h.ownerOf], has_iff.2 ⟨member, h.registered⟩⟩
  others name hno := by
    simp only [List.map_cons, List.map_nil, List.mem_singleton] at hno
    simp [h.ownerOf, hno]

/-- A node's share of several groups begins with its share of the first. -/
theorem Given.share_cons (h : b.Given new c) (hno : group.name ∉ new.map ChannelGroup.name)
    (id : NodeId) : c.share (group :: new) id = b.share [group] id ++ c.share new id := by
  simp only [share, List.filter_cons, h.others _ hno, List.filter_nil]
  split <;> rfl

theorem Given.cons (h : a.Given [group] b) (h' : b.Given new c)
    (hno : group.name ∉ new.map ChannelGroup.name) : a.Given (group :: new) c where
  get? id := by
    rw [h'.get?, h.get?, h'.share_cons hno]
    simp [Function.comp_def]
  owned other hmem := by
    rcases List.mem_cons.1 hmem with rfl | hmem
    · obtain ⟨id, howner, hhas⟩ := h.owned _ (List.mem_singleton_self _)
      exact ⟨id, (h'.others _ hno).trans howner, hhas⟩
    · obtain ⟨id, howner, hhas⟩ := h'.owned other hmem
      exact ⟨id, howner, h.has.1 hhas⟩
  others name hnot := by
    simp only [List.map_cons, List.mem_cons, not_or] at hnot
    rw [h'.others name hnot.2]
    exact h.others name (by simpa using hnot.1)

/-! ## What is noted for them -/

/-- What is noted for a member that gets some groups more, after what was noted before. -/
def Assignment.note (member : Member) (old : Option (NodeInfo × List ChannelGroup)) :
    List ChannelGroup → Option (NodeInfo × List ChannelGroup)
  | [] => old
  | first :: rest =>
    let entry := old.getD ((member.plus [first.name]).info, [])
    some (entry.1, entry.2 ++ first :: rest)

/-- The groups have been given away and noted. -/
structure Deals (new : List ChannelGroup) (before after : Assignment) : Prop where
  given : before.registry.Given new after.registry
  noted : ∀ id member, before.registry.members.get? id = some member →
    after.batches.get? id =
      Assignment.note member (before.batches.get? id) (after.registry.share new id)
  unnoted : ∀ id, before.registry.members.get? id = none →
    after.batches.get? id = before.batches.get? id

theorem Deals.refl (done : Assignment) : Deals [] done done where
  given := .refl _
  noted _ _ _ := rfl
  unnoted _ _ := rfl

theorem Deals.cons (h : Hands member group before done) (h' : Deals new done after)
    (hno : group.name ∉ new.map ChannelGroup.name) : Deals (group :: new) before after where
  given := h.given.cons h'.given hno
  noted id other hget := by
    have howner : done.registry.ownerOf group.name = some member.info.id := by
      simp [h.ownerOf]
    rw [h'.given.share_cons hno]
    by_cases hid : id = member.info.id
    · subst hid
      obtain rfl : member = other := Option.some.inj (h.registered.symm.trans hget)
      rw [h'.noted _ _ (by rw [h.get?, if_pos rfl]), h.batches, if_pos rfl]
      -- The record has been taken already, so later groups only join those noted.
      cases hshare : after.registry.share new member.info.id with
      | nil => simp [share, howner, Assignment.note]
      | cons first rest => simp [share, howner, Assignment.note]
    · rw [h'.noted id other (by rw [h.get?, if_neg hid, hget]), h.batches, if_neg hid]
      simp [share, howner, Ne.symm hid]
  unnoted id hget := by
    have hid : id ≠ member.info.id := by
      rintro rfl
      simp [h.registered] at hget
    rw [h'.unnoted id (by rw [h.get?, if_neg hid, hget]), h.batches, if_neg hid]

/-- A list of groups is given away one by one, and those are given that nobody owns. -/
theorem deals_foldl (groups : List ChannelGroup) (done : Assignment)
    (hnumbered : done.registry.Numbered) (hsome : ∃ id, done.registry.Has id) :
    Deals (done.registry.unowned groups) done (groups.foldl Assignment.give done) := by
  induction groups generalizing done with
  | nil => exact .refl done
  | cons group groups ih =>
    rcases give_cases group hnumbered with ⟨howned, hregistry, hbatches⟩ | ⟨member, hhands⟩
    · obtain ⟨id, hid⟩ := hsome
      have howned := howned.resolve_right fun hnobody => hnobody id hid
      have hrest := ih (done.give group) (hregistry ▸ hnumbered) (hregistry ▸ ⟨id, hid⟩)
      rw [unowned_cons_of_owned howned]
      obtain ⟨hgiven, hnoted, hunnoted⟩ := hrest
      simp only [hregistry, hbatches] at hgiven hnoted hunnoted
      exact ⟨hgiven, hnoted, hunnoted⟩
    · have hrest := ih (done.give group) (hhands.numbered hnumbered)
        (hsome.imp fun _ hid => hhands.has.2 hid)
      rw [unowned_cons_of_free hhands.free hhands.ownerOf]
      refine .cons hhands hrest fun hmem => ?_
      have hnone := (mem_names_unowned.1 hmem).2
      simp [hhands.ownerOf] at hnone

/-- What every handing over keeps is kept when a list of groups is given away. -/
theorem foldl_give_of_hands {p : Registry → Prop} (groups : List ChannelGroup) (done : Assignment)
    (hp : ∀ member group before after, Hands member group before after → p before.registry →
      p after.registry)
    (hnumbered : done.registry.Numbered) (h : p done.registry) :
    p (groups.foldl Assignment.give done).registry := by
  induction groups generalizing done with
  | nil => exact h
  | cons group groups ih =>
    rcases give_cases group hnumbered with ⟨-, hregistry, -⟩ | ⟨member, hhands⟩
    · exact ih (done.give group) (hregistry ▸ hnumbered) (hregistry ▸ h)
    · exact ih (done.give group) (hhands.numbered hnumbered) (hp _ _ _ _ hhands h)

/-! ## Watching -/

/-- Groups as they are given away when a list of them is to be watched. -/
def giveAll (registry : Registry) (groups : List ChannelGroup) : Assignment :=
  groups.foldl Assignment.give { registry }

theorem deals_giveAll (groups : List ChannelGroup) (hnumbered : a.Numbered)
    (hsome : ∃ id, a.Has id) : Deals (a.unowned groups) { registry := a } (a.giveAll groups) :=
  deals_foldl groups { registry := a } hnumbered hsome

/-- With a node registered, groups can be watched. -/
theorem watch_eq_ok (groups : List ChannelGroup) (hsome : ∃ id, a.Has id) :
    watch groups a = .ok (a.giveAll groups) (a.giveAll groups).registry := by
  apply eq_ok_of_ensures
  simp only [watch, ensures_bind, ensures_get, isEmpty_eq_false_iff.2 hsome]
  exact ⟨rfl, rfl⟩

/-- Without any node, they cannot. -/
theorem watch_eq_error (groups : List ChannelGroup) (hnone : ¬ ∃ id, a.Has id) :
    watch groups a = .error (.nodeUnavailable none .noneRegistered) a := by
  have hempty : a.members.isEmpty = true := by
    rwa [← isEmpty_eq_false_iff, Bool.not_eq_false] at hnone
  apply eq_error_of_ensures
  simp only [watch, ensures_bind, ensures_get, hempty]
  exact ⟨rfl, rfl⟩

end Registry

namespace Cluster

variable {c : Cluster}

/-- The nodes are told of their new groups by what has been noted. -/
theorem watch_eq_ok (groups : List ChannelGroup) (hsome : ∃ id, c.registry.Has id) :
    watch groups c = .ok (c.registry.giveAll groups).owners
      (post { c with registry := (c.registry.giveAll groups).registry }
        (c.registry.giveAll groups).commands) := by
  apply eq_ok_of_ensures
  simp only [watch, onRegistry, ensures_bind, ensures_onPart]
  rw [ensures_of_ok (Registry.watch_eq_ok groups hsome)]
  exact ⟨rfl, rfl⟩

theorem watch_eq_error (groups : List ChannelGroup) (hnone : ¬ ∃ id, c.registry.Has id) :
    watch groups c = .error (.nodeUnavailable none .noneRegistered) c := by
  apply eq_error_of_ensures
  simp only [watch, onRegistry, ensures_bind, ensures_onPart]
  rw [ensures_of_error (Registry.watch_eq_error groups hnone)]
  exact ⟨rfl, rfl⟩

end Cluster

end IngestCoordinator
