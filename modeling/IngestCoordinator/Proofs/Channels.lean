-- SUMMARY: Channel groups by name: a name tells the collection, and a division is never changed.
import IngestCoordinator.Channels
import IngestCoordinator.Proofs.Operation
import IngestCoordinator.Proofs.Store.Keys

/-!
# Channel groups

The groups of different collections have different names, and the groups that a
collection has been given it keeps. A segment's group can therefore be found by its
name as long as the coordinator lives.
-/

namespace IngestCoordinator

open Operation

/-! ## Names -/

theorem isDigit_of_mem_repr {n : Nat} {letter : Char} (h : letter ∈ n.repr.toList) :
    letter.isDigit = true := by
  rw [Nat.repr_eq_ofList_toDigits, String.toList_ofList] at h
  exact Nat.isDigit_of_mem_toDigits (by decide) (by decide) h

/-- An identifier is written with digits, after a dash if it is negative. -/
theorem Identifier.not_mem_toString {kind : Kind} (id : Identifier kind) {letter : Char}
    (hdigit : letter.isDigit = false) (hdash : letter ≠ '-') : letter ∉ (toString id).toList := by
  have hdigits {n : Nat} : letter ∉ n.repr.toList := fun hmem =>
    Bool.false_ne_true (hdigit.symm.trans (isDigit_of_mem_repr hmem))
  change letter ∉ (Int.repr id.val.toInt).toList
  rw [Int.repr_eq_if]
  split
  · exact hdigits
  · rw [String.toList_append, List.mem_append]
    rintro (hmem | hmem)
    · exact hdash (List.mem_singleton.1 hmem)
    · exact hdigits hmem

namespace Channels

variable {a b : Channels} {collection collection' : CollectionId} {name : String}
  {index index' : Nat}

/-- The collection is what stands before the letter of the group, the number what stands after. -/
theorem groupName_inj : groupName collection index = groupName collection' index' ↔
    collection = collection' ∧ index = index' := by
  refine ⟨fun h => ?_, fun ⟨hcollection, hindex⟩ => hcollection ▸ hindex ▸ rfl⟩
  have hname (collection : CollectionId) (index : Nat) : (groupName collection index).toList =
      ((toString collection).toList ++ ['-']) ++ 'g' :: ("roup-".toList ++ index.repr.toList) := by
    simp [groupName]
  have hbefore : 'g' ∉ (toString collection).toList ++ ['-'] := by
    simp [collection.not_mem_toString (show 'g'.isDigit = false from rfl) (by decide)]
  have hafter : 'g' ∉ "roup-".toList ++ index.repr.toList := fun hmem =>
    (List.mem_append.1 hmem).elim (absurd · (by decide))
      fun hmem => absurd (isDigit_of_mem_repr hmem) (by decide)
  rw [← String.toList_inj, hname, hname, List.append_cons_inj_of_notMem hbefore hafter] at h
  exact ⟨Identifier.toString_injective (String.toList_inj.1 (List.append_cancel_right h.1)),
    Nat.repr_injective (String.toList_inj.1 (List.append_cancel_left h.2.2))⟩

/-- After the stem, the collection is what stands before the mark, the number what stands after. -/
theorem channelName_inj {stem : String} :
    channelName stem collection index = channelName stem collection' index' ↔
      collection = collection' ∧ index = index' := by
  refine ⟨fun h => ?_, fun ⟨hcollection, hindex⟩ => hcollection ▸ hindex ▸ rfl⟩
  have hname (collection : CollectionId) (index : Nat) :
      (channelName stem collection index).toList =
        stem.toList ++ ((toString collection).toList ++ '_' :: index.repr.toList) := by
    simp [channelName]
  have hbefore : '_' ∉ (toString collection).toList := collection.not_mem_toString rfl (by decide)
  have hafter : '_' ∉ index.repr.toList := fun hmem =>
    absurd (isDigit_of_mem_repr hmem) (by decide)
  rw [← String.toList_inj, hname, hname, List.append_cancel_left_eq,
    List.append_cons_inj_of_notMem hbefore hafter] at h
  exact ⟨Identifier.toString_injective (String.toList_inj.1 h.1),
    Nat.repr_injective (String.toList_inj.1 h.2.2)⟩

/-! ## Divisions -/

/-- The collection has a group of that name. -/
def Names (channels : Channels) (collection : CollectionId) (name : String) : Prop :=
  ∃ groups, channels.groups.get? collection = some groups ∧ ∃ group ∈ groups, group.name = name

/-- Every group is named after its collection. -/
def Sound (channels : Channels) : Prop :=
  ∀ collection groups, channels.groups.get? collection = some groups →
    ∀ group ∈ groups, ∃ index, group.name = groupName collection index

/-- A name belongs to one collection only. -/
theorem Sound.collection_eq (h : a.Sound) (hnames : a.Names collection name)
    (hnames' : a.Names collection' name) : collection = collection' := by
  obtain ⟨groups, hgroups, group, hmem, hname⟩ := hnames
  obtain ⟨groups', hgroups', group', hmem', hname'⟩ := hnames'
  obtain ⟨index, hindex⟩ := h _ _ hgroups group hmem
  obtain ⟨index', hindex'⟩ := h _ _ hgroups' group' hmem'
  exact (groupName_inj.1 (hindex.symm.trans (hname.trans (hname'.symm.trans hindex')))).1

/-- Collections keep their groups. -/
structure Extends (a b : Channels) : Prop where
  sound : a.Sound → b.Sound
  kept : ∀ collection groups, a.groups.get? collection = some groups →
    b.groups.get? collection = some groups

theorem Extends.refl (a : Channels) : a.Extends a :=
  ⟨id, fun _ _ => id⟩

theorem Extends.names (h : a.Extends b) (hnames : a.Names collection name) :
    b.Names collection name :=
  hnames.imp fun _ hgroups => ⟨h.kept _ _ hgroups.1, hgroups.2⟩

/-- The group of a channel is one of the groups of its collection. -/
theorem names_of_groupOf {channel : String} {group : ChannelGroup}
    (h : a.groupOf collection channel = .ok group) : a.Names collection group.name := by
  unfold groupOf at h
  split at h
  · cases h
  · rename_i groups hgroups
    split at h
    · cases h
    · rename_i found hfound
      cases h
      exact ⟨groups, hgroups, group, List.mem_of_find?_eq_some hfound, rfl⟩

/-- The answer lists the groups that the collection has from then on. -/
theorem ensures_allocate (collection : CollectionId) (nodes : Nat) :
    Ensures (allocate collection nodes) a
      (fun answer b => a.Extends b ∧ b.groups.get? collection = some answer.1)
      (fun _ b => b = a) := by
  rw [allocate, ensures_bind, ensures_get]
  cases hget : a.groups.get? collection with
  | some groups => exact ⟨.refl a, hget⟩
  | none =>
    dsimp only
    split
    · exact rfl
    · split
      · exact rfl
      · -- The collection is new: the others keep their groups, and it had none to lose.
        refine ⟨⟨fun hsound collection' groups hgroups => ?_, fun collection' groups hgroups => ?_⟩,
          SortedMap.get?_insert_self ..⟩
        · rw [SortedMap.get?_insert] at hgroups
          split at hgroups
          · rename_i heq
            cases hgroups
            intro group hmem
            obtain ⟨index, _, rfl⟩ := List.mem_map.1 hmem
            exact ⟨index, heq ▸ rfl⟩
          · exact hsound _ _ hgroups
        · rw [SortedMap.get?_insert]
          split
          · rename_i heq
            rw [heq, hget] at hgroups
            cases hgroups
          · exact hgroups

end Channels

end IngestCoordinator
