-- SUMMARY: Channels are dealt out once, evenly and in order, and found in their groups from then on.
import IngestCoordinator.Proofs.Channels
import IngestCoordinator.Proofs.Path
import IngestCoordinator.Proofs.SortedMap

/-!
# The division of channels

The first call for a collection that succeeds deals its channels out: every group is a
run of consecutive channels, the runs follow each other, and the longer ones come first.
Whatever calls come later, for this collection or another, the groups stay what they are,
and each channel is found in the one group that has it.
-/

namespace IngestCoordinator.Channels

open Operation

variable {a b c : Channels} {stem : String} {collection : CollectionId} {channel : String}
  {count nodes index index' : Nat} {perCollection : UInt32} {group group' : ChannelGroup}
  {groups : List ChannelGroup}

/-! ## Dealing out -/

section

variable {parts : Nat}

theorem groupStart_succ (count parts index : Nat) : groupStart count parts (index + 1) =
    groupStart count parts index + groupSize count parts index := by
  simp only [groupStart, groupSize, Nat.succ_mul]
  split <;> omega

/-- Nothing is left when every group has its channels. -/
theorem groupStart_self (hparts : 0 < parts) : groupStart count parts parts = count := by
  rw [groupStart, Nat.min_eq_right (Nat.mod_lt count hparts).le, Nat.div_add_mod]

/-- Groups differ by one channel at most, and the larger ones come first. -/
theorem groupSize_le (h : index ≤ index') :
    groupSize count parts index' ≤ groupSize count parts index ∧
      groupSize count parts index ≤ groupSize count parts index' + 1 := by
  simp only [groupSize]
  split <;> split <;> omega

theorem groupSize_pos (hparts : 0 < parts) (h : parts ≤ count) :
    0 < groupSize count parts index :=
  Nat.add_pos_left (Nat.div_pos h hparts) _

/-- The runs of the first groups, one after the other, are one run from the start. -/
theorem flatMap_runs (count parts first : Nat) :
    ((List.range first).flatMap fun index =>
      List.range' (groupStart count parts index) (groupSize count parts index)) =
    List.range (groupStart count parts first) := by
  induction first with
  | zero => simp [groupStart]
  | succ index ih =>
    rw [List.range_succ, List.flatMap_append, ih, List.flatMap_singleton, groupStart_succ,
      List.range_eq_range', List.range_eq_range', ← List.range'_append_1, Nat.zero_add]

end

/-- The names of all channels of a collection, by number. -/
def channelNames (stem : String) (collection : CollectionId) (count : Nat) : List String :=
  (List.range count).map (channelName stem collection)

theorem nodup_channelNames : (channelNames stem collection count).Nodup :=
  List.nodup_range.map fun _ _ h => (channelName_inj.1 h).2

/-- The channels of a collection are dealt out to groups, at most one for each node. -/
structure Divided (stem : String) (collection : CollectionId) (count nodes : Nat)
    (groups : List ChannelGroup) : Prop where
  length : groups.length = min count nodes
  nonempty : ∀ group ∈ groups, group.channels ≠ []
  even : groups.Pairwise fun first later => later.channels.length ≤ first.channels.length ∧
    first.channels.length ≤ later.channels.length + 1
  inOrder : groups.flatMap ChannelGroup.channels = channelNames stem collection count
  distinct : (groups.flatMap ChannelGroup.channels).Nodup

theorem flatMap_divide {parts : Nat} (hparts : 0 < parts) :
    (divide stem collection count parts).flatMap ChannelGroup.channels =
      channelNames stem collection count := by
  rw [divide, List.flatMap_map, ← List.map_flatMap, flatMap_runs, groupStart_self hparts,
    channelNames]

theorem divided_divide (hcount : 0 < count) (hnodes : 0 < nodes) :
    Divided stem collection count nodes (divide stem collection count (min nodes count)) where
  length := by rw [divide, List.length_map, List.length_range, Nat.min_comm]
  nonempty group hmem := by
    obtain ⟨index, -, rfl⟩ := List.mem_map.1 hmem
    rw [← List.length_pos_iff, List.length_map, List.length_range']
    exact groupSize_pos (Nat.lt_min.2 ⟨hnodes, hcount⟩) (Nat.min_le_right ..)
  even := by
    refine List.pairwise_map.2 (List.pairwise_lt_range.imp fun hlt => ?_)
    simp only [List.length_map, List.length_range']
    exact groupSize_le hlt.le
  inOrder := flatMap_divide (Nat.lt_min.2 ⟨hnodes, hcount⟩)
  distinct := flatMap_divide (Nat.lt_min.2 ⟨hnodes, hcount⟩) ▸ nodup_channelNames

namespace Divided

variable (h : Divided stem collection count nodes groups)

include h

/-- A channel is in one group only, since no name is given twice. -/
theorem group_unique (hmem : group ∈ groups) (hmem' : group' ∈ groups)
    (hchannel : channel ∈ group.channels) (hchannel' : channel ∈ group'.channels) :
    group = group' := by
  have hsymm : Std.Symm (Function.onFun List.Disjoint ChannelGroup.channels) :=
    ⟨fun _ _ hdisjoint => hdisjoint.symm⟩
  by_contra hne
  exact (List.nodup_flatMap.1 h.distinct).2.forall hmem hmem' hne hchannel hchannel'

/-- A channel of the collection is found in its group. -/
theorem groupOf_eq_ok (hget : a.groups.get? collection = some groups) (hmem : group ∈ groups)
    (hchannel : channel ∈ group.channels) : a.groupOf collection channel = .ok group := by
  have hcontains : group.contains channel = true := List.contains_iff_mem.2 hchannel
  cases hfind : groups.find? (·.contains channel) with
  | none => exact absurd hcontains (List.find?_eq_none.1 hfind group hmem)
  | some found =>
    have hfound := List.find?_some hfind
    rw [h.group_unique hmem (List.mem_of_find?_eq_some hfind) hchannel
      (List.contains_iff_mem.1 hfound)]
    simp only [groupOf, hget, hfind]

/-- Any other name is not found. -/
theorem groupOf_eq_error (hget : a.groups.get? collection = some groups)
    (hno : channel ∉ channelNames stem collection count) :
    a.groupOf collection channel = .error (.notFound (.channel channel)) := by
  have hfind : groups.find? (·.contains channel) = none := by
    refine List.find?_eq_none.2 fun group hmem hcontains => hno ?_
    exact h.inOrder ▸ List.mem_flatMap.2 ⟨group, hmem, List.contains_iff_mem.1 hcontains⟩
  simp only [groupOf, hget, hfind]

end Divided

/-! ## Calls -/

/-- A request for the groups of a collection, with its answer. -/
structure Call where
  collection : CollectionId
  nodes : Nat
  answer : Except Error (List ChannelGroup × Bool)

/-- The groups that a call has made. -/
def Call.made (call : Call) : List ChannelGroup :=
  match call.answer with
  | .ok (groups, true) => groups
  | _ => []

/-- The call is made and gets its answer. -/
def Asks (a : Channels) (call : Call) (b : Channels) : Prop :=
  (allocate call.collection call.nodes).attempt a = (call.answer, b)

/-- A collection's channels, as they are divided by the first call. -/
def firstDivision (channels : Channels) (collection : CollectionId) (nodes : Nat) :
    List ChannelGroup :=
  divide channels.stem collection channels.perCollection.toNat
    (min nodes channels.perCollection.toNat)

theorem allocate_of_some (h : a.groups.get? collection = some groups) (nodes : Nat) :
    allocate collection nodes a = .ok (groups, false) a := by
  refine eq_ok_of_ensures ?_
  simp only [allocate, ensures_bind, ensures_get, h]
  exact ⟨rfl, rfl⟩

theorem allocate_of_none (h : a.groups.get? collection = none) (hnodes : nodes ≠ 0)
    (hcount : a.perCollection.toNat ≠ 0) :
    allocate collection nodes a = .ok (a.firstDivision collection nodes, true)
      { a with groups := a.groups.insert collection (a.firstDivision collection nodes) } := by
  refine eq_ok_of_ensures ?_
  simp only [allocate, ensures_bind, ensures_get, h, if_neg hnodes, if_neg hcount]
  exact ⟨rfl, rfl⟩

theorem allocate_refused (h : a.groups.get? collection = none)
    (hzero : nodes = 0 ∨ a.perCollection.toNat = 0) :
    ∃ error, allocate collection nodes a = .error error a := by
  by_cases hnodes : nodes = 0
  · refine ⟨_, eq_error_of_ensures (e := .nodeUnavailable none .noneToServe) ?_⟩
    simp only [allocate, ensures_bind, ensures_get, h, if_pos hnodes]
    exact ⟨rfl, rfl⟩
  · refine ⟨_, eq_error_of_ensures (e := .invalidArgument .channelsNotPositive) ?_⟩
    simp only [allocate, ensures_bind, ensures_get, h, if_neg hnodes,
      if_pos (hzero.resolve_left hnodes)]
    exact ⟨rfl, rfl⟩

/-- With a node and a channel, there are groups to answer. -/
theorem exists_allocate (collection : CollectionId) (hnodes : 0 < nodes)
    (hcount : 0 < a.perCollection.toNat) :
    ∃ groups created b, allocate collection nodes a = .ok (groups, created) b ∧
      b.groups.get? collection = some groups := by
  cases hget : a.groups.get? collection with
  | some groups => exact ⟨groups, false, a, allocate_of_some hget nodes, hget⟩
  | none =>
    exact ⟨_, true, _, allocate_of_none hget hnodes.ne' hcount.ne', SortedMap.get?_insert_self ..⟩

/-- What comes of a call: the groups that there are, a first division, or a refusal. -/
inductive Answered (a : Channels) : Call → Channels → Prop where
  | kept {collection : CollectionId} {nodes : Nat} {groups : List ChannelGroup}
    (h : a.groups.get? collection = some groups) :
    Answered a ⟨collection, nodes, .ok (groups, false)⟩ a
  | made {collection : CollectionId} {nodes : Nat} (h : a.groups.get? collection = none)
    (hnodes : 0 < nodes) (hcount : 0 < a.perCollection.toNat) :
    Answered a ⟨collection, nodes, .ok (a.firstDivision collection nodes, true)⟩
      { a with groups := a.groups.insert collection (a.firstDivision collection nodes) }
  | refused {collection : CollectionId} {nodes : Nat} (h : a.groups.get? collection = none)
    (error : Error) : Answered a ⟨collection, nodes, .error error⟩ a

theorem Asks.answered {call : Call} (h : Asks a call b) : Answered a call b := by
  obtain ⟨collection, nodes, answer⟩ := call
  unfold Asks attempt at h
  cases hget : a.groups.get? collection with
  | some groups =>
    rw [allocate_of_some hget] at h
    cases h
    exact .kept hget
  | none =>
    by_cases hzero : nodes = 0 ∨ a.perCollection.toNat = 0
    · obtain ⟨error, hallocate⟩ := allocate_refused hget hzero
      rw [hallocate] at h
      cases h
      exact .refused hget error
    · obtain ⟨hnodes, hcount⟩ := not_or.1 hzero
      rw [allocate_of_none hget hnodes hcount] at h
      cases h
      exact .made hget (Nat.pos_of_ne_zero hnodes) (Nat.pos_of_ne_zero hcount)

theorem Asks.settings {call : Call} (h : Asks a call b) :
    b.perCollection = a.perCollection ∧ b.stem = a.stem := by
  cases h.answered <;> exact ⟨rfl, rfl⟩

theorem Asks.extends {call : Call} (h : Asks a call b) : a.Extends b := by
  have hextends := ((ensures_allocate call.collection call.nodes (a := a)).imp
    (fun _ _ h => h.1) fun _ _ h => h ▸ .refl a).attempt_snd
  rwa [show _ = (call.answer, b) from h] at hextends

/-- A call that is refused, or is about another collection, gives the collection no groups. -/
theorem Asks.get?_eq_none {call : Call} (h : Asks a call b)
    (hfails : call.collection = collection → call.answer.isOk = false)
    (hnone : a.groups.get? collection = none) : b.groups.get? collection = none := by
  cases h.answered with
  | kept | refused => exact hnone
  | made =>
    rw [SortedMap.get?_insert, if_neg fun heq => Bool.noConfusion (hfails heq.symm)]
    exact hnone

/-! ## Runs of calls -/

section

variable {calls : List Call}

theorem settings_of_path (h : Path Asks a calls b) :
    b.perCollection = a.perCollection ∧ b.stem = a.stem :=
  h.invariant (p := fun b => b.perCollection = a.perCollection ∧ b.stem = a.stem)
    (fun _ _ _ hsame hstep => ⟨hstep.settings.1.trans hsame.1, hstep.settings.2.trans hsame.2⟩)
    ⟨rfl, rfl⟩

/-- All calls of a run would divide channels in the same way. -/
theorem firstDivision_of_path (h : Path Asks a calls b) (collection : CollectionId) (nodes : Nat) :
    b.firstDivision collection nodes = a.firstDivision collection nodes := by
  obtain ⟨hcount, hstem⟩ := settings_of_path h
  rw [firstDivision, firstDivision, hcount, hstem]

/-- A collection keeps its groups, whatever is asked for. -/
theorem get?_of_path (h : Path Asks a calls b) (hget : a.groups.get? collection = some groups) :
    b.groups.get? collection = some groups :=
  h.invariant (p := fun b => b.groups.get? collection = some groups)
    (fun _ _ _ hget hstep => hstep.extends.kept _ _ hget) hget

/-- What groups there are come from a first division, if there were none to begin with. -/
theorem firstDivision_of_get? (h : Path Asks a calls b) (hempty : a.groups = .empty)
    (hget : b.groups.get? collection = some groups) : 0 < a.perCollection.toNat ∧
      ∃ nodes, 0 < nodes ∧ groups = a.firstDivision collection nodes := by
  induction h with
  | nil => simp [hempty] at hget
  | snoc hpath hstep ih =>
    cases hstep.answered with
    | kept | refused => exact ih hget
    | @made other nodes hnone hnodes hcount =>
      rcases SortedMap.get?_insert_cases hget with ⟨rfl, rfl⟩ | ⟨-, hget⟩
      · rw [(settings_of_path hpath).1] at hcount
        exact ⟨hcount, nodes, hnodes, firstDivision_of_path hpath _ _⟩
      · exact ih hget

/-- So they have been dealt out. -/
theorem divided_of_path (h : Path Asks a calls b) (hempty : a.groups = .empty)
    (hget : b.groups.get? collection = some groups) : 0 < a.perCollection.toNat ∧
      ∃ nodes, 0 < nodes ∧ Divided a.stem collection a.perCollection.toNat nodes groups := by
  obtain ⟨hcount, nodes, hnodes, rfl⟩ := firstDivision_of_get? h hempty hget
  exact ⟨hcount, nodes, hnodes, divided_divide hcount hnodes⟩

/-- As long as no call for a collection has succeeded, it has no groups. -/
theorem get?_eq_none_of_path (h : Path Asks a calls b)
    (hfails : ∀ call ∈ calls, call.collection = collection → call.answer.isOk = false)
    (hnone : a.groups.get? collection = none) : b.groups.get? collection = none := by
  induction h with
  | nil => exact hnone
  | snoc _ hstep ih =>
    have hlast := hfails _ (List.mem_append_right _ (List.mem_singleton_self _))
    exact hstep.get?_eq_none hlast (ih fun call hmem => hfails call (List.mem_append_left _ hmem))

end

/--
The first call for a collection that succeeds deals its channels out, evenly and in order,
to as many groups as there are nodes or channels. From then on every call finds the same
groups, with any number of nodes, and a name is found in the one group that has it, or in
none if it is not one of the names dealt out.
-/
theorem channels_divided_once {earlier : List Call} (hcount : 0 < perCollection)
    (hnodes : 0 < nodes) (hrun : Path Asks { perCollection, stem } earlier a)
    (hfails : ∀ call ∈ earlier, call.collection = collection → call.answer.isOk = false) :
    ∃ groups b, allocate collection nodes a = .ok (groups, true) b ∧
      Divided stem collection perCollection.toNat nodes groups ∧
      ∀ later c, Path Asks b later c →
        (∀ nodes', allocate collection nodes' c = .ok (groups, false) c) ∧
        (∀ channel ∈ channelNames stem collection perCollection.toNat,
          ∃! group, group ∈ groups ∧ channel ∈ group.channels ∧
            c.groupOf collection channel = .ok group) ∧
        ∀ channel ∉ channelNames stem collection perCollection.toNat,
          c.groupOf collection channel = .error (.notFound (.channel channel)) := by
  have hcount : 0 < perCollection.toNat := UInt32.lt_iff_toNat_lt.1 hcount
  have hnone : a.groups.get? collection = none := get?_eq_none_of_path hrun hfails rfl
  have hallocate :=
    allocate_of_none hnone hnodes.ne' ((settings_of_path hrun).1 ▸ hcount.ne')
  have hdivided : Divided stem collection perCollection.toNat nodes
      (a.firstDivision collection nodes) := by
    rw [firstDivision_of_path hrun]
    exact divided_divide hcount hnodes
  refine ⟨_, _, hallocate, hdivided, fun later c hlater => ?_⟩
  have hget := get?_of_path hlater (SortedMap.get?_insert_self ..)
  refine ⟨allocate_of_some hget, fun channel hchannel => ?_,
    fun channel hno => hdivided.groupOf_eq_error hget hno⟩
  rw [← hdivided.inOrder] at hchannel
  obtain ⟨group, hmem, hin⟩ := List.mem_flatMap.1 hchannel
  refine ⟨group, ⟨hmem, hin, hdivided.groupOf_eq_ok hget hmem hin⟩, fun other hother => ?_⟩
  exact hdivided.group_unique hother.1 hmem hother.2.1 hin

/-- Makes calls one after the other and lists them with their answers. -/
def askAll : List (CollectionId × Nat) → Channels → List Call × Channels
  | [], a => ([], a)
  | (collection, nodes) :: rest, a =>
    let (answer, b) := (allocate collection nodes).attempt a
    let (calls, c) := askAll rest b
    (⟨collection, nodes, answer⟩ :: calls, c)

theorem path_askAll (requests : List (CollectionId × Nat)) (a : Channels) :
    Path Asks a (askAll requests a).1 (askAll requests a).2 := by
  induction requests generalizing a with
  | nil => exact .nil a
  | cons request rest ih =>
    have hfirst : Asks a ⟨request.1, request.2, ((allocate request.1 request.2).attempt a).1⟩
        ((allocate request.1 request.2).attempt a).2 := rfl
    exact (Path.single hfirst).append (ih _)

/-- With five channels for a collection: one call is refused, one is for another collection. -/
def beforeDivision : List Call × Channels :=
  askAll [(⟨7⟩, 0), (⟨-7⟩, 2)] { perCollection := 5, stem := "insert-" }

/-- Five channels go to three nodes, and stay there when collections and nodes come and go. -/
theorem channels_divided_once_five :
    ∃ groups b, allocate ⟨7⟩ 3 beforeDivision.2 = .ok (groups, true) b ∧
      groups.map ChannelGroup.channels =
        [["insert-7_0", "insert-7_1"], ["insert-7_2", "insert-7_3"], ["insert-7_4"]] ∧
      ∃ c, c = (askAll [(⟨77⟩, 1), (⟨7⟩, 0)] b).2 ∧
        allocate ⟨7⟩ 9 c = .ok (groups, false) c ∧
        c.groupOf ⟨7⟩ "insert-7_5" = .error (.notFound (.channel "insert-7_5")) := by
  have hrun : Path Asks { perCollection := 5, stem := "insert-" } beforeDivision.1
      beforeDivision.2 := path_askAll _ _
  have hfails : ∀ call ∈ beforeDivision.1, call.collection = ⟨7⟩ → call.answer.isOk = false := by
    decide +kernel
  obtain ⟨groups, b, hallocate, -, hlater⟩ :=
    channels_divided_once (by decide) (show 0 < 3 by decide) hrun hfails
  obtain ⟨hkept, -, hother⟩ := hlater _ _ (path_askAll [(⟨77⟩, 1), (⟨7⟩, 0)] b)
  refine ⟨groups, b, hallocate, ?_, _, rfl, hkept 9, hother _ (by decide +kernel)⟩
  have hchannels : ((allocate ⟨7⟩ 3).attempt beforeDivision.2).1.toOption.map
        (fun answer => answer.1.map ChannelGroup.channels) =
      some [["insert-7_0", "insert-7_1"], ["insert-7_2", "insert-7_3"], ["insert-7_4"]] := by
    decide +kernel
  rw [attempt, hallocate] at hchannels
  exact Option.some.inj hchannels

end IngestCoordinator.Channels
