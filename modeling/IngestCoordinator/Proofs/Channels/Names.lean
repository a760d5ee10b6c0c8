-- SUMMARY: No name of a channel or of a group is given twice, so a name has at most one owner.
import IngestCoordinator.Proofs.Channels.Division
import IngestCoordinator.Proofs.Ownership

/-!
# Names of channels and groups

A channel is named by a stem, its collection and its number, a group by its collection and
its number, all written one after the other. Whatever the stem is, the collection and the
number can be told from the name. A collection is divided only once, so all names given in
a run of calls differ, and the owners of groups can be kept by name alone.
-/

namespace IngestCoordinator.Channels

variable {a b : Channels} {call : Call} {calls : List Call} {stem : String}
  {perCollection : UInt32}

/-! ## What calls make -/

/-- The groups that have been made in calls. -/
def madeIn (calls : List Call) : List ChannelGroup :=
  calls.flatMap Call.made

/-- What a call makes, it makes for a collection that has been without groups. -/
theorem Asks.made_eq (h : Asks a call b) : call.made = [] ∨
    call.made = a.firstDivision call.collection call.nodes ∧
      a.groups.get? call.collection = none ∧ b.groups.get? call.collection ≠ none ∧
      0 < min call.nodes a.perCollection.toNat := by
  cases h.answered with
  | kept | refused => exact .inl rfl
  | made hnone hnodes hcount =>
    refine .inr ⟨rfl, hnone, ?_, Nat.lt_min.2 ⟨hnodes, hcount⟩⟩
    rw [SortedMap.get?_insert_self]
    exact Option.some_ne_none _

/-- What any call of a run makes is a first division, and its collection keeps it. -/
theorem made_of_path (h : Path Asks a calls b) (hmem : call ∈ calls) : call.made = [] ∨
    call.made = a.firstDivision call.collection call.nodes ∧
      b.groups.get? call.collection ≠ none ∧ 0 < min call.nodes a.perCollection.toNat := by
  induction h with
  | nil => cases hmem
  | snoc hpath hstep ih =>
    rcases List.mem_append.1 hmem with hmem | hmem
    · refine (ih hmem).imp_right fun ⟨hmade, hsome, hparts⟩ => ⟨hmade, ?_, hparts⟩
      obtain ⟨groups, hgroups⟩ := Option.ne_none_iff_exists'.1 hsome
      rw [hstep.extends.kept _ _ hgroups]
      exact Option.some_ne_none _
    · obtain rfl := List.mem_singleton.1 hmem
      refine hstep.made_eq.imp_right fun ⟨hmade, _, hsome, hparts⟩ => ?_
      rw [firstDivision_of_path hpath] at hmade
      rw [(settings_of_path hpath).1] at hparts
      exact ⟨hmade, hsome, hparts⟩

/-- No two calls make groups for one collection. -/
theorem pairwise_of_path (h : Path Asks a calls b) : calls.Pairwise fun call later =>
    call.made ≠ [] → later.made ≠ [] → call.collection ≠ later.collection := by
  induction h with
  | nil => exact .nil
  | snoc hpath hstep ih =>
    refine List.pairwise_append.2 ⟨ih, List.pairwise_singleton .., fun call hmem later hlater => ?_⟩
    obtain rfl := List.mem_singleton.1 hlater
    intro hmade hmade' hsame
    have hsome := ((made_of_path hpath hmem).resolve_left hmade).2.1
    exact hsome (hsame ▸ (hstep.made_eq.resolve_left hmade').2.1)

/-! ## Distinct names -/

/--
Names that tell the collection and a number are all different, if the groups made in one
call have them by number.
-/
theorem nodup_names {names : ChannelGroup → List String} (name : CollectionId → Nat → String)
    (hrun : Path Asks a calls b)
    (hinj : ∀ {collection collection' index index'},
      name collection index = name collection' index' ↔ collection = collection' ∧ index = index')
    (hnames : ∀ call ∈ calls, call.made ≠ [] →
      ∃ count, call.made.flatMap names = (List.range count).map (name call.collection)) :
    ((madeIn calls).flatMap names).Nodup := by
  rw [madeIn, List.flatMap_assoc, List.nodup_flatMap]
  constructor
  · intro call hmem
    by_cases hmade : call.made = []
    · rw [hmade]
      exact List.nodup_nil
    · obtain ⟨count, hcount⟩ := hnames call hmem hmade
      rw [hcount]
      exact List.nodup_range.map fun _ _ heq => (hinj.1 heq).2
  · refine (pairwise_of_path hrun).imp_of_mem fun hmem hmem' hne text htext htext' => ?_
    -- A name that two calls give would be a name of both collections.
    have hmade := List.ne_nil_of_mem (List.mem_flatMap.1 htext).choose_spec.1
    have hmade' := List.ne_nil_of_mem (List.mem_flatMap.1 htext').choose_spec.1
    obtain ⟨count, hcount⟩ := hnames _ hmem hmade
    obtain ⟨count', hcount'⟩ := hnames _ hmem' hmade'
    simp only [hcount] at htext
    simp only [hcount'] at htext'
    obtain ⟨index, -, rfl⟩ := List.mem_map.1 htext
    obtain ⟨index', -, hsame⟩ := List.mem_map.1 htext'
    exact hne hmade hmade' (hinj.1 hsame).1.symm

theorem nodup_channels_of_path (h : Path Asks a calls b) :
    ((madeIn calls).flatMap ChannelGroup.channels).Nodup := by
  refine nodup_names (channelName a.stem) h channelName_inj fun call hmem hmade =>
    ⟨a.perCollection.toNat, ?_⟩
  obtain ⟨hmade, -, hparts⟩ := (made_of_path h hmem).resolve_left hmade
  rw [hmade]
  exact flatMap_divide hparts

theorem nodup_groupNames_of_path (h : Path Asks a calls b) :
    ((madeIn calls).map ChannelGroup.name).Nodup := by
  rw [List.map_eq_flatMap]
  refine nodup_names groupName h groupName_inj fun call hmem hmade =>
    ⟨min call.nodes a.perCollection.toNat, ?_⟩
  obtain ⟨hmade, -, -⟩ := (made_of_path h hmem).resolve_left hmade
  rw [hmade, firstDivision, divide, ← List.map_eq_flatMap, List.map_map]
  rfl

theorem collection_of_path (h : Path Asks a calls b) {group : ChannelGroup} (hmem : call ∈ calls)
    (hgroup : group ∈ call.made) : group.collection = call.collection := by
  obtain ⟨hmade, -, -⟩ := (made_of_path h hmem).resolve_left (List.ne_nil_of_mem hgroup)
  rw [hmade] at hgroup
  obtain ⟨index, -, rfl⟩ := List.mem_map.1 hgroup
  rfl

/-- The channels of the collection have been divided, and this is one of the groups. -/
def Lists (channels : Channels) (collection : CollectionId) (group : ChannelGroup) : Prop :=
  ∃ groups, channels.groups.get? collection = some groups ∧ group ∈ groups

theorem lists_of_groupOf {collection : CollectionId} {channel : String} {group : ChannelGroup}
    (h : a.groupOf collection channel = .ok group) :
    a.Lists collection group ∧ channel ∈ group.channels := by
  unfold groupOf at h
  split at h
  · cases h
  · rename_i groups hget
    split at h
    · cases h
    · rename_i found hfind
      cases h
      have hcontains := List.find?_some hfind
      exact ⟨⟨groups, hget, List.mem_of_find?_eq_some hfind⟩, List.contains_iff_mem.1 hcontains⟩

/-- No two groups have the same name, be they of one collection or of two. -/
theorem unique_of_path {collection collection' : CollectionId} {group group' : ChannelGroup}
    (h : Path Asks a calls b) (hempty : a.groups = .empty) (hlists : b.Lists collection group)
    (hlists' : b.Lists collection' group') (hname : group'.name = group.name) : group' = group := by
  obtain ⟨groups, hget, hmem⟩ := hlists
  obtain ⟨groups', hget', hmem'⟩ := hlists'
  obtain ⟨-, nodes, -, rfl⟩ := firstDivision_of_get? h hempty hget
  obtain ⟨-, nodes', -, rfl⟩ := firstDivision_of_get? h hempty hget'
  have hcollection : collection' = collection := by
    obtain ⟨index, -, rfl⟩ := List.mem_map.1 hmem
    obtain ⟨index', -, rfl⟩ := List.mem_map.1 hmem'
    exact (groupName_inj.1 hname).1
  subst hcollection
  have hnodup : ((a.firstDivision collection' nodes).map ChannelGroup.name).Nodup := by
    rw [firstDivision, divide, List.map_map]
    exact List.nodup_range.map fun _ _ hsame => (groupName_inj.1 hsame).2
  rw [← Option.some.inj (hget.symm.trans hget')] at hmem'
  exact List.inj_on_of_nodup_map hnodup hmem' hmem hname

/--
Whatever the stem is and whatever collections are asked about: all channels that are made
have different names, and all groups. So if the nodes of a cluster are given only groups
that have been made, an entry in the map of owners belongs to one group of one collection.
-/
theorem names_never_collide (hrun : Path Asks { perCollection, stem } calls a) :
    ((madeIn calls).flatMap ChannelGroup.channels).Nodup ∧
    ((madeIn calls).map ChannelGroup.name).Nodup ∧
    (∀ call ∈ calls, ∀ group ∈ call.made, group.collection = call.collection) ∧
    ∀ c requests d, c.registry = {} → Path Cluster.Happens c requests d →
      (∀ groups, some (.watch groups) ∈ requests → ∀ group ∈ groups, group ∈ madeIn calls) →
      ∀ name node, d.registry.ownerOf name = some node →
        ∃! group, group ∈ madeIn calls ∧ group.name = name := by
  have hnodup := nodup_groupNames_of_path hrun
  refine ⟨nodup_channels_of_path hrun, hnodup,
    fun call hmem group hgroup => collection_of_path hrun hmem hgroup, ?_⟩
  intro c requests d hstart hcluster hmade name node howner
  have hlisted : ∃ group ∈ madeIn calls, group.name = name := by
    by_contra hno
    -- A name that no group has is watched by nobody, since no request lists it.
    have hnone : d.registry.ownerOf name = none := by
      refine Cluster.ownerless_of_path hcluster (hstart ▸ Registry.aligned_empty)
        (hstart ▸ rfl) fun request hmem hwatched => ?_
      obtain ⟨group, hgroup, hname⟩ := List.mem_map.1 hwatched
      cases request with
      | watch groups => exact hno ⟨group, hmade groups hmem group hgroup, hname⟩
      | _ => cases hgroup
    cases howner.symm.trans hnone
  obtain ⟨group, hmem, hname⟩ := hlisted
  refine ⟨group, ⟨hmem, hname⟩, fun other ⟨hother, hsame⟩ => ?_⟩
  exact List.inj_on_of_nodup_map hnodup hother hmem (hsame.trans hname.symm)

/-- The stem ends like an identifier, and the identifiers start with each other. -/
def ambiguousLooking : List Call × Channels :=
  askAll [(⟨1⟩, 2), (⟨-1⟩, 1), (⟨11⟩, 2), (⟨1⟩, 5)] { perCollection := 2, stem := "1_-1" }

/-- Two nodes share the groups of three collections, and one of them leaves. -/
def sharedOut : List Cluster.Request :=
  [.register "first" ⟨1⟩, .register "second" ⟨2⟩, .watch (madeIn ambiguousLooking.1),
    .deregister ⟨1⟩]

/-- The names differ all the same, and the owner of a group is that of one group. -/
theorem names_never_collide_ambiguous :
    (madeIn ambiguousLooking.1).flatMap ChannelGroup.channels =
      ["1_-11_0", "1_-11_1", "1_-1-1_0", "1_-1-1_1", "1_-111_0", "1_-111_1"] ∧
    ((madeIn ambiguousLooking.1).flatMap ChannelGroup.channels).Nodup ∧
    (Cluster.performAll sharedOut {}).registry.ownerOf "11-group-0" = some ⟨2⟩ ∧
    ∃! group, group ∈ madeIn ambiguousLooking.1 ∧ group.name = "11-group-0" := by
  have hrun : Path Asks { perCollection := 2, stem := "1_-1" } ambiguousLooking.1
      ambiguousLooking.2 := path_askAll _ _
  have howner : (Cluster.performAll sharedOut {}).registry.ownerOf "11-group-0" = some ⟨2⟩ := by
    decide +kernel
  have hmade : ∀ groups, some (.watch groups) ∈ sharedOut.map some →
      ∀ group ∈ groups, group ∈ madeIn ambiguousLooking.1 := by
    intro groups hmem group hgroup
    simp only [sharedOut, List.map_cons, List.map_nil, List.mem_cons, Option.some.injEq,
      Cluster.Request.watch.injEq, reduceCtorEq, List.not_mem_nil, false_or, or_false] at hmem
    exact hmem ▸ hgroup
  obtain ⟨hchannels, -, -, howners⟩ := names_never_collide hrun
  exact ⟨by decide +kernel, hchannels, howner,
    howners _ _ _ rfl (Cluster.path_performAll sharedOut {}) hmade _ _ howner⟩

end IngestCoordinator.Channels
