-- SUMMARY: What recovery makes of any store, and that it has nothing to do where all is in order.
import IngestCoordinator.Proofs.Allocator.Agreement

/-!
# Recovery

Whatever the stored segments are, a recovery that succeeds leaves the index in
agreement with them and the watermark past every sealing. One that fails leaves
index and watermark as they were. With writable records it cannot fail, and where
the index agreed already it writes nothing.
-/

namespace IngestCoordinator.Allocator

open Operation

variable {a b : Allocator} {key : SegmentKey} {id : SegmentId} {segment : Segment}

/-! ## Growing segments by key -/

theorem mem_group_foldl (segments : List Segment) (groups : SortedMap SegmentKey (List Segment)) :
    segment ∈ ((segments.foldl (fun (groups : SortedMap SegmentKey (List Segment)) segment =>
      groups.insert segment.key ((groups.get? segment.key).getD [] ++ [segment])) groups).get?
        key).getD [] ↔
      segment ∈ (groups.get? key).getD [] ∨ segment ∈ segments ∧ segment.key = key := by
  induction segments generalizing groups with
  | nil => simp
  | cons first segments ih =>
    rw [List.foldl_cons, ih, SortedMap.get?_insert]
    by_cases hkey : key = first.key
    · subst hkey
      rw [if_pos rfl, Option.getD_some, List.mem_append, List.mem_singleton, List.mem_cons]
      constructor
      · rintro ((h | rfl) | ⟨h, hk⟩)
        · exact .inl h
        · exact .inr ⟨.inl rfl, rfl⟩
        · exact .inr ⟨.inr h, hk⟩
      · rintro (h | ⟨rfl | h, hk⟩)
        · exact .inl (.inl h)
        · exact .inl (.inr rfl)
        · exact .inr ⟨h, hk⟩
    · simp only [if_neg hkey, List.mem_cons]
      refine or_congr Iff.rfl ⟨?_, ?_⟩
      · rintro ⟨h, hk⟩
        exact ⟨.inr h, hk⟩
      · rintro ⟨rfl | h, hk⟩
        · exact absurd hk.symm hkey
        · exact ⟨h, hk⟩

/-- The group of a key holds the growing segments of the key. -/
theorem mem_group_iff (segments : List Segment) :
    segment ∈ ((growingByKey segments).get? key).getD [] ↔
      segment ∈ segments ∧ segment.state = .growing ∧ segment.key = key := by
  have hfold := @mem_group_foldl key segment
    (segments.filter fun segment => segment.state == .growing) .empty
  unfold growingByKey
  rw [SortedMap.get?_map]
  cases hgroup : SortedMap.get? (List.foldl (fun (groups : SortedMap SegmentKey (List Segment))
    segment => groups.insert segment.key ((groups.get? segment.key).getD [] ++ [segment])) .empty
      (segments.filter fun segment => segment.state == .growing)) key with
  | none =>
    rw [hgroup] at hfold
    simpa [and_assoc] using hfold
  | some group =>
    rw [hgroup] at hfold
    simpa [and_assoc, List.mem_mergeSort] using hfold

theorem mem_group {segments : List Segment} {group : List Segment}
    (hgroup : (growingByKey segments).get? key = some group) :
    segment ∈ group ↔ segment ∈ segments ∧ segment.state = .growing ∧ segment.key = key := by
  rw [← mem_group_iff, hgroup, Option.getD_some]

/-- A target is recovered from the segments of its key that are not superseded. -/
theorem recoveredTarget_eq_some {group : List Segment} (h : recoveredTarget group = some id) :
    ∃ segment ∈ group, segment.superseded = false ∧ segment.id = id := by
  obtain ⟨segment, hfind, rfl⟩ := Option.map_eq_some_iff.1 h
  have hmem := List.mem_of_find?_eq_some hfind
  have hflag := List.find?_some hfind
  exact ⟨segment, List.mem_reverse.1 hmem, by simpa using hflag, rfl⟩

/-! ## Repairing a key -/

/-- The segments of a group all grow under the key, superseded if they were when listed. -/
def Lists (key : SegmentKey) (group : List Segment) (a : Allocator) : Prop :=
  ∀ segment ∈ group, ∃ superseded, a.segments.place? segment.id = some (key, superseded) ∧
    (segment.superseded = true → superseded = true)

/-- The segment is in the group and not its target. -/
def Retires (target : Option SegmentId) (group : List Segment) (id : SegmentId) : Prop :=
  (∃ segment ∈ group, segment.id = id) ∧ target ≠ some id

/-- Segments have been changed by writes that are no grants, and nothing else. -/
structure Repairs (a b : Allocator) : Prop where
  quiet : a.Quiet b
  index : b.index = a.index
  watermark : b.watermark = a.watermark
  numbered : a.store.metadata.Numbered → b.store.metadata.Numbered

theorem Repairs.refl (a : Allocator) : a.Repairs a :=
  ⟨.refl a, rfl, rfl, id⟩

theorem Repairs.trans {c : Allocator} (h : a.Repairs b) (h' : b.Repairs c) : a.Repairs c :=
  ⟨h.quiet.trans h'.quiet, h'.index.trans h.index, h'.watermark.trans h.watermark,
    h'.numbered ∘ h.numbered⟩

/-- A store whose segments are numbered and can be written. -/
def Repairable (a : Allocator) : Prop :=
  a.store.metadata.Numbered ∧ a.store.Writable

theorem Repairs.repairable (h : a.Repairs b) (hrepairable : a.Repairable) : b.Repairable :=
  ⟨h.numbered hrepairable.1, h.quiet.writable hrepairable.2⟩

/-- A superseded segment stands where it stood and takes no further rows. -/
theorem ensures_supersede {superseded : Bool}
    (hplace : a.segments.place? id = some (key, superseded)) : Ensures (supersede id) a
      (fun _ b => a.Repairs b ∧ b.segments.place? id = some (key, true) ∧
        ∀ id', id' ≠ id → b.segments.place? id' = a.segments.place? id')
      (fun _ b => a.Repairs b ∧ ¬ a.Repairable) := by
  obtain ⟨segment, hget, hkey, hgrowing, _⟩ := Segments.place?_eq_some_iff.1 hplace
  refine ((ensures_update id _).and (@quietly_supersede 0 id a UInt64.zero_le)).imp
    (fun updated b hb => ?_) fun _ b hb => ⟨?_, fun hrepairable => ?_⟩
  · obtain ⟨⟨segment', hget', hok, hid, hstored⟩, hquiet⟩ := hb
    cases hget.symm.trans hget'
    refine ⟨⟨hquiet, by rw [hstored.rest], by rw [hstored.rest], hstored.metadata.numbered⟩, ?_,
      fun id' hne => ?_⟩
    · rcases Segment.supersede_eq_ok_iff.1 hok with ⟨_, rfl⟩ | ⟨hno, _⟩
      · rw [hstored.segments, Segments.place?_insert, if_pos hid.symm, if_pos hgrowing, ← hkey]
        rfl
      · exact absurd hgrowing hno
    · rw [hstored.segments]
      exact place?_of_ne hid hne
  · exact ⟨hb.2, by rw [hb.1.1.rest], by rw [hb.1.1.rest], hb.1.1.metadata.numbered⟩
  · have hok : segment.supersede = .ok { segment with superseded := true } :=
      Segment.supersede_eq_ok_iff.2 (.inl ⟨hgrowing, rfl⟩)
    have hid : segment.id = id := hrepairable.1 id segment hget
    exact hb.1.2 segment _ hget hok hid hrepairable.2

theorem retires_cons {target : Option SegmentId} {rest : List Segment} :
    Retires target (segment :: rest) id ↔
      target ≠ some id ∧ segment.id = id ∨ Retires target rest id := by
  simp only [Retires, List.exists_mem_cons_iff]
  tauto

/-- Every segment of a group but its target is superseded and among the retired. -/
structure RetiresEach (key : SegmentKey) (group : List Segment) (entry entry' : KeyEntry)
    (a b : Allocator) : Prop where
  repairs : a.Repairs b
  target : entry'.target = entry.target
  retired : ∀ id, entry'.retired.contains id = true ↔
    entry.retired.contains id = true ∨ Retires entry.target group id
  moved : ∀ id, Retires entry.target group id → b.segments.place? id = some (key, true)
  kept : ∀ id, ¬ Retires entry.target group id → b.segments.place? id = a.segments.place? id

theorem RetiresEach.nil (key : SegmentKey) (entry : KeyEntry) (a : Allocator) :
    RetiresEach key [] entry entry a a where
  repairs := .refl a
  target := rfl
  retired id := by simp [Retires]
  moved id h := by simp [Retires] at h
  kept _ _ := rfl

theorem RetiresEach.skip {entry entry' : KeyEntry} {rest : List Segment}
    (h : RetiresEach key rest entry entry' a b) (htarget : entry.target = some segment.id) :
    RetiresEach key (segment :: rest) entry entry' a b := by
  have hsame (id : SegmentId) :
      Retires entry.target (segment :: rest) id ↔ Retires entry.target rest id := by
    rw [retires_cons]
    refine or_iff_right ?_
    rintro ⟨hne, rfl⟩
    exact hne htarget
  exact ⟨h.repairs, h.target, fun id => by rw [hsame, h.retired], fun id hid =>
    h.moved id ((hsame id).1 hid), fun id hid => h.kept id fun hid' => hid ((hsame id).2 hid')⟩

/-- A segment is superseded and retired first, and then the rest of its group. -/
theorem RetiresEach.cons {c : Allocator} {entry entry' : KeyEntry} {rest : List Segment}
    (hrepairs : a.Repairs b) (hown : b.segments.place? segment.id = some (key, true))
    (hother : ∀ id, id ≠ segment.id → b.segments.place? id = a.segments.place? id)
    (htarget : entry.target ≠ some segment.id)
    (h : RetiresEach key rest { entry with retired := SortedSet.add entry.retired segment.id }
      entry' b c) : RetiresEach key (segment :: rest) entry entry' a c where
  repairs := hrepairs.trans h.repairs
  target := h.target
  retired id := by
    rw [h.retired, SortedSet.contains_add, retires_cons, Bool.or_eq_true, decide_eq_true_eq]
    constructor
    · rintro ((rfl | hid) | hid)
      · exact .inr (.inl ⟨htarget, rfl⟩)
      · exact .inl hid
      · exact .inr (.inr hid)
    · rintro (hid | ⟨_, rfl⟩ | hid)
      · exact .inl (.inr hid)
      · exact .inl (.inl rfl)
      · exact .inr hid
  moved id hid := by
    by_cases hrest : Retires entry.target rest id
    · exact h.moved id hrest
    · rcases retires_cons.1 hid with ⟨_, rfl⟩ | hid
      · rw [h.kept _ hrest, hown]
      · exact absurd hid hrest
  kept id hid := by
    have hrest : ¬ Retires entry.target rest id := fun h => hid (retires_cons.2 (.inr h))
    have hne : id ≠ segment.id := by
      rintro rfl
      exact hid (retires_cons.2 (.inl ⟨htarget, rfl⟩))
    rw [h.kept id hrest, hother id hne]

theorem Lists.after {rest : List Segment} (h : Lists key rest a)
    (hown : b.segments.place? id = some (key, true))
    (hother : ∀ id', id' ≠ id → b.segments.place? id' = a.segments.place? id') :
    Lists key rest b := by
  intro segment hmem
  by_cases hid : segment.id = id
  · exact ⟨true, hid ▸ hown, fun _ => rfl⟩
  · rw [hother _ hid]
    exact h segment hmem

theorem ensures_retireEach (entry : KeyEntry) (group : List Segment) (h : Lists key group a) :
    Ensures (retireEach entry group) a (fun entry' b => RetiresEach key group entry entry' a b)
      (fun _ b => a.Repairs b ∧ ¬ a.Repairable) := by
  induction group generalizing entry a with
  | nil => exact .nil key entry a
  | cons segment rest ih =>
    obtain ⟨⟨superseded, hplace, hflag⟩, hrest⟩ := List.forall_mem_cons.1 h
    rw [retireEach]
    split
    · rename_i htarget
      exact (ih entry hrest).imp (fun _ _ hb => hb.skip htarget) fun _ _ hb => hb
    · rename_i htarget
      dsimp only
      split
      · rw [ensures_bind]
        refine (ensures_supersede hplace).imp (fun _ b hb => ?_) fun _ _ hb => hb
        obtain ⟨hrepairs, hown, hother⟩ := hb
        refine (ih _ (Lists.after hrest hown hother)).imp
          (fun _ _ hc => .cons hrepairs hown hother htarget hc) fun _ _ hc => ?_
        exact ⟨hrepairs.trans hc.1, fun hrepairable => hc.2 (hrepairs.repairable hrepairable)⟩
      · rename_i hdone
        have hsuperseded : superseded = true := hflag (by simpa using hdone)
        have hown : a.segments.place? segment.id = some (key, true) := hsuperseded ▸ hplace
        exact (ih _ hrest).imp (fun _ _ hc => .cons (.refl a) hown (fun _ _ => rfl) htarget hc)
          fun _ _ hc => hc

/-! ## Repairing all keys -/

/-- A segment that a group lists does not grow under another key. -/
theorem Lists.not_retires {key' : SegmentKey} {group : List Segment} {superseded : Bool}
    {target : Option SegmentId} (h : Lists key group a)
    (hplace : a.segments.place? id = some (key', superseded)) (hne : key' ≠ key) :
    ¬ Retires target group id := by
  rintro ⟨⟨segment, hmem, rfl⟩, _⟩
  obtain ⟨_, hown, _⟩ := h segment hmem
  cases hplace.symm.trans hown
  exact hne rfl

/-- The groups have been repaired, and the index names what is in them. -/
structure RepairsEach (groups : List (SegmentKey × List Segment)) (index : KeyIndex)
    (a b : Allocator) : Prop where
  repairs : a.Repairs b
  target : ∀ key id, index.target? key = some id ↔
    ∃ group, (key, group) ∈ groups ∧ recoveredTarget group = some id
  retired : ∀ key id, id ∈ index.retired key ↔
    ∃ group, (key, group) ∈ groups ∧ Retires (recoveredTarget group) group id
  tracked : ∀ key, index.contains key = true ↔ ∃ group, (key, group) ∈ groups
  moved : ∀ key group id, (key, group) ∈ groups → Retires (recoveredTarget group) group id →
    b.segments.place? id = some (key, true)
  kept : ∀ id, (∀ key group, (key, group) ∈ groups → ¬ Retires (recoveredTarget group) group id) →
    b.segments.place? id = a.segments.place? id

/-- The order of the groups does not matter to what has been done. -/
theorem RepairsEach.of_perm {groups groups' : List (SegmentKey × List Segment)} {index : KeyIndex}
    (h : RepairsEach groups index a b) (hperm : groups.Perm groups') :
    RepairsEach groups' index a b := by
  obtain ⟨hrepairs, htarget, hretired, htracked, hmoved, hkept⟩ := h
  simp only [hperm.mem_iff] at htarget hretired htracked hmoved hkept
  exact ⟨hrepairs, htarget, hretired, htracked, hmoved, hkept⟩

/-- A segment has been retired with its group, or stands where it stood. -/
theorem RepairsEach.place? {groups : List (SegmentKey × List Segment)} {index : KeyIndex}
    (h : RepairsEach groups index a b) (id : SegmentId) :
    (∃ key group, (key, group) ∈ groups ∧ Retires (recoveredTarget group) group id ∧
      b.segments.place? id = some (key, true)) ∨
    (∀ key group, (key, group) ∈ groups → ¬ Retires (recoveredTarget group) group id) ∧
      b.segments.place? id = a.segments.place? id := by
  by_cases hretired : ∃ key group, (key, group) ∈ groups ∧ Retires (recoveredTarget group) group id
  · obtain ⟨key, group, hmem, hretires⟩ := hretired
    exact .inl ⟨key, group, hmem, hretires, h.moved key group id hmem hretires⟩
  · have hno : ∀ key group, (key, group) ∈ groups → ¬ Retires (recoveredTarget group) group id :=
      fun key group hmem hretires => hretired ⟨key, group, hmem, hretires⟩
    exact .inr ⟨hno, h.kept id hno⟩

theorem RepairsEach.nil (a : Allocator) : RepairsEach [] .empty a a where
  repairs := .refl a
  target key id := by simp [KeyIndex.target?]
  retired key id := by simp [KeyIndex.retired]
  tracked key := by simp [SortedMap.contains]
  moved key group id h := by cases h
  kept _ _ := rfl

/-- Where keys are distinct a key has its own group only, and every other is one of the rest. -/
theorem mem_groups_cons_iff {key' : SegmentKey} {group group' : List Segment}
    {rest : List (SegmentKey × List Segment)} (hfresh : key ∉ rest.map (·.1)) :
    (key', group') ∈ (key, group) :: rest ↔
      if key' = key then group' = group else (key', group') ∈ rest := by
  by_cases hkey : key' = key
  · subst hkey
    have hno : (key', group') ∉ rest := fun hmem => hfresh (List.mem_map.2 ⟨_, hmem, rfl⟩)
    simp [hno]
  · simp [hkey]

theorem RepairsEach.cons {c : Allocator} {group : List Segment} {entry : KeyEntry}
    {rest : List (SegmentKey × List Segment)} {index : KeyIndex} (hfresh : key ∉ rest.map (·.1))
    (hrest : ∀ key group, (key, group) ∈ rest → Lists key group b)
    (hfirst : RetiresEach key group { target := recoveredTarget group } entry a b)
    (h : RepairsEach rest index b c) :
    RepairsEach ((key, group) :: rest) (index.insert key entry) a c where
  repairs := hfirst.repairs.trans h.repairs
  target key' id := by
    simp only [KeyIndex.target?_insert, mem_groups_cons_iff hfresh]
    by_cases hkey : key' = key
    · simp [hkey, hfirst.target]
    · simp [hkey, h.target]
  retired key' id := by
    rw [KeyIndex.mem_retired_insert]
    simp only [mem_groups_cons_iff hfresh]
    by_cases hkey : key' = key
    · have hnone : (SortedMap.empty : SortedMap SegmentId Unit).contains id = false := rfl
      simp [hkey, hfirst.retired, hnone]
    · simp [hkey, h.retired]
  tracked key' := by
    have htracked := h.tracked key'
    simp only [SortedMap.contains, SortedMap.get?_insert, mem_groups_cons_iff hfresh] at htracked ⊢
    by_cases hkey : key' = key
    · simp [hkey]
    · simpa [hkey] using htracked
  moved key' group' id hmem hretires := by
    rcases List.mem_cons.1 hmem with heq | hmem
    · cases heq
      have hplace := hfirst.moved id hretires
      rw [h.kept id fun key' group' hmem => ?_, hplace]
      refine (hrest key' group' hmem).not_retires hplace fun hkey => ?_
      exact hfresh (List.mem_map.2 ⟨_, hmem, hkey.symm⟩)
    · exact h.moved key' group' id hmem hretires
  kept id hno := by
    rw [h.kept id fun key' group' hmem => hno key' group' (List.mem_cons_of_mem _ hmem)]
    exact hfirst.kept id (hno key group List.mem_cons_self)

theorem ensures_repair (groups : List (SegmentKey × List Segment))
    (hdistinct : (groups.map (·.1)).Nodup)
    (h : ∀ key group, (key, group) ∈ groups → Lists key group a) :
    Ensures (repair groups) a (fun index b => RepairsEach groups index a b)
      (fun _ b => a.Repairs b ∧ ¬ a.Repairable) := by
  induction groups generalizing a with
  | nil => exact .nil a
  | cons first rest ih =>
    obtain ⟨key, group⟩ := first
    obtain ⟨hfresh, hdistinct⟩ := List.nodup_cons.1 hdistinct
    have hgroup := h key group List.mem_cons_self
    rw [repair, ensures_bind]
    refine (ensures_retireEach _ group hgroup).imp (fun entry b hb => ?_) fun _ _ hb => hb
    -- Groups of other keys list other segments, which stand where they stood.
    have hrest : ∀ key group, (key, group) ∈ rest → Lists key group b := by
      intro key' group' hmem segment hsegment
      obtain ⟨superseded, hplace, hflag⟩ := h key' group' (List.mem_cons_of_mem _ hmem) segment hsegment
      have hne : key' ≠ key := fun heq => hfresh (List.mem_map.2 ⟨_, hmem, heq⟩)
      exact ⟨superseded, by rw [hb.kept _ (hgroup.not_retires hplace hne), hplace], hflag⟩
    simp only [ensures_bind, ensures_pure]
    refine (ih hdistinct hrest).imp (fun index c hc => .cons hfresh hrest hb hc)
      fun _ _ hc => ?_
    exact ⟨hb.repairs.trans hc.1, fun hrepairable => hc.2 (hb.repairs.repairable hrepairable)⟩

/-! ## Recovery -/

theorem mem_segments_iff (hnumbered : a.store.metadata.Numbered) :
    segment ∈ a.store.metadata.segments ↔ a.segments.get? segment.id = some segment := by
  rw [Metadata.segments, SortedMap.mem_values_iff]
  constructor
  · rintro ⟨id, hget⟩
    obtain rfl := hnumbered _ _ hget
    exact hget
  · intro hget
    exact ⟨segment.id, hget⟩

/-- The groups that recovery goes through list the segments as they are stored. -/
theorem lists_growingByKey (hnumbered : a.store.metadata.Numbered) {group : List Segment}
    (hgroup : (growingByKey a.store.metadata.segments).get? key = some group) :
    Lists key group a := by
  intro segment hmem
  obtain ⟨hstored, hgrowing, hkey⟩ := (mem_group hgroup).1 hmem
  have hget := (mem_segments_iff hnumbered).1 hstored
  exact ⟨segment.superseded, by rw [Segments.place?_of_get? hget, if_pos hgrowing, hkey], id⟩

/-- A growing segment is in the group of its key. -/
theorem exists_group (hnumbered : a.store.metadata.Numbered)
    (hget : a.segments.get? id = some segment) (hgrowing : segment.state = .growing)
    (hkey : segment.key = key) :
    ∃ group, (growingByKey a.store.metadata.segments).get? key = some group ∧ segment ∈ group := by
  obtain rfl := hnumbered _ _ hget
  have hmem := (@mem_group_iff key segment a.store.metadata.segments).2
    ⟨(mem_segments_iff hnumbered).2 hget, hgrowing, hkey⟩
  cases hgroup : (growingByKey a.store.metadata.segments).get? key with
  | none => simp [hgroup] at hmem
  | some group => exact ⟨group, rfl, by simpa [hgroup] using hmem⟩

theorem exists_group_of_place? (hnumbered : a.store.metadata.Numbered) {superseded : Bool}
    (hplace : a.segments.place? id = some (key, superseded)) :
    ∃ segment group, (growingByKey a.store.metadata.segments).get? key = some group ∧
      segment ∈ group ∧ segment.id = id := by
  obtain ⟨segment, hget, hkey, hgrowing, _⟩ := Segments.place?_eq_some_iff.1 hplace
  obtain ⟨group, hgroup, hmem⟩ := exists_group hnumbered hget hgrowing hkey
  exact ⟨segment, group, hgroup, hmem, hnumbered _ _ hget⟩

/-- The target of a group grows, and takes rows. -/
theorem place?_recoveredTarget (hnumbered : a.store.metadata.Numbered) {group : List Segment}
    (hgroup : (growingByKey a.store.metadata.segments).get? key = some group)
    (htarget : recoveredTarget group = some id) : a.segments.place? id = some (key, false) := by
  obtain ⟨segment, hmem, hflag, rfl⟩ := recoveredTarget_eq_some htarget
  obtain ⟨hstored, hgrowing, hkey⟩ := (mem_group hgroup).1 hmem
  have hget := (mem_segments_iff hnumbered).1 hstored
  rw [Segments.place?_of_get? hget, if_pos hgrowing, hkey, hflag]

/-- The index of the repaired groups agrees with the repaired segments. -/
theorem RepairsEach.agrees {index : KeyIndex} (hnumbered : a.store.metadata.Numbered)
    (h : RepairsEach (growingByKey a.store.metadata.segments).toList index a b) :
    index.Agrees b.segments := by
  refine KeyIndex.agrees_iff.2 fun key id => ?_
  have hplaced := h.place? id
  rw [h.target, h.retired]
  simp only [SortedMap.mem_toList_iff] at hplaced ⊢
  constructor
  · constructor
    · rintro ⟨group, hgroup, htarget⟩
      have hplace := place?_recoveredTarget hnumbered hgroup htarget
      rcases hplaced with ⟨key', group', hgroup', hretires, _⟩ | ⟨_, hstays⟩
      · -- The target of a group is not retired with it, and is in no other group.
        by_cases hne : key = key'
        · subst hne
          cases hgroup.symm.trans hgroup'
          exact absurd htarget hretires.2
        · exact absurd hretires ((lists_growingByKey hnumbered hgroup').not_retires hplace hne)
      · rw [hstays, hplace]
    · intro hplace
      rcases hplaced with ⟨_, _, _, _, hmoved⟩ | ⟨hno, hstays⟩
      · cases hplace.symm.trans hmoved
      · rw [hstays] at hplace
        obtain ⟨segment, group, hgroup, hmem, hid⟩ := exists_group_of_place? hnumbered hplace
        by_contra hnone
        exact hno key group hgroup ⟨⟨segment, hmem, hid⟩, fun ht => hnone ⟨group, hgroup, ht⟩⟩
  · constructor
    · rintro ⟨group, hgroup, hretires⟩
      exact h.moved key group id (SortedMap.mem_toList_iff.2 hgroup) hretires
    · intro hplace
      rcases hplaced with ⟨key', group', hgroup', hretires, hmoved⟩ | ⟨_, hstays⟩
      · cases hplace.symm.trans hmoved
        exact ⟨group', hgroup', hretires⟩
      · rw [hstays] at hplace
        obtain ⟨segment, group, hgroup, hmem, hid⟩ := exists_group_of_place? hnumbered hplace
        refine ⟨group, hgroup, ⟨segment, hmem, hid⟩, fun htarget => ?_⟩
        cases hplace.symm.trans (place?_recoveredTarget hnumbered hgroup htarget)

theorem le_foldl_max (segments : List Segment) (latest : Timestamp) :
    latest ≤ segments.foldl (fun latest segment => max latest segment.sealedTime) latest ∧
      ∀ segment ∈ segments, segment.sealedTime ≤
        segments.foldl (fun latest segment => max latest segment.sealedTime) latest := by
  induction segments generalizing latest with
  | nil => exact ⟨UInt64.le_refl _, by simp⟩
  | cons first segments ih =>
    obtain ⟨hlatest, hall⟩ := ih (max latest first.sealedTime)
    refine ⟨UInt64.le_trans (Word.le_max_left _ _) hlatest, ?_⟩
    exact List.forall_mem_cons.2 ⟨UInt64.le_trans (Word.le_max_right _ _) hlatest, hall⟩

theorem le_latestSealing {segments : List Segment} (hmem : segment ∈ segments)
    (hclosed : segment.state.isImmutable = true) :
    segment.sealedTime ≤ latestSealing segments :=
  (le_foldl_max _ 0).2 segment (List.mem_filter.2 ⟨hmem, hclosed⟩)

theorem foldl_max_le {bound : Timestamp} (segments : List Segment) (latest : Timestamp)
    (hlatest : latest ≤ bound) (h : ∀ segment ∈ segments, segment.sealedTime ≤ bound) :
    segments.foldl (fun latest segment => max latest segment.sealedTime) latest ≤ bound := by
  induction segments generalizing latest with
  | nil => exact hlatest
  | cons first segments ih =>
    obtain ⟨hfirst, hrest⟩ := List.forall_mem_cons.1 h
    exact ih (max latest first.sealedTime) (Word.max_le hlatest hfirst) hrest

/-- No segment has been sealed later than a bound that is past every sealing. -/
theorem latestSealing_le (hnumbered : a.store.metadata.Numbered) {bound : Timestamp}
    (h : SealedBy bound a.segments) : latestSealing a.store.metadata.segments ≤ bound := by
  refine foldl_max_le _ 0 UInt64.zero_le fun segment hmem => ?_
  obtain ⟨hstored, hclosed⟩ := List.mem_filter.1 hmem
  exact h segment.id segment ((mem_segments_iff hnumbered).1 hstored) hclosed

theorem sealedBy_latestSealing (hnumbered : a.store.metadata.Numbered) :
    SealedBy (latestSealing a.store.metadata.segments) a.segments := by
  intro id segment hget hclosed
  obtain rfl := hnumbered id segment hget
  exact le_latestSealing ((mem_segments_iff hnumbered).2 hget) hclosed

/-- What a successful recovery leaves behind, whatever was stored. -/
structure Recovered (a b : Allocator) : Prop where
  quiet : a.Quiet b
  consistent : b.Consistent
  sealing : SealedBy b.watermark b.segments

theorem Evolves.sealedBy {writes : List Write} {bound : Timestamp} (h : a.Evolves writes b)
    (hbefore : SealedBy bound a.segments) (hbound : b.watermark ≤ bound) :
    SealedBy bound b.segments :=
  h.history.sealedBy hbefore fun write hmem time htime =>
    UInt64.le_trans (h.sealing write hmem time htime) hbound

theorem Quiet.sealedBy {bound : Timestamp} (h : a.Quiet b) (hbefore : SealedBy bound a.segments)
    (hbound : b.watermark ≤ bound) : SealedBy bound b.segments :=
  h.choose_spec.1.sealedBy hbefore hbound

/-- Once all groups are repaired, the index is put in place and the watermark is raised. -/
theorem ensures_recover_iff (htruthful : a.store.Truthful) {done : Nat → Allocator → Prop}
    {failed : Error → Allocator → Prop} : Ensures recover a done failed ↔
      Ensures (repair (growingByKey a.store.metadata.segments).toList) a
        (fun index b => done index.size { b with
          index
          watermark := max b.watermark (latestSealing a.store.metadata.segments) }) failed := by
  simp [recover, htruthful.segments_eq]

/-- Recovery repairs any store, or it stops with index and watermark as they were. -/
theorem ensures_recover (htruthful : a.store.Truthful) (hcoherent : a.store.metadata.Coherent) :
    Ensures recover a (fun _ b => a.Recovered b) (fun _ b => a.Repairs b ∧ ¬ a.Repairable) := by
  rw [ensures_recover_iff htruthful]
  refine (ensures_repair _ (SortedMap.nodup_keys _) fun key group hmem =>
    lists_growingByKey hcoherent.toNumbered (SortedMap.mem_toList_iff.1 hmem)).imp (fun index b hb => ?_)
      fun _ _ hb => hb
  have hsealed : SealedBy (max b.watermark (latestSealing a.store.metadata.segments)) a.segments :=
    (sealedBy_latestSealing hcoherent.toNumbered).mono (Word.le_max_right _ _)
  have hraise : b.Quiet { b with
      index
      watermark := max b.watermark (latestSealing a.store.metadata.segments) } :=
    .of_eq rfl (Word.le_max_left _ _)
  have hagrees := hb.agrees hcoherent.toNumbered
  refine ⟨hb.repairs.quiet.trans hraise, ⟨?_, ?_, hagrees⟩, ?_⟩
  · exact hb.repairs.quiet.truthful htruthful
  · exact hb.repairs.quiet.coherent hcoherent
  · exact hb.repairs.quiet.sealedBy hsealed (Word.le_max_left _ _)

/-- Recovery raises the watermark to the latest sealing, and no further. -/
theorem ensures_recover_watermark (htruthful : a.store.Truthful)
    (hcoherent : a.store.metadata.Coherent) : Ensures recover a
      (fun _ b => b.watermark = max a.watermark (latestSealing a.store.metadata.segments))
      (fun _ b => b.watermark = a.watermark) := by
  rw [ensures_recover_iff htruthful]
  refine (ensures_repair _ (SortedMap.nodup_keys _) fun key group hmem =>
    lists_growingByKey hcoherent.toNumbered (SortedMap.mem_toList_iff.1 hmem)).imp (fun index b hb => ?_)
      fun _ _ hb => hb.1.watermark
  change max b.watermark _ = _
  rw [hb.repairs.watermark]

/-! ## Nothing to do -/

theorem ensures_retireEach_skip (entry : KeyEntry) (group : List Segment)
    (h : ∀ segment ∈ group, segment.superseded = false → entry.target = some segment.id) :
    Ensures (retireEach entry group) a (fun entry' b => b = a ∧ entry'.target = entry.target)
      (fun _ _ => False) := by
  induction group generalizing entry with
  | nil => exact ⟨rfl, rfl⟩
  | cons segment rest ih =>
    obtain ⟨hsegment, hrest⟩ := List.forall_mem_cons.1 h
    rw [retireEach]
    split
    · exact ih entry hrest
    · rename_i htarget
      have hdone : segment.superseded = true := by
        cases hflag : segment.superseded with
        | true => rfl
        | false => exact absurd (hsegment hflag) htarget
      dsimp only
      rw [if_neg (by simp [hdone])]
      exact ih _ hrest

theorem ensures_repair_skip (groups : List (SegmentKey × List Segment))
    (h : ∀ key group, (key, group) ∈ groups → ∀ segment ∈ group, segment.superseded = false →
      recoveredTarget group = some segment.id) :
    Ensures (repair groups) a (fun _ b => b = a) (fun _ _ => False) := by
  induction groups with
  | nil => exact rfl
  | cons first rest ih =>
    obtain ⟨key, group⟩ := first
    rw [repair, ensures_bind]
    refine (ensures_retireEach_skip _ group (h key group List.mem_cons_self)).imp
      (fun entry b hb => ?_) fun _ _ hb => hb
    obtain ⟨hb, _⟩ := hb
    subst b
    simp only [ensures_bind, ensures_pure]
    exact ih fun key group hmem => h key group (List.mem_cons_of_mem _ hmem)

/-- Where some index agrees already, recovery writes nothing and cannot fail. -/
theorem ensures_recover_of_agrees {index : KeyIndex} (htruthful : a.store.Truthful)
    (hcoherent : a.store.metadata.Coherent) (hagrees : index.Agrees a.segments) :
    Ensures recover a (fun _ b => b.Consistent ∧ b.store = a.store) (fun _ _ => False) := by
  -- Two segments of a key that are not superseded would both be its target.
  have honly : ∀ key group, (key, group) ∈ (growingByKey a.store.metadata.segments).toList →
      ∀ segment ∈ group, segment.superseded = false →
        recoveredTarget group = some segment.id := by
    intro key group hmem segment hsegment hflag
    have hgroup := SortedMap.mem_toList_iff.1 hmem
    have htarget {segment : Segment} (hsegment : segment ∈ group)
        (hflag : segment.superseded = false) : index.target? key = some segment.id := by
      obtain ⟨hstored, hgrowing, hkey⟩ := (mem_group hgroup).1 hsegment
      exact (hagrees.target key segment.id).2
        ⟨segment, (mem_segments_iff hcoherent.toNumbered).1 hstored, hkey, hgrowing, hflag⟩
    cases hrecovered : recoveredTarget group with
    | none =>
      have hnone := List.find?_eq_none.1 (Option.map_eq_none_iff.1 hrecovered) segment
        (List.mem_reverse.2 hsegment)
      simp [hflag] at hnone
    | some id =>
      obtain ⟨segment', hsegment', hflag', rfl⟩ := recoveredTarget_eq_some hrecovered
      exact (htarget hsegment' hflag').symm.trans (htarget hsegment hflag)
  have hskip : Ensures recover a (fun _ b => b.store = a.store) (fun _ _ => False) := by
    rw [ensures_recover_iff htruthful]
    refine (ensures_repair_skip _ honly).imp (fun index b hb => ?_) fun _ _ hb => hb
    subst b
    rfl
  exact ((ensures_recover htruthful hcoherent).and hskip).imp
    (fun _ b hb => ⟨hb.1.consistent, hb.2⟩) fun _ _ hb => hb.2

theorem Consistent.ensures_recover (h : a.Consistent) : Ensures recover a
    (fun _ b => b.Consistent ∧ b.store = a.store) (fun _ _ => False) :=
  ensures_recover_of_agrees h.truthful h.coherent h.agrees

end IngestCoordinator.Allocator
