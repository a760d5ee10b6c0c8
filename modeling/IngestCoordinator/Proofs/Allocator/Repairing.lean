-- SUMMARY: What recovery makes of every record, wherever it stops and in whatever order it goes.
import IngestCoordinator.Proofs.Allocator.Newest
import Mathlib.Data.Set.Card

/-!
# Repairing the records

A growing segment that is neither superseded nor the newest of its key is outdated.
Recovery supersedes outdated segments, one after another, and changes nothing else.
Superseding some of them leaves every key its newest segment, so what is outdated later
is what was outdated before and has not been superseded yet: a repair that is begun
again ends where it would have ended the first time.
-/

namespace IngestCoordinator

open Operation

/-- The segment, superseded. -/
def Segment.asSuperseded (segment : Segment) : Segment :=
  { segment with superseded := true }

/-- The segment grows and is not superseded, but it is not the newest of its key. -/
structure Segments.Outdated (segments : Segments) (id : SegmentId) (segment : Segment) : Prop where
  stored : segments.get? id = some segment
  growing : segment.state = .growing
  opened : segment.superseded = false
  older : ¬ segments.Newest segment.key id

namespace Allocator

variable {a b c : Allocator} {key : SegmentKey} {id : SegmentId} {segment : Segment}
  {bound : Timestamp}

/-- What the backend holds of a segment. -/
def cell? (a : Allocator) (id : SegmentId) : Option Cell :=
  a.store.metadata.backend.entries.get? (a.store.metadata.root.segment id)

/-! ## Repaired in part, and repaired -/

/-- A segment is as it was, in memory and in the backend. -/
structure LeftAlone (id : SegmentId) (a b : Allocator) : Prop where
  stored : b.segments.get? id = a.segments.get? id
  cell : b.cell? id = a.cell? id

/-- A segment was outdated and has been superseded, in memory and in the backend. -/
structure Replaced (id : SegmentId) (segment : Segment) (a b : Allocator) : Prop where
  outdated : a.segments.Outdated id segment
  stored : b.segments.get? id = some segment.asSuperseded
  cell : b.cell? id = some (.bytes segment.asSuperseded.toJson.write)

/-- Some outdated segments have been superseded; all other segments are as they were. -/
def PartlyRepaired (a b : Allocator) : Prop :=
  ∀ id, LeftAlone id a b ∨ ∃ segment, Replaced id segment a b

/-- All outdated segments have been superseded; all other segments are as they were. -/
structure Repaired (a b : Allocator) : Prop where
  replaced : ∀ id segment, a.segments.Outdated id segment → Replaced id segment a b
  leftAlone : ∀ id, (∀ segment, ¬ a.segments.Outdated id segment) → LeftAlone id a b

theorem PartlyRepaired.of_same (hsegments : b.segments = a.segments)
    (hcells : ∀ id, b.cell? id = a.cell? id) : a.PartlyRepaired b :=
  fun id => .inl ⟨by rw [hsegments], hcells id⟩

theorem PartlyRepaired.refl (a : Allocator) : a.PartlyRepaired a :=
  .of_same rfl fun _ => rfl

theorem PartlyRepaired.numbered (h : a.PartlyRepaired b) (hnumbered : a.store.metadata.Numbered) :
    b.store.metadata.Numbered := by
  intro id segment hget
  rcases h id with hleft | ⟨old, hreplaced⟩
  · exact hnumbered id segment (hleft.stored.symm.trans hget)
  · cases hreplaced.stored.symm.trans hget
    exact hnumbered id old hreplaced.outdated.stored

/-! ## The newest segments stay -/

/-- Superseded or not, a segment grows under its key as it did. -/
theorem PartlyRepaired.exists_grows_iff (h : a.PartlyRepaired b) :
    (∃ segment, b.segments.Grows key id segment) ↔ ∃ segment, a.segments.Grows key id segment := by
  rcases h id with hleft | ⟨old, hreplaced⟩
  · constructor
    · rintro ⟨segment, hgrows⟩
      exact ⟨segment, hleft.stored.symm.trans hgrows.stored, hgrows.growing, hgrows.key⟩
    · rintro ⟨segment, hgrows⟩
      exact ⟨segment, hleft.stored.trans hgrows.stored, hgrows.growing, hgrows.key⟩
  · constructor
    · rintro ⟨segment, hgrows⟩
      cases hreplaced.stored.symm.trans hgrows.stored
      exact ⟨old, hreplaced.outdated.stored, hgrows.growing, hgrows.key⟩
    · rintro ⟨segment, hgrows⟩
      cases hreplaced.outdated.stored.symm.trans hgrows.stored
      exact ⟨old.asSuperseded, hreplaced.stored, hgrows.growing, hgrows.key⟩

/-- A segment that is not superseded has been left alone. -/
theorem PartlyRepaired.grows_before (h : a.PartlyRepaired b)
    (hgrows : b.segments.Grows key id segment) (hopen : segment.superseded = false) :
    a.segments.Grows key id segment := by
  rcases h id with hleft | ⟨old, hreplaced⟩
  · exact ⟨hleft.stored.symm.trans hgrows.stored, hgrows.growing, hgrows.key⟩
  · cases hreplaced.stored.symm.trans hgrows.stored
    cases hopen

theorem PartlyRepaired.newest (h : a.PartlyRepaired b) (hnewest : a.segments.Newest key id) :
    b.segments.Newest key id := by
  obtain ⟨segment, hgrows, hopen, hlast⟩ := hnewest
  rcases h id with hleft | ⟨old, hreplaced⟩
  · refine ⟨segment, ⟨hleft.stored.trans hgrows.stored, hgrows.growing, hgrows.key⟩, hopen, ?_⟩
    intro id' other hgrows' hopen'
    exact hlast id' other (h.grows_before hgrows' hopen') hopen'
  · cases hreplaced.outdated.stored.symm.trans hgrows.stored
    refine absurd ⟨segment, ?_, hopen, ?_⟩ hreplaced.outdated.older
    · exact ⟨hgrows.stored, hgrows.growing, rfl⟩
    · rw [hgrows.key]
      exact hlast

/-- Where outdated segments have been superseded, the newest of a key is the one that it was. -/
theorem PartlyRepaired.newest_iff (h : a.PartlyRepaired b)
    (hnumbered : a.store.metadata.Numbered) :
    b.segments.Newest key id ↔ a.segments.Newest key id := by
  refine ⟨fun hnewest => ?_, h.newest⟩
  -- There was a newest one before, it still is, and there is only one.
  obtain ⟨id', hnewest'⟩ : ∃ id', a.segments.Newest key id' := by
    obtain ⟨segment, hgrows, hopen, -⟩ := hnewest
    exact exists_newest hnumbered (h.grows_before hgrows hopen) hopen
  rw [hnewest.unique (h.numbered hnumbered) (h.newest hnewest')]
  exact hnewest'

theorem PartlyRepaired.outdated_before (h : a.PartlyRepaired b)
    (houtdated : b.segments.Outdated id segment) :
    a.segments.Outdated id segment := by
  obtain ⟨hstored, hgrowing, hopen, holder⟩ := houtdated
  have hgrows := h.grows_before ⟨hstored, hgrowing, rfl⟩ hopen
  exact ⟨hgrows.stored, hgrowing, hopen, fun hnewest => holder (h.newest hnewest)⟩

/-! ## One repair after another -/

theorem PartlyRepaired.trans (h : a.PartlyRepaired b) (h' : b.PartlyRepaired c) :
    a.PartlyRepaired c := by
  intro id
  rcases h' id with hleft' | ⟨segment, hreplaced'⟩
  · rcases h id with hleft | ⟨segment, hreplaced⟩
    · exact .inl ⟨hleft'.stored.trans hleft.stored, hleft'.cell.trans hleft.cell⟩
    · exact .inr ⟨segment, hreplaced.outdated, hleft'.stored.trans hreplaced.stored,
        hleft'.cell.trans hreplaced.cell⟩
  · have houtdated := h.outdated_before hreplaced'.outdated
    exact .inr ⟨segment, houtdated, hreplaced'.stored, hreplaced'.cell⟩

theorem Repaired.partlyRepaired (h : a.Repaired b) : a.PartlyRepaired b := by
  intro id
  by_cases houtdated : ∃ segment, a.segments.Outdated id segment
  · obtain ⟨segment, houtdated⟩ := houtdated
    exact .inr ⟨segment, h.replaced id segment houtdated⟩
  · exact .inl (h.leftAlone id fun segment hsegment => houtdated ⟨segment, hsegment⟩)

/-- A repair in part is complete if nothing is outdated any more. -/
theorem PartlyRepaired.repaired (h : a.PartlyRepaired b) (hnumbered : a.store.metadata.Numbered)
    (hnone : ∀ id segment, ¬ b.segments.Outdated id segment) : a.Repaired b where
  replaced id segment houtdated := by
    rcases h id with hleft | ⟨old, hreplaced⟩
    · refine absurd ⟨hleft.stored.trans houtdated.stored, houtdated.growing, houtdated.opened, ?_⟩
        (hnone id segment)
      exact fun hnewest => houtdated.older ((h.newest_iff hnumbered).1 hnewest)
    · cases hreplaced.outdated.stored.symm.trans houtdated.stored
      exact hreplaced
  leftAlone id houtdated := by
    rcases h id with hleft | ⟨old, hreplaced⟩
    · exact hleft
    · exact absurd hreplaced.outdated (houtdated old)

/-- Nothing is outdated after a repair. -/
theorem Repaired.not_outdated (h : a.Repaired b) : ¬ b.segments.Outdated id segment := by
  intro houtdated
  have hreplaced := h.replaced id segment (h.partlyRepaired.outdated_before houtdated)
  have hsame : segment.asSuperseded = segment :=
    Option.some_inj.1 (hreplaced.stored.symm.trans houtdated.stored)
  have hopen := houtdated.opened
  rw [← hsame] at hopen
  cases hopen

theorem PartlyRepaired.trans_repaired (h : a.PartlyRepaired b) (h' : b.Repaired c)
    (hnumbered : a.store.metadata.Numbered) : a.Repaired c :=
  (h.trans h'.partlyRepaired).repaired hnumbered fun _ _ => h'.not_outdated

/-- There is one way to repair the records. -/
theorem Repaired.unique (h : a.Repaired b) (h' : a.Repaired c) :
    b.segments = c.segments ∧ ∀ id, b.cell? id = c.cell? id := by
  have hsame (id : SegmentId) :
      b.segments.get? id = c.segments.get? id ∧ b.cell? id = c.cell? id := by
    by_cases houtdated : ∃ segment, a.segments.Outdated id segment
    · obtain ⟨segment, houtdated⟩ := houtdated
      have hreplaced := h.replaced id segment houtdated
      have hreplaced' := h'.replaced id segment houtdated
      exact ⟨hreplaced.stored.trans hreplaced'.stored.symm,
        hreplaced.cell.trans hreplaced'.cell.symm⟩
    · have hnone (segment : Segment) : ¬ a.segments.Outdated id segment :=
        fun hsegment => houtdated ⟨segment, hsegment⟩
      have hleft := h.leftAlone id hnone
      have hleft' := h'.leftAlone id hnone
      exact ⟨hleft.stored.trans hleft'.stored.symm, hleft.cell.trans hleft'.cell.symm⟩
  exact ⟨SortedMap.ext_get? fun id => (hsame id).1, fun id => (hsame id).2⟩

/-- Segments that are sealed or flushed are never touched. -/
theorem PartlyRepaired.sealedBy_iff (h : a.PartlyRepaired b) :
    SealedBy bound b.segments ↔ SealedBy bound a.segments := by
  refine forall_congr' fun id => ?_
  rcases h id with hleft | ⟨old, hreplaced⟩
  · rw [hleft.stored]
  · have hgrowing : old.state.isImmutable = false := by
      rw [hreplaced.outdated.growing]
      rfl
    have hgrowing' : old.asSuperseded.state.isImmutable = false := hgrowing
    rw [hreplaced.stored, hreplaced.outdated.stored]
    simp [hgrowing, hgrowing']

/-! ## Steps of a recovery -/

/-- Nothing but segments, the index and the watermark is other than it was. -/
structure Spares (a b : Allocator) : Prop where
  root : b.store.metadata.root = a.store.metadata.root
  collections : b.store.metadata.records.collections = a.store.metadata.records.collections
  entries : ∀ key, (∀ id, key ≠ a.store.metadata.root.segment id) →
    b.store.metadata.backend.entries.get? key = a.store.metadata.backend.entries.get? key
  rest : b = { a with store.metadata := b.store.metadata, index := b.index, watermark := b.watermark }

/-- Some outdated segments have been superseded, and nothing else has been done. -/
structure Supersedings (a b : Allocator) : Prop where
  partly : a.PartlyRepaired b
  spares : a.Spares b
  index : b.index = a.index
  watermark : b.watermark = a.watermark

theorem Supersedings.refl (a : Allocator) : a.Supersedings a :=
  ⟨.refl a, ⟨rfl, rfl, fun _ _ => rfl, rfl⟩, rfl, rfl⟩

theorem Spares.trans (h : a.Spares b) (h' : b.Spares c) : a.Spares c where
  root := h'.root.trans h.root
  collections := h'.collections.trans h.collections
  entries key hother := by
    rw [h'.entries key (h.root ▸ hother), h.entries key hother]
  rest := by
    rw [h'.rest, h.rest]

theorem Untouched.partlyRepaired (h : a.Untouched b) : a.PartlyRepaired b := by
  refine .of_same h.segments fun id => ?_
  rw [cell?, h.metadata.entries, h.metadata.root]
  rfl

theorem Untouched.spares (h : a.Untouched b) : a.Spares b where
  root := h.metadata.root
  collections := by rw [h.metadata.records]
  entries _ _ := by rw [h.metadata.entries]
  rest := by
    rw [h.rest]

theorem Stored.leftAlone (h : Stored segment a b) (hne : id ≠ segment.id) : LeftAlone id a b where
  stored := by
    rw [h.segments, SortedMap.get?_insert, if_neg hne]
  cell := by
    have hkey : a.store.metadata.root.segment id ≠ a.store.metadata.root.segment segment.id :=
      fun heq => hne (Root.segment_inj.1 heq)
    rw [cell?, h.metadata.entries, h.metadata.root, SortedMap.get?_insert, if_neg hkey]
    rfl

theorem Stored.cell? (h : Stored segment a b) :
    b.cell? segment.id = some (.bytes segment.toJson.write) := by
  rw [Allocator.cell?, h.metadata.entries, h.metadata.root, SortedMap.get?_insert_self]

theorem Stored.spares (h : Stored segment a b) : a.Spares b where
  root := h.metadata.root
  collections := h.metadata.collections
  entries key hother := by
    rw [h.metadata.entries, SortedMap.get?_insert, if_neg (hother segment.id)]
  rest := by
    rw [h.rest]

/-- An outdated segment, superseded already or not, is superseded or stays as it is. -/
theorem preserves_supersede (houtdated : a.segments.Outdated id segment) :
    Preserves a.Supersedings (supersede id) := by
  intro b hb
  have hrest {c : Allocator} (hspares : b.Spares c) (hindex : c.index = b.index)
      (hwatermark : c.watermark = b.watermark) (hpartly : a.PartlyRepaired c) :
      a.Supersedings c :=
    ⟨hpartly, hb.spares.trans hspares, hindex.trans hb.index, hwatermark.trans hb.watermark⟩
  apply (ensures_update id Segment.supersede).imp
  · rintro updated c ⟨found, hget, hok, hid, hstored⟩
    have hupdated : updated = segment.asSuperseded := by
      have hfound : found = segment ∨ found = segment.asSuperseded := by
        rcases hb.partly id with hleft | ⟨old, hreplaced⟩
        · exact .inl (Option.some_inj.1 (hget.symm.trans (hleft.stored.trans houtdated.stored)))
        · cases hreplaced.outdated.stored.symm.trans houtdated.stored
          exact .inr (Option.some_inj.1 (hget.symm.trans hreplaced.stored))
      have hgrowing : found.state = .growing := by
        rcases hfound with rfl | rfl
        · exact houtdated.growing
        · exact houtdated.growing
      rcases Segment.supersede_eq_ok_iff.1 hok with ⟨-, heq⟩ | ⟨hno, -⟩
      · rcases hfound with rfl | rfl
        · exact heq
        · exact heq
      · exact absurd hgrowing hno
    subst hupdated
    refine hrest hstored.spares (by rw [hstored.rest]) (by rw [hstored.rest]) fun id' => ?_
    by_cases hne : id' = id
    · subst hne
      refine .inr ⟨segment, houtdated, ?_, ?_⟩
      · rw [hstored.segments, hid, SortedMap.get?_insert_self]
      · rw [← hid]
        exact hstored.cell?
    · have hleft' : LeftAlone id' b c := hstored.leftAlone (hid ▸ hne)
      rcases hb.partly id' with hleft | ⟨old, hreplaced⟩
      · exact .inl ⟨hleft'.stored.trans hleft.stored, hleft'.cell.trans hleft.cell⟩
      · exact .inr ⟨old, hreplaced.outdated, hleft'.stored.trans hreplaced.stored,
          hleft'.cell.trans hreplaced.cell⟩
  · rintro e c ⟨huntouched, -⟩
    exact hrest huntouched.spares (by rw [huntouched.rest]) (by rw [huntouched.rest])
      (hb.partly.trans huntouched.partlyRepaired)

/-- What is retired without being superseded yet is outdated. -/
theorem preserves_retireEach (entry : KeyEntry) (group : List Segment)
    (h : ∀ segment ∈ group, entry.target ≠ some segment.id → segment.superseded = false →
      a.segments.Outdated segment.id segment) :
    Preserves a.Supersedings (retireEach entry group) := by
  induction group generalizing entry with
  | nil => exact .pure _
  | cons segment rest ih =>
    obtain ⟨hsegment, hrest⟩ := List.forall_mem_cons.1 h
    rw [retireEach]
    split
    · exact ih entry hrest
    · rename_i htarget
      dsimp only
      split
      · rename_i hopen
        have houtdated := hsegment htarget (by simpa using hopen)
        exact (preserves_supersede houtdated).bind fun _ => ih _ hrest
      · exact ih _ hrest

theorem preserves_repair (groups : List (SegmentKey × List Segment))
    (h : ∀ key group, (key, group) ∈ groups → ∀ segment ∈ group,
      recoveredTarget group ≠ some segment.id → segment.superseded = false →
        a.segments.Outdated segment.id segment) :
    Preserves a.Supersedings (repair groups) := by
  induction groups with
  | nil => exact .pure _
  | cons first rest ih =>
    obtain ⟨key, group⟩ := first
    have hrest := ih fun key group hmem => h key group (List.mem_cons_of_mem _ hmem)
    have hgroup := preserves_retireEach { target := recoveredTarget group } group
      (h key group List.mem_cons_self)
    exact hgroup.bind fun _ => hrest.bind fun _ => .pure _

/-- All that a group lists but its target is outdated, or superseded. -/
theorem outdated_of_mem_group (hnumbered : a.store.metadata.Numbered) {group : List Segment}
    (hgroup : (growingByKey a.store.metadata.segments).get? key = some group)
    (hmem : segment ∈ group) (htarget : recoveredTarget group ≠ some segment.id)
    (hopen : segment.superseded = false) : a.segments.Outdated segment.id segment := by
  obtain ⟨hstored, hgrowing, hkey⟩ := (mem_group_iff_grows hnumbered hgroup).1 hmem
  refine ⟨hstored, hgrowing, hopen, fun hnewest => htarget ?_⟩
  rw [hkey] at hnewest
  exact (recoveredTarget_iff hnumbered hgroup).2 hnewest

end Allocator

end IngestCoordinator
