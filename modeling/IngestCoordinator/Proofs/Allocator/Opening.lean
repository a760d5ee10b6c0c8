-- SUMMARY: Opening a segment where there is no room: the old target gives way, nothing else does.
import IngestCoordinator.Proofs.Allocator.Readiness
import IngestCoordinator.Proofs.Allocator.Serving

/-!
# Opening segments

A segment is added to a store that takes writes, and then opened. If its key has no
target with room, this succeeds: the old target, if there is one, is superseded, the new
segment begins to grow as the target, and every other record stays as it is.
-/

namespace IngestCoordinator

open Operation

/-- A store that takes writes takes a new segment of a collection that it holds. -/
theorem Metadata.ensures_addSegment_exact {m : Metadata} {segment : Segment}
    {collection : Collection} (hhealthy : m.backend.Healthy)
    (hcollection : m.collection? segment.collection = some collection)
    (habsent : m.segment? segment.id = none) :
    Ensures (addSegment segment) m (fun _ m' => m.Stored segment m') (fun _ _ => False) := by
  simp only [addSegment, ensures_bind, ensures_get, hcollection, habsent]
  apply (ensures_persistSegment segment).imp
  · exact fun _ _ hstored => hstored
  · exact fun _ _ hrefused => hrefused.2 hhealthy

namespace Allocator

variable {a b c : Allocator} {key : SegmentKey} {segment : Segment}

theorem ensures_addSegment_exact {collection : Collection}
    (hhealthy : a.store.metadata.backend.Healthy)
    (hcollection : a.store.metadata.collection? segment.collection = some collection)
    (habsent : a.segments.get? segment.id = none) :
    Ensures (onStore (GuardedStore.addSegment segment)) a (fun _ b => Stored segment a b)
      (fun _ _ => False) := by
  simp only [onStore, GuardedStore.addSegment, GuardedStore.onMetadata, ensures_onPart]
  apply (Metadata.ensures_addSegment_exact hhealthy hcollection habsent).imp
  · exact fun _ m hstored => ⟨hstored, rfl⟩
  · exact fun _ _ hfalse => hfalse

/-- The target with room is the one segment of the key that takes rows. -/
theorem room?_eq_some_iff (h : a.Consistent) :
    a.room? key = some segment ↔ a.segments.get? segment.id = some segment ∧
      segment.key = key ∧ segment.isAllocatable = true := by
  constructor
  · intro hroom
    obtain ⟨hget, hallocatable⟩ := room?_eq_some h.sound hroom
    obtain ⟨id, htarget, hfound⟩ := Option.bind_eq_some_iff.1 hroom
    obtain ⟨_, hget', hkey, -, -⟩ := (h.agrees.target key id).1 htarget
    cases hget'.symm.trans (Option.filter_eq_some_iff.1 hfound).1
    exact ⟨hget, hkey, hallocatable⟩
  · rintro ⟨hget, hkey, hallocatable⟩
    obtain ⟨hgrowing, hflag, -⟩ := Segment.isAllocatable_iff.1 hallocatable
    have htarget := (h.agrees.target key segment.id).2 ⟨segment, hget, hkey, hgrowing, hflag⟩
    simp [room?, htarget, hget, hallocatable, Option.filter]

theorem room?_eq_none (h : a.Consistent)
    (hno : ∀ id segment, a.segments.get? id = some segment → segment.key = key →
      segment.isAllocatable = false) : a.room? key = none := by
  refine Option.eq_none_iff_forall_ne_some.2 fun segment hroom => ?_
  obtain ⟨hget, hkey, hallocatable⟩ := (room?_eq_some_iff h).1 hroom
  cases (hno _ segment hget hkey).symm.trans hallocatable

/-- What a segment is once the target of the key has given way. -/
def yielding (a : Allocator) (key : SegmentKey) (id : SegmentId) (segment : Segment) : Segment :=
  if a.index.target? key = some id then { segment with superseded := true } else segment

/-- The target of the key, if there is one, has been superseded and retired. -/
structure Vacates (key : SegmentKey) (a b : Allocator) : Prop where
  segments : ∀ id, b.segments.get? id = (a.segments.get? id).map (a.yielding key id)
  consistent : b.Consistent
  ids : b.ids = a.ids
  conditions : a.SameConditions b

theorem Vacates.refl (h : a.Consistent) (hfree : a.index.target? key = none) : Vacates key a a where
  segments id := by
    have hself : a.yielding key id = fun segment => segment := by
      funext segment
      simp [yielding, hfree]
    rw [hself, Option.map_id']
  consistent := h
  ids := rfl
  conditions := .refl a

theorem Vacates.of_superseded (h : Stored { segment with superseded := true } a b)
    (htarget : a.index.target? key = some segment.id)
    (hget : a.segments.get? segment.id = some segment)
    (hconsistent : Consistent { b with index := b.index.retire key segment.id }) :
    Vacates key a { b with index := b.index.retire key segment.id } where
  segments id := by
    change b.segments.get? id = _
    rw [h.segments, SortedMap.get?_insert]
    split
    · rename_i heq
      obtain rfl : id = segment.id := heq
      rw [hget, Option.map_some, yielding, if_pos htarget]
    · rename_i hne
      have hself : a.yielding key id = fun segment => segment := by
        funext other
        refine if_neg fun htarget' => hne ?_
        exact Option.some.inj (htarget'.symm.trans htarget)
      rw [hself, Option.map_id']
  consistent := hconsistent
  ids := by
    change b.ids = a.ids
    rw [h.rest]
  conditions := h.sameConditions.of_eq rfl rfl

theorem ensures_retireTarget_exact (h : a.Consistent) (hwritable : a.store.Writable)
    (hroom : a.room? key = none) :
    Ensures (retireTarget key) a (fun _ b => Vacates key a b) (fun _ _ => False) := by
  simp only [retireTarget, ensures_bind, ensures_get]
  cases htarget : a.index.target? key with
  | none => exact .refl h htarget
  | some previous =>
    obtain ⟨target, hget, hkey, hgrowing, hflag⟩ := (h.agrees.target key previous).1 htarget
    obtain rfl := h.coherent.numbered hget
    have hfull : target.isAllocatable = false := by
      simpa [room?, htarget, hget] using hroom
    simp only [ensures_bind, ensures_segment?_iff h.truthful, hget, hfull, hgrowing, hflag,
      decide_true, Bool.not_false, Bool.and_self, Bool.false_eq_true, if_true, if_false]
    apply (ensures_supersede_exact h hwritable hget hkey hgrowing).imp
    · rintro _ b ⟨hconsistent, hstored⟩
      exact .of_superseded hstored htarget hget hconsistent
    · exact fun _ _ hfalse => hfalse

/-- The segment has become the target of its key, in place of the old one. -/
structure Opened (segment : Segment) (a b : Allocator) : Prop where
  target : b.index.target? segment.key = some segment.id
  segments : ∀ id, b.segments.get? id =
    if id = segment.id then some { segment with state := .growing, superseded := false }
    else (a.segments.get? id).map (a.yielding segment.key id)
  consistent : b.Consistent
  ids : b.ids = a.ids
  conditions : a.SameConditions b

theorem ensures_openSegment_exact (h : a.Consistent) (hwritable : a.store.Writable)
    (hget : a.segments.get? segment.id = some segment) (hnew : segment.state = .new)
    (hroom : a.room? segment.key = none) :
    Ensures (openSegment segment) a (fun _ b => Opened segment a b) (fun _ _ => False) := by
  have hgrow : segment.grow = .ok { segment with state := .growing, superseded := false } :=
    Segment.grow_eq_ok_iff.2 ⟨hnew, rfl⟩
  -- A new segment is no target, and stays as it is while the target gives way.
  have hother : a.yielding segment.key segment.id segment = segment := by
    apply if_neg
    intro htarget
    obtain ⟨target, hget', -, hgrowing, -⟩ := (h.agrees.target segment.key segment.id).1 htarget
    cases hget.symm.trans hget'
    cases hnew.symm.trans hgrowing
  have hkey (stored : Segment) (hstored : a.segments.get? segment.id = some stored) :
      stored.key = segment.key := by
    cases hget.symm.trans hstored
    rfl
  have hexact : Ensures (openSegment segment) a
      (fun _ b => b.Consistent → Opened segment a b) (fun _ _ => False) := by
    simp only [openSegment, ensures_bind, ensures_segment?_iff h.truthful, hget, hnew, ne_eq,
      not_true_eq_false, if_false]
    apply (ensures_retireTarget_exact h hwritable hroom).imp
    · intro _ b hvacates
      have hget' : b.segments.get? segment.id = some segment := by
        rw [hvacates.segments, hget, Option.map_some, hother]
      apply (ensures_update_exact hvacates.consistent (hvacates.conditions.writable hwritable) hget'
        hgrow rfl).imp
      · rintro _ d ⟨-, hstored⟩ hconsistent
        refine ⟨?_, fun id => ?_, hconsistent, ?_, ?_⟩
        · exact (KeyIndex.target?_setTarget ..).trans (if_pos rfl)
        · change d.segments.get? id = _
          rw [hstored.segments, SortedMap.get?_insert, hvacates.segments]
        · change d.ids = a.ids
          rw [← hvacates.ids, hstored.rest]
        · exact (hvacates.conditions.trans hstored.sameConditions).of_eq rfl rfl
      · exact fun _ _ hfalse => hfalse
    · exact fun _ _ hfalse => hfalse
  apply ((ensures_openSegment_consistent h hkey).and hexact).imp
  · exact fun _ b hboth => hboth.2 hboth.1
  · exact fun _ _ hboth => hboth.2

/-- A segment that has just been added is no target. -/
theorem Stored.room?_eq (h : Stored segment a b) (hconsistent : a.Consistent)
    (habsent : a.segments.get? segment.id = none) (key : SegmentKey) :
    b.room? key = a.room? key := by
  have hindex : b.index = a.index := by rw [h.rest]
  rw [room?, room?, hindex]
  cases htarget : a.index.target? key with
  | none => rfl
  | some id =>
    obtain ⟨target, hget, -⟩ := (hconsistent.agrees.target key id).1 htarget
    have hne : id ≠ segment.id := by
      rintro rfl
      cases habsent.symm.trans hget
    rw [Option.bind_some, Option.bind_some, h.segments, SortedMap.get?_insert, if_neg hne]

theorem Opened.of_added (h : Opened segment b c) (hstored : Stored segment a b) :
    Opened segment a c where
  target := h.target
  segments id := by
    have hindex : b.index = a.index := by rw [hstored.rest]
    have hyielding : b.yielding segment.key id = a.yielding segment.key id := by
      funext other
      rw [yielding, yielding, hindex]
    rw [h.segments, hyielding, hstored.segments, SortedMap.get?_insert]
    split
    · rfl
    · rfl
  consistent := h.consistent
  ids := h.ids.trans (by rw [hstored.rest])
  conditions := hstored.sameConditions.trans h.conditions

/-- A new segment is added and becomes the target of a key without room. -/
theorem ensures_addSegment_openSegment_exact {collection : Collection} (h : a.Consistent)
    (hwritable : a.store.Writable) (hfresh : segment.IsFresh)
    (hcollection : a.store.metadata.collection? segment.collection = some collection)
    (habsent : a.segments.get? segment.id = none) (hroom : a.room? segment.key = none) :
    Ensures (do
      onStore (GuardedStore.addSegment segment)
      openSegment segment) a (fun _ b => Opened segment a b) (fun _ _ => False) := by
  simp only [ensures_bind]
  apply ((ensures_addSegment_consistent hfresh h).and
    (ensures_addSegment_exact hwritable.healthy hcollection habsent)).imp
  · rintro _ b ⟨hconsistent, hstored⟩
    have hget : b.segments.get? segment.id = some segment := by
      rw [hstored.segments, SortedMap.get?_insert, if_pos rfl]
    have hnew : segment.state = .new := by
      rw [hfresh]
      rfl
    apply (ensures_openSegment_exact hconsistent (hstored.sameConditions.writable hwritable) hget
      hnew ((hstored.room?_eq h habsent _).trans hroom)).imp
    · exact fun _ c hopened => hopened.of_added hstored
    · exact fun _ _ hfalse => hfalse
  · exact fun _ _ hboth => hboth.2

/-! ## From a number to a target -/

/-- The next number went to a segment of the key, with this record; the old target gave way. -/
structure Opens (key : SegmentKey) (segment : Segment) (a b : Allocator) : Prop where
  numbered : segment.id = ⟨a.ids.clock.nextId⟩
  keyed : segment.key = key
  growing : segment.state = .growing
  absent : a.segments.get? segment.id = none
  segments : ∀ id, b.segments.get? id =
    if id = segment.id then some segment else (a.segments.get? id).map (a.yielding key id)
  target : b.index.target? key = some segment.id
  nextId : b.ids.clock.nextId = a.ids.clock.nextId + 1
  conditions : a.SameConditions b

/-- The metrics do not count. -/
theorem Opens.of_eq (h : Opens key segment a b) (hstore : c.store = a.store)
    (hindex : c.index = a.index) (hids : c.ids = a.ids) : Opens key segment c b := by
  cases a
  cases c
  cases hstore
  cases hindex
  cases hids
  exact ⟨h.numbered, h.keyed, h.growing, h.absent, h.segments, h.target, h.nextId,
    ⟨h.conditions.collections, h.conditions.faults, h.conditions.healthy, h.conditions.rejecting⟩⟩

theorem Opens.room? (h : Opens key segment a b) (hallocatable : segment.isAllocatable = true) :
    b.room? key = some segment := by
  simp [Allocator.room?, h.target, h.segments, hallocatable, Option.filter]

/-- Rows are granted on the segment that has just been opened. -/
theorem Opens.served {wanted : UInt64} {grant : Grant} (h : Opens key segment a b)
    (hserved : Served wanted segment grant b c) :
    Opens key { segment with
      nextOffset := segment.nextOffset + grant.count
      lastExpireTime := max segment.lastExpireTime grant.expireTime } a c where
  numbered := h.numbered
  keyed := h.keyed
  growing := h.growing
  absent := h.absent
  segments id := by
    rw [hserved.segments, SortedMap.get?_insert]
    split
    · rfl
    · rename_i hne
      exact (h.segments id).trans (if_neg hne)
  target := by
    rw [hserved.index]
    exact h.target
  nextId := hserved.ids.nextId.trans h.nextId
  conditions := h.conditions.trans hserved.conditions

/-- A number and a timestamp are drawn for a segment, and it is stored and opened. -/
theorem ensures_build {collection : Collection} (h : a.Consistent) (hwritable : a.store.Writable)
    (hdrawable : a.ids.rejecting = false)
    (hcollection : a.store.metadata.collection? key.collection = some collection)
    (habsent : a.segments.get? ⟨a.ids.clock.nextId⟩ = none) (hroom : a.room? key = none)
    (group : String) (node : Option NodeId) (capacity : UInt64) :
    Ensures (do
      let id ← onIds IdSource.drawId
      let openTime ← onIds IdSource.drawTimestamp
      onStore (GuardedStore.addSegment (.fresh ⟨id⟩ key group node capacity openTime))
      openSegment (.fresh ⟨id⟩ key group node capacity openTime)) a
      (fun _ b => ∃ segment, Opens key segment a b ∧ segment.superseded = false ∧
        segment.nextOffset = 0 ∧ segment.capacity = capacity)
      (fun _ _ => False) := by
  rw [ensures_bind, onIds, ensures_onPart]
  apply (IdSource.ensures_drawId hdrawable).imp
  case hfailed => exact fun _ _ hfalse => hfalse
  case hdone =>
    rintro id source ⟨rfl, rfl⟩
    rw [ensures_bind, onIds, ensures_onPart]
    apply IdSource.ensures_drawTimestamp.imp
    case hfailed =>
      rintro e source ⟨hrefused, -⟩
      cases hdrawable.symm.trans hrefused
    case hdone =>
      rintro openTime ids ⟨-, hkeeps⟩
      have hconsistent : Consistent { a with ids } := h.of_eq rfl rfl
      let segment := Segment.fresh ⟨a.ids.clock.nextId⟩ key group node capacity openTime
      have hfresh : segment.IsFresh := rfl
      apply (ensures_addSegment_openSegment_exact hconsistent hwritable hfresh hcollection habsent
        hroom).imp
      · intro _ b hopened
        refine ⟨{ segment with state := .growing, superseded := false }, ?_, rfl, rfl, rfl⟩
        refine ⟨rfl, rfl, rfl, habsent, hopened.segments, hopened.target, ?_, ?_⟩
        · rw [hopened.ids]
          exact hkeeps.nextId
        · have hdrawn : a.SameConditions { a with ids } := sameConditions_ids hkeeps.rejecting
          exact hdrawn.trans hopened.conditions
      · exact fun _ _ hfalse => hfalse

end Allocator

end IngestCoordinator
