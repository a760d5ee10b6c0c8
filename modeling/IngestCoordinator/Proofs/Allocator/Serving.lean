-- SUMMARY: Where nothing is refused, rows are granted on the target, or it has no room.
import IngestCoordinator.Proofs.Allocator.Runs

/-!
# Serving requests for rows

What a request for rows is granted depends on the target of its key alone, if calls are
not refused. If it has room, the rows that are wanted are granted on it from its next
offset on, or those that are left, and this is all that becomes of the records. If not,
nothing is drawn and nothing written.
-/

namespace IngestCoordinator

open Operation

/-- The segment of a grant, with the rows that are granted. -/
def Grant.rows (grant : Grant) : SegmentId × UInt64 × UInt64 :=
  (grant.segment, grant.offset, grant.count)

theorem Segment.grant_eq_ok {segment : Segment} (h : segment.isAllocatable = true)
    (count : UInt64) (expireTime : Timestamp) :
    segment.grant segment.nextOffset count expireTime = .ok { segment with
      nextOffset := segment.nextOffset + count
      lastExpireTime := max segment.lastExpireTime expireTime } :=
  grant_eq_ok_iff.2 ⟨rfl, h, rfl⟩

/-! ## Draws -/

namespace IdSource

/-- No identifier has been drawn, and draws are refused as before. -/
structure Keeps (source source' : IdSource) : Prop where
  nextId : source'.clock.nextId = source.clock.nextId
  rejecting : source'.rejecting = source.rejecting

theorem ensures_drawId {source : IdSource} (h : source.rejecting = false) : Ensures drawId source
    (fun id source' => id = source.clock.nextId ∧
      source' = { source with clock := source.clock.drawId.2 })
    (fun _ _ => False) := by
  simp only [drawId, ensures_bind, ensures_get, h]
  exact ⟨rfl, rfl⟩

theorem ensures_drawTimestamp {source : IdSource} : Ensures drawTimestamp source
    (fun _ source' => source.rejecting = false ∧ source.Keeps source')
    (fun e _ => source.rejecting = true ∧ e = .storeUnavailable .idsRejected) := by
  simp only [drawTimestamp, ensures_bind, ensures_get]
  cases hrejecting : source.rejecting with
  | true => exact ⟨rfl, rfl⟩
  | false =>
    cases source.foretold with
    | nil => exact ⟨rfl, rfl, hrejecting.symm⟩
    | cons timestamp foretold => exact ⟨rfl, rfl, hrejecting.symm⟩

end IdSource

namespace Allocator

variable {a b c : Allocator} {key : SegmentKey} {target segment : Segment} {wanted : UInt64}

/-! ## What can be refused -/

/-- The collections, and which calls are refused, are the same as before. -/
structure SameConditions (a b : Allocator) : Prop where
  collections : b.store.metadata.records.collections = a.store.metadata.records.collections
  faults : b.store.faults = a.store.faults
  healthy : a.store.metadata.backend.Healthy → b.store.metadata.backend.Healthy
  rejecting : b.ids.rejecting = a.ids.rejecting

theorem SameConditions.refl (a : Allocator) : a.SameConditions a :=
  ⟨rfl, rfl, id, rfl⟩

theorem SameConditions.trans (h : a.SameConditions b) (h' : b.SameConditions c) :
    a.SameConditions c where
  collections := h'.collections.trans h.collections
  faults := h'.faults.trans h.faults
  healthy := h'.healthy ∘ h.healthy
  rejecting := h'.rejecting.trans h.rejecting

/-- Neither the index nor the metrics count. -/
theorem SameConditions.of_eq (h : a.SameConditions b) (hstore : c.store = b.store)
    (hids : c.ids = b.ids) : a.SameConditions c where
  collections := hstore ▸ h.collections
  faults := hstore ▸ h.faults
  healthy := hstore ▸ h.healthy
  rejecting := hids ▸ h.rejecting

theorem SameConditions.writable (h : a.SameConditions b) (hwritable : a.store.Writable) :
    b.store.Writable where
  healthy := h.healthy hwritable.healthy
  update := by
    rw [h.faults]
    exact hwritable.update

theorem Stored.sameConditions (h : Stored segment a b) : a.SameConditions b where
  collections := h.metadata.collections
  faults := by rw [h.rest]
  healthy := h.metadata.healthy
  rejecting := by rw [h.rest]

theorem sameConditions_ids {ids : IdSource} (h : ids.rejecting = a.ids.rejecting) :
    a.SameConditions { a with ids } :=
  ⟨rfl, rfl, id, h⟩

/-! ## Room for rows -/

/-- The target of a key, if rows can be granted on it. -/
def room? (a : Allocator) (key : SegmentKey) : Option Segment :=
  (a.index.target? key).bind fun id => (a.segments.get? id).filter Segment.isAllocatable

theorem room?_congr (hindex : b.index = a.index) (hsegments : b.segments = a.segments)
    (key : SegmentKey) : b.room? key = a.room? key := by
  rw [room?, room?, hindex, hsegments]

theorem ensures_openTarget?_iff {done : Option Segment → Allocator → Prop}
    {failed : Error → Allocator → Prop} (h : a.store.Truthful) :
    Ensures (openTarget? key) a done failed ↔ done (a.room? key) a := by
  simp only [openTarget?, room?, ensures_bind, ensures_get]
  cases a.index.target? key with
  | none => rfl
  | some id =>
    simp only [ensures_bind, ensures_segment?_iff h, ensures_pure, Option.bind_some]

theorem room?_eq_some (h : a.Sound) (hroom : a.room? key = some target) :
    a.segments.get? target.id = some target ∧ target.isAllocatable = true := by
  obtain ⟨id, -, hfound⟩ := Option.bind_eq_some_iff.1 hroom
  obtain ⟨hget, hallocatable⟩ := Option.filter_eq_some_iff.1 hfound
  obtain rfl := h.coherent.numbered hget
  exact ⟨hget, hallocatable⟩

/-! ## Grants -/

/-- The rows of a segment that are wanted or left are granted; nothing else is written. -/
structure Served (wanted : UInt64) (target : Segment) (grant : Grant) (a b : Allocator) : Prop where
  rows : grant.rows = (target.id, target.nextOffset, min wanted target.remaining)
  segments : b.segments = a.segments.insert target.id { target with
    nextOffset := target.nextOffset + grant.count
    lastExpireTime := max target.lastExpireTime grant.expireTime }
  index : b.index = a.index
  ids : a.ids.Keeps b.ids
  conditions : a.SameConditions b

theorem ensures_alloc_zero (key : SegmentKey) : Ensures (alloc key 0) a (fun _ _ => False)
    (fun e b => e = .invalidArgument .rowCountNotPositive ∧ b = a) :=
  ⟨rfl, rfl⟩

/-- Without room a request for rows is counted and refused. -/
theorem ensures_alloc_no_room (h : a.Sound) (hwanted : wanted ≠ 0) (hroom : a.room? key = none) :
    Ensures (alloc key wanted) a (fun _ _ => False)
      (fun e b => e = .noGrowingSegment key ∧
        b = { a with metrics.noSegment := a.metrics.noSegment + 1 }) := by
  simp only [alloc, if_neg hwanted, ensures_bind, ensures_openTarget?_iff h.truthful, hroom]
  exact ⟨rfl, rfl⟩

/-- With room it is granted rows on the target, unless the draw of the timestamp is refused. -/
theorem ensures_alloc_room (h : a.Sound) (hwritable : a.store.Writable) (hwanted : wanted ≠ 0)
    (hroom : a.room? key = some target) : Ensures (alloc key wanted) a
      (fun grant b => a.ids.rejecting = false ∧ Served wanted target grant a b)
      (fun e _ => a.ids.rejecting = true ∧ e = .storeUnavailable .idsRejected) := by
  obtain ⟨hget, hallocatable⟩ := room?_eq_some h hroom
  simp only [alloc, if_neg hwanted, ensures_bind, ensures_openTarget?_iff h.truthful, hroom,
    ensures_get, ensures_pure, onIds, ensures_onPart, count, ensures_modify]
  apply IdSource.ensures_drawTimestamp.imp
  · rintro time ids ⟨hdraws, hkeeps⟩
    have hok := Segment.grant_eq_ok hallocatable (min wanted target.remaining)
      (time.addMs a.policy.grantLifetimeMs)
    apply (ensures_update target.id _).imp
    · rintro updated b ⟨stored, hget', hok', -, hstored⟩
      cases hget.symm.trans hget'
      cases hok.symm.trans hok'
      refine ⟨hdraws, rfl, hstored.segments, ?_, ?_, ?_⟩
      · change b.index = a.index
        rw [hstored.rest]
      · change a.ids.Keeps b.ids
        rw [hstored.rest]
        exact hkeeps
      · exact ((sameConditions_ids hkeeps.rejecting).trans hstored.sameConditions).of_eq rfl rfl
    · rintro e b ⟨-, hill⟩
      exact absurd hwritable (hill target _ hget hok rfl)
  · exact fun _ _ hrefused => hrefused

end Allocator

end IngestCoordinator
