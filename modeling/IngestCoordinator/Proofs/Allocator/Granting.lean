-- SUMMARY: What a request for rows does, and what calls to the store do on their own.
import IngestCoordinator.Proofs.Allocator.Quiet
import IngestCoordinator.Proofs.Store.Guarded

/-!
# Granting

A request for rows that is answered makes exactly the grant that it answers, of at
least one row and no more than were asked for or are left; one that fails makes
none. New segments are added as they were built, and collections do not count.
-/

namespace IngestCoordinator.Allocator

open Operation

variable {a b c : Allocator} {bound : Timestamp} {α : Type}

/-! ## Calls to the store -/

theorem writes_onStore {kind : Write → Prop} {call : Operation GuardedStore α}
    (h : ∀ store, Ensures call store (fun _ store' => store.KeepsSegments store')
      (fun _ store' => store.KeepsSegments store')) : Writes bound kind (onStore call) :=
  fun a _ => by
    have hwrote (store' : GuardedStore) (hkeeps : a.store.KeepsSegments store') :
        a.Wrote kind { a with store := store' } := by
      refine wrote_of_sameRecords hkeeps.metadata hkeeps.healthy ?_
      obtain ⟨metadata, faults⟩ := store'
      obtain rfl : faults = a.store.faults := hkeeps.faults
      rfl
    rw [onStore, ensures_onPart]
    exact (h a.store).imp (fun _ store' => hwrote store') fun _ store' => hwrote store'

theorem writes_addSegment {kind : Write → Prop} {segment : Segment} (hfresh : segment.IsFresh)
    (hadd : kind (.add segment)) :
    Writes bound kind (onStore (GuardedStore.addSegment segment)) := fun a _ => by
  rw [onStore, ensures_onPart, GuardedStore.addSegment, GuardedStore.onMetadata, ensures_onPart]
  refine (Metadata.ensures_addSegment segment).imp (fun _ m h => ?_) fun _ m h => ?_
  · obtain ⟨habsent, hstored⟩ := h
    have hstored : Stored segment a { a with store.metadata := m } := ⟨hstored, rfl⟩
    refine ⟨⟨[.add segment], hstored.evolves (.add hfresh habsent) (by simp [Write.sealTime?]), ?_⟩,
      rfl⟩
    exact List.forall_mem_singleton.2 hadd
  · exact Untouched.wrote ⟨h, rfl⟩

/-- A segment is added only if none of its number is stored. -/
theorem ensures_addSegment_absent (segment : Segment) :
    Ensures (onStore (GuardedStore.addSegment segment)) a
      (fun _ _ => a.segments.get? segment.id = none) (fun _ _ => True) := by
  rw [onStore, ensures_onPart, GuardedStore.addSegment, GuardedStore.onMetadata, ensures_onPart]
  exact (Metadata.ensures_addSegment segment).imp (fun _ _ h => h.1) fun _ _ _ => trivial

theorem quietly_onStore {call : Operation GuardedStore α}
    (h : ∀ store, Ensures call store (fun _ store' => store.KeepsSegments store')
      (fun _ store' => store.KeepsSegments store')) : Quietly bound (onStore call) :=
  Writes.quietly (writes_onStore h)

theorem quietly_addSegment {segment : Segment} (hfresh : segment.IsFresh) :
    Quietly bound (onStore (GuardedStore.addSegment segment)) :=
  Writes.quietly (writes_addSegment hfresh rfl)

theorem Quiet.truthful (h : a.Quiet b) (htruthful : a.store.Truthful) : b.store.Truthful := by
  have hfaults := h.choose_spec.1.faults
  exact ⟨hfaults ▸ htruthful.read, hfaults ▸ htruthful.hidden, hfaults ▸ htruthful.stale,
    hfaults ▸ htruthful.list⟩

/-- What a truthful store is asked for, it answers; nothing changes. -/
theorem ensures_segment?_iff {id : SegmentId} {done : Option Segment → Allocator → Prop}
    {failed : Error → Allocator → Prop} (h : a.store.Truthful) :
    Ensures (segment? id) a done failed ↔ done (a.segments.get? id) a := by
  simp only [segment?, ensures_bind, ensures_get, ensures_ofExcept, h.segment?_eq]
  simp [Metadata.segment?, segments]

/-! ## Requests for rows -/

theorem ensures_openTarget? (key : SegmentKey) (h : a.store.Truthful) :
    Ensures (openTarget? key) a
      (fun target b => b = a ∧ ∀ segment, target = some segment → ∃ id,
        a.index.target? key = some id ∧ a.segments.get? id = some segment ∧
          segment.isAllocatable = true)
      (fun _ _ => False) := by
  rw [openTarget?, ensures_bind, ensures_get]
  cases htarget : a.index.target? key with
  | none => exact ⟨rfl, fun _ h => nomatch h⟩
  | some id =>
    simp only [ensures_map, bind_pure_comp, ensures_segment?_iff h, true_and]
    intro segment hsome
    obtain ⟨hget, hallocatable⟩ := Option.filter_eq_some_iff.1 hsome
    exact ⟨id, rfl, hget, hallocatable⟩

/-- To look for a target changes nothing, whatever the store answers. -/
theorem ensures_openTarget?_same (key : SegmentKey) (a : Allocator) :
    Ensures (openTarget? key) a (fun _ b => b = a) (fun _ b => b = a) := by
  simp only [openTarget?, segment?, ensures_bind, ensures_get]
  cases a.index.target? key with
  | none => rfl
  | some id =>
    simp only [ensures_bind, ensures_get, ensures_ofExcept, ensures_pure, implies_true, and_self]

/-- The store has changed by the one grant, of what was wanted or less. -/
def Grants (wanted : UInt64) (grant : Grant) (a b : Allocator) : Prop :=
  ∃ writes, a.Evolves writes b ∧ grantsOf writes = [grant] ∧
    1 ≤ grant.count.toNat ∧ grant.count ≤ wanted

/-- The write that makes a grant. -/
def writeOf (grant : Grant) : Write :=
  .change grant.segment (.grant grant.offset grant.count grant.expireTime)

/-- The store has changed by the write of the one grant, and the watermark has not moved. -/
structure Granted (wanted : UInt64) (grant : Grant) (a b : Allocator) : Prop where
  evolves : a.Evolves [writeOf grant] b
  watermark : b.watermark = a.watermark
  nonempty : 1 ≤ grant.count.toNat
  most : grant.count ≤ wanted

theorem Granted.grants {wanted : UInt64} {grant : Grant} (h : a.Granted wanted grant b) :
    a.Grants wanted grant b :=
  ⟨_, h.evolves, rfl, h.nonempty, h.most⟩

theorem Granted.wrote {kind : Write → Prop} {wanted : UInt64} {grant : Grant}
    (h : a.Granted wanted grant b) (hkind : kind (writeOf grant)) : a.Wrote kind b :=
  ⟨⟨_, h.evolves, List.forall_mem_singleton.2 hkind⟩, h.watermark⟩

/-- What is not in the store and neither the watermark nor the cut-off does not count. -/
theorem Granted.of_eq {wanted : UInt64} {grant : Grant} {a' b' : Allocator}
    (h : a'.Granted wanted grant b') (hstore : a'.store = a.store)
    (hwatermark : a'.watermark = a.watermark) (hstore' : b.store = b'.store)
    (hwatermark' : b.watermark = b'.watermark)
    (hcutoff : a.cutoff ≤ a'.cutoff := by exact UInt64.le_refl _)
    (hcutoff' : b'.cutoff ≤ b.cutoff := by exact UInt64.le_refl _) : a.Granted wanted grant b where
  evolves := by
    have hbefore : a.Evolves [] a' := .of_eq hstore (hwatermark ▸ UInt64.le_refl _) hcutoff
    have hafter : b'.Evolves [] b := .of_eq hstore' (hwatermark' ▸ UInt64.le_refl _) hcutoff'
    exact (hbefore.trans h.evolves).trans hafter
  watermark := hwatermark'.trans (h.watermark.trans hwatermark)
  nonempty := h.nonempty
  most := h.most

/-- Writing the record that a grant makes of a target is that grant. -/
theorem Stored.granted {target updated : Segment} {granted wanted : UInt64} {expireTime : Timestamp}
    (h : Stored updated a b) (hget : a.segments.get? target.id = some target)
    (hok : target.grant target.nextOffset granted expireTime = .ok updated)
    (hid : updated.id = target.id) (hfits : 0 < granted ∧ granted ≤ target.remaining)
    (hwanted : granted ≤ wanted) :
    a.Granted wanted ⟨target.id, target.nextOffset, granted, expireTime⟩ b where
  evolves := by
    refine h.evolves ?_ fun _ h => nomatch h
    rw [hid]
    exact .change hget hok hfits
  watermark := by rw [h.rest]
  nonempty := UInt64.lt_iff_toNat_lt.1 hfits.1
  most := hwanted

/-- A request for rows makes the grant that it answers, and writes nothing if it fails. -/
theorem ensures_alloc_granted {kind : Write → Prop} (key : SegmentKey) (wanted : UInt64)
    (htruthful : a.store.Truthful) (hcoherent : a.store.metadata.Coherent) :
    Ensures (alloc key wanted) a (fun grant b => a.Granted wanted grant b)
      (fun _ b => a.Wrote kind b) := by
  rw [alloc]
  split
  · exact .refl a
  rename_i hwanted
  rw [ensures_bind]
  refine (ensures_openTarget? key htruthful).imp (fun target b h => ?_) fun _ _ h => h.elim
  obtain ⟨hb, htarget⟩ := h
  subst b
  cases target with
  | none =>
    change a.Wrote kind _
    exact .of_eq rfl rfl
  | some target =>
    obtain ⟨id, _, hget, hallocatable⟩ := htarget target rfl
    obtain rfl := hcoherent.numbered hget
    have hfits : 0 < min wanted target.remaining ∧ min wanted target.remaining ≤ target.remaining := by
      refine ⟨Word.lt_min ?_ (Segment.isAllocatable_iff.1 hallocatable).2.2, Word.min_le_right _ _⟩
      exact UInt64.pos_iff_ne_zero.2 hwanted
    have hids (ids : IdSource) : a.Wrote kind { a with ids } := .of_eq rfl rfl
    simp only [ensures_bind, ensures_get, ensures_pure]
    refine ensures_onIds.imp (fun time b h => ?_) fun _ b h => ?_
    · obtain ⟨ids, rfl⟩ := h
      refine (ensures_update target.id _).imp (fun updated b h => ?_)
        fun _ b h => (hids ids).trans h.1.wrote
      obtain ⟨segment, hsegment, hok, hid, hstored⟩ := h
      cases hget.symm.trans hsegment
      have hgranted := hstored.granted hget hok hid hfits (Word.min_le_left wanted _)
      exact hgranted.of_eq rfl rfl rfl rfl
    · obtain ⟨ids, rfl⟩ := h
      exact hids ids

theorem ensures_alloc (key : SegmentKey) (wanted : UInt64) (htruthful : a.store.Truthful)
    (hcoherent : a.store.metadata.Coherent) : Ensures (alloc key wanted) a
      (fun grant b => a.Grants wanted grant b) (fun _ b => a.Quiet b) :=
  (ensures_alloc_granted key wanted htruthful hcoherent).imp (fun _ _ h => h.grants)
    fun _ _ h => Evolved.quiet h.evolved

end IngestCoordinator.Allocator
