-- SUMMARY: A second allocator that recovers from the store knows what the live one knows.
import IngestCoordinator.Proofs.Allocator.Guarantees

/-!
# Refinement

What an allocator keeps in memory can be computed from the store. Between any two
operations a second allocator may open the store and recover: it writes nothing,
has the same target and the same retired segments for each key, and a watermark
that every sealing has reached and that the live watermark is not behind.
-/

namespace IngestCoordinator

open Operation

namespace Metadata

variable {m m' : Metadata} {backend : Backend}

/-- To open the store of another is to have it opened again. -/
theorem reopen_of_open (h : Metadata.open m.root m.backend = (.ok m', backend)) :
    reopen m = .ok () m' := by
  unfold Metadata.open at h
  unfold reopen
  split at h
  · cases h
    rfl
  · cases h

theorem open_of_reopen (h : reopen m = .ok () m') :
    Metadata.open m.root m.backend = (.ok m', m'.backend) := by
  unfold reopen at h
  unfold Metadata.open
  split at h
  · cases h
    rfl
  · cases h

end Metadata

namespace Allocator

variable {a b : Allocator} {log : List Returned} {admits : Allocator → Request → Prop}

/-- A new allocator over a store that has been opened. -/
def anew (metadata : Metadata) (ids : IdSource) (policy : Policy) : Allocator :=
  { store := { metadata }, ids, policy }

/-- In a run over a store that held no segment only sealing gives a segment a time of sealing. -/
theorem Run.sealedTime_eq_zero (h : Run admits a log b) (hinitial : a.Initial) :
    ∀ id segment, b.segments.get? id = some segment → segment.state.isImmutable = false →
      segment.sealedTime = 0 := by
  obtain ⟨writes, hhistory, _⟩ := (h.extends hinitial.sound).1.history
  have hfresh {segment : Segment} (hfresh : segment.IsFresh) :
      segment.state.isImmutable = false → segment.sealedTime = 0 := by
    intro _
    rw [hfresh]
    rfl
  refine hhistory.forall_stored hfresh Change.sealedTime_eq_zero ?_
  rw [hinitial.noSegments]
  exact fun _ _ hget => nomatch hget

/-- What is not sealed has no time of sealing, so a bound for what is sealed is one for all. -/
theorem sealedTime_le {segments : Segments} {bound : Timestamp} (hsealed : SealedBy bound segments)
    (hopen : ∀ id segment, segments.get? id = some segment → segment.state.isImmutable = false →
      segment.sealedTime = 0) {id : SegmentId} {segment : Segment}
    (hget : segments.get? id = some segment) : segment.sealedTime ≤ bound := by
  cases hclosed : segment.state.isImmutable with
  | true => exact hsealed id segment hget hclosed
  | false =>
    rw [hopen id segment hget hclosed]
    exact UInt64.zero_le

/-- A second allocator that has recovered from the store beside the live one. -/
structure Recovers (live : Allocator) (metadata : Metadata) (second : Allocator) : Prop where
  target : ∀ key, second.index.target? key = live.index.target? key
  retired : ∀ key, second.index.retired key = live.index.retired key
  behind : second.watermark ≤ live.watermark
  sealing : ∀ id segment, live.segments.get? id = some segment →
    segment.sealedTime ≤ second.watermark
  /-- Recovery has written nothing, not even what was there already. -/
  unwritten : second.store.metadata = metadata
  records : metadata.records.segments = live.segments
  entries : ∀ id, metadata.backend.entries.get? (metadata.root.segment id) =
    live.store.metadata.backend.entries.get? (live.store.metadata.root.segment id)

theorem sound_anew (h : b.Consistent) {metadata : Metadata}
    (hsame : b.store.metadata.SameRecords metadata) (ids : IdSource) (policy : Policy) :
    (anew metadata ids policy).Sound where
  truthful := ⟨rfl, rfl, rfl, rfl⟩
  coherent := h.coherent.sameRecords hsame

/-- Over a store that holds what the live allocator stored, recovery succeeds and has nothing to do. -/
theorem recovers_anew (h : b.Consistent) (hsealed : SealedBy b.watermark b.segments)
    (hopen : ∀ id segment, b.segments.get? id = some segment →
      segment.state.isImmutable = false → segment.sealedTime = 0)
    {metadata : Metadata} (hsame : b.store.metadata.SameRecords metadata) (ids : IdSource)
    (policy : Policy) :
    ∃ count second, recover (anew metadata ids policy) = .ok count second ∧
      b.Recovers metadata second := by
  have hsegments : (anew metadata ids policy).segments = b.segments := hsame.segments
  have hsound := sound_anew h hsame ids policy
  have hagrees : b.index.Agrees (anew metadata ids policy).segments := hsegments ▸ h.agrees
  have hrecover := ensures_recover_of_agrees hsound.truthful hsound.coherent hagrees
  cases hresult : recover (anew metadata ids policy) with
  | error e second => exact (hrecover.error hresult).elim
  | ok count second =>
    obtain ⟨hconsistent, hstore⟩ := hrecover.ok hresult
    have hmark := (ensures_recover_watermark hsound.truthful hsound.coherent).ok hresult
    have hsealing := ((ensures_recover hsound.truthful hsound.coherent).ok hresult).sealing
    have hsame' : second.segments = b.segments := by
      rw [segments, hstore]
      exact hsegments
    -- Both indexes agree with the same segments, so they agree with each other.
    have hindex : second.index.Agrees b.segments := hsame' ▸ hconsistent.agrees
    refine ⟨count, second, rfl, ?_⟩
    refine ⟨hindex.target?_eq h.agrees, hindex.retired_eq h.agrees, ?_, ?_, ?_, hsegments, ?_⟩
    · rw [hmark]
      exact Word.max_le UInt64.zero_le (latestSealing_le hsound.coherent.toNumbered (hsegments ▸ hsealed))
    · exact fun id segment hget => sealedTime_le (hsame' ▸ hsealing) hopen hget
    · rw [hstore]
      rfl
    · intro id
      rw [hsame.root]
      exact hsame.segmentEntries _ (Root.startsWith_segment ..)

/--
A second allocator can open the store at any time unless the backend refuses, and its
recovery succeeds. It then knows of each key what the live allocator knows, and has
changed nothing that is stored.
-/
theorem recovery_refines_live (hinitial : a.Initial) (hrun : Run asStored a log b) :
    (b.store.metadata.backend.Healthy → ∃ metadata backend,
      Metadata.open b.store.metadata.root b.store.metadata.backend = (.ok metadata, backend)) ∧
    ∀ metadata backend,
      Metadata.open b.store.metadata.root b.store.metadata.backend = (.ok metadata, backend) →
      ∀ ids policy, ∃ count second, recover (anew metadata ids policy) = .ok count second ∧
        b.Recovers metadata second := by
  have hconsistent := hrun.consistent hinitial.consistent
  have hsealed := hrun.sealedBy hinitial.sound (hinitial.sealedBy _)
  have hreopen := hconsistent.coherent.ensures_reopen
  refine ⟨fun hhealthy => ?_, fun metadata backend hopen ids policy => ?_⟩
  · cases hresult : Metadata.reopen b.store.metadata with
    | ok _ metadata => exact ⟨metadata, metadata.backend, Metadata.open_of_reopen hresult⟩
    | error e metadata => exact absurd hhealthy (hreopen.error hresult).2
  · have hsame := (hreopen.ok (Metadata.reopen_of_open hopen)).1
    exact recovers_anew hconsistent hsealed (hrun.sealedTime_eq_zero hinitial) hsame ids policy

/-- Once the only segment is full a second one is opened, before either of them can be sealed. -/
def replacing : List Request :=
  .sealReady 7 :: granting ++
    [.addSegment ⟨8⟩ onlyKey "group" none 10 0, .openSegment (.fresh ⟨8⟩ onlyKey "group" none 10 0)]

theorem admitted_replacing : Admitted asStored replacing onMemory := by
  refine ⟨(fun _ h => nomatch h), (fun _ h => nomatch h), (fun _ h => nomatch h),
    fun _ heq stored hget => ?_, (fun _ h => nomatch h), (fun _ h => nomatch h),
    (fun _ h => nomatch h), fun _ heq stored hget => ?_, trivial⟩
  · cases heq
    cases hget
    rfl
  · cases heq
    cases hget
    rfl

/-- A second allocator finds the full segment among the retired and its successor as the target. -/
theorem recovery_finds_successor :
    ∃ metadata backend count second,
      Metadata.open ⟨"root"⟩ (performAll replacing onMemory).2.store.metadata.backend =
        (.ok metadata, backend) ∧
      recover (anew metadata {} onMemory.policy) = .ok count second ∧
      second.index.target? onlyKey = some ⟨8⟩ ∧ second.index.retired onlyKey = [⟨7⟩] ∧
      second.watermark ≤ 7 := by
  obtain ⟨hopens, hrecovers⟩ :=
    recovery_refines_live initial_onMemory (Run.performAll admitted_replacing)
  have hroot : (performAll replacing onMemory).2.store.metadata.root = ⟨"root"⟩ := by
    decide +kernel
  rw [hroot] at hopens hrecovers
  obtain ⟨metadata, backend, hopen⟩ :=
    hopens ⟨by decide +kernel, by decide +kernel, by decide +kernel⟩
  obtain ⟨count, second, hrecover, hsecond⟩ :=
    hrecovers metadata backend hopen {} onMemory.policy
  have htarget : (performAll replacing onMemory).2.index.target? onlyKey = some ⟨8⟩ := by
    decide +kernel
  have hretired : (performAll replacing onMemory).2.index.retired onlyKey = [⟨7⟩] := by
    decide +kernel
  have hmark : (performAll replacing onMemory).2.watermark = 7 := by decide +kernel
  exact ⟨metadata, backend, count, second, hopen, hrecover, (hsecond.target _).trans htarget,
    (hsecond.retired _).trans hretired, hmark ▸ hsecond.behind⟩

end Allocator

end IngestCoordinator
