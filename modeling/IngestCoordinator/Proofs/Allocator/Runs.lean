-- SUMMARY: Runs of an allocator, with failing writes and restarts, and what every run keeps.
import IngestCoordinator.Catalog
import IngestCoordinator.Proofs.Allocator.Recovery
import IngestCoordinator.Proofs.Path
import IngestCoordinator.Proofs.Store.Reopening

/-!
# Runs

An allocator is asked one thing after another. In between the backend may fall ill
or recover, timestamps may go any way, and the process may be restarted: it then
loses its memory, opens the store on what the backend kept and recovers, as often
as it takes. A run lists the grants that it has returned, in order.
-/

namespace IngestCoordinator.Allocator

open Operation

/-! ## Requests -/

/-- What an allocator and its store can be asked. -/
inductive Request where
  | addCollection (collection : Collection)
  | addPartition (collection : CollectionId) (partition : PartitionId)
  | loadCatalog (catalog : Catalog)
  /-- Adds a segment that has just been built. -/
  | addSegment (id : SegmentId) (key : SegmentKey) (group : String) (node : Option NodeId)
    (capacity : UInt64) (openTime : Timestamp)
  | openSegment (segment : Segment)
  | alloc (key : SegmentKey) (wanted : UInt64)
  | sealAll (collection : CollectionId)
  | sealReady (watermark : Timestamp)
  | recover
  | report (reports : List Report)
  | completeFlush (completed : FlushCompleted)
  | setCutoff (watermark : Timestamp)

/-- A grant that has been returned, with the number of rows that were asked for. -/
structure Returned where
  wanted : UInt64
  grant : Grant
  deriving DecidableEq, Repr

/-- Does what is asked: the grants that are returned, and the allocator afterwards. -/
def perform : Request → Allocator → List Returned × Allocator
  | .addCollection collection, a =>
    ([], ((onStore (GuardedStore.addCollection collection)).attempt a).2)
  | .addPartition collection partition, a =>
    ([], ((onStore (GuardedStore.addPartition collection partition)).attempt a).2)
  | .loadCatalog catalog, a => ([], ((onStore catalog.load).attempt a).2)
  | .addSegment id key group node capacity openTime, a =>
    ([], ((onStore (GuardedStore.addSegment (.fresh id key group node capacity openTime))).attempt
      a).2)
  | .openSegment segment, a => ([], ((openSegment segment).attempt a).2)
  | .alloc key wanted, a =>
    match alloc key wanted a with
    | .ok grant b => ([⟨wanted, grant⟩], b)
    | .error _ b => ([], b)
  | .sealAll collection, a => ([], (sealAll collection a).2)
  | .sealReady watermark, a => ([], (sealReady watermark a).2)
  | .recover, a => ([], (recover.attempt a).2)
  | .report reports, a => ([], (handleBatch? reports a).2)
  | .completeFlush completed, a => ([], ((handleFlushCompleted completed).attempt a).2)
  | .setCutoff watermark, a => ([], a.setCutoff watermark)

/-- Whether or not there is a grant to tell of, the state is that after the call. -/
theorem perform_alloc_snd (key : SegmentKey) (wanted : UInt64) (a : Allocator) :
    (perform (.alloc key wanted) a).2 = ((alloc key wanted).attempt a).2 := by
  simp only [perform, Operation.attempt]
  cases alloc key wanted a with
  | ok grant b => rfl
  | error e b => rfl

/-! ## Surroundings -/

/--
What may happen around an allocator: writes of segments are switched to fail or not,
calls to the backend are refused or not, others write where no records are, and
identifiers and timestamps are drawn from anywhere.
-/
structure Surroundings (a b : Allocator) : Prop where
  root : b.store.metadata.root = a.store.metadata.root
  records : b.store.metadata.records = a.store.metadata.records
  entries : ∀ key, (Backend.startsWith a.store.metadata.root.collections key = true ∨
    Backend.startsWith a.store.metadata.root.segments key = true) →
      b.store.metadata.backend.entries.get? key = a.store.metadata.backend.entries.get? key
  read : b.store.faults.read = a.store.faults.read
  hidden : b.store.faults.hidden = a.store.faults.hidden
  stale : b.store.faults.stale = a.store.faults.stale
  list : b.store.faults.list = a.store.faults.list
  policy : b.policy = a.policy
  index : b.index = a.index
  watermark : b.watermark = a.watermark
  cutoff : b.cutoff = a.cutoff

/-- Opens the store again on what the backend has kept. -/
def reopen : Operation Allocator Unit :=
  onStore (GuardedStore.onMetadata Metadata.reopen)

/--
The process is down: it has lost its memory and opened the store, and has not
recovered yet. Meanwhile the catalog may be loaded.
-/
inductive Down : Allocator → Allocator → Prop where
  | reopened {a b : Allocator} (h : reopen a = .ok () b) : Down a b.restarted
  | surroundings {a b c : Allocator} (h : Down a b) (h' : b.Surroundings c) : Down a c
  | catalog {a b : Allocator} (h : Down a b) (catalog : Catalog) :
    Down a ((onStore catalog.load).attempt b).2
  | failed {a b c : Allocator} {e : Error} (h : Down a b) (h' : recover b = .error e c) : Down a c
  | reopenedAgain {a b c : Allocator} (h : Down a b) (h' : reopen b = .ok () c) :
    Down a c.restarted

/-- The process has been restarted, whatever has happened to the backend before. -/
def Restarts (a b : Allocator) : Prop :=
  ∃ a' down count, a.Surroundings a' ∧ Down a' down ∧ recover down = .ok count b

/-! ## Runs -/

/-- One thing happens, of those that are admitted. -/
inductive Step (admits : Allocator → Request → Prop) :
    Allocator → List Returned → Allocator → Prop where
  | request {a : Allocator} (request : Request) (h : admits a request) :
    Step admits a (perform request a).1 (perform request a).2
  | surroundings {a b : Allocator} (h : a.Surroundings b) : Step admits a [] b
  | restart {a b : Allocator} (h : a.Restarts b) : Step admits a [] b

/-- Things happen one after another; the grants that are returned are listed in order. -/
def Run (admits : Allocator → Request → Prop) :
    Allocator → List Returned → Allocator → Prop :=
  Course (Step admits)

/-- A new allocator over a store that has been opened and holds no segment. -/
structure Initial (a : Allocator) : Prop where
  opened : ∃ backend, Metadata.open a.store.metadata.root backend =
    (.ok a.store.metadata, a.store.metadata.backend)
  noSegments : a.segments = .empty
  truthful : a.store.Truthful
  index : a.index = .empty
  watermark : a.watermark = 0
  cutoff : a.cutoff = 0

/-- Every request is admitted. -/
def anything (_ : Allocator) (_ : Request) : Prop :=
  True

/-- Segments are opened under the key that they are stored with. -/
def asStored (a : Allocator) (request : Request) : Prop :=
  ∀ segment, request = .openSegment segment → ∀ stored, a.segments.get? segment.id = some stored →
    stored.key = segment.key

/-! ## What happens in one step -/

variable {a b c : Allocator} {log log' : List Returned} {grants grants' : List Grant}
  {admits : Allocator → Request → Prop}

/-- The store reads truthfully, and its copy of the segments is what the backend has. -/
structure Sound (a : Allocator) : Prop where
  truthful : a.store.Truthful
  coherent : a.store.metadata.Coherent

theorem Consistent.sound (h : a.Consistent) : a.Sound :=
  ⟨h.truthful, h.coherent⟩

/-- The stored segments have changed by writes that make just these grants. -/
structure Extends (a : Allocator) (grants : List Grant) (b : Allocator) : Prop where
  history : ∃ writes, History a.segments writes b.segments ∧ grantsOf writes = grants
  sound : b.Sound

theorem Extends.refl (h : a.Sound) : a.Extends [] a :=
  ⟨⟨[], .nil _, rfl⟩, h⟩

theorem Extends.trans (h : a.Extends grants b) (h' : b.Extends grants' c) :
    a.Extends (grants ++ grants') c := by
  obtain ⟨⟨writes, hhistory, rfl⟩, _⟩ := h
  obtain ⟨⟨writes', hhistory', rfl⟩, hsound⟩ := h'
  exact ⟨⟨_, hhistory.append hhistory', grantsOf_append ..⟩, hsound⟩

theorem Evolves.extends {writes : List Write} (h : a.Evolves writes b) (hsound : a.Sound) :
    a.Extends (grantsOf writes) b where
  history := ⟨writes, h.history, rfl⟩
  sound := {
    coherent := h.coherent hsound.coherent
    truthful := by
      obtain ⟨hread, hhidden, hstale, hlist⟩ := hsound.truthful
      exact ⟨h.faults ▸ hread, h.faults ▸ hhidden, h.faults ▸ hstale, h.faults ▸ hlist⟩ }

theorem Quiet.extends (h : a.Quiet b) (hsound : a.Sound) : a.Extends [] b := by
  obtain ⟨writes, hevolves, hnone⟩ := h
  exact hnone ▸ hevolves.extends hsound

/-- At least one row has been granted, and no more than were asked for. -/
def Returned.Fair (returned : Returned) : Prop :=
  1 ≤ returned.grant.count.toNat ∧ returned.grant.count ≤ returned.wanted

/-- Whatever is asked, what is returned is what has been granted. -/
theorem evolves_perform (request : Request) (hsound : a.Sound) :
    ∃ writes, a.Evolves writes (perform request a).2 ∧
      grantsOf writes = (perform request a).1.map Returned.grant ∧
      ∀ returned ∈ (perform request a).1, returned.Fair := by
  have hquiet {b : Allocator} (h : a.Quiet b) : ∃ writes, a.Evolves writes b ∧
      grantsOf writes = ([] : List Returned).map Returned.grant ∧
      ∀ returned ∈ ([] : List Returned), returned.Fair := by
    obtain ⟨writes, hevolves, hnone⟩ := h
    exact ⟨writes, hevolves, hnone, List.forall_mem_nil _⟩
  have hattempt {α : Type} {operation : Operation Allocator α} (h : Quietly 0 operation) :
      a.Quiet (operation.attempt a).2 := h.attempt a UInt64.zero_le
  cases request with
  | addCollection collection =>
    exact hquiet (hattempt (quietly_onStore fun _ => GuardedStore.ensures_addCollection collection))
  | addPartition collection partition =>
    exact hquiet (hattempt (quietly_onStore fun _ =>
      GuardedStore.ensures_addPartition collection partition))
  | loadCatalog catalog =>
    exact hquiet (hattempt (quietly_onStore fun _ => catalog.ensures_load))
  | addSegment id key group node capacity openTime =>
    exact hquiet (hattempt (quietly_addSegment rfl))
  | openSegment segment => exact hquiet (hattempt (quietly_openSegment segment))
  | alloc key wanted =>
    have hgrants := ensures_alloc key wanted hsound.truthful hsound.coherent
    unfold Ensures at hgrants
    unfold perform
    split at hgrants
    · rename_i grant b heq
      obtain ⟨writes, hevolves, hone, hfair⟩ := hgrants
      simp only [heq]
      exact ⟨writes, hevolves, hone, by simpa [Returned.Fair] using hfair⟩
    · rename_i e b heq
      simp only [heq]
      exact hquiet hgrants
  | sealAll collection => exact hquiet (quiet_sealAll collection a)
  | sealReady watermark => exact hquiet (quiet_sealReady watermark a)
  | recover => exact hquiet (hattempt quietly_recover)
  | report reports => exact hquiet (@quietStep_handleBatch? 0 reports a UInt64.zero_le)
  | completeFlush completed => exact hquiet (hattempt (quietly_handleFlushCompleted completed))
  | setCutoff watermark => exact hquiet (.of_eq rfl (UInt64.le_refl _) (Word.le_max_left ..))

theorem Surroundings.refl (a : Allocator) : a.Surroundings a :=
  ⟨rfl, rfl, fun _ _ => rfl, rfl, rfl, rfl, rfl, rfl, rfl, rfl, rfl⟩

theorem Surroundings.trans (h : a.Surroundings b) (h' : b.Surroundings c) : a.Surroundings c where
  root := h'.root.trans h.root
  records := h'.records.trans h.records
  entries key hstarts := (h'.entries key (h.root ▸ hstarts)).trans (h.entries key hstarts)
  read := h'.read.trans h.read
  hidden := h'.hidden.trans h.hidden
  stale := h'.stale.trans h.stale
  list := h'.list.trans h.list
  policy := h'.policy.trans h.policy
  index := h'.index.trans h.index
  watermark := h'.watermark.trans h.watermark
  cutoff := h'.cutoff.trans h.cutoff

theorem Surroundings.sameRecords (h : a.Surroundings b) :
    a.store.metadata.SameRecords b.store.metadata where
  root := h.root
  segments := congrArg Records.segments h.records
  segmentEntries key hstarts := h.entries key (.inr hstarts)
  collectionEntries key _ hstarts hget := .inl (h.entries key (.inl hstarts) ▸ hget)

theorem Surroundings.segments (h : a.Surroundings b) : b.segments = a.segments :=
  h.sameRecords.segments

theorem Surroundings.sound (h : a.Surroundings b) (hsound : a.Sound) : b.Sound where
  coherent := hsound.coherent.sameRecords h.sameRecords
  truthful := by
    obtain ⟨hread, hhidden, hstale, hlist⟩ := hsound.truthful
    exact ⟨h.read.trans hread, h.hidden.trans hhidden, h.stale.trans hstale, h.list.trans hlist⟩

theorem Surroundings.extends (h : a.Surroundings b) (hsound : a.Sound) : a.Extends [] b :=
  ⟨⟨[], h.segments ▸ .nil _, rfl⟩, h.sound hsound⟩

/-- The store can be opened again unless the backend is ill, and finds what it had. -/
theorem ensures_reopen_segments (hsound : a.Sound) : Ensures reopen a
    (fun _ b => b.restarted.segments = a.segments ∧ b.restarted.Sound ∧
      (a.store.Writable → b.restarted.store.Writable))
    (fun _ _ => ¬ a.store.metadata.backend.Healthy) := by
  rw [reopen, onStore, ensures_onPart, GuardedStore.onMetadata, ensures_onPart]
  refine hsound.coherent.ensures_reopen.imp (fun _ m h => ?_) fun _ m h => h.2
  refine ⟨h.1.segments, ⟨?_, hsound.coherent.sameRecords h.1⟩, fun hwritable => ?_⟩
  · obtain ⟨hread, hhidden, hstale, hlist⟩ := hsound.truthful
    exact ⟨hread, hhidden, hstale, hlist⟩
  · exact ⟨h.2 hwritable.healthy, hwritable.update⟩

theorem ensures_reopen (hsound : a.Sound) : Ensures reopen a
    (fun _ b => a.Extends [] b.restarted ∧ (a.store.Writable → b.restarted.store.Writable))
    (fun _ _ => ¬ a.store.metadata.backend.Healthy) :=
  (ensures_reopen_segments hsound).imp
    (fun _ _ h => ⟨⟨⟨[], h.1 ▸ .nil _, rfl⟩, h.2.1⟩, h.2.2⟩) fun _ _ h => h

theorem Down.extends (h : Down a b) (hsound : a.Sound) : a.Extends [] b := by
  induction h with
  | reopened hreopen => exact ((ensures_reopen hsound).ok hreopen).1
  | surroundings _ hsurroundings ih =>
    exact ih.trans (hsurroundings.extends ih.sound)
  | @catalog b _ catalog ih =>
    have hquiet : b.Quiet ((onStore catalog.load).attempt b).2 :=
      (quietly_onStore fun _ => catalog.ensures_load).attempt b UInt64.zero_le
    exact ih.trans (hquiet.extends ih.sound)
  | failed _ hrecover ih =>
    have hsound' := ih.sound
    have hrepairs := (ensures_recover hsound'.truthful hsound'.coherent).error hrecover
    exact ih.trans (hrepairs.1.quiet.extends hsound')
  | reopenedAgain _ hreopen ih =>
    exact ih.trans ((ensures_reopen ih.sound).ok hreopen).1

/-- After a restart the stored segments are as they were left, up to repairs, and all is in order. -/
theorem Restarts.extends (h : a.Restarts b) (hsound : a.Sound) :
    a.Extends [] b ∧ b.Consistent ∧ SealedBy b.watermark b.segments := by
  obtain ⟨before, down, count, hsurroundings, hdown, hrecover⟩ := h
  have hbefore := hsurroundings.extends hsound
  have hextends := hbefore.trans (hdown.extends hbefore.sound)
  have hrecovered :=
    (ensures_recover hextends.sound.truthful hextends.sound.coherent).ok hrecover
  exact ⟨hextends.trans (hrecovered.quiet.extends hextends.sound), hrecovered.consistent,
    hrecovered.sealing⟩

theorem Step.extends (h : Step admits a log b) (hsound : a.Sound) :
    a.Extends (log.map Returned.grant) b ∧ ∀ returned ∈ log, returned.Fair := by
  cases h with
  | request request _ =>
    obtain ⟨writes, hevolves, hgrants, hfair⟩ := evolves_perform request hsound
    exact ⟨hgrants ▸ hevolves.extends hsound, hfair⟩
  | surroundings h => exact ⟨h.extends hsound, by simp⟩
  | restart h => exact ⟨(h.extends hsound).1, by simp⟩

theorem Step.sealedBy (h : Step admits a log b) (hsound : a.Sound)
    (hsealed : SealedBy a.watermark a.segments) : SealedBy b.watermark b.segments := by
  cases h with
  | request request _ =>
    obtain ⟨writes, hevolves, _, _⟩ := evolves_perform request hsound
    exact hevolves.sealedBy (SealedBy.mono hsealed hevolves.watermark) (UInt64.le_refl _)
  | surroundings h =>
    rw [h.segments, h.watermark]
    exact hsealed
  | restart h => exact (h.extends hsound).2.2

theorem consistent_onStore {call : Operation GuardedStore α} (h : a.Consistent)
    (hcall : ∀ store, Ensures call store (fun _ store' => store.KeepsSegments store')
      (fun _ store' => store.KeepsSegments store')) :
    ((onStore call).attempt a).2.Consistent := by
  refine Ensures.attempt_snd (p := Consistent) ?_
  rw [onStore, ensures_onPart]
  exact (hcall a.store).imp (fun _ _ hkeeps => h.keepsSegments hkeeps)
    fun _ _ hkeeps => h.keepsSegments hkeeps

/-- If segments are opened under the key they are stored with, each request leaves all in order. -/
theorem consistent_perform {request : Request} (h : a.Consistent) (hadmits : asStored a request) :
    (perform request a).2.Consistent := by
  cases request with
  | addCollection collection =>
    exact consistent_onStore h fun _ => GuardedStore.ensures_addCollection collection
  | addPartition collection partition =>
    exact consistent_onStore h fun _ => GuardedStore.ensures_addPartition collection partition
  | loadCatalog catalog => exact consistent_onStore h fun _ => catalog.ensures_load
  | addSegment id key group node capacity openTime =>
    have hfresh : (Segment.fresh id key group node capacity openTime).IsFresh := rfl
    exact (ensures_addSegment_consistent hfresh h).attempt_snd
  | openSegment segment =>
    exact (ensures_openSegment_consistent h (hadmits segment rfl)).attempt_snd
  | alloc key wanted =>
    rw [perform_alloc_snd]
    exact (ensures_alloc_consistent key wanted h).attempt_snd
  | sealAll collection => exact consistent_sealAll collection h
  | sealReady watermark => exact consistent_sealReady watermark h
  | recover =>
    exact (h.ensures_recover.imp (fun _ _ hb => hb.1) fun _ _ hb => hb.elim).attempt_snd
  | report reports => exact consistent_handleBatch? reports h
  | completeFlush completed => exact (ensures_handleFlushCompleted completed h).attempt_snd
  | setCutoff watermark => exact h.of_eq rfl rfl

theorem Surroundings.consistent (h : a.Surroundings b) (hconsistent : a.Consistent) :
    b.Consistent where
  truthful := (h.sound hconsistent.sound).truthful
  coherent := (h.sound hconsistent.sound).coherent
  agrees := by
    rw [h.index, h.segments]
    exact hconsistent.agrees

theorem Step.consistent (h : Step asStored a log b) (hconsistent : a.Consistent) :
    b.Consistent := by
  cases h with
  | request request hadmits => exact consistent_perform hconsistent hadmits
  | surroundings h => exact h.consistent hconsistent
  | restart h => exact (h.extends hconsistent.sound).2.1

/-! ## What happens in a run -/

/-- What is returned in a run is what has been granted in it. -/
theorem Run.extends (h : Run admits a log b) (hsound : a.Sound) :
    a.Extends (log.map Returned.grant) b ∧ ∀ returned ∈ log, returned.Fair := by
  induction h using Course.induct with
  | nil => exact ⟨.refl hsound, by simp⟩
  | snoc _ hstep ih =>
    obtain ⟨hextends, hfair⟩ := ih
    obtain ⟨hextends', hfair'⟩ := hstep.extends hextends.sound
    rw [List.map_append]
    exact ⟨hextends.trans hextends', List.forall_mem_append.2 ⟨hfair, hfair'⟩⟩

theorem Run.sealedBy (h : Run admits a log b) (hsound : a.Sound)
    (hsealed : SealedBy a.watermark a.segments) : SealedBy b.watermark b.segments := by
  induction h using Course.induct with
  | nil => exact hsealed
  | snoc hrun hstep ih => exact hstep.sealedBy (Run.extends hrun hsound).1.sound ih

theorem Run.consistent (h : Run asStored a log b) (hconsistent : a.Consistent) : b.Consistent :=
  h.invariant (fun _ _ _ hs hstep => hstep.consistent hs) hconsistent

theorem Initial.consistent (h : a.Initial) : a.Consistent where
  truthful := h.truthful
  coherent := by
    obtain ⟨backend, hopen⟩ := h.opened
    exact Metadata.coherent_of_open hopen h.noSegments
  agrees := by
    rw [h.index, h.noSegments]
    exact KeyIndex.agrees_empty

theorem Initial.sound (h : a.Initial) : a.Sound :=
  h.consistent.sound

theorem Initial.sealedBy (h : a.Initial) (bound : Timestamp) : SealedBy bound a.segments := by
  rw [h.noSegments]
  exact fun _ _ hget => nomatch hget

/-- Over a store that held no segment, the returned grants add up for every stored segment. -/
theorem Run.accounts (h : Run admits a log b) (hinitial : a.Initial) :
    Accounts (log.map Returned.grant) b.segments := by
  obtain ⟨writes, hhistory, hgrants⟩ := (h.extends hinitial.sound).1.history
  rw [← hgrants]
  have hnone : Accounts [] a.segments := by
    rw [hinitial.noSegments]
    exact .empty
  simpa using hnone.history hhistory

/-- What becomes of a stored segment in a further run. -/
theorem Run.advances (h : Run admits a log b) (hinitial : a.Initial) (h' : Run admits b log' c)
    {id : SegmentId} {segment : Segment} (hget : b.segments.get? id = some segment) :
    ∃ segment', c.segments.get? id = some segment' ∧ segment.Advances segment' ∧
      (segment.state.isImmutable = true → grantsOn id (log'.map Returned.grant) = []) := by
  obtain ⟨writes, hhistory, hgrants⟩ := (h'.extends (h.extends hinitial.sound).1.sound).1.history
  rw [← hgrants]
  exact hhistory.advances (h.accounts hinitial) hget

end IngestCoordinator.Allocator
