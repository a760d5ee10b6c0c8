-- SUMMARY: How an allocator's store evolves, and the rules for operations that write in certain ways.
import IngestCoordinator.Allocator.Basic
import IngestCoordinator.Proofs.Segment.History
import IngestCoordinator.Proofs.Store.Coherence

/-!
# Evolution

An allocator evolves by writes of segments: its store goes through a history, stays
coherent, and is sealed at no time past the watermark. Neither the watermark nor the
cut-off ever moves back. What kinds of writes an operation makes follows from the kinds
that its parts make; it is quiet if none of them is a grant.
-/

namespace IngestCoordinator

open Operation

/-- No write of a segment is made to fail, by a switch or by the backend. -/
structure GuardedStore.Writable (store : GuardedStore) : Prop where
  healthy : store.metadata.backend.Healthy
  update : store.faults.update = .empty

namespace Allocator

/-- The stored segments by number. -/
def segments (a : Allocator) : Segments :=
  a.store.metadata.records.segments

/-- The store has changed by writes of segments, none of which seals past the watermark. -/
structure Evolves (a : Allocator) (writes : List Write) (b : Allocator) : Prop where
  history : History a.segments writes b.segments
  coherent : a.store.metadata.Coherent → b.store.metadata.Coherent
  healthy : a.store.metadata.backend.Healthy → b.store.metadata.backend.Healthy
  faults : b.store.faults = a.store.faults
  watermark : a.watermark ≤ b.watermark
  cutoff : a.cutoff ≤ b.cutoff
  sealing : ∀ write ∈ writes, ∀ time, write.sealTime? = some time → time ≤ b.watermark

variable {a b c : Allocator} {writes writes' : List Write}

theorem Evolves.refl (a : Allocator) : a.Evolves [] a :=
  ⟨.nil _, id, id, rfl, UInt64.le_refl _, UInt64.le_refl _, fun _ h => nomatch h⟩

/-- What is not in the store and neither the watermark nor the cut-off does not count. -/
theorem Evolves.of_eq (hstore : b.store = a.store) (hwatermark : a.watermark ≤ b.watermark)
    (hcutoff : a.cutoff ≤ b.cutoff := by exact UInt64.le_refl _) : a.Evolves [] b := by
  refine ⟨?_, ?_, ?_, ?_, hwatermark, hcutoff, fun _ h => nomatch h⟩
  · rw [segments, segments, hstore]
    exact .nil _
  · rw [hstore]
    exact id
  · rw [hstore]
    exact id
  · rw [hstore]

theorem Evolves.trans (h : a.Evolves writes b) (h' : b.Evolves writes' c) :
    a.Evolves (writes ++ writes') c where
  history := h.history.append h'.history
  coherent := h'.coherent ∘ h.coherent
  healthy := h'.healthy ∘ h.healthy
  faults := h'.faults.trans h.faults
  watermark := UInt64.le_trans h.watermark h'.watermark
  cutoff := UInt64.le_trans h.cutoff h'.cutoff
  sealing write hmem time htime := by
    rcases List.mem_append.1 hmem with hmem | hmem
    · exact UInt64.le_trans (h.sealing write hmem time htime) h'.watermark
    · exact h'.sealing write hmem time htime

/-- The store has changed by writes none of which is a grant. -/
def Quiet (a b : Allocator) : Prop :=
  ∃ writes, a.Evolves writes b ∧ grantsOf writes = []

theorem Quiet.refl (a : Allocator) : a.Quiet a :=
  ⟨[], .refl a, rfl⟩

theorem Quiet.trans (h : a.Quiet b) (h' : b.Quiet c) : a.Quiet c := by
  obtain ⟨writes, hevolves, hnone⟩ := h
  obtain ⟨writes', hevolves', hnone'⟩ := h'
  exact ⟨_, hevolves.trans hevolves', by rw [grantsOf_append, hnone, hnone', List.append_nil]⟩

theorem Quiet.of_eq (hstore : b.store = a.store) (hwatermark : a.watermark ≤ b.watermark)
    (hcutoff : a.cutoff ≤ b.cutoff := by exact UInt64.le_refl _) : a.Quiet b :=
  ⟨[], .of_eq hstore hwatermark hcutoff, rfl⟩

theorem Quiet.watermark (h : a.Quiet b) : a.watermark ≤ b.watermark :=
  h.choose_spec.1.watermark

theorem Quiet.coherent (h : a.Quiet b) (hcoherent : a.store.metadata.Coherent) :
    b.store.metadata.Coherent :=
  h.choose_spec.1.coherent hcoherent

theorem Quiet.writable (h : a.Quiet b) (hwritable : a.store.Writable) : b.store.Writable :=
  ⟨h.choose_spec.1.healthy hwritable.healthy, h.choose_spec.1.faults ▸ hwritable.update⟩

/-! ## Kinds of writes -/

/-- The write grants nothing. -/
def NoGrant (write : Write) : Prop :=
  write.grant? = none

/-- The store has changed by writes of one kind. -/
def Evolved (kind : Write → Prop) (a b : Allocator) : Prop :=
  ∃ writes, a.Evolves writes b ∧ ∀ write ∈ writes, kind write

/-- The store has changed by writes of one kind, and the watermark has not moved. -/
structure Wrote (kind : Write → Prop) (a b : Allocator) : Prop where
  evolved : a.Evolved kind b
  watermark : b.watermark = a.watermark

section

variable {kind kind' : Write → Prop}

theorem Evolved.of_eq (hstore : b.store = a.store) (hwatermark : a.watermark ≤ b.watermark)
    (hcutoff : a.cutoff ≤ b.cutoff := by exact UInt64.le_refl _) : a.Evolved kind b :=
  ⟨[], .of_eq hstore hwatermark hcutoff, List.forall_mem_nil _⟩

theorem Evolved.trans (h : a.Evolved kind b) (h' : b.Evolved kind c) : a.Evolved kind c := by
  obtain ⟨writes, hevolves, hkind⟩ := h
  obtain ⟨writes', hevolves', hkind'⟩ := h'
  exact ⟨_, hevolves.trans hevolves', List.forall_mem_append.2 ⟨hkind, hkind'⟩⟩

theorem Evolved.mono (h : a.Evolved kind b) (hkind : ∀ write, kind write → kind' write) :
    a.Evolved kind' b := by
  obtain ⟨writes, hevolves, hall⟩ := h
  exact ⟨writes, hevolves, fun write hmem => hkind write (hall write hmem)⟩

theorem Evolved.quiet (h : a.Evolved NoGrant b) : a.Quiet b := by
  obtain ⟨writes, hevolves, hnone⟩ := h
  exact ⟨writes, hevolves, List.filterMap_eq_nil_iff.2 hnone⟩

/-- What is not in the store and neither the watermark nor the cut-off does not count. -/
theorem Wrote.of_eq (hstore : b.store = a.store) (hwatermark : b.watermark = a.watermark)
    (hcutoff : a.cutoff ≤ b.cutoff := by exact UInt64.le_refl _) : a.Wrote kind b :=
  ⟨.of_eq hstore (hwatermark ▸ UInt64.le_refl _) hcutoff, hwatermark⟩

theorem Wrote.refl (a : Allocator) : a.Wrote kind a :=
  .of_eq rfl rfl

theorem Wrote.trans (h : a.Wrote kind b) (h' : b.Wrote kind c) : a.Wrote kind c :=
  ⟨h.evolved.trans h'.evolved, h'.watermark.trans h.watermark⟩

end

/-! ## Calls to the store -/

/-- Nothing but the use of a call. -/
structure Untouched (a b : Allocator) : Prop where
  metadata : a.store.metadata.Untouched b.store.metadata
  rest : b = { a with store.metadata := b.store.metadata }

/-- One segment has been written, and nothing else has changed. -/
structure Stored (segment : Segment) (a b : Allocator) : Prop where
  metadata : a.store.metadata.Stored segment b.store.metadata
  rest : b = { a with store.metadata := b.store.metadata }

theorem Untouched.refl (a : Allocator) : a.Untouched a :=
  ⟨.refl _, rfl⟩

theorem Untouched.segments (h : a.Untouched b) : b.segments = a.segments :=
  congrArg Records.segments h.metadata.records

theorem Stored.segments {segment : Segment} (h : Stored segment a b) :
    b.segments = a.segments.insert segment.id segment :=
  h.metadata.segments

/-- Calls that leave the segments alone write none. -/
theorem wrote_of_sameRecords {kind : Write → Prop}
    (hmetadata : a.store.metadata.SameRecords b.store.metadata)
    (hhealthy : a.store.metadata.backend.Healthy → b.store.metadata.backend.Healthy)
    (hrest : b = { a with store.metadata := b.store.metadata }) : a.Wrote kind b := by
  have hsegments : b.segments = a.segments := hmetadata.segments
  have hwatermark : b.watermark = a.watermark := by rw [hrest]
  have hcutoff : b.cutoff = a.cutoff := by rw [hrest]
  refine ⟨⟨[], ⟨hsegments ▸ .nil _, fun h => h.sameRecords hmetadata, hhealthy, ?_, ?_, ?_,
    fun _ h => nomatch h⟩, List.forall_mem_nil _⟩, hwatermark⟩
  · rw [hrest]
  · rw [hwatermark]
    exact UInt64.le_refl _
  · rw [hcutoff]
    exact UInt64.le_refl _

theorem Untouched.wrote {kind : Write → Prop} (h : a.Untouched b) : a.Wrote kind b :=
  wrote_of_sameRecords h.metadata.sameRecords h.metadata.healthy h.rest

/-- A write of a segment is an evolution if it does what some write may do. -/
theorem Stored.evolves {segment : Segment} {write : Write} (h : Stored segment a b)
    (hdoes : write.Does a.segments (a.segments.insert segment.id segment))
    (htime : ∀ time, write.sealTime? = some time → time ≤ a.watermark) : a.Evolves [write] b := by
  have hwatermark : b.watermark = a.watermark := by rw [h.rest]
  have hcutoff : b.cutoff = a.cutoff := by rw [h.rest]
  refine ⟨?_, fun hcoherent => hcoherent.stored_segment h.metadata, h.metadata.healthy, ?_, ?_, ?_,
    ?_⟩
  · rw [h.segments]
    exact .single hdoes
  · rw [h.rest]
  · rw [hwatermark]
    exact UInt64.le_refl _
  · rw [hcutoff]
    exact UInt64.le_refl _
  · intro write' hmem time hsome
    obtain rfl := List.mem_singleton.1 hmem
    rw [hwatermark]
    exact htime time hsome

/-- Changing a segment writes what the change makes of it, or does nothing at all. -/
theorem ensures_update (id : SegmentId) (change : Segment → Except Error Segment) :
    Ensures (update id change) a
      (fun updated b => ∃ segment, a.segments.get? id = some segment ∧
        change segment = .ok updated ∧ updated.id = id ∧ Stored updated a b)
      (fun _ b => a.Untouched b ∧ ∀ segment updated, a.segments.get? id = some segment →
        change segment = .ok updated → updated.id = id → ¬ a.store.Writable) := by
  simp only [update, onStore, ensures_onPart, GuardedStore.updateSegment, ensures_bind, ensures_get]
  split
  · rename_i hswitch
    refine ⟨.refl a, fun _ _ _ _ _ hwritable => ?_⟩
    simp [hwritable.update, SortedMap.contains] at hswitch
  · simp only [GuardedStore.onMetadata, ensures_onPart]
    refine (Metadata.ensures_updateSegment id change).imp (fun updated m h => ?_) fun e m h => ?_
    · obtain ⟨segment, hget, hok, hid, hstored⟩ := h
      exact ⟨segment, hget, hok, hid, hstored, rfl⟩
    · exact ⟨⟨h.1, rfl⟩, fun segment updated hget hok hid hwritable =>
        h.2 segment updated hget hok hid hwritable.healthy⟩

/-! ## Operations by the kinds of their writes -/

/--
The operation makes only writes of one kind wherever it stops, if the watermark is not
below a bound for what it seals.
-/
def Writes (bound : Timestamp) (kind : Write → Prop) (operation : Operation Allocator α) : Prop :=
  ∀ a : Allocator, bound ≤ a.watermark →
    Ensures operation a (fun _ b => a.Wrote kind b) (fun _ b => a.Wrote kind b)

/-- The same of a step that cannot fail. -/
def StepWrites (bound : Timestamp) (kind : Write → Prop) (step : StateM Allocator α) : Prop :=
  ∀ a : Allocator, bound ≤ a.watermark → a.Wrote kind (step a).2

section

variable {α β : Type} {bound : Timestamp} {kind : Write → Prop} {operation : Operation Allocator α}
  {step : StateM Allocator α}

theorem Writes.pure (value : α) : Writes bound kind (pure value) :=
  fun a _ => .refl a

theorem Writes.throw (e : Error) : Writes bound kind (throw e : Operation Allocator α) :=
  fun a _ => .refl a

theorem Writes.get : Writes bound kind get :=
  fun a _ => .refl a

theorem Writes.ofExcept (result : Except Error α) :
    Writes bound kind (ofExcept result : Operation Allocator α) := fun a _ => by
  rw [ensures_ofExcept]
  exact ⟨fun _ _ => .refl a, fun _ _ => .refl a⟩

theorem Writes.modify {f : Allocator → Allocator} (h : ∀ a : Allocator, a.Wrote kind (f a)) :
    Writes bound kind (modify f) :=
  fun a _ => h a

theorem Writes.bind {f : α → Operation Allocator β} (h : Writes bound kind operation)
    (hf : ∀ value, Writes bound kind (f value)) : Writes bound kind (operation >>= f) :=
  fun a hbound => by
    rw [ensures_bind]
    refine (h a hbound).imp (fun value b hwrote => ?_) fun _ _ hwrote => hwrote
    exact (hf value b (hwrote.watermark ▸ hbound)).imp
      (fun _ _ hwrote' => hwrote.trans hwrote') fun _ _ hwrote' => hwrote.trans hwrote'

theorem Writes.attempt (h : Writes bound kind operation) :
    StepWrites bound kind operation.attempt :=
  fun a hbound => (h a hbound).attempt_snd

theorem Writes.ofStep (h : StepWrites bound kind step) :
    Writes bound kind (Operation.ofStep step) :=
  fun a hbound => ensures_ofStep.2 (h a hbound)

theorem StepWrites.pure (value : α) : StepWrites bound kind (pure value) :=
  fun a _ => .refl a

theorem StepWrites.get : StepWrites bound kind get :=
  fun a _ => .refl a

theorem StepWrites.modify {f : Allocator → Allocator} (h : ∀ a : Allocator, a.Wrote kind (f a)) :
    StepWrites bound kind (modify f) :=
  fun a _ => h a

theorem StepWrites.bind {f : α → StateM Allocator β} (h : StepWrites bound kind step)
    (hf : ∀ value, StepWrites bound kind (f value)) : StepWrites bound kind (step >>= f) :=
  fun a hbound => (h a hbound).trans (hf _ _ ((h a hbound).watermark ▸ hbound))

theorem writes_segment? (id : SegmentId) : Writes bound kind (segment? id) :=
  Writes.get.bind fun _ => .ofExcept _

theorem writes_reindex (change : KeyIndex → KeyIndex) : Writes bound kind (reindex change) :=
  .modify fun _ => .of_eq rfl rfl

theorem writes_count (change : SegmentMetrics → SegmentMetrics) :
    Writes bound kind (count change) :=
  .modify fun _ => .of_eq rfl rfl

theorem ensures_onIds {call : Operation IdSource α} : Ensures (onIds call) a
    (fun _ b => ∃ ids, b = { a with ids }) (fun _ b => ∃ ids, b = { a with ids }) := by
  rw [onIds, ensures_onPart]
  unfold Ensures
  split <;> exact ⟨_, rfl⟩

theorem writes_onIds (call : Operation IdSource α) : Writes bound kind (onIds call) := fun a _ => by
  have hids (b : Allocator) : (∃ ids, b = { a with ids }) → a.Wrote kind b := by
    rintro ⟨ids, rfl⟩
    exact .of_eq rfl rfl
  exact ensures_onIds.imp (fun _ => hids) fun _ => hids

/-- Changing a segment is one write, if it is no grant; sealing must stay behind the watermark. -/
theorem writes_update (id : SegmentId) (change : Change) (hgrant : change.isGrant = false)
    (htime : ∀ time, change = .sealAt time → time ≤ bound) (hkind : kind (.change id change)) :
    Writes bound kind (update id change.apply) := fun a hbound => by
  refine (ensures_update id change.apply).imp (fun updated b h => ?_) fun _ b h => h.1.wrote
  obtain ⟨segment, hget, hok, hid, hstored⟩ := h
  have hfits : change.Fits segment := by
    cases change with
    | grant => cases hgrant
    | grow | supersede | sealAt | flush | report => trivial
  refine ⟨⟨[.change id change], hstored.evolves ?_ fun time hsome => ?_, ?_⟩, by rw [hstored.rest]⟩
  · rw [hid]
    exact .change hget hok hfits
  · cases change with
    | sealAt time' =>
      cases hsome
      exact UInt64.le_trans (htime time rfl) hbound
    | grow | grant | supersede | flush | report => cases hsome
  · exact List.forall_mem_singleton.2 hkind

/-! ## Quiet operations -/

/-- The operation grants nothing, if the watermark is not below a bound for what it seals. -/
def Quietly (bound : Timestamp) (operation : Operation Allocator α) : Prop :=
  ∀ a : Allocator, bound ≤ a.watermark →
    Ensures operation a (fun _ b => a.Quiet b) (fun _ b => a.Quiet b)

/-- The same of a step that cannot fail. -/
def QuietStep (bound : Timestamp) (step : StateM Allocator α) : Prop :=
  ∀ a : Allocator, bound ≤ a.watermark → a.Quiet (step a).2

theorem Writes.quietly (h : Writes bound NoGrant operation) : Quietly bound operation :=
  fun a hbound => (h a hbound).imp (fun _ _ hwrote => hwrote.evolved.quiet)
    fun _ _ hwrote => hwrote.evolved.quiet

theorem StepWrites.quietStep (h : StepWrites bound NoGrant step) : QuietStep bound step :=
  fun a hbound => (h a hbound).evolved.quiet

theorem Quietly.attempt (h : Quietly bound operation) : QuietStep bound operation.attempt :=
  fun a hbound => (h a hbound).attempt_snd

end

end Allocator

end IngestCoordinator
