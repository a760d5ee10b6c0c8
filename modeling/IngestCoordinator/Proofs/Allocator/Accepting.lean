-- SUMMARY: Which operations of the allocator keep the collections and refuse no argument.
import IngestCoordinator.Allocator.Grant
import IngestCoordinator.Proofs.Store.Calls

/-!
# Refused arguments

Opening a segment can fail for many reasons: the store is not available, records are not
there or not in the right state. None of these is an argument that is found to be invalid,
as it would be if it had never been checked. Nor does anything change the collections.
-/

namespace IngestCoordinator

/-- The error is not about an argument. -/
def Error.Blameless : Error → Prop
  | .invalidArgument _ => False
  | _ => True

theorem Error.Blameless.kind_ne {error : Error} (h : error.Blameless) :
    error.kind ≠ "ValidationError" := by
  cases error with
  | invalidArgument fault => exact h.elim
  | noGrowingSegment | segmentAlreadyOpen | nodeUnavailable | notFound | alreadyExists
  | invalidState | storeUnavailable | timeout | cancelled | malformed | internal
  | overflow =>
    simp [kind]

namespace Operation

variable {σ τ α β : Type} {p : σ → Prop} {operation : Operation σ α}

/-- The operation preserves a property of the state, and no argument is what stops it. -/
def Accepting (p : σ → Prop) (operation : Operation σ α) : Prop :=
  ∀ s, p s → Ensures operation s (fun _ t => p t) (fun error t => p t ∧ error.Blameless)

theorem Accepting.pure (value : α) : Accepting p (pure value : Operation σ α) :=
  fun _ h => h

theorem Accepting.throw {error : Error} (hblameless : error.Blameless) :
    Accepting p (throw error : Operation σ α) :=
  fun _ h => ⟨h, hblameless⟩

theorem Accepting.get : Accepting p (get : Operation σ σ) :=
  fun _ h => h

theorem Accepting.modify {f : σ → σ} (hf : ∀ s, p s → p (f s)) :
    Accepting p (modify f : Operation σ PUnit) :=
  fun s h => hf s h

theorem Accepting.ofExcept {result : Except Error α}
    (hblameless : ∀ error, result = .error error → error.Blameless) :
    Accepting p (ofExcept result : Operation σ α) := fun _ h => by
  rw [ensures_ofExcept]
  exact ⟨fun _ _ => h, fun error herror => ⟨h, hblameless error herror⟩⟩

theorem Accepting.bind {f : α → Operation σ β} (h : Accepting p operation)
    (hf : ∀ value, Accepting p (f value)) : Accepting p (operation >>= f) := fun s hs => by
  rw [ensures_bind]
  exact (h s hs).imp (fun value t ht => hf value t ht) fun _ _ ht => ht

theorem Accepting.onPart {part : σ → τ} {replace : σ → τ → σ} {q : τ → Prop}
    {operation : Operation τ α} (h : Accepting q operation) (hpart : ∀ s, p s → q (part s))
    (hreplace : ∀ s t, p s → q t → p (replace s t)) :
    Accepting p (onPart part replace operation) := fun s hs => by
  rw [ensures_onPart]
  exact (h (part s) (hpart s hs)).imp (fun _ t ht => hreplace s t hs ht)
    fun _ t ht => ⟨hreplace s t hs ht.1, ht.2⟩

end Operation

open Operation

/-! ## Calls to the store -/

/-- The collections are these. -/
def Metadata.Catalogs (collections : SortedMap CollectionId Collection) (m : Metadata) : Prop :=
  m.records.collections = collections

def GuardedStore.Catalogs (collections : SortedMap CollectionId Collection)
    (store : GuardedStore) : Prop :=
  store.metadata.Catalogs collections

def Allocator.Catalogs (collections : SortedMap CollectionId Collection) (a : Allocator) : Prop :=
  a.store.Catalogs collections

section

variable {α : Type} {collections : SortedMap CollectionId Collection} {id : SegmentId}
  {segment : Segment} {change : Segment → Except Error Segment}

theorem Metadata.accepting_persistSegment (segment : Segment) :
    Accepting (Catalogs collections) (persistSegment segment) := by
  have hput (key : String) (value : Bytes) : Accepting (fun _ => True) (Backend.put key value) := by
    intro backend _
    refine Backend.ensures_call trivial fun error hrefuses => ⟨trivial, ?_⟩
    obtain ⟨fault, -, rfl⟩ := hrefuses
    exact trivial
  have honBackend (key : String) (value : Bytes) :
      Accepting (Catalogs collections) (onBackend (Backend.put key value)) :=
    (hput key value).onPart (fun _ _ => trivial) fun _ _ h _ => h
  exact Accepting.get.bind fun m => (honBackend _ _).bind fun _ => .modify fun _ h => h

theorem Metadata.accepting_addSegment (segment : Segment) :
    Accepting (Catalogs collections) (addSegment segment) := by
  refine Accepting.get.bind fun m => ?_
  dsimp only
  split
  · exact .throw trivial
  · split
    · exact .throw trivial
    · exact accepting_persistSegment segment

theorem Metadata.accepting_updateSegment
    (hchange : ∀ segment error, change segment = .error error → error.Blameless) :
    Accepting (Catalogs collections) (updateSegment id change) := by
  refine Accepting.get.bind fun m => ?_
  split
  · exact .throw trivial
  · refine (Accepting.ofExcept (hchange _)).bind fun updated => ?_
    dsimp only
    split
    · exact .throw trivial
    · exact (accepting_persistSegment updated).bind fun _ => .pure updated

theorem GuardedStore.accepting_onMetadata {call : Operation Metadata α}
    (h : Accepting (Metadata.Catalogs collections) call) :
    Accepting (Catalogs collections) (onMetadata call) :=
  h.onPart (fun _ h => h) fun _ _ _ h => h

namespace Allocator

theorem accepting_onStore {call : Operation GuardedStore α}
    (h : Accepting (GuardedStore.Catalogs collections) call) :
    Accepting (Catalogs collections) (onStore call) :=
  h.onPart (fun _ h => h) fun _ _ _ h => h

theorem accepting_addSegment (segment : Segment) :
    Accepting (Catalogs collections) (onStore (GuardedStore.addSegment segment)) :=
  accepting_onStore (GuardedStore.accepting_onMetadata (Metadata.accepting_addSegment segment))

theorem accepting_update
    (hchange : ∀ segment error, change segment = .error error → error.Blameless) :
    Accepting (Catalogs collections) (update id change) := by
  refine accepting_onStore (Accepting.get.bind fun store => ?_)
  dsimp only
  split
  · exact .throw trivial
  · exact GuardedStore.accepting_onMetadata (Metadata.accepting_updateSegment hchange)

theorem accepting_segment? (id : SegmentId) : Accepting (Catalogs collections) (segment? id) := by
  refine Accepting.get.bind fun a => .ofExcept fun error herror => ?_
  unfold GuardedStore.segment? at herror
  split at herror
  · cases herror
    exact trivial
  · split at herror
    · cases herror
    · split at herror <;> cases herror

theorem accepting_reindex (change : KeyIndex → KeyIndex) :
    Accepting (Catalogs collections) (reindex change) :=
  .modify fun _ h => h

theorem accepting_count (change : SegmentMetrics → SegmentMetrics) :
    Accepting (Catalogs collections) (count change) :=
  .modify fun _ h => h

theorem accepting_onIds {call : Operation IdSource α} (h : Accepting (fun _ => True) call) :
    Accepting (Catalogs collections) (onIds call) :=
  h.onPart (fun _ _ => trivial) fun _ _ h _ => h

theorem accepting_drawId : Accepting (Catalogs collections) (onIds IdSource.drawId) := by
  refine accepting_onIds (Accepting.get.bind fun source => ?_)
  dsimp only
  split
  · exact .throw trivial
  · exact fun _ _ => trivial

theorem accepting_drawTimestamp :
    Accepting (Catalogs collections) (onIds IdSource.drawTimestamp) := by
  refine accepting_onIds (Accepting.get.bind fun source => ?_)
  dsimp only
  split
  · exact .throw trivial
  · split <;> exact fun _ _ => trivial

/-! ## Opening by the allocator -/

theorem accepting_openTarget? (key : SegmentKey) :
    Accepting (Catalogs collections) (openTarget? key) := by
  refine Accepting.get.bind fun a => ?_
  split
  · exact .pure none
  · exact (accepting_segment? _).bind fun found => .pure _

theorem accepting_supersede (id : SegmentId) :
    Accepting (Catalogs collections) (supersede id) := by
  refine accepting_update fun segment error herror => ?_
  unfold Segment.supersede at herror
  split at herror <;> cases herror

theorem accepting_retireTarget (key : SegmentKey) :
    Accepting (Catalogs collections) (retireTarget key) := by
  refine Accepting.get.bind fun a => ?_
  split
  · exact .pure ()
  · refine (accepting_segment? _).bind fun found => ?_
    cases found with
    | none => exact accepting_reindex _
    | some segment =>
      dsimp only
      split
      · exact fun _ h => ⟨h, trivial⟩
      · split
        · exact (accepting_supersede _).bind fun _ => accepting_reindex _
        · exact accepting_reindex _

theorem accepting_openSegment (segment : Segment) :
    Accepting (Catalogs collections) (openSegment segment) := by
  have hgrow (segment : Segment) (error : Error) (herror : segment.grow = .error error) :
      error.Blameless := by
    unfold Segment.grow at herror
    split at herror
    · cases herror
    · cases herror
      exact trivial
  refine (accepting_segment? _).bind fun found => ?_
  cases found with
  | none => exact .throw trivial
  | some stored =>
    dsimp only
    split
    · exact .throw trivial
    · refine (accepting_retireTarget _).bind fun _ => (accepting_update hgrow).bind fun opened => ?_
      exact (accepting_reindex _).bind fun _ => (accepting_count _).bind fun _ => .pure opened

end Allocator

end

end IngestCoordinator
