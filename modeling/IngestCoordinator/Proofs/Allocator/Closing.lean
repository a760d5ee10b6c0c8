-- SUMMARY: Sealing lists exactly the segments that it has sealed.
import IngestCoordinator.Proofs.Allocator.Granting
import IngestCoordinator.Proofs.Segment.Lifecycle

/-!
# Closing

Both ways of sealing list the segments that they have sealed. By the time the list
is there each of them is stored as sealed, and whatever is done after it to other
segments leaves it so. If the store reads truthfully the list misses none.
-/

namespace IngestCoordinator

/-- The segment that has been sealed, if any. -/
def SealStep.closed : SealStep → List Segment
  | .sealed segment => [segment]
  | .deferred | .skipped => []

namespace Allocator

open Operation

variable {a b c : Allocator} {sealed sealed' : List Segment}

theorem Quiet.closedIn (h : a.Quiet b) {id : SegmentId} (hclosed : ClosedIn a.segments id) :
    ClosedIn b.segments id := by
  obtain ⟨writes, hevolves, _⟩ := h
  exact hevolves.history.closedIn hclosed

/-- All of the listed segments are stored as sealed. -/
def Closed (segments : List Segment) (a : Allocator) : Prop :=
  ∀ segment ∈ segments, ClosedIn a.segments segment.id

/-- The write supersedes a segment. -/
def Supersedes (write : Write) : Prop :=
  ∃ id, write = .change id .supersede

theorem Supersedes.noGrant {write : Write} (h : Supersedes write) : NoGrant write := by
  obtain ⟨id, rfl⟩ := h
  rfl

theorem Supersedes.sealTime?_eq_none {write : Write} (h : Supersedes write) :
    write.sealTime? = none := by
  obtain ⟨id, rfl⟩ := h
  rfl

/-! ## Listing what is sealed -/

/-- The segments that have been sealed are those that are listed, and are stored as such. -/
structure Closes (sealed : List Segment) (a b : Allocator) : Prop where
  quiet : a.Quiet b
  closed : Closed sealed b
  origin : ∀ segment ∈ sealed, ∃ stored, b.segments.get? segment.id = some stored ∧
    segment.SameOrigin stored
  listed : ∀ id, ClosedIn b.segments id →
    ClosedIn a.segments id ∨ ∃ segment ∈ sealed, segment.id = id

theorem Closes.of_supersedes (h : a.Evolved Supersedes b) : Closes [] a b where
  quiet := (h.mono fun _ => Supersedes.noGrant).quiet
  closed := List.forall_mem_nil _
  origin := List.forall_mem_nil _
  listed id hclosed := by
    obtain ⟨writes, hevolves, hall⟩ := h
    exact .inl (hevolves.history.closedIn_of_unsealed
      (fun write hmem => (hall write hmem).sealTime?_eq_none) hclosed)

theorem Closes.of_eq (hstore : b.store = a.store) (hwatermark : a.watermark ≤ b.watermark)
    (hcutoff : a.cutoff ≤ b.cutoff := by exact UInt64.le_refl _) : Closes [] a b :=
  .of_supersedes (.of_eq hstore hwatermark hcutoff)

theorem Closes.trans (h : Closes sealed a b) (h' : Closes sealed' b c) :
    Closes (sealed ++ sealed') a c where
  quiet := h.quiet.trans h'.quiet
  closed := List.forall_mem_append.2
    ⟨fun segment hmem => h'.quiet.closedIn (h.closed segment hmem), h'.closed⟩
  origin := by
    refine List.forall_mem_append.2 ⟨fun segment hmem => ?_, h'.origin⟩
    obtain ⟨stored, hget, hsame⟩ := h.origin segment hmem
    obtain ⟨writes, hevolves, _⟩ := h'.quiet
    obtain ⟨stored', hget', hsame'⟩ := hevolves.history.sameOrigin hget
    exact ⟨stored', hsame.id ▸ hget', hsame.trans hsame'⟩
  listed id hclosed := by
    rcases h'.listed id hclosed with hbefore | ⟨segment, hmem, hid⟩
    · refine (h.listed id hbefore).imp_right ?_
      rintro ⟨segment, hmem, hid⟩
      exact ⟨segment, List.mem_append_left _ hmem, hid⟩
    · exact .inr ⟨segment, List.mem_append_right _ hmem, hid⟩

/-- Sealing a segment closes it, or nothing. -/
theorem ensures_sealSegment_closes (id : SegmentId) {time : Timestamp} (hbound : time ≤ a.watermark) :
    Ensures (sealSegment id time) a (fun segment b => Closes [segment] a b)
      (fun _ b => Closes [] a b) := by
  have hquiet := quietly_sealSegment id (UInt64.le_refl time) a hbound
  have hstored : Ensures (sealSegment id time) a
      (fun segment b => segment.state.isImmutable = true ∧
        b.segments = a.segments.insert segment.id segment)
      (fun _ b => a.Untouched b) := by
    rw [sealSegment, ensures_bind]
    refine (ensures_update id _).imp (fun updated b h => ?_) fun _ b h => h.1
    obtain ⟨segment, _, hok, _, hstored⟩ := h
    refine ⟨?_, hstored.segments⟩
    rcases Segment.sealAt_eq_ok_iff.1 hok with ⟨hclosed, rfl⟩ | ⟨_, _, rfl⟩
    · exact hclosed
    · rfl
  refine (hquiet.and hstored).imp (fun segment b h => ?_)
    fun _ b h => .of_supersedes h.2.wrote.evolved
  obtain ⟨hquiet, hclosed, hsegments⟩ := h
  have hget : b.segments.get? segment.id = some segment := by
    rw [hsegments, SortedMap.get?_insert, if_pos rfl]
  refine ⟨hquiet, List.forall_mem_singleton.2 ⟨segment, hget, hclosed⟩,
    List.forall_mem_singleton.2 ⟨segment, hget, .refl segment⟩, fun id' hclosed' => ?_⟩
  -- One record has been written, so what else is closed was closed before.
  by_cases hid : id' = segment.id
  · exact .inr ⟨segment, List.mem_singleton_self _, hid.symm⟩
  · obtain ⟨segment', hget', hclosed'⟩ := hclosed'
    rw [hsegments, SortedMap.get?_insert, if_neg hid] at hget'
    exact .inl ⟨segment', hget', hclosed'⟩

theorem ensures_supersede_closes (id : SegmentId) : Ensures (supersede id) a
    (fun _ b => Closes [] a b) (fun _ b => Closes [] a b) :=
  (writes_supersede ⟨id, rfl⟩ a (UInt64.le_refl _)).imp (fun _ _ hb => .of_supersedes hb.evolved)
    fun _ _ hb => .of_supersedes hb.evolved

/-! ## On request -/

theorem ensures_sealOrDefer_closes (key : SegmentKey) (id : SegmentId) {watermark : Timestamp}
    (htruthful : a.store.Truthful) (hbound : watermark ≤ a.watermark) :
    Ensures (sealOrDefer key id watermark) a (fun step b => Closes step.closed a b)
      (fun _ b => Closes [] a b) := by
  have hreindexed {sealed : List Segment} {b : Allocator} (h : Closes sealed a b)
      (index : KeyIndex) : Closes sealed a { b with index } := by
    simpa using h.trans (.of_eq (b := { b with index }) rfl (UInt64.le_refl _))
  rw [sealOrDefer, ensures_bind, ensures_segment?_iff htruthful]
  split
  · exact .of_eq rfl (UInt64.le_refl _)
  · split
    · rw [ensures_bind]
      exact (ensures_sealSegment_closes id hbound).imp (fun _ _ h => hreindexed h _) fun _ _ h => h
    · split
      · rw [ensures_bind]
        exact (ensures_supersede_closes id).imp (fun _ _ h => hreindexed h _) fun _ _ h => h
      · exact .of_eq rfl (UInt64.le_refl _)

theorem closes_sealEach (key : SegmentKey) {watermark : Timestamp} (ids : List SegmentId)
    (htruthful : a.store.Truthful) (hbound : watermark ≤ a.watermark) :
    Closes (sealEach key watermark ids a).1.sealed a (sealEach key watermark ids a).2 := by
  induction ids generalizing a with
  | nil => exact .of_eq rfl (UInt64.le_refl _)
  | cons id ids ih =>
    have hfirst := (ensures_sealOrDefer_closes key id htruthful hbound).attempt
    simp only [sealEach, step_bind]
    generalize (sealOrDefer key id watermark).attempt a = attempted at hfirst ⊢
    obtain ⟨result, b⟩ := attempted
    have hrest (hquiet : a.Quiet b) :=
      ih (hquiet.truthful htruthful) (UInt64.le_trans hbound hquiet.watermark)
    cases result with
    | ok step =>
      have hboth := Closes.trans hfirst (hrest (Closes.quiet hfirst))
      -- Only a segment that has been sealed is put on the list.
      cases step with
      | sealed segment => exact hboth
      | deferred => exact hboth
      | skipped => exact hboth
    | error e => exact Closes.trans hfirst (hrest (Closes.quiet hfirst))

theorem closes_sealKeys {watermark : Timestamp} (keys : List SegmentKey)
    (htruthful : a.store.Truthful) (hbound : watermark ≤ a.watermark) :
    Closes (sealKeys watermark keys a).1.sealed a (sealKeys watermark keys a).2 := by
  induction keys generalizing a with
  | nil => exact .of_eq rfl (UInt64.le_refl _)
  | cons key keys ih =>
    have hfirst := closes_sealEach key (((a.index.get? key).map KeyEntry.segmentIds).getD [])
      htruthful hbound
    simp only [sealKeys, step_bind, step_get, step_modify, step_pure]
    generalize sealEach key watermark (((a.index.get? key).map KeyEntry.segmentIds).getD []) a =
      attempted at hfirst ⊢
    obtain ⟨outcome, b⟩ := attempted
    have hpruned : Closes [] b { b with index := b.index.prune key } :=
      .of_eq rfl (UInt64.le_refl _)
    have hrest := ih (a := { b with index := b.index.prune key })
      (hfirst.quiet.truthful htruthful) (UInt64.le_trans hbound hfirst.quiet.watermark)
    exact hfirst.trans (hpruned.trans hrest)

/-- A request lists what it has sealed. -/
theorem closes_sealAll (collection : CollectionId) (htruthful : a.store.Truthful) :
    Closes (sealAll collection a).1.sealed a (sealAll collection a).2 :=
  closes_sealKeys _ htruthful (UInt64.le_refl _)

/-! ## As the watermark moves -/

theorem ensures_sealRetired_closes (key : SegmentKey) {watermark : Timestamp}
    (ids : List SegmentId) (htruthful : a.store.Truthful) (hbound : watermark ≤ a.watermark) :
    Ensures (sealRetired key watermark ids) a (fun segments b => Closes segments a b)
      (fun _ _ => False) := by
  induction ids generalizing a with
  | nil => exact .of_eq rfl (UInt64.le_refl _)
  | cons id ids ih =>
    rw [sealRetired, ensures_bind, ensures_segment?_iff htruthful]
    split
    · have hforgotten : Closes [] a { a with index := a.index.forget key id } :=
        .of_eq rfl (UInt64.le_refl _)
      exact (ih (a := { a with index := a.index.forget key id }) htruthful hbound).imp
        (fun _ _ h => hforgotten.trans h) fun _ _ h => h
    · split
      · have hfirst := (ensures_sealSegment_closes id hbound).attempt
        rw [ensures_bind, ensures_ofStep]
        generalize (sealSegment id watermark).attempt a = attempted at hfirst ⊢
        obtain ⟨result, b⟩ := attempted
        cases result with
        | ok segment =>
          have hquiet := Closes.quiet hfirst
          have hforgotten : Closes [] b { b with index := b.index.forget key id } :=
            .of_eq rfl (UInt64.le_refl _)
          simp only [ensures_bind, ensures_pure]
          exact (ih (a := { b with index := b.index.forget key id }) (hquiet.truthful htruthful)
            (UInt64.le_trans hbound hquiet.watermark)).imp
              (fun _ _ h => Closes.trans hfirst (hforgotten.trans h)) fun _ _ h => h
        | error e =>
          -- What cannot be sealed now stays among the retired, and the rest is tried.
          have hquiet := Closes.quiet hfirst
          exact (ih (hquiet.truthful htruthful) (UInt64.le_trans hbound hquiet.watermark)).imp
            (fun _ _ h => Closes.trans hfirst h) fun _ _ h => h
      · exact ih htruthful hbound

theorem ensures_sealReadyOf_closes (key : SegmentKey) {watermark : Timestamp}
    (htruthful : a.store.Truthful) (hbound : watermark ≤ a.watermark) :
    Ensures (sealReadyOf key watermark) a (fun segments b => Closes segments a b)
      (fun _ b => Closes [] a b) := by
  rw [sealReadyOf, ensures_bind, ensures_get]
  dsimp only
  split
  · simp only [ensures_bind, ensures_get]
    exact (ensures_sealRetired_closes key _ htruthful hbound).imp (fun _ _ h => h)
      fun _ _ h => h.elim
  · rename_i target _
    have hsupersedes (id : SegmentId) : Supersedes (.change id .supersede) := ⟨id, rfl⟩
    rw [ensures_bind]
    refine (writes_retireIfFull hsupersedes key target a (UInt64.le_refl _)).imp
      (fun _ b hb => ?_) fun _ _ hb => .of_supersedes hb.evolved
    have hretired : Closes [] a b := .of_supersedes hb.evolved
    rw [ensures_bind, ensures_get]
    exact (ensures_sealRetired_closes key _ (hretired.quiet.truthful htruthful)
      (UInt64.le_trans hbound hretired.quiet.watermark)).imp (fun _ _ h => hretired.trans h)
        fun _ _ h => h.elim

theorem closes_sealReadyKeys {watermark : Timestamp} (keys : List SegmentKey)
    (htruthful : a.store.Truthful) (hbound : watermark ≤ a.watermark) :
    Closes (sealReadyKeys watermark keys a).1 a (sealReadyKeys watermark keys a).2 := by
  induction keys generalizing a with
  | nil => exact .of_eq rfl (UInt64.le_refl _)
  | cons key keys ih =>
    have hfirst := (ensures_sealReadyOf_closes key htruthful hbound).attempt
    simp only [sealReadyKeys, step_bind, step_modify]
    generalize (sealReadyOf key watermark).attempt a = attempted at hfirst ⊢
    obtain ⟨result, b⟩ := attempted
    have hpruned : Closes [] b { b with index := b.index.prune key } :=
      .of_eq rfl (UInt64.le_refl _)
    have hrest (hquiet : a.Quiet b) := hpruned.trans <|
      ih (a := { b with index := b.index.prune key }) (hquiet.truthful htruthful)
        (UInt64.le_trans hbound hquiet.watermark)
    cases result with
    | ok segments => exact Closes.trans hfirst (hrest (Closes.quiet hfirst))
    | error e => exact Closes.trans hfirst (hrest (Closes.quiet hfirst))

/-- The background duty lists what it has sealed. -/
theorem closes_sealReady (watermark : Timestamp) (htruthful : a.store.Truthful) :
    Closes (sealReady watermark a).1 a (sealReady watermark a).2 := by
  have hraised : Closes [] a { a with watermark := max a.watermark watermark } :=
    .of_eq rfl (Word.le_max_left ..)
  exact hraised.trans <| closes_sealReadyKeys
    (a := { a with watermark := max a.watermark watermark }) _ htruthful (UInt64.le_refl _)

end Allocator

end IngestCoordinator
