-- SUMMARY: Whatever an allocator is asked, its counters move by what has become of the segments.
import IngestCoordinator.Proofs.Allocator.Runs
import IngestCoordinator.Proofs.Segment.Gains

/-!
# Counters

An allocator counts a grant, and a segment that takes a step, once the store has written
it. Each operation is made of writes that leave every segment where it is and are not
counted, and of few writes that are counted right after them. If a write fails, nothing
is counted. So the counters move by what the segments have gained, wherever an operation
stops.
-/

namespace IngestCoordinator

/-- The number of segments that have been counted as taken to a state. -/
def SegmentMetrics.transitions (metrics : SegmentMetrics) : SegmentState → Nat
  | .new => 0
  | .growing => metrics.growing
  | .sealed => metrics.sealed
  | .flushed => metrics.flushed

/-- Nothing but failed requests and dropped reports has been counted. -/
def SegmentMetrics.SameCounts (before after : SegmentMetrics) : Prop :=
  ∃ noSegment droppedStatistics droppedFlushes,
    after = { before with noSegment, droppedStatistics, droppedFlushes }

theorem SegmentMetrics.sameCounts_refl (metrics : SegmentMetrics) : metrics.SameCounts metrics :=
  ⟨_, _, _, rfl⟩

theorem SegmentMetrics.SameCounts.of_eq {before after : SegmentMetrics} (h : after = before) :
    before.SameCounts after :=
  h ▸ sameCounts_refl _

section

variable (metrics : SegmentMetrics) (count wanted : UInt64)

theorem SegmentMetrics.rowsGranted_grant :
    (metrics.grant count wanted).rowsGranted = metrics.rowsGranted + count := by
  unfold grant
  dsimp only
  split <;> rfl

/-- A grant is counted once, in full or cut. -/
theorem SegmentMetrics.granted_add_cut_grant :
    (metrics.grant count wanted).granted + (metrics.grant count wanted).cut =
      metrics.granted + metrics.cut + 1 := by
  unfold grant
  dsimp only
  split
  · exact (Nat.add_assoc ..).symm
  · exact Nat.add_right_comm ..

theorem SegmentMetrics.cut_grant :
    (metrics.grant count wanted).cut = metrics.cut + if count < wanted then 1 else 0 := by
  unfold grant
  dsimp only
  split <;> rfl

theorem SegmentMetrics.transitions_grant (state : SegmentState) :
    (metrics.grant count wanted).transitions state = metrics.transitions state := by
  unfold grant
  dsimp only
  split <;> rfl

end

/-- One segment has been counted as taken to the state, and nothing else. -/
structure SegmentMetrics.CountsStep (state : SegmentState) (before after : SegmentMetrics) :
    Prop where
  rows : after.rowsGranted = before.rowsGranted
  granted : after.granted = before.granted
  cut : after.cut = before.cut
  transitions : ∀ state', state' ≠ .new →
    after.transitions state' = before.transitions state' + if state' = state then 1 else 0

/-- A segment on which rows can be granted has not taken all that it can. -/
theorem Segment.nextOffset_le_of_isAllocatable {segment : Segment}
    (h : segment.isAllocatable = true) : segment.nextOffset ≤ segment.capacity := by
  have hroom := UInt64.lt_iff_toNat_lt.1 (isAllocatable_iff.1 h).2.2
  rw [remaining, Saturating.toNat_sub] at hroom
  rw [UInt64.le_iff_toNat_le]
  omega

namespace Allocator

open Operation

variable {α : Type} {a b c base : Allocator} {log log' : List Returned} {id : SegmentId}
  {segment updated : Segment}

/-! ## Balances -/

/-- Fewer rows have been granted than were asked for. -/
def Returned.isCut (returned : Returned) : Bool :=
  returned.grant.count < returned.wanted

/-- The number of rows of some grants. -/
def rowsOf (log : List Returned) : Nat :=
  (log.map fun returned => returned.grant.count.toNat).sum

/--
The counters have moved by the grants that were returned and by the segments that went to
each state; the rows of the grants are those that the segments have gained.
-/
structure Balances (log : List Returned) (a b : Allocator) : Prop where
  onward : Segments.Onward a.segments b.segments
  /-- The counter goes around the word. -/
  rows : b.metrics.rowsGranted = a.metrics.rowsGranted + .ofNat (rowsOf log)
  gained : Segments.gain Segment.rows a.segments b.segments = rowsOf log
  grants : b.metrics.granted + b.metrics.cut = a.metrics.granted + a.metrics.cut + log.length
  cut : b.metrics.cut = a.metrics.cut + log.countP Returned.isCut
  transitions : ∀ state, state ≠ .new → b.metrics.transitions state =
    a.metrics.transitions state + (Segments.entered state a.segments b.segments).card

/-- What is neither stored nor counted does not count. -/
theorem Balances.of_eq (hsegments : b.segments = a.segments)
    (hmetrics : a.metrics.SameCounts b.metrics) : a.Balances [] b := by
  obtain ⟨noSegment, droppedStatistics, droppedFlushes, hmetrics⟩ := hmetrics
  refine ⟨?_, ?_, ?_, ?_, ?_, fun state _ => ?_⟩
  · exact hsegments ▸ .refl _
  · simp [hmetrics, rowsOf]
  · simp [hsegments, rowsOf]
  · simp [hmetrics]
  · simp [hmetrics]
  · rw [Segments.card_entered, hsegments, Segments.gain_self, hmetrics]
    cases state <;> rfl

theorem Balances.trans (h : a.Balances log b) (h' : b.Balances log' c) :
    a.Balances (log ++ log') c := by
  have hrowsOf : rowsOf (log ++ log') = rowsOf log + rowsOf log' := by simp [rowsOf]
  refine ⟨h.onward.trans h'.onward, ?_, ?_, ?_, ?_, fun state hstate => ?_⟩
  · rw [h'.rows, h.rows, hrowsOf, UInt64.ofNat_add, UInt64.add_assoc]
  · rw [Segments.gain_trans h'.onward h.onward.rises_rows h'.onward.rises_rows, h.gained, h'.gained,
      hrowsOf]
  · rw [h'.grants, h.grants, List.length_append, Nat.add_assoc]
  · rw [h'.cut, h.cut, List.countP_append, Nat.add_assoc]
  · have hfirst := h.transitions state hstate
    have hsecond := h'.transitions state hstate
    rw [Segments.card_entered] at hfirst hsecond ⊢
    rw [Segments.gain_trans h'.onward (h.onward.rises_reach state) (h'.onward.rises_reach state),
      hsecond, hfirst, Nat.add_assoc]

/-! ## Single writes -/

theorem Sound.of_store_eq (h : a.Sound) (hstore : b.store = a.store) : b.Sound :=
  ⟨hstore ▸ h.truthful, hstore ▸ h.coherent⟩

theorem Sound.untouched (h : a.Sound) (huntouched : a.Untouched b) : b.Sound where
  truthful := by
    rw [huntouched.rest]
    exact ⟨h.truthful.read, h.truthful.hidden, h.truthful.stale, h.truthful.list⟩
  coherent := h.coherent.sameRecords huntouched.metadata.sameRecords

theorem Sound.stored (h : a.Sound) (hstored : Stored updated a b) : b.Sound where
  truthful := by
    rw [hstored.rest]
    exact ⟨h.truthful.read, h.truthful.hidden, h.truthful.stale, h.truthful.list⟩
  coherent := h.coherent.stored_segment hstored.metadata

theorem Untouched.metrics (h : a.Untouched b) : b.metrics = a.metrics := by
  rw [h.rest]

theorem Stored.metrics (h : Stored updated a b) : b.metrics = a.metrics := by
  rw [h.rest]

theorem Stored.gain (h : Stored updated a b) (measure : Segment → Nat) :
    Segments.gain measure a.segments b.segments =
      measure updated - Segments.measured measure a.segments updated.id := by
  rw [h.segments]
  exact Segments.gain_insert

/-- The store reads truthfully, and nothing has been granted that is not counted. -/
structure Evens (a b : Allocator) : Prop where
  balances : a.Balances [] b
  sound : b.Sound

theorem Evens.refl (h : a.Sound) : a.Evens a :=
  ⟨.of_eq rfl (SegmentMetrics.sameCounts_refl _), h⟩

theorem Evens.trans (h : a.Evens b) (h' : b.Evens c) : a.Evens c :=
  ⟨h.balances.trans h'.balances, h'.sound⟩

theorem Evens.of_eq (h : a.Evens b) (hstore : c.store = b.store)
    (hmetrics : b.metrics.SameCounts c.metrics) : a.Evens c := by
  have hsegments : c.segments = b.segments := by rw [segments, segments, hstore]
  exact h.trans ⟨.of_eq hsegments hmetrics, h.sound.of_store_eq hstore⟩

theorem Evens.untouched (h : a.Evens b) (huntouched : b.Untouched c) : a.Evens c := by
  exact h.trans ⟨.of_eq huntouched.segments (.of_eq huntouched.metrics),
    h.sound.untouched huntouched⟩

/-- A write that leaves a segment where it is gains nothing. -/
theorem Evens.stored (h : a.Evens b) (hstored : Stored updated b c)
    (hget : b.segments.get? updated.id = some segment)
    (hoffset : updated.nextOffset = segment.nextOffset) (hstate : updated.state = segment.state) :
    a.Evens c := by
  refine h.trans ⟨⟨?_, ?_, ?_, ?_, ?_, fun state _ => ?_⟩, h.sound.stored hstored⟩
  · rw [hstored.segments]
    refine Segments.onward_insert fun segment' hget' => ?_
    cases hget.symm.trans hget'
    exact ⟨hoffset ▸ UInt64.le_refl _, hstate ▸ Nat.le_refl _⟩
  · simp [hstored.metrics, rowsOf]
  · rw [hstored.gain, Segments.measured_of_get? hget, Segment.rows, Segment.rows, hoffset,
      Nat.sub_self]
    rfl
  · simp [hstored.metrics]
  · simp [hstored.metrics]
  · rw [Segments.card_entered, hstored.gain, Segments.measured_of_get? hget,
      Segment.reach_of_state_eq hstate, Nat.sub_self, hstored.metrics]
    rfl

/-- A write that takes a segment one step further is counted as that step. -/
theorem Evens.stored_next (h : a.Evens b) (hstored : Stored updated b c)
    (hget : b.segments.get? updated.id = some segment)
    (hoffset : updated.nextOffset = segment.nextOffset)
    (hnext : segment.state.next? = some updated.state) (metrics : SegmentMetrics)
    (hcounts : c.metrics.CountsStep updated.state metrics) : a.Evens { c with metrics } := by
  rw [hstored.metrics] at hcounts
  refine h.trans ⟨⟨?_, ?_, ?_, ?_, ?_, fun state hstate => ?_⟩,
    (h.sound.stored hstored).of_store_eq rfl⟩
  · change Segments.Onward b.segments c.segments
    rw [hstored.segments]
    refine Segments.onward_insert fun segment' hget' => ?_
    cases hget.symm.trans hget'
    rw [SegmentState.rank_next hnext]
    exact ⟨hoffset ▸ UInt64.le_refl _, Nat.le_succ _⟩
  · simp [hcounts.rows, rowsOf]
  · refine (hstored.gain Segment.rows).trans ?_
    rw [Segments.measured_of_get? hget, Segment.rows, Segment.rows, hoffset, Nat.sub_self]
    rfl
  · simp [hcounts.granted, hcounts.cut]
  · simp [hcounts.cut]
  · have hgain := hstored.gain (Segment.reach state)
    rw [Segments.measured_of_get? hget, Segment.reach_next hnext, Nat.add_sub_cancel_left] at hgain
    rw [Segments.card_entered]
    exact (hcounts.transitions state hstate).trans (congrArg _ hgain.symm)

/-- A segment that has just been added has gained nothing yet. -/
theorem Evens.added (h : a.Evens b) (hstored : Stored segment b c) (hfresh : segment.IsFresh)
    (habsent : b.segments.get? segment.id = none) : a.Evens c := by
  have hrows : segment.rows = 0 := by
    rw [hfresh]
    rfl
  refine h.trans ⟨⟨?_, ?_, ?_, ?_, ?_, fun state hstate => ?_⟩, h.sound.stored hstored⟩
  · rw [hstored.segments]
    exact Segments.onward_insert fun segment' hget => nomatch habsent.symm.trans hget
  · simp [hstored.metrics, rowsOf]
  · rw [hstored.gain, hrows, Nat.zero_sub]
    rfl
  · simp [hstored.metrics]
  · simp [hstored.metrics]
  · have hreach : segment.reach state = 0 := by
      rw [hfresh]
      cases state with
      | new => exact absurd rfl hstate
      | growing | sealed | flushed => rfl
    rw [Segments.card_entered, hstored.gain, hreach, Nat.zero_sub, hstored.metrics]
    rfl

/-! ## Parts of operations -/

theorem evens_segment? (id : SegmentId) : Preserves base.Evens (segment? id) :=
  Preserves.get.bind fun _ => .ofExcept _

theorem evens_reindex (change : KeyIndex → KeyIndex) : Preserves base.Evens (reindex change) :=
  .modify fun _ h => h.of_eq rfl (SegmentMetrics.sameCounts_refl _)

theorem evens_count {change : SegmentMetrics → SegmentMetrics}
    (hchange : ∀ metrics : SegmentMetrics, metrics.SameCounts (change metrics)) :
    Preserves base.Evens (count change) :=
  .modify fun b h => h.of_eq rfl (hchange b.metrics)

theorem evens_onIds (call : Operation IdSource α) : Preserves base.Evens (onIds call) :=
  fun b h => by
    have hids (c : Allocator) : (∃ ids, c = { b with ids }) → base.Evens c := by
      rintro ⟨ids, rfl⟩
      exact h.of_eq rfl (SegmentMetrics.sameCounts_refl _)
    exact ensures_onIds.imp (fun _ => hids) fun _ => hids

/-- A change that takes a segment to no state and grants nothing is not counted. -/
theorem evens_update (id : SegmentId) (change : Change) (hgoal : change.goal? = none)
    (hgrant : change.isGrant = false) : Preserves base.Evens (update id change.apply) :=
  fun b h => by
    refine (ensures_update id change.apply).imp (fun updated c hc => ?_)
      fun _ c hc => h.untouched hc.1
    obtain ⟨segment, hget, hok, hid, hstored⟩ := hc
    refine h.stored hstored (hid ▸ hget) (Change.nextOffset_eq hok hgrant) ?_
    rcases Change.state_eq_or_next hok with hstate | ⟨_, hreached⟩
    · exact hstate
    · rw [hgoal] at hreached
      cases hreached

/-- A change that takes a segment to its next state is counted right after it. -/
theorem ensures_update_counted (goal : SegmentState) (change : Change) (h : a.Evens b)
    (hgrant : change.isGrant = false)
    (hstep : ∀ segment updated, b.segments.get? id = some segment →
      change.apply segment = .ok updated → segment.state.next? = some goal ∧ updated.state = goal)
    (bump : SegmentMetrics → SegmentMetrics)
    (hbump : ∀ metrics : SegmentMetrics, metrics.CountsStep goal (bump metrics)) :
    Ensures (update id change.apply) b
      (fun _ c => a.Evens { c with metrics := bump c.metrics }) (fun _ c => a.Evens c) := by
  refine (ensures_update id change.apply).imp (fun updated c hc => ?_)
    fun _ c hc => h.untouched hc.1
  obtain ⟨segment, hget, hok, hid, hstored⟩ := hc
  obtain ⟨hnext, hgoal⟩ := hstep segment updated hget hok
  rw [← hid] at hget
  rw [← hgoal] at hnext
  have hcounts : c.metrics.CountsStep updated.state (bump c.metrics) := hgoal ▸ hbump c.metrics
  exact h.stored_next hstored hget (Change.nextOffset_eq hok hgrant) hnext _ hcounts

theorem evens_supersede (id : SegmentId) : Preserves base.Evens (supersede id) :=
  evens_update id .supersede rfl rfl

theorem evens_onStore {call : Operation GuardedStore α}
    (h : ∀ store, Ensures call store (fun _ store' => store.KeepsSegments store')
      (fun _ store' => store.KeepsSegments store')) : Preserves base.Evens (onStore call) :=
  fun b hb => by
    have hkept (store : GuardedStore) (hkeeps : b.store.KeepsSegments store) :
        base.Evens { b with store } := by
      have hsound : Sound { b with store } := by
        refine ⟨?_, hb.sound.coherent.sameRecords hkeeps.metadata⟩
        obtain ⟨hread, hhidden, hstale, hlist⟩ := hb.sound.truthful
        exact ⟨hkeeps.faults ▸ hread, hkeeps.faults ▸ hhidden, hkeeps.faults ▸ hstale,
          hkeeps.faults ▸ hlist⟩
      exact hb.trans ⟨.of_eq hkeeps.metadata.segments (SegmentMetrics.sameCounts_refl _), hsound⟩
    rw [onStore, ensures_onPart]
    exact (h b.store).imp (fun _ store => hkept store) fun _ store => hkept store

theorem evens_addSegment {segment : Segment} (hfresh : segment.IsFresh) :
    Preserves base.Evens (onStore (GuardedStore.addSegment segment)) := fun b hb => by
  rw [onStore, ensures_onPart, GuardedStore.addSegment, GuardedStore.onMetadata, ensures_onPart]
  refine (Metadata.ensures_addSegment segment).imp (fun _ m h => ?_) fun _ m h => ?_
  · have hstored : Stored segment b { b with store.metadata := m } := ⟨h.2, rfl⟩
    exact hb.added hstored hfresh h.1
  · have huntouched : b.Untouched { b with store.metadata := m } := ⟨h, rfl⟩
    exact hb.untouched huntouched

theorem evens_openTarget? (key : SegmentKey) : Preserves base.Evens (openTarget? key) := by
  refine Preserves.get.bind fun b => ?_
  split
  · exact .pure _
  · exact (evens_segment? _).bind fun _ => .pure _

/-! ## Opening -/

theorem evens_retireTarget (key : SegmentKey) : Preserves base.Evens (retireTarget key) := by
  refine Preserves.get.bind fun b => ?_
  split
  · exact .pure ()
  · refine (evens_segment? _).bind fun found => ?_
    dsimp only
    cases found with
    | none => exact evens_reindex _
    | some segment =>
      dsimp only
      split
      · exact (Preserves.throw _).bind fun _ => by
          split
          · exact (evens_supersede _).bind fun _ => evens_reindex _
          · exact evens_reindex _
      · split
        · exact (evens_supersede _).bind fun _ => evens_reindex _
        · exact evens_reindex _

theorem evens_openSegment (segment : Segment) : Preserves base.Evens (openSegment segment) := by
  refine (evens_segment? _).bind fun found => ?_
  cases found with
  | none => exact .throw _
  | some stored =>
    dsimp only
    split
    · exact .throw _
    · refine (evens_retireTarget _).bind fun _ b hb => ?_
      rw [ensures_bind]
      -- The segment is new when it is written, whatever has been read before.
      refine (ensures_update_counted .growing .grow hb rfl (fun old updated _ hok => ?_)
        (fun metrics => { metrics with growing := metrics.growing + 1 }) fun metrics => ?_).imp
          (fun _ c hc => ?_) fun _ _ hc => hc
      · obtain ⟨hnew, rfl⟩ := Segment.grow_eq_ok_iff.1 hok
        exact ⟨hnew ▸ rfl, rfl⟩
      · exact ⟨rfl, rfl, rfl, fun state _ => by cases state <;> rfl⟩
      · exact hc.of_eq rfl (SegmentMetrics.sameCounts_refl _)

/-! ## Sealing -/

/-- Only a growing segment is sealed, and each that is sealed is counted. -/
theorem ensures_sealSegment_evens (time : Timestamp) (h : a.Evens b)
    (hget : b.segments.get? id = some segment) (hgrowing : segment.state = .growing) :
    Ensures (sealSegment id time) b (fun _ c => a.Evens c) (fun _ c => a.Evens c) := by
  rw [sealSegment, ensures_bind]
  refine (ensures_update_counted .sealed (.sealAt time) h rfl
    (fun old updated hold hok => ?_) (fun metrics => { metrics with sealed := metrics.sealed + 1 })
    fun metrics => ?_).imp (fun _ _ hc => hc) fun _ _ hc => hc
  · cases hget.symm.trans hold
    rcases Segment.sealAt_eq_ok_iff.1 hok with ⟨hclosed, _⟩ | ⟨_, _, rfl⟩
    · rw [hgrowing] at hclosed
      cases hclosed
    · exact ⟨hgrowing ▸ rfl, rfl⟩
  · exact ⟨rfl, rfl, rfl, fun state _ => by cases state <;> rfl⟩

theorem evens_sealOrDefer (key : SegmentKey) (id : SegmentId) (watermark : Timestamp) :
    Preserves base.Evens (sealOrDefer key id watermark) := fun b hb => by
  rw [sealOrDefer, ensures_bind, ensures_segment?_iff hb.sound.truthful]
  split
  · exact (evens_reindex _).bind (fun _ => .pure _) b hb
  · rename_i segment hsome
    obtain ⟨hget, hgrowing⟩ := filter_growing_eq_some hsome
    split
    · rw [ensures_bind]
      exact (ensures_sealSegment_evens watermark hb hget hgrowing).imp
        (fun _ c hc => (evens_reindex _).bind (fun _ => .pure _) c hc) fun _ _ hc => hc
    · split
      · exact ((evens_supersede _).bind fun _ => (evens_reindex _).bind fun _ => .pure _) b hb
      · exact ((evens_reindex _).bind fun _ => .pure _) b hb

theorem evens_prune (key : SegmentKey) : StepPreserves base.Evens
    (modify fun a : Allocator => { a with index := a.index.prune key }) :=
  .modify fun _ h => h.of_eq rfl (SegmentMetrics.sameCounts_refl _)

theorem evens_sealEach (key : SegmentKey) (watermark : Timestamp) (ids : List SegmentId) :
    StepPreserves base.Evens (sealEach key watermark ids) := by
  induction ids with
  | nil => exact .pure _
  | cons id ids ih =>
    refine (evens_sealOrDefer key id watermark).step.bind fun step => ih.bind fun rest => ?_
    split <;> exact .pure _

theorem evens_sealKeys (watermark : Timestamp) (keys : List SegmentKey) :
    StepPreserves base.Evens (sealKeys watermark keys) := by
  induction keys with
  | nil => exact .pure _
  | cons key keys ih =>
    exact StepPreserves.get.bind fun _ => (evens_sealEach key watermark _).bind fun _ =>
      (evens_prune key).bind fun _ => ih.bind fun _ => .pure _

theorem evens_sealAll (collection : CollectionId) : StepPreserves base.Evens (sealAll collection) :=
  StepPreserves.get.bind fun _ => (evens_sealKeys _ _).bind fun _ => .pure _

theorem evens_retireIfFull (key : SegmentKey) (target : SegmentId) :
    Preserves base.Evens (retireIfFull key target) := by
  refine (evens_segment? _).bind fun found => ?_
  split
  · exact evens_reindex _
  · refine Preserves.get.bind fun b => ?_
    dsimp only
    split
    · split
      · exact (evens_supersede _).bind fun _ => evens_reindex _
      · exact evens_reindex _
    · exact .pure _

theorem evens_sealRetired (key : SegmentKey) (watermark : Timestamp) (ids : List SegmentId) :
    Preserves base.Evens (sealRetired key watermark ids) := by
  induction ids with
  | nil => exact .pure _
  | cons id ids ih =>
    intro b hb
    rw [sealRetired, ensures_bind, ensures_segment?_iff hb.sound.truthful]
    split
    · exact (evens_reindex _).bind (fun _ => ih) b hb
    · rename_i segment hsome
      obtain ⟨hget, hgrowing⟩ := filter_growing_eq_some hsome
      split
      · have hsealed := (ensures_sealSegment_evens watermark hb hget hgrowing).attempt_snd
        rw [ensures_bind, ensures_ofStep]
        split
        · exact (evens_reindex _).bind (fun _ => ih.bind fun _ => .pure _) _ hsealed
        · exact ih _ hsealed
      · exact ih b hb

theorem evens_sealReadyOf (key : SegmentKey) (watermark : Timestamp) :
    Preserves base.Evens (sealReadyOf key watermark) := by
  refine Preserves.get.bind fun b => ?_
  dsimp only
  split
  · exact Preserves.get.bind fun _ => evens_sealRetired _ _ _
  · exact (evens_retireIfFull key _).bind fun _ =>
      Preserves.get.bind fun _ => evens_sealRetired _ _ _

theorem evens_sealReadyKeys (watermark : Timestamp) (keys : List SegmentKey) :
    StepPreserves base.Evens (sealReadyKeys watermark keys) := by
  induction keys with
  | nil => exact .pure _
  | cons key keys ih =>
    refine (evens_sealReadyOf key watermark).step.bind fun sealed =>
      (evens_prune key).bind fun _ => ih.bind fun _ => ?_
    split <;> exact .pure _

theorem evens_sealReady (watermark : Timestamp) :
    StepPreserves base.Evens (sealReady watermark) :=
  (StepPreserves.modify fun _ h => h.of_eq rfl (SegmentMetrics.sameCounts_refl _)).bind fun _ =>
    StepPreserves.get.bind fun _ => evens_sealReadyKeys _ _

/-! ## Recovery -/

theorem evens_retireEach (entry : KeyEntry) (group : List Segment) :
    Preserves base.Evens (retireEach entry group) := by
  induction group generalizing entry with
  | nil => exact .pure _
  | cons segment rest ih =>
    rw [retireEach]
    split
    · exact ih entry
    · dsimp only
      split
      · exact (evens_supersede _).bind fun _ => ih _
      · exact ih _

theorem evens_repair (groups : List (SegmentKey × List Segment)) :
    Preserves base.Evens (repair groups) := by
  induction groups with
  | nil => exact .pure _
  | cons group rest ih =>
    exact (evens_retireEach _ _).bind fun _ => ih.bind fun _ => .pure _

theorem evens_recover : Preserves base.Evens recover := by
  refine Preserves.get.bind fun b => (Preserves.ofExcept _).bind fun segments => ?_
  refine (evens_repair _).bind fun index => (Preserves.modify fun c h => ?_).bind fun _ => .pure _
  exact h.of_eq rfl (SegmentMetrics.sameCounts_refl _)

/-! ## Reports -/

theorem evens_dropReport (outcome : ReportOutcome) : Preserves base.Evens (dropReport outcome) :=
  (evens_count fun _ => ⟨_, _, _, rfl⟩).bind fun _ => .pure _

theorem evens_handleReport (report : Report) : Preserves base.Evens (handleReport report) := by
  refine (evens_segment? _).bind fun found => ?_
  cases found with
  | none => exact evens_dropReport _
  | some segment =>
    refine Preserves.get.bind fun b => ?_
    split
    · exact evens_dropReport _
    · split
      · exact evens_dropReport _
      · exact (evens_update _ (.report report.seq report.rowDelta report.memSize) rfl rfl).bind
          fun _ => .pure _

theorem evens_handleBatch? (reports : List Report) :
    StepPreserves base.Evens (handleBatch? reports) :=
  stepPreserves_handleBatch? (fun report => (evens_handleReport report).step) reports

/-- Only a sealed segment is flushed, and each that is flushed is counted. -/
theorem evens_handleFlushCompleted (completed : FlushCompleted) :
    Preserves base.Evens (handleFlushCompleted completed) := fun b hb => by
  rw [handleFlushCompleted, ensures_bind, ensures_segment?_iff hb.sound.truthful]
  cases hget : b.segments.get? completed.segment with
  | none => exact (evens_count fun _ => ⟨_, _, _, rfl⟩).bind (fun _ => .pure _) b hb
  | some segment =>
    dsimp only
    split
    · exact hb
    · exact (evens_count fun _ => ⟨_, _, _, rfl⟩).bind (fun _ => .pure _) b hb
    · exact (evens_count fun _ => ⟨_, _, _, rfl⟩).bind (fun _ => .pure _) b hb
    · rename_i hsealed
      rw [ensures_bind]
      refine (ensures_update_counted .flushed (.flush completed.timestamp) hb rfl
        (fun old updated hold hok => ?_)
        (fun metrics => { metrics with flushed := metrics.flushed + 1 })
        fun metrics => ?_).imp (fun _ _ hc => hc) fun _ _ hc => hc
      · cases hget.symm.trans hold
        rcases Segment.flush_eq_ok_iff.1 hok with ⟨_, rfl⟩ | ⟨hflushed, _⟩
        · exact ⟨hsealed ▸ rfl, rfl⟩
        · cases hsealed.symm.trans hflushed
      · exact ⟨rfl, rfl, rfl, fun state _ => by cases state <;> rfl⟩

/-! ## Requests for rows -/

/-- The counters and the segments move by a grant that is written. -/
theorem Stored.balances_grant {target : Segment} (wanted : UInt64) (grant : Grant)
    (h : Stored updated a b) (hget : a.segments.get? updated.id = some target)
    (hok : target.grant target.nextOffset grant.count grant.expireTime = .ok updated)
    (hcount : grant.count ≤ target.remaining) :
    a.Balances [⟨wanted, grant⟩] { b with metrics := b.metrics.grant grant.count wanted } := by
  obtain ⟨_, hallocatable, hupdated⟩ := Segment.grant_eq_ok_iff.1 hok
  have hstate : updated.state = target.state := by rw [hupdated]
  have hrows : updated.rows = target.rows + grant.count.toNat := by
    have hbounded := Segment.nextOffset_le_of_isAllocatable hallocatable
    rw [hupdated]
    exact (Segment.toNat_nextOffset_add hbounded hcount).1
  refine ⟨?_, ?_, ?_, ?_, ?_, fun state _ => ?_⟩
  · change Segments.Onward a.segments b.segments
    rw [h.segments]
    refine Segments.onward_insert fun segment' hget' => ?_
    cases hget.symm.trans hget'
    have hmore : target.rows ≤ updated.rows := hrows ▸ Nat.le_add_right ..
    exact ⟨UInt64.le_iff_toNat_le.2 hmore, hstate ▸ Nat.le_refl _⟩
  · simp [SegmentMetrics.rowsGranted_grant, h.metrics, rowsOf]
  · refine (h.gain Segment.rows).trans ?_
    rw [Segments.measured_of_get? hget, hrows, Nat.add_sub_cancel_left]
    rfl
  · simp [SegmentMetrics.granted_add_cut_grant, h.metrics]
  · simp [SegmentMetrics.cut_grant, h.metrics, Returned.isCut, List.countP_cons]
  · have hgain := h.gain (Segment.reach state)
    rw [Segments.measured_of_get? hget, Segment.reach_of_state_eq hstate, Nat.sub_self] at hgain
    rw [Segments.card_entered, SegmentMetrics.transitions_grant, h.metrics]
    exact (congrArg (a.metrics.transitions state + ·) hgain).symm

/-- A request for rows is counted as the grant that it answers, and not at all if it fails. -/
theorem ensures_alloc_balances (key : SegmentKey) (wanted : UInt64) (h : a.Sound) :
    Ensures (alloc key wanted) a (fun grant b => a.Balances [⟨wanted, grant⟩] b ∧ b.Sound)
      (fun _ b => a.Evens b) := by
  rw [alloc]
  split
  · exact .refl h
  rw [ensures_bind]
  refine (ensures_openTarget? key h.truthful).imp (fun target b hb => ?_) fun _ _ hb => hb.elim
  obtain ⟨hb, htarget⟩ := hb
  subst b
  cases target with
  | none =>
    change a.Evens _
    exact (Evens.refl h).of_eq rfl ⟨_, _, _, rfl⟩
  | some target =>
    obtain ⟨id, _, hget, _⟩ := htarget target rfl
    obtain rfl := h.coherent.numbered hget
    have hids (ids : IdSource) : a.Evens { a with ids } :=
      (Evens.refl h).of_eq rfl (SegmentMetrics.sameCounts_refl _)
    simp only [ensures_bind, ensures_get, ensures_pure]
    refine ensures_onIds.imp (fun time b hb => ?_) fun _ b hb => ?_
    · obtain ⟨ids, rfl⟩ := hb
      refine (ensures_update target.id _).imp (fun updated b hb => ?_)
        fun _ b hb => (hids ids).untouched hb.1
      obtain ⟨segment, hsegment, hok, hid, hstored⟩ := hb
      cases hget.symm.trans hsegment
      have hgranted := hstored.balances_grant wanted
        ⟨target.id, target.nextOffset, min wanted target.remaining, _⟩ (hid ▸ hget) hok
        (Word.min_le_right _ _)
      exact ⟨(hids ids).balances.trans hgranted, ((hids ids).sound.stored hstored).of_store_eq rfl⟩
    · obtain ⟨ids, rfl⟩ := hb
      exact hids ids

/-- Whatever is asked, the counters move by what is returned and by what becomes of the segments. -/
theorem balances_perform (request : Request) (h : a.Sound) :
    a.Balances (perform request a).1 (perform request a).2 ∧ (perform request a).2.Sound := by
  have heven {b : Allocator} (hb : a.Evens b) : a.Balances [] b ∧ b.Sound := ⟨hb.balances, hb.sound⟩
  cases request with
  | addCollection collection =>
    have hadd := @evens_onStore _ a _ fun _ => GuardedStore.ensures_addCollection collection
    exact heven (hadd.attempt (.refl h))
  | addPartition collection partition =>
    have hadd := @evens_onStore _ a _ fun _ =>
      GuardedStore.ensures_addPartition collection partition
    exact heven (hadd.attempt (.refl h))
  | loadCatalog catalog =>
    have hload := @evens_onStore _ a _ fun _ => catalog.ensures_load
    exact heven (hload.attempt (.refl h))
  | addSegment id key group node capacity openTime =>
    have hfresh : (Segment.fresh id key group node capacity openTime).IsFresh := rfl
    exact heven ((evens_addSegment hfresh).attempt (.refl h))
  | openSegment segment => exact heven ((evens_openSegment segment).attempt (.refl h))
  | alloc key wanted =>
    have halloc := ensures_alloc_balances key wanted h
    unfold Ensures at halloc
    unfold perform
    split at halloc
    · rename_i heq
      simpa only [heq] using halloc
    · rename_i heq
      simpa only [heq] using heven halloc
  | sealAll collection => exact heven (evens_sealAll collection a (.refl h))
  | sealReady watermark => exact heven (evens_sealReady watermark a (.refl h))
  | recover => exact heven (evens_recover.attempt (.refl h))
  | report reports => exact heven (evens_handleBatch? reports a (.refl h))
  | completeFlush completed =>
    exact heven ((evens_handleFlushCompleted completed).attempt (.refl h))
  | setCutoff watermark =>
    exact heven ((Evens.refl h).of_eq rfl (SegmentMetrics.sameCounts_refl _))

end Allocator

end IngestCoordinator
