-- SUMMARY: Barrier, watcher and allocator together seal no segment ahead of a tracked node.
import IngestCoordinator.Proofs.Coordinator.Moments

/-!
# Safe sealing

Three parts advance on their own. Nodes move the barrier; the watcher applies what the
barrier has published, late or not at all; the allocator seals at its own watermark.
Together they keep one order: grants expire before the sealing, which is no later than
the allocator's watermark, then the barrier's, then the last tick of every tracked node.
-/

namespace IngestCoordinator.Coordinator

open Operation

variable {c d e : Coordinator} {marks : Timestamp → Prop} {goal : Option SegmentState}
  {events : List Event} {moment : Moment} {moments : List Moment}

/-! ## The order of the watermarks -/

/-- Nothing has been sealed past the barrier's watermark, no tracked node is behind it, and it
is the one that has been published. -/
structure Abreast (c : Coordinator) : Prop where
  allocator : c.allocator.Sound
  barrier : c.barrier.Sound
  current : c.barrier.Current
  watermark : c.allocator.watermark ≤ c.barrier.watermark
  sealing : SealedBy c.barrier.watermark c.allocator.segments

theorem New.abreast (h : c.New) : c.Abreast where
  allocator := h.allocator.sound
  barrier := h.barrier ▸ Barrier.sound_empty
  current := h.barrier ▸ Barrier.current_empty
  watermark := by
    rw [h.allocator.watermark]
    exact UInt64.zero_le
  sealing := h.allocator.sealedBy _

/-- At marks that the barrier has reached, no effect moves the allocator past the barrier. -/
theorem Effect.watermark_le (h : Effect marks goal c d) (hc : c.Abreast)
    (hmarks : ∀ mark, marks mark → mark ≤ c.barrier.watermark) :
    d.allocator.watermark ≤ c.barrier.watermark := by
  cases h with
  | wrote h => exact h.allocator.watermark ▸ hc.watermark
  | recovered h => exact h.behind _ hc.watermark hc.sealing
  | sealed sealed h _ _ _ => exact h.watermark_le hc.watermark hmarks
  | moved h => exact h.allocator ▸ hc.watermark
  | divided h => exact h.allocator ▸ hc.watermark
  | watched collection groups h => exact h.allocator ▸ hc.watermark
  | delivered h =>
    rw [h]
    exact hc.watermark

/-- No effect moves both the barrier and the segments. -/
theorem Effect.barrier_eq_or (h : Effect marks goal c d) : d.barrier = c.barrier ∨
    d.allocator.segments = c.allocator.segments ∧ c.barrier.Reaches d.barrier := by
  cases h with
  | wrote h => exact .inl h.barrier
  | recovered h => exact .inl h.barrier
  | sealed sealed _ _ hbarrier _ => exact .inl hbarrier
  | moved h => exact .inr ⟨by rw [h.allocator], h.barrier⟩
  | divided h => exact .inl h.barrier
  | watched collection groups h => exact .inl h.barrier
  | delivered h => exact .inl (by rw [h])

theorem Effect.reaches (h : Effect marks goal c d) : c.barrier.Reaches d.barrier := by
  rcases h.barrier_eq_or with hbarrier | ⟨_, hreaches⟩
  · exact hbarrier ▸ .refl _
  · exact hreaches

theorem Effect.abreast (h : Effect marks goal c d) (hc : c.Abreast)
    (hmarks : ∀ mark, marks mark → mark ≤ c.barrier.watermark) : d.Abreast := by
  have hwatermark := UInt64.le_trans (h.watermark_le hc hmarks) h.reaches.watermark_le
  obtain ⟨_, ⟨writes, hevolves, _⟩, _⟩ := h.evolved
  have hsealing : SealedBy d.barrier.watermark c.allocator.segments :=
    hc.sealing.mono h.reaches.watermark_le
  exact ⟨(hevolves.extends hc.allocator).sound, h.reaches.sound hc.barrier,
    h.reaches.current hc.current, hwatermark, hevolves.sealedBy hsealing hwatermark⟩

/-! ## Runs in which the watcher follows the barrier -/

/-- The watcher applies a watermark that the barrier has reached, not always the latest. -/
def following (c : Coordinator) (request : Request) : Prop :=
  ∀ watermark, request = .watermark watermark → watermark ≤ c.barrier.watermark

theorem Operates.abreast (h : Operates following c moment d) (hc : c.Abreast) : d.Abreast := by
  rcases h.effect hc.allocator with hwaits | ⟨goal, _, heffect⟩
  · refine ⟨hwaits.allocator.sound hc.allocator, hwaits.barrier ▸ hc.barrier,
      hwaits.barrier ▸ hc.current, ?_, ?_⟩
    · rw [hwaits.barrier, hwaits.allocator.watermark]
      exact hc.watermark
    · rw [hwaits.barrier, hwaits.allocator.segments]
      exact hc.sealing
  · refine heffect.abreast hc fun mark hmark => ?_
    rcases hmark with hadmits | rfl
    · exact hadmits mark rfl
    · exact UInt64.le_of_eq hc.current

/-- A step in which a segment is sealed leaves the barrier as it was. -/
theorem Operates.barrier_eq (h : Operates following c moment d) (hc : c.Abreast) {id : SegmentId}
    (hopen : ¬ ClosedIn c.allocator.segments id) (hclosed : ClosedIn d.allocator.segments id) :
    d.barrier = c.barrier := by
  rcases h.effect hc.allocator with hwaits | ⟨goal, _, heffect⟩
  · exact hwaits.barrier
  · refine heffect.barrier_eq_or.resolve_right fun hsame => hopen ?_
    rwa [← hsame.1]

theorem abreast_of_operates (h : Path (Operates following) c moments d) (hc : c.Abreast) :
    d.Abreast :=
  h.invariant (fun _ _ _ hc hstep => hstep.abreast hc) hc

theorem watermark_le_of_operates (h : Path (Operates following) c moments d) (hc : c.Abreast) :
    c.barrier.watermark ≤ d.barrier.watermark := by
  induction h with
  | nil => exact UInt64.le_refl _
  | snoc hpath hstep ih =>
    refine UInt64.le_trans ih ?_
    rcases hstep.effect (abreast_of_operates hpath hc).allocator with hwaits | ⟨goal, _, heffect⟩
    · exact hwaits.barrier ▸ UInt64.le_refl _
    · exact heffect.reaches.watermark_le

/-! ## Sealing behind every node -/

/-- All grants of a run on a segment that is closed at its end had expired when it was sealed. -/
theorem Run.expired (h : Run c events d) (hinitial : c.Initial) {id : SegmentId} {segment : Segment}
    (hget : d.allocator.segments.get? id = some segment) (hclosed : segment.state.isImmutable = true) :
    ∀ returned ∈ grantedIn events, returned.grant.segment = id →
      returned.grant.expireTime ≤ segment.sealedTime := by
  intro returned hmem hid
  obtain ⟨_, haccounted⟩ := (h.accounts hinitial).stored hget
  have hon := mem_grantsOn.2 ⟨List.mem_map_of_mem (f := Allocator.Returned.grant) hmem, hid⟩
  exact UInt64.le_trans (haccounted.expires _ hon) (haccounted.sound.expired hclosed)

/-- Nothing is granted any more on a segment that is closed. -/
theorem Run.none_granted (h : Run c events d) (hinitial : c.Initial) {later : List Event}
    (h' : Run d later e) {id : SegmentId} {segment : Segment}
    (hget : d.allocator.segments.get? id = some segment) (hclosed : segment.state.isImmutable = true) :
    ∀ returned ∈ grantedIn later, returned.grant.segment ≠ id := by
  intro returned hmem hid
  have htells := h.tells hinitial.sound
  have hrun := (h'.tells htells.proceeds.sound).proceeds.run
  obtain ⟨_, _, _, hnone⟩ := htells.proceeds.run.advances hinitial.allocator hrun hget
  have hon := mem_grantsOn.2 ⟨List.mem_map_of_mem (f := Allocator.Returned.grant) hmem, hid⟩
  rw [hnone hclosed] at hon
  cases hon

/--
When a segment becomes sealed, no node that the barrier tracks, before the step or
after it, has ticked last before the time of sealing, and every grant on the segment
has expired by then; none follows. What the barrier has once published it never falls
behind, so the watcher may apply it at any later moment.
-/
theorem sealed_behind_every_tick (hnew : c.New) (hrun : Path (Operates following) c moments d) :
    (∀ moment e, Operates following d moment e →
      ∀ id segment, e.allocator.segments.get? id = some segment → segment.state = .sealed →
        ¬ ClosedIn d.allocator.segments id →
          (∀ node tick, d.barrier.ticks.get? node = some tick ∨
            e.barrier.ticks.get? node = some tick → segment.sealedTime ≤ tick) ∧
          (∀ returned ∈ grantedIn (moments.flatMap Moment.told ++ moment.told),
            returned.grant.segment = id → returned.grant.expireTime ≤ segment.sealedTime) ∧
          ∀ later f, Path (Operates following) e later f →
            ∀ returned ∈ grantedIn (later.flatMap Moment.told), returned.grant.segment ≠ id) ∧
    ∀ later e, Path (Operates following) d later e → d.barrier.watermark ≤ e.barrier.watermark := by
  have hd := abreast_of_operates hrun hnew.abreast
  refine ⟨fun moment e hstep id segment hget hsealed hopen => ?_,
    fun later e hlater => watermark_le_of_operates hlater hd⟩
  have he := hstep.abreast hd
  have hclosed := SegmentState.isImmutable_of_sealed hsealed
  -- The bound holds after the step, and the step that seals leaves the barrier alone.
  have hsame := hstep.barrier_eq hd hopen ⟨segment, hget, hclosed⟩
  have hboth : Run c (moments.flatMap Moment.told ++ moment.told) e :=
    (run_of_operates hrun).snoc hstep.step
  have hinitial := hnew.toInitial
  refine ⟨fun node tick htick => ?_, hboth.expired hinitial hget hclosed, fun later f hlater =>
    hboth.none_granted hinitial (run_of_operates hlater) hget hclosed⟩
  rw [← hsame, or_self] at htick
  exact UInt64.le_trans (he.sealing id segment hget hclosed) (he.barrier node tick htick)

/-- Ten rows are granted, and the node ticks twice before the watcher acts. -/
def tickingTwice : List Request :=
  assigning ++ [.sendTimeTick ⟨⟨1⟩, 6⟩, .readTimeTicks, .sendTimeTick ⟨⟨1⟩, 9⟩, .readTimeTicks]

theorem following_tickingTwice : ∀ request ∈ tickingTwice, ∀ c, following c request := by
  simp [tickingTwice, assigning, assignRows, following]

/-- The watcher applies the first watermark when the barrier is at the second. -/
theorem sealed_at_first_watermark :
    ∃ segment, (perform (.watermark 6) (performAll tickingTwice onMemory).2).2.allocator.segments.get?
      ⟨1⟩ = some segment ∧ segment.state = .sealed ∧ 5 ≤ segment.sealedTime ∧
        segment.sealedTime ≤ 9 := by
  have hrun := path_performAll (operates_of_mem tickingTwice
    (by simp [tickingTwice, assigning, assignRows]) following_tickingTwice) onMemory
  have hmark : (performAll tickingTwice onMemory).2.barrier.watermark = 9 := by decide +kernel
  have htick : (performAll tickingTwice onMemory).2.barrier.ticks.get? ⟨1⟩ = some 9 := by
    decide +kernel
  have hgranted : ⟨10, ⟨⟨1⟩, 0, 10, 5⟩⟩ ∈
      grantedIn ((labelsOf momentOf tickingTwice onMemory).flatMap Moment.told) := by decide +kernel
  have hgrowing : ((performAll tickingTwice onMemory).2.allocator.segments.get? ⟨1⟩).map
      Segment.state = some .growing := by decide +kernel
  have hsealing :
      ((perform (.watermark 6) (performAll tickingTwice onMemory).2).2.allocator.segments.get? ⟨1⟩).map
        Segment.state = some .sealed := by decide +kernel
  obtain ⟨segment, hget, hsealed⟩ := Option.map_eq_some_iff.1 hsealing
  have hopen : ¬ ClosedIn (performAll tickingTwice onMemory).2.allocator.segments ⟨1⟩ := by
    rintro ⟨before, hbefore, hclosed⟩
    rw [hbefore, Option.map_some, Option.some_inj] at hgrowing
    rw [hgrowing] at hclosed
    cases hclosed
  have hstep : Operates following (performAll tickingTwice onMemory).2 _ _ :=
    .request (.watermark 6) (by simp) fun watermark heq => by
      cases heq
      rw [hmark]
      decide
  obtain ⟨hticks, hexpired, _⟩ :=
    (sealed_behind_every_tick new_onMemory hrun).1 _ _ hstep ⟨1⟩ segment hget hsealed hopen
  rw [grantedIn_append] at hexpired
  exact ⟨segment, hget, hsealed,
    hexpired ⟨10, ⟨⟨1⟩, 0, 10, 5⟩⟩ (List.mem_append_left _ hgranted) rfl, hticks ⟨1⟩ 9 (.inl htick)⟩

end IngestCoordinator.Coordinator
