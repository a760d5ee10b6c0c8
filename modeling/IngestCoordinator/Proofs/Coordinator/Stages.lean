-- SUMMARY: In every run stored segments go through their stages one at a time.
import IngestCoordinator.Proofs.Allocator.Stages
import IngestCoordinator.Proofs.Coordinator.Effects
import IngestCoordinator.Proofs.Path

/-!
# Stages in a run

Whatever a coordinator and its allocator are asked, whatever writes fail, and however
often the process is restarted: from one moment to the next each stored segment stays
where it is or goes one stage further. What is written once is never written again,
and a segment is flushed at the time of the first completed flush that is handled
without error once it has been sealed.
-/

namespace IngestCoordinator

open Operation

/-! ## Single steps -/

namespace Allocator

variable {a b : Allocator} {completions : List FlushCompleted} {goal : Option SegmentState}
  {grants : List Grant}

/-- The completed flushes that a request handles without error. -/
def handledBy : Request → Allocator → List FlushCompleted
  | .completeFlush completed, a => handled [completed] a
  | _, _ => []

/-- Each stored segment has gone one stage further at most, as the completed flushes say. -/
structure Turns (completions : List FlushCompleted) (a b : Allocator) : Prop where
  sound : b.Sound
  accounts : ∃ grants, Accounts grants b.segments
  steps : ∀ id segment, a.segments.get? id = some segment →
    ∃ segment', b.segments.get? id = some segment' ∧ segment.Steps segment'
  heeds : a.Heeds completions b

theorem Serves.turns (h : a.Serves goal b) (haccounts : Accounts grants a.segments)
    (hheeds : a.Heeds completions b) : a.Turns completions b where
  sound := h.sound
  accounts := h.accounts haccounts
  steps id segment hget := by
    obtain ⟨segment', hget', hserves⟩ := h.stored haccounts hget
    exact ⟨segment', hget', hserves.steps⟩
  heeds := hheeds

theorem turns_perform (request : Request) (hsound : a.Sound) (haccounts : Accounts grants a.segments) :
    a.Turns (handledBy request a) (perform request a).2 := by
  obtain ⟨goal, hserves, hgoal⟩ := serves_perform request hsound
  refine hserves.turns haccounts ?_
  rcases hgoal with ⟨completed, rfl⟩ | hgoal
  · exact heeds_handled [completed] hsound
  · cases request with
    | completeFlush completed => exact heeds_handled [completed] hsound
    | _ => exact hserves.heeds haccounts hgoal

end Allocator

namespace Coordinator

variable {c d e : Coordinator} {completions : List FlushCompleted} {marks : Timestamp → Prop}
  {goal : Option SegmentState} {grants : List Grant} {labels : List (List FlushCompleted)}

/-- The completed flushes that a request handles without error. -/
def handledBy : Request → Coordinator → List FlushCompleted
  | .readFlushes, c => Allocator.handled c.flushes.unread c.allocator
  | _, _ => []

/--
One thing happens. The coordinator or the allocator alone is asked for something, or
backend, identifiers and clock go their way, or the process is restarted on what the
backend has kept, to be recovered when it is asked to.
-/
inductive Happens : Coordinator → List FlushCompleted → Coordinator → Prop where
  /-- Any request but one to settle, which is several others. -/
  | request {c : Coordinator} (request : Request) (h : request ≠ .settle) :
    Happens c (handledBy request c) (perform request c).2
  | allocator {c : Coordinator} (request : Allocator.Request) :
    Happens c (Allocator.handledBy request c.allocator)
      { c with allocator := (Allocator.perform request c.allocator).2 }
  | surroundings {c d : Coordinator} (h : c.allocator.Surroundings d.allocator) : Happens c [] d
  | restarted {c d : Coordinator} (h : restart c = .ok () d) : Happens c [] d

theorem allocator_readFlushes (c : Coordinator) :
    c.readFlushes.allocator = c.flushes.unread.foldl
      (fun a completed => ((Allocator.handleFlushCompleted completed).attempt a).2) c.allocator :=
  (List.foldl_hom Coordinator.allocator fun _ _ => rfl).symm

theorem turns_perform (request : Request) (hsettle : request ≠ .settle)
    (hsound : c.allocator.Sound) (haccounts : Accounts grants c.allocator.segments) :
    c.allocator.Turns (handledBy request c) (perform request c).2.allocator := by
  obtain ⟨goal', hevolved, hgoal⟩ := (effect_perform request hsettle hsound).evolved
  have hserves : c.allocator.Serves goal' (perform request c).2.allocator :=
    .of_evolved (hevolved.mono fun _ hadmits => hadmits.1) hsound
  refine hserves.turns haccounts ?_
  cases request with
  | readFlushes =>
    -- The only request that has segments flushed: one completed flush after the other.
    have hheeds := Allocator.heeds_handled c.flushes.unread hsound
    rwa [← allocator_readFlushes] at hheeds
  | _ => exact hserves.heeds haccounts fun h => nomatch hgoal h

theorem turns_restart (h : restart c = .ok () d) (hsound : c.allocator.Sound)
    (haccounts : Accounts grants c.allocator.segments) : c.allocator.Turns [] d.allocator := by
  obtain ⟨hsame, hsound'⟩ := segments_restart h hsound
  have hserves : c.allocator.Serves none d.allocator := .of_segments_eq hsame hsound'
  exact hserves.turns haccounts (.of_segments_eq hsame)

theorem Happens.turns (h : Happens c completions d) (hsound : c.allocator.Sound)
    (haccounts : Accounts grants c.allocator.segments) :
    c.allocator.Turns completions d.allocator := by
  cases h with
  | request request hsettle => exact turns_perform request hsettle hsound haccounts
  | allocator request => exact Allocator.turns_perform request hsound haccounts
  | surroundings h =>
    have hserves : c.allocator.Serves none d.allocator := .of_segments_eq h.segments (h.sound hsound)
    exact hserves.turns haccounts (.of_segments_eq h.segments)
  | restarted h => exact turns_restart h hsound haccounts

/-! ## Runs -/

/-- The store reads truthfully and the grants on its segments add up. -/
def Ready (c : Coordinator) : Prop :=
  c.allocator.Sound ∧ ∃ grants, Accounts grants c.allocator.segments

theorem Happens.ready (h : Happens c completions d) (hready : c.Ready) : d.Ready := by
  obtain ⟨hsound, _, haccounts⟩ := hready
  have hturns := h.turns hsound haccounts
  exact ⟨hturns.sound, hturns.accounts⟩

theorem Initial.ready (h : c.Initial) : c.Ready := by
  refine ⟨h.allocator.sound, [], ?_⟩
  rw [h.allocator.noSegments]
  exact .empty

/-- The completed flushes of a run count in the order in which they are handled. -/
theorem heeds_of_path (h : Path Happens c labels d) (hready : c.Ready) :
    c.allocator.Heeds labels.flatten d.allocator := by
  induction h with
  | nil => exact .refl _
  | snoc hpath hstep ih =>
    obtain ⟨hsound, _, haccounts⟩ := hpath.invariant (fun _ _ _ hc h => h.ready hc) hready
    have hheeds := ih.trans (hstep.turns hsound haccounts).heeds
    simpa using hheeds

theorem happens_of_mem (requests : List Request) (hsettle : .settle ∉ requests) :
    ∀ request ∈ requests, ∀ c, Happens c (handledBy request c) (perform request c).2 :=
  fun request hmem _ => .request request (ne_of_mem_of_not_mem hmem hsettle)

/-- To settle is no step, but a run of its own. -/
theorem happens_settle (c : Coordinator) : ∃ labels, Path Happens c labels c.settle :=
  exists_path_settle (happens_of_mem duties settle_notMem_duties) c

/--
From one moment of a run to the next each stored segment stays in its state or takes
the next one, and changes nothing that it may not change. A sealed segment is flushed
by the first completed flush that is handled without error, at the time that it names;
completed flushes of a flushed segment change nothing.
-/
theorem stages_in_order (hinitial : c.Initial) (hrun : Path Happens c labels d) :
    (∀ completions e, Happens d completions e →
      ∀ id segment, d.allocator.segments.get? id = some segment →
        ∃ segment', e.allocator.segments.get? id = some segment' ∧ segment.Steps segment') ∧
    (∀ later e, Path Happens d later e →
      ∀ id segment, d.allocator.segments.get? id = some segment → segment.state = .sealed →
        ∃ segment', e.allocator.segments.get? id = some segment' ∧
          segment.FlushedBy later.flatten segment') ∧
    ∀ completed segment, d.allocator.segments.get? completed.segment = some segment →
      segment.state = .flushed →
        Allocator.handleFlushCompleted completed d.allocator = .ok .alreadyFlushed d.allocator := by
  have hready : d.Ready := hrun.invariant (fun _ _ _ hc h => h.ready hc) hinitial.ready
  obtain ⟨hsound, _, haccounts⟩ := hready
  refine ⟨fun completions e hstep => (hstep.turns hsound haccounts).steps, ?_, ?_⟩
  · intro later e hlater id segment hget hsealed
    obtain ⟨segment', hget', hheeds⟩ := heeds_of_path hlater ⟨hsound, _, haccounts⟩ id segment hget
    exact ⟨segment', hget', hheeds.sealed hsealed⟩
  · exact fun completed segment hget hflushed =>
      Allocator.handleFlushCompleted_flushed hsound hget hflushed

/-- Ten rows are granted, and their segment is sealed. -/
def sealingOnce : List Request :=
  assigning ++ [.watermark 9]

/-- The segment is reported as flushed twice, with the later time first. -/
def flushingTwice : List Request :=
  [.sendFlushCompleted ⟨⟨1⟩, 12⟩, .sendFlushCompleted ⟨⟨1⟩, 11⟩, .readFlushes]

/-- The report that is handled first counts. -/
theorem flushed_at_first_report :
    ∃ segment, (performAll flushingTwice (performAll sealingOnce onMemory).2).2.allocator.segments.get?
      ⟨1⟩ = some segment ∧ segment.state = .flushed ∧ segment.flushedTime = 12 := by
  have hstate : ((performAll sealingOnce onMemory).2.allocator.segments.get? ⟨1⟩).map
      (fun segment => (segment.id, segment.state)) = some (⟨1⟩, .sealed) := by decide +kernel
  have hhandled : (labelsOf handledBy flushingTwice (performAll sealingOnce onMemory).2).flatten =
      [⟨⟨1⟩, 12⟩, ⟨⟨1⟩, 11⟩] := by decide +kernel
  have hsealing := path_performAll
    (happens_of_mem sealingOnce (by simp [sealingOnce, assigning, assignRows])) onMemory
  have hflushing := path_performAll (happens_of_mem flushingTwice (by simp [flushingTwice]))
    (performAll sealingOnce onMemory).2
  obtain ⟨segment, hget, hsegment⟩ := Option.map_eq_some_iff.1 hstate
  rw [Prod.mk.injEq] at hsegment
  obtain ⟨hid, hsealed⟩ := hsegment
  have hflushes := (stages_in_order initial_onMemory hsealing).2.1 _ _ hflushing ⟨1⟩ segment hget
    hsealed
  rw [hhandled] at hflushes
  obtain ⟨segment', hget', hflushed⟩ := hflushes
  rw [Segment.FlushedBy, hid] at hflushed
  exact ⟨segment', hget', hflushed⟩

end Coordinator

end IngestCoordinator
