-- SUMMARY: In every run the watermark is the least last tick of the tracked nodes.
import IngestCoordinator.Proofs.Barrier
import Mathlib.Data.Set.Basic
import Mathlib.Order.Bounds.Defs

/-!
# The watermark

A barrier that starts without nodes is followed through any run of nodes that join,
leave and report. While a node is tracked the watermark is the least of the last
ticks: no node is behind it, and none but the slowest holds it. Joining settles
nothing; there the equation holds because a node starts at the watermark.
-/

namespace IngestCoordinator.Barrier

variable {a b : Barrier} {node node' : NodeId} {tick least w : Timestamp}

/-- The last ticks of the tracked nodes. -/
def lastTicks (barrier : Barrier) : Set Timestamp :=
  {tick | ∃ node, barrier.ticks.get? node = some tick}

/-- While a node is tracked, the watermark is the least last tick. -/
def Settled (barrier : Barrier) : Prop :=
  barrier.lastTicks.Nonempty → IsLeast barrier.lastTicks barrier.watermark

theorem Settled.sound (h : a.Settled) : a.Sound :=
  fun node _ hget => (h ⟨_, node, hget⟩).2 ⟨node, hget⟩

theorem settled_empty : Settled {} :=
  fun ⟨_, _, hget⟩ => nomatch hget

/-! ## Settling -/

theorem isLeast_of_least? (h : a.least? = some least) : IsLeast a.lastTicks least :=
  ⟨SortedMap.mem_values_iff.1 (List.min?_eq_some_iff.1 h).1,
    fun _ ⟨_, hget⟩ => least?_le h hget⟩

theorem lastTicks_of_least? (h : a.least? = none) : a.lastTicks = ∅ := by
  refine Set.eq_empty_of_forall_notMem fun tick hmem => ?_
  have hvalues := SortedMap.mem_values_iff.2 hmem
  rw [List.min?_eq_none_iff.1 h] at hvalues
  cases hvalues

/-- Raised from behind every tick to the least one, the watermark is the least tick. -/
theorem Sound.settled_settle (h : a.Sound) : a.settle.2.Settled := by
  unfold Barrier.settle
  split
  · rename_i hnone
    rintro ⟨tick, hmem⟩
    rw [lastTicks_of_least? hnone] at hmem
    cases hmem
  · rename_i least hleast
    have hmin := isLeast_of_least? hleast
    split
    · exact fun _ => hmin
    · -- The watermark is no later than the least tick, and here no earlier.
      rename_i hlt
      obtain ⟨node, hget⟩ := hmin.1
      have heq : a.watermark = least :=
        UInt64.le_antisymm (h node least hget) (UInt64.not_lt.1 hlt)
      exact fun _ => heq ▸ hmin

theorem watermark_settle_of_empty (h : a.settle.2.lastTicks = ∅) :
    a.settle.2.watermark = a.watermark := by
  rw [lastTicks, ticks_settle] at h
  unfold settle
  split
  · rfl
  · rename_i least hleast
    have hmem : least ∈ a.lastTicks := (isLeast_of_least? hleast).1
    rw [lastTicks, h] at hmem
    cases hmem

/-- The answer is the new watermark, if it is a new one. -/
theorem watermark?_settle :
    a.settle.1.watermark? = some w ↔
      a.settle.2.watermark ≠ a.watermark ∧ w = a.settle.2.watermark := by
  unfold settle
  split
  · simp [Outcome.watermark?]
  · split
    · rename_i least _ hlt
      have hne : least ≠ a.watermark := (UInt64.ne_of_lt hlt).symm
      simp [Outcome.watermark?, hne, eq_comm]
    · simp [Outcome.watermark?]

/-! ## Joining, leaving and reporting -/

/-- A node that joins starts at the watermark, and so is among the slowest. -/
theorem Settled.add (h : a.Settled) (node : NodeId) : (a.add node).Settled := by
  unfold Barrier.add
  split
  · exact h
  · refine fun _ => ⟨⟨node, SortedMap.get?_insert_self ..⟩, ?_⟩
    rintro tick ⟨node', hget⟩
    obtain ⟨_, rfl⟩ | ⟨_, hget⟩ := SortedMap.get?_insert_cases hget
    · exact UInt64.le_refl _
    · exact h.sound node' tick hget

theorem Settled.remove (h : a.Settled) (node : NodeId) : (a.remove node).2.Settled := by
  unfold Barrier.remove
  split
  · exact (h.sound.erase node).settled_settle
  · exact h

theorem Settled.observe (h : a.Settled) (tick : TimeTick) : (a.observe tick).2.Settled := by
  unfold Barrier.observe
  split
  · exact h
  · rename_i last hlast
    exact (h.sound.insert hlast tick.timestamp).settled_settle

theorem Reaches.settled (h : a.Reaches b) (hsettled : a.Settled) : b.Settled := by
  induction h with
  | refl => exact hsettled
  | add _ node ih => exact ih.add node
  | remove _ node ih => exact ih.remove node
  | observe _ tick ih => exact ih.observe tick

/-! ## Last ticks -/

theorem get?_ticks_add :
    (a.add node).ticks.get? node' =
      if node' = node then some ((a.ticks.get? node).getD a.watermark)
      else a.ticks.get? node' := by
  unfold add
  split
  · rename_i hcontains
    obtain ⟨tick, htick⟩ := SortedMap.contains_iff.1 hcontains
    split
    · rename_i heq
      rw [heq, htick]
      rfl
    · rfl
  · rename_i hcontains
    rw [SortedMap.get?_insert]
    split
    · rw [Option.not_isSome_iff_eq_none.1 hcontains]
      rfl
    · rfl

theorem get?_ticks_remove :
    (a.remove node).2.ticks.get? node' = if node' = node then none else a.ticks.get? node' := by
  unfold remove
  split
  · rw [ticks_settle, SortedMap.get?_erase]
  · rename_i hcontains
    split
    · rename_i heq
      rw [heq]
      exact Option.not_isSome_iff_eq_none.1 hcontains
    · rfl

theorem get?_ticks_observe {tick : TimeTick} :
    (a.observe tick).2.ticks.get? node' =
      if node' = tick.node then (a.ticks.get? node').map (max · tick.timestamp)
      else a.ticks.get? node' := by
  unfold observe
  split
  · rename_i hnone
    split
    · rename_i heq
      rw [heq, hnone]
      rfl
    · rfl
  · rename_i last hlast
    rw [ticks_settle, SortedMap.get?_insert]
    split
    · rename_i heq
      rw [heq, hlast]
      rfl
    · rfl

/-- The node is tracked. -/
def Tracks (barrier : Barrier) (node : NodeId) : Prop :=
  ∃ tick, barrier.ticks.get? node = some tick

theorem tracks_add : (a.add node).Tracks node' ↔ node' = node ∨ a.Tracks node' := by
  simp only [Tracks, get?_ticks_add]
  split
  · rename_i heq
    exact ⟨fun _ => .inl heq, fun _ => ⟨_, rfl⟩⟩
  · rename_i hne
    exact ⟨.inr, fun h => h.resolve_left hne⟩

theorem tracks_remove : (a.remove node).2.Tracks node' ↔ node' ≠ node ∧ a.Tracks node' := by
  simp only [Tracks, get?_ticks_remove]
  split
  · rename_i heq
    exact ⟨(fun ⟨_, h⟩ => nomatch h), fun h => absurd heq h.1⟩
  · rename_i hne
    exact ⟨fun h => ⟨hne, h⟩, fun h => h.2⟩

theorem tracks_observe (tick : TimeTick) : (a.observe tick).2.Tracks node ↔ a.Tracks node := by
  simp only [Tracks, get?_ticks_observe, ← Option.isSome_iff_exists]
  split
  · rw [Option.isSome_map]
  · exact Iff.rfl

/-! ## Events -/

/-- What happens to a barrier. -/
inductive Event where
  | joins (node : NodeId)
  | leaves (node : NodeId)
  | reports (tick : TimeTick)
  deriving DecidableEq, Repr

/-- What is answered to an event, and what becomes of the barrier. A node that joins is not
answered. -/
def Event.happen (barrier : Barrier) : Event → Outcome × Barrier
  | .joins node => (.held, barrier.add node)
  | .leaves node => barrier.remove node
  | .reports tick => barrier.observe tick

/-- What becomes of a barrier in a run of events. -/
def afterwards (barrier : Barrier) (events : List Event) : Barrier :=
  events.foldl (fun barrier event => (event.happen barrier).2) barrier

/-- What an event does to a barrier, and what is answered to it. -/
structure Event.Does (event : Event) (before : Barrier) (answer : Outcome) (after : Barrier) :
    Prop where
  /-- The watermark never moves back, -/
  rises : before.watermark ≤ after.watermark
  /-- and when no node is left it stays. -/
  stays : after.lastTicks = ∅ → after.watermark = before.watermark
  /-- A tracked node that does not leave stays tracked, and its last tick never moves back. -/
  keeps : ∀ node tick, before.ticks.get? node = some tick → event ≠ .leaves node →
    ∃ next, after.ticks.get? node = some next ∧ tick ≤ next
  /-- A watermark is answered exactly when it is a new one. -/
  answers : ∀ w, answer.watermark? = some w ↔
    after.watermark ≠ before.watermark ∧ w = after.watermark

theorem reaches_happen (a : Barrier) (event : Event) : a.Reaches (event.happen a).2 :=
  match event with
  | .joins node => .add (.refl a) node
  | .leaves node => .remove (.refl a) node
  | .reports tick => .observe (.refl a) tick

theorem reaches_afterwards (a : Barrier) (events : List Event) :
    a.Reaches (a.afterwards events) := by
  induction events generalizing a with
  | nil => exact .refl a
  | cons event events ih => exact (reaches_happen a event).trans (ih _)

theorem watermark?_happen (a : Barrier) (event : Event) :
    (event.happen a).1.watermark? = some w ↔
      (event.happen a).2.watermark ≠ a.watermark ∧ w = (event.happen a).2.watermark := by
  cases event with
  | joins node => simp [Event.happen, Outcome.watermark?, watermark_add]
  | leaves node =>
    simp only [Event.happen, remove]
    split
    · exact watermark?_settle
    · simp [Outcome.watermark?]
  | reports tick =>
    simp only [Event.happen, observe]
    split
    · simp [Outcome.watermark?]
    · exact watermark?_settle

theorem watermark_happen_of_empty (event : Event) :
    (event.happen a).2.lastTicks = ∅ → (event.happen a).2.watermark = a.watermark := by
  cases event with
  | joins node => exact fun _ => watermark_add a node
  | leaves node =>
    simp only [Event.happen, remove]
    split
    · exact watermark_settle_of_empty
    · exact fun _ => rfl
  | reports tick =>
    simp only [Event.happen, observe]
    split
    · exact fun _ => rfl
    · exact watermark_settle_of_empty

theorem get?_happen (event : Event) (h : a.ticks.get? node = some tick)
    (hstays : event ≠ .leaves node) :
    ∃ next, (event.happen a).2.ticks.get? node = some next ∧ tick ≤ next := by
  cases event with
  | joins node' =>
    simp only [Event.happen, get?_ticks_add]
    split
    · rename_i heq
      exact ⟨tick, by rw [← heq, h]; rfl, UInt64.le_refl _⟩
    · exact ⟨tick, h, UInt64.le_refl _⟩
  | leaves node' =>
    have hne : node ≠ node' := fun heq => hstays (heq ▸ rfl)
    simp only [Event.happen, get?_ticks_remove, if_neg hne]
    exact ⟨tick, h, UInt64.le_refl _⟩
  | reports report =>
    simp only [Event.happen, get?_ticks_observe]
    split
    · exact ⟨max tick report.timestamp, by rw [h]; rfl, Word.le_max_left ..⟩
    · exact ⟨tick, h, UInt64.le_refl _⟩

theorem does_happen (a : Barrier) (event : Event) :
    event.Does a (event.happen a).1 (event.happen a).2 where
  rises := (reaches_happen a event).watermark_le
  stays := watermark_happen_of_empty event
  keeps _ _ := get?_happen event
  answers _ := watermark?_happen a event

/-! ## Runs -/

theorem get?_afterwards (events : List Event) (h : a.ticks.get? node = some tick)
    (hstays : .leaves node ∉ events) :
    ∃ next, (a.afterwards events).ticks.get? node = some next ∧ tick ≤ next := by
  induction events generalizing a tick with
  | nil => exact ⟨tick, h, UInt64.le_refl _⟩
  | cons event events ih =>
    obtain ⟨hevent, hevents⟩ := List.ne_and_not_mem_of_not_mem_cons hstays
    obtain ⟨mid, hmid, hle⟩ := get?_happen event h hevent.symm
    obtain ⟨next, hnext, hle'⟩ := ih hmid hevents
    exact ⟨next, hnext, UInt64.le_trans hle hle'⟩

/-- In every run of a new barrier, the watermark is the least last tick while a node is
tracked. It only rises, from any moment on; a node's last tick only rises for as long as the
node does not leave; and what is answered is each new watermark and nothing else. -/
theorem watermark_is_least (events : List Event) :
    let barrier := afterwards {} events
    barrier.Settled ∧
    (∀ event : Event, event.Does barrier (event.happen barrier).1 (event.happen barrier).2) ∧
    ∀ later, barrier.watermark ≤ (barrier.afterwards later).watermark ∧
      ∀ node tick, barrier.ticks.get? node = some tick → .leaves node ∉ later →
        ∃ next, (barrier.afterwards later).ticks.get? node = some next ∧ tick ≤ next := by
  intro barrier
  refine ⟨(reaches_afterwards {} events).settled settled_empty, does_happen barrier, ?_⟩
  exact fun later => ⟨(reaches_afterwards barrier later).watermark_le,
    fun _ _ => get?_afterwards later⟩

/-- Two nodes join and report; the slower one leaves, and the watermark moves on to the other. -/
theorem watermark_follows_slower :
    let barrier := afterwards {}
      [.joins ⟨1⟩, .joins ⟨2⟩, .reports ⟨⟨1⟩, 20⟩, .reports ⟨⟨2⟩, 10⟩]
    IsLeast barrier.lastTicks barrier.watermark ∧ barrier.watermark = 10 ∧
    (barrier.remove ⟨2⟩).1.watermark? = some 20 ∧
    ∃ next, (barrier.remove ⟨2⟩).2.ticks.get? ⟨1⟩ = some next ∧ 20 ≤ next := by
  intro barrier
  obtain ⟨hsettled, hdoes, hlater⟩ := watermark_is_least
    [.joins ⟨1⟩, .joins ⟨2⟩, .reports ⟨⟨1⟩, 20⟩, .reports ⟨⟨2⟩, 10⟩]
  refine ⟨hsettled ⟨20, ⟨1⟩, by decide⟩, by decide, ?_, ?_⟩
  · exact ((hdoes (.leaves ⟨2⟩)).answers 20).2 ⟨by decide, by decide⟩
  · exact (hlater [.leaves ⟨2⟩]).2 ⟨1⟩ 20 (by decide) (by decide)

end IngestCoordinator.Barrier
