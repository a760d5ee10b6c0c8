-- SUMMARY: The watermark never moves back, no tracked node is behind it, and each one is published.
import IngestCoordinator.Barrier
import IngestCoordinator.Proofs.SortedMap
import IngestCoordinator.Proofs.Words

/-!
# The barrier

Whatever nodes join, leave or report, the watermark only rises, and it rises no
further than the last tick of every node that is tracked at that moment. What is
published is a cell of its own, which follows the watermark: it is written when the
watermark has risen, and only then.
-/

namespace IngestCoordinator.Barrier

variable {a b c : Barrier} {node : NodeId} {tick last least watermark : Timestamp}

/-- No tracked node is behind the watermark. -/
def Sound (barrier : Barrier) : Prop :=
  ∀ node tick, barrier.ticks.get? node = some tick → barrier.watermark ≤ tick

/-- The least tick is no later than that of any tracked node. -/
theorem least?_le (h : a.least? = some least) (hget : a.ticks.get? node = some tick) :
    least ≤ tick :=
  (List.min?_eq_some_iff.1 h).2 tick (SortedMap.mem_values_iff.2 ⟨node, hget⟩)

/-! ## Settling -/

theorem ticks_settle (a : Barrier) : a.settle.2.ticks = a.ticks := by
  unfold settle
  split
  · rfl
  · split
    · rfl
    · rfl

theorem watermark_le_settle (a : Barrier) : a.watermark ≤ a.settle.2.watermark := by
  unfold settle
  split
  · exact UInt64.le_refl _
  · split
    · rename_i hlt
      exact UInt64.le_of_lt hlt
    · exact UInt64.le_refl _

/-- Raised or not, the watermark stays behind every tracked node. -/
theorem Sound.settle (h : a.Sound) : a.settle.2.Sound := by
  intro node tick hget
  rw [ticks_settle] at hget
  unfold Barrier.settle
  split
  · exact h node tick hget
  · rename_i least hleast
    split
    · exact least?_le hleast hget
    · exact h node tick hget

/-! ## Joining, leaving and ticking -/

theorem Sound.add (h : a.Sound) (node : NodeId) : (a.add node).Sound := by
  unfold Barrier.add
  split
  · exact h
  · intro node' tick hget
    rw [SortedMap.get?_insert] at hget
    split at hget
    · cases hget
      exact UInt64.le_refl _
    · exact h node' tick hget

theorem watermark_add (a : Barrier) (node : NodeId) : (a.add node).watermark = a.watermark := by
  unfold add
  split
  · rfl
  · rfl

theorem Sound.erase (h : a.Sound) (node : NodeId) :
    Sound { a with ticks := a.ticks.erase node } :=
  fun node' tick hget => h node' tick (SortedMap.get?_of_get?_erase hget)

theorem Sound.remove (h : a.Sound) (node : NodeId) : (a.remove node).2.Sound := by
  unfold Barrier.remove
  split
  · exact (h.erase node).settle
  · exact h

theorem watermark_le_remove (a : Barrier) (node : NodeId) :
    a.watermark ≤ (a.remove node).2.watermark := by
  unfold remove
  split
  · exact watermark_le_settle { a with ticks := a.ticks.erase node }
  · exact UInt64.le_refl _

/-- A late tick does not take the node's last one back. -/
theorem Sound.insert (h : a.Sound) (hlast : a.ticks.get? node = some last) (tick : Timestamp) :
    Sound { a with ticks := a.ticks.insert node (max last tick) } := by
  intro node' tick' hget
  obtain ⟨_, rfl⟩ | ⟨_, hget⟩ := SortedMap.get?_insert_cases hget
  · exact UInt64.le_trans (h _ _ hlast) (Word.le_max_left ..)
  · exact h node' tick' hget

theorem Sound.observe (h : a.Sound) (tick : TimeTick) : (a.observe tick).2.Sound := by
  unfold Barrier.observe
  split
  · exact h
  · rename_i last hlast
    exact (h.insert hlast tick.timestamp).settle

theorem watermark_le_observe (a : Barrier) (tick : TimeTick) :
    a.watermark ≤ (a.observe tick).2.watermark := by
  unfold observe
  split
  · exact UInt64.le_refl _
  · exact watermark_le_settle { a with ticks := a.ticks.insert tick.node _ }

/-! ## Whatever happens -/

/-- What becomes of a barrier as nodes join, leave and report. -/
inductive Reaches : Barrier → Barrier → Prop where
  | refl (a : Barrier) : Reaches a a
  | add {a b : Barrier} (h : Reaches a b) (node : NodeId) : Reaches a (b.add node)
  | remove {a b : Barrier} (h : Reaches a b) (node : NodeId) : Reaches a (b.remove node).2
  | observe {a b : Barrier} (h : Reaches a b) (tick : TimeTick) : Reaches a (b.observe tick).2

theorem Reaches.trans (h : a.Reaches b) (h' : b.Reaches c) : a.Reaches c := by
  induction h' with
  | refl => exact h
  | add _ node ih => exact ih.add node
  | remove _ node ih => exact ih.remove node
  | observe _ tick ih => exact ih.observe tick

theorem Reaches.watermark_le (h : a.Reaches b) : a.watermark ≤ b.watermark := by
  induction h with
  | refl => exact UInt64.le_refl _
  | add _ node ih => exact UInt64.le_trans ih (UInt64.le_of_eq (watermark_add _ node).symm)
  | remove _ node ih => exact UInt64.le_trans ih (watermark_le_remove _ node)
  | observe _ tick ih => exact UInt64.le_trans ih (watermark_le_observe _ tick)

theorem Reaches.sound (h : a.Reaches b) (hsound : a.Sound) : b.Sound := by
  induction h with
  | refl => exact hsound
  | add _ node ih => exact ih.add node
  | remove _ node ih => exact ih.remove node
  | observe _ tick ih => exact ih.observe tick

theorem sound_empty : Sound {} :=
  fun _ _ hget => nomatch hget

/-! ## Publishing -/

/-- The latest watermark that has been published is the barrier's. -/
def Current (barrier : Barrier) : Prop :=
  barrier.feed.latest = barrier.watermark

/-- Nothing has happened to the watermark, or it has risen and has been published. -/
inductive Publishes (a b : Barrier) : Prop where
  | stays (hwatermark : b.watermark = a.watermark) (hfeed : b.feed = a.feed)
  | rises (hrises : a.watermark < b.watermark) (hfeed : b.feed = a.feed.publish b.watermark)

theorem publishes_settle (a : Barrier) : a.Publishes a.settle.2 := by
  unfold settle
  split
  · exact .stays rfl rfl
  · split
    · rename_i hlt
      exact .rises hlt rfl
    · exact .stays rfl rfl

/-- The ticks do not matter to it. -/
theorem Publishes.of_ticks {ticks : SortedMap NodeId Timestamp}
    (h : Publishes { a with ticks } b) : a.Publishes b := by
  cases h with
  | stays hwatermark hfeed => exact .stays hwatermark hfeed
  | rises hrises hfeed => exact .rises hrises hfeed

theorem publishes_add (a : Barrier) (node : NodeId) : a.Publishes (a.add node) := by
  unfold add
  split
  · exact .stays rfl rfl
  · exact .stays rfl rfl

theorem publishes_remove (a : Barrier) (node : NodeId) : a.Publishes (a.remove node).2 := by
  unfold remove
  split
  · exact (publishes_settle _).of_ticks
  · exact .stays rfl rfl

theorem publishes_observe (a : Barrier) (tick : TimeTick) : a.Publishes (a.observe tick).2 := by
  unfold observe
  split
  · exact .stays rfl rfl
  · exact (publishes_settle _).of_ticks

/-- A watermark that has risen above the latest one is the latest one now. -/
theorem Current.publish (h : a.Current) (hrises : a.watermark < watermark) :
    a.feed.publish watermark = ⟨watermark, a.feed.version + 1⟩ := by
  unfold Feed.publish
  rw [h]
  exact if_pos hrises

theorem Current.publishes (h : a.Current) (hpublishes : a.Publishes b) : b.Current := by
  cases hpublishes with
  | stays hwatermark hfeed =>
    unfold Current
    rw [hfeed, hwatermark]
    exact h
  | rises hrises hfeed =>
    unfold Current
    rw [hfeed, h.publish hrises]

theorem Reaches.current (h : a.Reaches b) (hcurrent : a.Current) : b.Current := by
  induction h with
  | refl => exact hcurrent
  | add _ node ih => exact ih.publishes (publishes_add _ node)
  | remove _ node ih => exact ih.publishes (publishes_remove _ node)
  | observe _ tick ih => exact ih.publishes (publishes_observe _ tick)

theorem current_empty : Current {} :=
  rfl

end IngestCoordinator.Barrier
