-- SUMMARY: A barrier that hears the same ticks in another order, or again, ends up the same.
import IngestCoordinator.Proofs.Watermark

/-!
# The order of ticks

Ticks of several nodes are heard in any order and any number of times. The watermark
is raised after each of them and not at the end, yet only what has been heard counts:
a node's last tick is the greatest of those heard of it, and the watermark is the
least of the last ticks, whenever it is looked at.
-/

namespace IngestCoordinator.Barrier

variable {a : Barrier} {node : NodeId} {last next timestamp : Timestamp} {tick : TimeTick}
  {heard heard' : List TimeTick}

/-- What becomes of a barrier that hears ticks, one after another. -/
def hears (barrier : Barrier) (ticks : List TimeTick) : Barrier :=
  barrier.afterwards (ticks.map .reports)

theorem hears_cons (a : Barrier) (tick : TimeTick) (heard : List TimeTick) :
    a.hears (tick :: heard) = (a.observe tick).2.hears heard :=
  rfl

theorem Settled.hears (h : a.Settled) (heard : List TimeTick) : (a.hears heard).Settled :=
  (reaches_afterwards a _).settled h

/-! ## Untracked nodes -/

theorem observe_untracked (h : ¬ a.Tracks tick.node) : a.observe tick = (.dropped, a) := by
  have hnone : a.ticks.get? tick.node = none := by
    cases hget : a.ticks.get? tick.node with
    | none => rfl
    | some last => exact absurd ⟨last, hget⟩ h
  unfold observe
  rw [hnone]

theorem tracks_hears (heard : List TimeTick) : (a.hears heard).Tracks node ↔ a.Tracks node := by
  induction heard generalizing a with
  | nil => exact Iff.rfl
  | cons tick heard ih => exact ih.trans (tracks_observe tick)

/-- The ticks of nodes that are not tracked may as well not have been sent. -/
theorem hears_filter {tracked : NodeId → Bool} (h : ∀ node, tracked node = true ↔ a.Tracks node)
    (heard : List TimeTick) : a.hears (heard.filter fun tick => tracked tick.node) =
      a.hears heard := by
  induction heard generalizing a with
  | nil => rfl
  | cons tick heard ih =>
    have hnext := ih fun node => (h node).trans (tracks_observe tick).symm
    rw [List.filter_cons]
    split
    · exact hnext
    · rename_i huntracked
      rw [hears_cons, observe_untracked fun htracks => huntracked ((h tick.node).2 htracks)]
      exact ih h

theorem hears_of_untracked (h : ∀ node, ¬ a.Tracks node) (heard : List TimeTick) :
    a.hears heard = a := by
  have hnone : ∀ node, false = true ↔ a.Tracks node := fun node => by simp [h node]
  have hfiltered := hears_filter hnone heard
  rw [List.filter_eq_nil_iff.2 fun _ _ => Bool.false_ne_true] at hfiltered
  exact hfiltered.symm

/-! ## Tracked nodes -/

/-- The last tick of a node, and those that are then heard of it. -/
def ticksOf (node : NodeId) (last : Timestamp) (heard : List TimeTick) : Set Timestamp :=
  {tick | tick = last ∨ ⟨node, tick⟩ ∈ heard}

theorem ticksOf_congr (h : ∀ tick, tick ∈ heard ↔ tick ∈ heard') :
    ticksOf node last heard = ticksOf node last heard' := by
  ext tick
  exact or_congr Iff.rfl (h ⟨node, tick⟩)

/-- A tick of another node is none of this one's. -/
theorem ticksOf_cons_of_ne (h : node ≠ tick.node) :
    ticksOf node last (tick :: heard) = ticksOf node last heard := by
  ext timestamp
  have hne : (⟨node, timestamp⟩ : TimeTick) ≠ tick := fun heq => h (heq ▸ rfl)
  simp [ticksOf, hne]

/-- The greater of the first two ticks stands for both. -/
theorem isGreatest_ticksOf_cons (h : IsGreatest (ticksOf node (max last timestamp) heard) next) :
    IsGreatest (ticksOf node last (⟨node, timestamp⟩ :: heard)) next := by
  obtain ⟨hmem, hupper⟩ := h
  have hmax : max last timestamp ≤ next := hupper (.inl rfl)
  constructor
  · rcases hmem with hnext | hheard
    · rcases Std.MaxEqOr.max_eq_or last timestamp with hlast | htimestamp
      · exact .inl (hnext.trans hlast)
      · rw [hnext, htimestamp]
        exact .inr List.mem_cons_self
    · exact .inr (List.mem_cons_of_mem _ hheard)
  · intro tick htick
    rcases htick with hlast | hheard
    · rw [hlast]
      exact UInt64.le_trans (Word.le_max_left ..) hmax
    · rcases List.mem_cons.1 hheard with heq | hheard
      · cases heq
        exact UInt64.le_trans (Word.le_max_right ..) hmax
      · exact hupper (.inr hheard)

/-- A tracked node's last tick is the greatest of those that it had and that were heard of it. -/
theorem get?_hears (heard : List TimeTick) (h : a.ticks.get? node = some last) :
    ∃ next, (a.hears heard).ticks.get? node = some next ∧
      IsGreatest (ticksOf node last heard) next := by
  induction heard generalizing a last with
  | nil =>
    refine ⟨last, h, .inl rfl, fun timestamp htimestamp => ?_⟩
    rcases htimestamp with rfl | hheard
    · exact UInt64.le_refl _
    · cases hheard
  | cons tick heard ih =>
    have hobserved : (a.observe tick).2.ticks.get? node =
        if node = tick.node then (a.ticks.get? node).map (max · tick.timestamp)
        else a.ticks.get? node :=
      get?_ticks_observe
    rw [h] at hobserved
    by_cases heq : node = tick.node
    · rw [if_pos heq] at hobserved
      obtain ⟨node', timestamp⟩ := tick
      cases heq
      obtain ⟨next, hnext, hgreatest⟩ := ih hobserved
      exact ⟨next, hnext, isGreatest_ticksOf_cons hgreatest⟩
    · rw [if_neg heq] at hobserved
      rw [ticksOf_cons_of_ne heq]
      exact ih hobserved

/-! ## Two orders -/

theorem ticks_hears (h : ∀ tick, tick ∈ heard ↔ tick ∈ heard') :
    (a.hears heard).ticks = (a.hears heard').ticks := by
  refine SortedMap.ext_get? fun node => ?_
  cases hget : a.ticks.get? node with
  | some last =>
    obtain ⟨next, hnext, hgreatest⟩ := get?_hears heard hget
    obtain ⟨next', hnext', hgreatest'⟩ := get?_hears heard' hget
    rw [← ticksOf_congr h] at hgreatest'
    have hsame : next = next' :=
      UInt64.le_antisymm (hgreatest'.2 hgreatest.1) (hgreatest.2 hgreatest'.1)
    rw [hnext, hnext', hsame]
  | none =>
    have hnone (heard : List TimeTick) : (a.hears heard).ticks.get? node = none := by
      cases hnext : (a.hears heard).ticks.get? node with
      | none => rfl
      | some next =>
        obtain ⟨last, hlast⟩ := (tracks_hears heard).1 ⟨next, hnext⟩
        rw [hget] at hlast
        cases hlast
    rw [hnone, hnone]

theorem watermark_hears (hsettled : a.Settled) (h : ∀ tick, tick ∈ heard ↔ tick ∈ heard') :
    (a.hears heard).watermark = (a.hears heard').watermark := by
  have hsame : (a.hears heard).lastTicks = (a.hears heard').lastTicks := by
    rw [lastTicks, lastTicks, ticks_hears h]
  by_cases htracks : ∃ node, a.Tracks node
  · obtain ⟨node, htracks⟩ := htracks
    obtain ⟨tick, hget⟩ := (tracks_hears heard).2 htracks
    have hleast := hsettled.hears heard ⟨tick, node, hget⟩
    have hleast' := hsettled.hears heard' (hsame ▸ ⟨tick, node, hget⟩)
    rw [← hsame] at hleast'
    exact UInt64.le_antisymm (hleast.2 hleast'.1) (hleast'.2 hleast.1)
  · have hnone : ∀ node, ¬ a.Tracks node := fun node htracks' => htracks ⟨node, htracks'⟩
    rw [hears_of_untracked hnone, hears_of_untracked hnone]

/-- After any run of a new barrier, what it hears leaves the same last ticks and the same
watermark in every order and with every repetition. A tracked node's last tick is then the
greatest of those that it had and that were heard of it, the watermark is the least of the
last ticks while a node is tracked, and what is heard of other nodes changes nothing at all. -/
theorem order_of_ticks_is_irrelevant (events : List Event)
    (h : ∀ tick, tick ∈ heard ↔ tick ∈ heard') :
    let barrier := afterwards {} events
    let after := barrier.hears heard
    after.ticks = (barrier.hears heard').ticks ∧
    after.watermark = (barrier.hears heard').watermark ∧
    (∀ node last, barrier.ticks.get? node = some last → ∃ next,
      after.ticks.get? node = some next ∧ IsGreatest (ticksOf node last heard) next) ∧
    (∀ node, after.Tracks node ↔ barrier.Tracks node) ∧
    (∀ node, barrier.Tracks node → IsLeast after.lastTicks after.watermark) ∧
    (∀ tick, ¬ barrier.Tracks tick.node → barrier.observe tick = (.dropped, barrier)) ∧
    after = barrier.hears (heard.filter fun tick => barrier.ticks.contains tick.node) := by
  intro barrier after
  have hsettled : barrier.Settled := (reaches_afterwards {} events).settled settled_empty
  refine ⟨ticks_hears h, watermark_hears hsettled h, fun _ _ => get?_hears heard,
    fun _ => tracks_hears heard, ?_, fun _ => observe_untracked, ?_⟩
  · intro node htracks
    obtain ⟨tick, hget⟩ := (tracks_hears heard).2 htracks
    exact hsettled.hears heard ⟨tick, node, hget⟩
  · exact (hears_filter (fun _ => SortedMap.contains_iff) heard).symm

/-- Three ticks of two nodes, one of them twice and in between one of a stranger. -/
theorem late_ticks_do_not_matter :
    let barrier := afterwards {} [.joins ⟨1⟩, .joins ⟨2⟩]
    let heard := [⟨⟨1⟩, 20⟩, ⟨⟨2⟩, 10⟩, ⟨⟨1⟩, 30⟩, ⟨⟨7⟩, 5⟩]
    let heard' := [⟨⟨1⟩, 30⟩, ⟨⟨7⟩, 5⟩, ⟨⟨1⟩, 20⟩, ⟨⟨2⟩, 10⟩, ⟨⟨1⟩, 20⟩]
    (barrier.hears heard).ticks = (barrier.hears heard').ticks ∧
      (barrier.hears heard').watermark = 10 ∧
      (barrier.hears heard').ticks.get? ⟨1⟩ = some 30 := by
  intro barrier heard heard'
  have hheard : ∀ tick ∈ heard, tick ∈ heard' := by decide
  have hheard' : ∀ tick ∈ heard', tick ∈ heard := by decide
  have hsame (tick : TimeTick) : tick ∈ heard ↔ tick ∈ heard' := ⟨hheard tick, hheard' tick⟩
  obtain ⟨hticks, hwatermark, _⟩ := order_of_ticks_is_irrelevant [.joins ⟨1⟩, .joins ⟨2⟩] hsame
  refine ⟨hticks, ?_, ?_⟩
  · rw [← hwatermark]
    decide
  · rw [← hticks]
    decide

end IngestCoordinator.Barrier
