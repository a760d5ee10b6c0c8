-- SUMMARY: The stored window bounds the timestamps of all sequencers, as long as none of them lags.
import IngestCoordinator.Proofs.Store.Clocks

/-!
# The stored window

Sequencers over one store each store windows of their own under one key. A draw lags if the
window it stores ends before the one that is stored. As long as no draw lags, the window only
grows, lies above all timestamps, and a sequencer opened later starts above them. A draw that
lags sets the window back.
-/

namespace IngestCoordinator.Traffic

open Sequencer

variable {t t' t₀ : Traffic} {event : Event} {events : List Event} {number : Nat}
  {ts : Timestamp} {sequencer sequencer' : Sequencer} {window window' : UInt64}

/-- The timestamps handed out, in order. -/
def timestamps (events : List Event) : List Timestamp :=
  events.filterMap fun
    | .drewTimestamp _ ts => some ts
    | _ => none

/-- The draw lags: the window it has to store ends before the one that is stored. -/
def Lags (t : Traffic) : Event → Prop
  | .drewTimestamp number ts =>
    ∃ sequencer ∈ t.store.sequencers.get? number, ∃ window ∈ t.window?,
      sequencer.windowEnd ≤ Timestamp.physical ts ∧ Timestamp.physical ts + windowMs < window
  | _ => False

instance (t : Traffic) : (event : Event) → Decidable (t.Lags event)
  | .drewTimestamp number ts => inferInstanceAs (Decidable
    (∃ sequencer ∈ t.store.sequencers.get? number, ∃ window ∈ t.window?,
      sequencer.windowEnd ≤ Timestamp.physical ts ∧ Timestamp.physical ts + windowMs < window))
  | .quiet | .opened _ | .drewId _ _ | .refusedId _ _ | .refusedTimestamp _ _ =>
    inferInstanceAs (Decidable False)

/-- A step in range that does not lag. -/
structure Abreast (t : Traffic) (event : Event) (t' : Traffic) : Prop where
  timely : Timely t event t'
  notLagging : ¬ t.Lags event

theorem along_abreast {moves : List Move}
    (h : Along (fun t event t' => t'.InRange event ∧ ¬ t.Lags event) moves t) :
    Along Abreast moves t :=
  h.imp fun move _ h => ⟨⟨.move move, h.1⟩, h.2⟩

/-- The stored window ends above all timestamps, and no sequencer counts on more than it. -/
structure Bounded (t : Traffic) (events : List Event) : Prop where
  timed : t.Timed
  within : ∀ number sequencer window, t.store.sequencers.get? number = some sequencer →
    t.window? = some window → sequencer.windowEnd ≤ window
  under : ∀ ts ∈ timestamps events, ∀ window, t.window? = some window →
    Timestamp.physical ts < window

theorem timestamps_append_draw (events : List Event) (number : Nat) (ts : Timestamp) :
    timestamps (events ++ [.drewTimestamp number ts]) = timestamps events ++ [ts] := by
  simp [timestamps]

theorem timestamps_append_of_ne (events : List Event)
    (h : ∀ number ts, event ≠ .drewTimestamp number ts) :
    timestamps (events ++ [event]) = timestamps events := by
  cases event with
  | drewTimestamp number ts => exact absurd rfl (h number ts)
  | _ => simp [timestamps]

theorem not_lags_of_ne (h : ∀ number ts, event ≠ .drewTimestamp number ts) : ¬ t.Lags event := by
  cases event with
  | drewTimestamp number ts => exact absurd rfl (h number ts)
  | _ => exact id

theorem lt_add_windowMs {physical : UInt64} (h : physical.toNat < 2 ^ 46) :
    physical < physical + windowMs := by
  rw [UInt64.lt_iff_toNat_lt, UInt64.toNat_add, toNat_windowMs, Nat.mod_eq_of_lt (by omega)]
  omega

/-- A draw sets the window back just when it lags. -/
theorem Draws.window_lt_iff (h : t.Draws t' number ts sequencer sequencer')
    (hwindow : t.window? = some window) (hwindow' : t'.window? = some window') :
    window' < window ↔ t.Lags (.drewTimestamp number ts) := by
  constructor
  · intro hlt
    cases h.reaches with
    | kept _ _ hkept =>
      obtain rfl : window = window' := by simpa [hkept, hwindow] using hwindow'
      exact absurd hlt (UInt64.lt_irrefl _)
    | moved hreached hend hmoved =>
      obtain rfl : sequencer'.windowEnd = window' := by simpa [hmoved] using hwindow'
      rw [hend, ← h.physical] at hlt
      exact ⟨sequencer, h.before, window, hwindow, h.physical ▸ hreached, hlt⟩
  · rintro ⟨found, hfound, stored, hstored, hreached, hbehind⟩
    obtain rfl : sequencer = found := Option.some.inj (h.before.symm.trans hfound)
    obtain rfl : window = stored := Option.some.inj (hwindow.symm.trans hstored)
    rw [h.physical] at hreached hbehind
    cases h.reaches with
    | kept hbelow _ _ => exact absurd hbelow (UInt64.not_lt.2 hreached)
    | moved _ hend hmoved =>
      obtain rfl : sequencer'.windowEnd = window' := by simpa [hmoved] using hwindow'
      rwa [hend]

/-- Only a draw that lags sets the window back. -/
theorem Timely.window_lt_iff (h : t.Timely event t') (ht : t.Timed)
    (hwindow : t.window? = some window) (hwindow' : t'.window? = some window') :
    window' < window ↔ t.Lags event := by
  rcases h.draws_or_still ht with
    ⟨number, ts, sequencer, sequencer', rfl, hdraws⟩ | ⟨hevent, hstill⟩
  · exact hdraws.window_lt_iff hwindow hwindow'
  · obtain rfl : window = window' := by simpa [hstill.window, hwindow] using hwindow'
    exact iff_of_false (UInt64.lt_irrefl _) (not_lags_of_ne hevent)

/-- A sequencer that counts on no more than is stored draws below what is stored then. -/
theorem Draws.lt_window (h : t.Draws t' number ts sequencer sequencer')
    (hwindow : t.window? = some window) (hle : sequencer.windowEnd ≤ window)
    (hwindow' : t'.window? = some window') :
    Timestamp.physical ts < window' ∧ sequencer'.windowEnd ≤ window' := by
  rw [h.physical]
  cases h.reaches with
  | kept hbelow hend hkept =>
    obtain rfl : window = window' := by simpa [hkept, hwindow] using hwindow'
    rw [hend]
    exact ⟨UInt64.lt_of_lt_of_le hbelow hle, hle⟩
  | moved _ hend hmoved =>
    obtain rfl : sequencer'.windowEnd = window' := by simpa [hmoved] using hwindow'
    refine ⟨?_, UInt64.le_refl _⟩
    rw [hend]
    exact lt_add_windowMs h.range

/-- Unless a draw lags, the window never goes back. -/
theorem Abreast.window_le (h : t.Abreast event t') (ht : t.Timed)
    (hwindow : t.window? = some window) (hwindow' : t'.window? = some window') :
    window ≤ window' := by
  apply UInt64.not_lt.1
  intro hlt
  exact h.notLagging ((h.timely.window_lt_iff ht hwindow hwindow').1 hlt)

theorem Abreast.bounded (h : t.Abreast event t') (hbounded : t.Bounded events) :
    t'.Bounded (events ++ [event]) := by
  have htimed := hbounded.timed
  obtain ⟨window, hwindow⟩ := htimed.readable
  obtain ⟨window', hwindow'⟩ := (h.timely.timed htimed).readable
  have hgrows : window ≤ window' := h.window_le htimed hwindow hwindow'
  -- What the old window bounds the new one bounds.
  have hwithin (number : Nat) (found : Sequencer)
      (hfound : t.store.sequencers.get? number = some found) : found.windowEnd ≤ window' :=
    UInt64.le_trans (hbounded.within number found window hfound hwindow) hgrows
  have hunder (ts : Timestamp) (hts : ts ∈ timestamps events) : Timestamp.physical ts < window' :=
    UInt64.lt_of_lt_of_le (hbounded.under ts hts window hwindow) hgrows
  rcases h.timely.draws_or_still htimed with
    ⟨number, ts, sequencer, sequencer', rfl, hdraws⟩ | ⟨hevent, hstill⟩
  · obtain ⟨hlt, hle⟩ :=
      hdraws.lt_window hwindow (hbounded.within _ _ _ hdraws.before hwindow) hwindow'
    refine ⟨h.timely.timed htimed, fun number' found stored hfound hstored => ?_,
      fun ts' hts' stored hstored => ?_⟩
    · obtain rfl : window' = stored := Option.some.inj (hwindow'.symm.trans hstored)
      rcases hdraws.get? hfound with ⟨-, rfl⟩ | hfound
      · exact hle
      · exact hwithin number' found hfound
    · obtain rfl : window' = stored := Option.some.inj (hwindow'.symm.trans hstored)
      rw [timestamps_append_draw, List.mem_append, List.mem_singleton] at hts'
      rcases hts' with hts' | rfl
      · exact hunder ts' hts'
      · exact hlt
  · refine ⟨h.timely.timed htimed, fun number' found stored hfound hstored => ?_,
      fun ts hts stored hstored => ?_⟩
    · obtain rfl : window' = stored := Option.some.inj (hwindow'.symm.trans hstored)
      rcases hstill.clocks number' found hfound with ⟨-, before, hbefore, hclock⟩ | ⟨-, hopened⟩
      · rw [hclock.windowEnd]
        exact hwithin number' before hbefore
      · obtain rfl : found.windowEnd = window := by simpa [hopened.window] using hwindow
        exact hgrows
    · obtain rfl : window' = stored := Option.some.inj (hwindow'.symm.trans hstored)
      rw [timestamps_append_of_ne events hevent] at hts
      exact hunder ts hts

theorem bounded_of_path {events' : List Event} (hrun : Path Abreast t events' t')
    (h : t.Bounded events) : t'.Bounded (events ++ events') := by
  induction hrun with
  | nil => simpa using h
  | snoc _ hstep ih =>
    rw [← List.append_assoc]
    exact hstep.bounded ih

theorem timed_of_path (hrun : Path Abreast t events t') (ht : t.Timed) : t'.Timed :=
  hrun.invariant (fun _ _ _ h hstep => hstep.timely.timed h) ht

theorem window_le_of_path (hrun : Path Abreast t events t') (ht : t.Timed)
    (hwindow : t.window? = some window) (hwindow' : t'.window? = some window') :
    window ≤ window' := by
  induction hrun generalizing window' with
  | nil =>
    obtain rfl : window = window' := Option.some.inj (hwindow.symm.trans hwindow')
    exact UInt64.le_refl _
  | snoc hrun hstep ih =>
    have htimed := timed_of_path hrun ht
    obtain ⟨between, hbetween⟩ := htimed.readable
    exact UInt64.le_trans (ih hbetween) (hstep.window_le htimed hbetween hwindow')

theorem Fresh.bounded (hfresh : t.Fresh) (hreadable : ∃ window, t.window? = some window) :
    t.Bounded [] := by
  refine ⟨⟨?_, hreadable, ?_⟩, ?_, ?_⟩
  · simp [Rooted, hfresh.sequencers]
  · simp [hfresh.sequencers]
  · simp [hfresh.sequencers]
  · simp [timestamps]

/-! ## Sequencers opened later -/

/-- A timestamp drawn from a sequencer that has been opened on the way. -/
def DrawnAfresh (events : List Event) (ts : Timestamp) : Prop :=
  ∃ number before after, events = before ++ .opened number :: after ∧
    .drewTimestamp number ts ∈ after

theorem DrawnAfresh.of_append (h : DrawnAfresh (events ++ [event]) ts) :
    DrawnAfresh events ts ∨
      ∃ number, event = .drewTimestamp number ts ∧ .opened number ∈ events := by
  obtain ⟨number, before, after, heq, hdrew⟩ := h
  rcases List.eq_nil_or_concat after with rfl | ⟨after, last, rfl⟩
  · cases hdrew
  · have hsplit : events ++ [event] = (before ++ .opened number :: after) ++ [last] := by
      simpa using heq
    obtain ⟨rfl, hlast⟩ := List.append_inj' hsplit rfl
    cases hlast
    rw [List.concat_eq_append, List.mem_append, List.mem_singleton] at hdrew
    rcases hdrew with hdrew | rfl
    · exact .inl ⟨number, before, after, rfl, hdrew⟩
    · exact .inr ⟨number, rfl, by simp⟩

/-- Sequencers opened on the way have clocks at this millisecond or later. -/
structure Above (window : UInt64) (events : List Event) (t : Traffic) : Prop where
  clocks : ∀ number sequencer, .opened number ∈ events →
    t.store.sequencers.get? number = some sequencer → window ≤ sequencer.physical
  drawn : ∀ ts, DrawnAfresh events ts → window ≤ Timestamp.physical ts

theorem Above.step (h : Above window events t) (hstep : t.Timely event t') (ht : t.Timed)
    (hwindow : ∀ window', t.window? = some window' → window ≤ window') :
    Above window (events ++ [event]) t' := by
  rcases hstep.draws_or_still ht with
    ⟨number, ts, sequencer, sequencer', rfl, hdraws⟩ | ⟨hevent, hstill⟩
  · have hclock (hopened : Event.opened number ∈ events) : window ≤ sequencer'.physical :=
      UInt64.le_trans (h.clocks number sequencer hopened hdraws.before) hdraws.physical_le
    refine ⟨fun number' found hopened hfound => ?_, fun ts' hdrawn => ?_⟩
    · replace hopened : Event.opened number' ∈ events := by simpa using hopened
      rcases hdraws.get? hfound with ⟨rfl, rfl⟩ | hfound
      · exact hclock hopened
      · exact h.clocks number' found hopened hfound
    · rcases hdrawn.of_append with hdrawn | ⟨number', heq, hopened⟩
      · exact h.drawn ts' hdrawn
      · cases heq
        rw [hdraws.physical]
        exact hclock hopened
  · refine ⟨fun number' found hopened hfound => ?_, fun ts' hdrawn => ?_⟩
    · rcases hstill.clocks number' found hfound with ⟨hne, before, hbefore, hclock⟩ | ⟨-, hset⟩
      · replace hopened : Event.opened number' ∈ events := by
          simpa [hne.symm] using hopened
        rw [hclock.physical]
        exact h.clocks number' before hopened hbefore
      · rw [hset.physical]
        exact hwindow _ hset.window
    · rcases hdrawn.of_append with hdrawn | ⟨number', rfl, -⟩
      · exact h.drawn ts' hdrawn
      · exact absurd rfl (hevent number' ts')

theorem above_of_path (hrun : Path Abreast t events t') (ht : t.Timed)
    (hwindow : t.window? = some window) : Above window events t' := by
  induction hrun with
  | nil => exact ⟨nofun, by rintro ts ⟨_, _, _, heq, _⟩; simp at heq⟩
  | snoc hrun hstep ih =>
    have htimed := timed_of_path hrun ht
    exact ih.step hstep.timely htimed fun _ hwindow' => window_le_of_path hrun ht hwindow hwindow'

/--
As long as no draw lags, the stored window never goes back and lies above all timestamps,
and a sequencer opened later draws greater ones. A draw that lags, and no other step, sets
the window back.
-/
theorem window_bounds_sequencers {before after : List Event} (hfresh : t₀.Fresh)
    (hreadable : ∃ window, t₀.window? = some window) (hbefore : Path Abreast t₀ before t)
    (hafter : Path Abreast t after t') :
    (∃ window window', t.window? = some window ∧ t'.window? = some window' ∧ window ≤ window' ∧
      ∀ ts ∈ timestamps before, Timestamp.physical ts < window) ∧
    (∀ ts ∈ timestamps before, ∀ ts', DrawnAfresh after ts' → ts < ts') ∧
    ∀ event next window window', Timely t' event next → t'.window? = some window →
      next.window? = some window' → (window' < window ↔ t'.Lags event) := by
  have hbounded := bounded_of_path hbefore (hfresh.bounded hreadable)
  have hbounded' := bounded_of_path hafter hbounded
  obtain ⟨window, hwindow⟩ := hbounded.timed.readable
  obtain ⟨window', hwindow'⟩ := hbounded'.timed.readable
  have hunder : ∀ ts ∈ timestamps before, Timestamp.physical ts < window :=
    fun ts hts => hbounded.under ts hts window hwindow
  refine ⟨⟨window, window', hwindow, hwindow',
    window_le_of_path hafter hbounded.timed hwindow hwindow', hunder⟩, fun ts hts ts' hdrawn => ?_,
    fun event next _ _ hstep hhere hnext => hstep.window_lt_iff hbounded'.timed hhere hnext⟩
  have habove := (above_of_path hafter hbounded.timed hwindow).drawn ts' hdrawn
  exact Timestamp.lt_of_physical_lt (UInt64.lt_of_lt_of_le (hunder ts hts) habove)

/-- Two sequencers draw in turn, and neither lags. -/
def leading : List Move :=
  [.open 0 10, .open 1 10, .stamp 0 5, .stamp 1 4000, .stamp 0 4500]

/-- A third sequencer is opened then, and the wall clock has gone back. -/
def following : List Move :=
  [.open 2 10, .stamp 2 1]

/-- The third sequencer draws a timestamp above those of both others. -/
theorem third_sequencer_draws_above :
    ∃ t, t = (performAll leading unused).2 ∧ t.window? = some 7500 ∧
      (performAll following t).1 = [.opened 2, .drewTimestamp 2 (.compose 7500 1)] ∧
      (∀ ts ∈ timestamps (performAll leading unused).1, Timestamp.physical ts < 7500) ∧
      ∀ ts ∈ timestamps (performAll leading unused).1, ts < .compose 7500 1 := by
  have hbefore : Along Abreast leading unused := along_abreast (by decide +kernel)
  have hafter : Along Abreast following (performAll leading unused).2 :=
    along_abreast (by decide +kernel)
  have hwindow : (performAll leading unused).2.window? = some 7500 := by decide +kernel
  have hevents : (performAll following (performAll leading unused).2).1 =
      [.opened 2, .drewTimestamp 2 (.compose 7500 1)] := by decide +kernel
  obtain ⟨⟨window, -, hfound, -, -, hunder⟩, habove, -⟩ := window_bounds_sequencers fresh_unused
    ⟨0, rfl⟩ (path_performAll hbefore) (path_performAll hafter)
  obtain rfl : 7500 = window := Option.some.inj (hwindow.symm.trans hfound)
  refine ⟨_, rfl, hwindow, hevents, hunder, fun ts hts => habove ts hts _ ?_⟩
  rw [hevents]
  exact ⟨2, [], _, rfl, by simp⟩

/-- The window has been stored ahead of all wall clocks. -/
def advanced : Traffic :=
  { unused with store.backend.entries :=
      SortedMap.empty.insert unused.store.root.window (.bytes (Decimal.write 9000000000000)) }

/-- Of two sequencers opened at one window the first draws, and then a third one. -/
def overtaking : List Move :=
  [.open 0 10, .open 1 10, .stamp 0 0, .open 2 10, .stamp 2 0]

/-- The second sequencer draws now; a fourth one is opened and draws. -/
def laggingBehind : List Move :=
  [.stamp 1 0, .open 3 10, .stamp 3 0]

/--
The second sequencer lags: its draw sets the window back to a millisecond in which there is
a timestamp already, and a sequencer opened after it draws this timestamp again.
-/
theorem lagging_draw_repeats_timestamp :
    ∃ t, Path Timely advanced (performAll overtaking advanced).1 t ∧
      Path Timely t (performAll laggingBehind t).1 (performAll laggingBehind t).2 ∧
      t.window? = some 9000000006000 ∧
      (perform (.stamp 1 0) t).2.window? = some 9000000003000 ∧
      Timestamp.compose 9000000003000 1 ∈ timestamps (performAll overtaking advanced).1 ∧
      DrawnAfresh (performAll laggingBehind t).1 (.compose 9000000003000 1) := by
  have hbefore : Along Timely overtaking advanced := along_timely (by decide +kernel)
  have hafter : Along Timely laggingBehind (performAll overtaking advanced).2 :=
    along_timely (by decide +kernel)
  have hevents : (performAll laggingBehind (performAll overtaking advanced).2).1 =
      [.drewTimestamp 1 (.compose 9000000000000 1), .opened 3,
        .drewTimestamp 3 (.compose 9000000003000 1)] := by decide +kernel
  refine ⟨_, path_performAll hbefore, path_performAll hafter, by decide +kernel, by decide +kernel,
    by decide +kernel, ?_⟩
  rw [hevents]
  exact ⟨3, [_], _, rfl, by simp⟩

end IngestCoordinator.Traffic
