-- SUMMARY: Sequencers that take turns hand out ascending timestamps.
import IngestCoordinator.Proofs.Store.Window

/-!
# Taking turns

Sequencers are opened one after another, and timestamps are drawn from the one opened last.
It counts on exactly the window that is stored, so it never lags, and its clock has passed
all timestamps so far.
-/

namespace IngestCoordinator.Traffic

open Sequencer

variable {t t' t₀ : Traffic} {event : Event} {events : List Event} {number : Nat}
  {ts : Timestamp} {sequencer sequencer' : Sequencer} {window window' : UInt64}

/-- The number under which a sequencer has been opened last, starting from one. -/
def latest (last : Option Nat) (events : List Event) : Option Nat :=
  events.foldl (fun last event =>
    match event with
    | .opened number => some number
    | _ => last) last

/-- Timestamps are only drawn from the sequencer that has been opened last. -/
def TakesTurns (last : Option Nat) : List Event → Prop
  | [] => True
  | .opened number :: events => TakesTurns (some number) events
  | .drewTimestamp number _ :: events => last = some number ∧ TakesTurns last events
  | .quiet :: events | .drewId _ _ :: events | .refusedId _ _ :: events
  | .refusedTimestamp _ _ :: events => TakesTurns last events

/-- The sequencer opened last counts on the stored window, and has passed all timestamps. -/
structure Succeeds (t : Traffic) (events : List Event) : Prop where
  bounded : t.Bounded events
  last : ∀ number sequencer, latest none events = some number →
    t.store.sequencers.get? number = some sequencer →
    t.window? = some sequencer.windowEnd ∧ ∀ ts ∈ timestamps events, ts.toNat ≤ sequencer.reading
  increasing : (timestamps events).Pairwise (· < ·)

theorem latest_append (last : Option Nat) (events : List Event) (event : Event) :
    latest last (events ++ [event]) = match event with
      | .opened number => some number
      | _ => latest last events := by
  simp only [latest, List.foldl_append, List.foldl_cons, List.foldl_nil]

theorem takesTurns_append (last : Option Nat) (events events' : List Event) :
    TakesTurns last (events ++ events') ↔
      TakesTurns last events ∧ TakesTurns (latest last events) events' := by
  induction events generalizing last with
  | nil => simp [TakesTurns, latest]
  | cons event events ih => cases event <;> simp [TakesTurns, latest, ih, and_assoc]

/-- The sequencer that counts on the stored window does not lag. -/
theorem Draws.not_lags (h : t.Draws t' number ts sequencer sequencer')
    (hwindow : t.window? = some sequencer.windowEnd) : ¬ t.Lags (.drewTimestamp number ts) := by
  rintro ⟨found, hfound, stored, hstored, hreached, hbehind⟩
  obtain rfl : sequencer = found := Option.some.inj (h.before.symm.trans hfound)
  obtain rfl : sequencer.windowEnd = stored := Option.some.inj (hwindow.symm.trans hstored)
  rw [h.physical] at hreached hbehind
  have hlt := UInt64.lt_of_lt_of_le hbehind hreached
  exact absurd (lt_add_windowMs h.range) (UInt64.not_lt.2 (UInt64.le_of_lt hlt))

theorem toNat_lt_reading (h : Timestamp.physical ts < sequencer.physical) :
    ts.toNat < sequencer.reading := by
  rw [UInt64.lt_iff_toNat_lt, Timestamp.toNat_physical] at h
  rw [Sequencer.reading]
  omega

theorem Timely.succeeds (h : t.Timely event t') (hsucceeds : t.Succeeds events)
    (hturn : TakesTurns (latest none events) [event]) :
    t'.Succeeds (events ++ [event]) := by
  rcases h.draws_or_still hsucceeds.bounded.timed with
    ⟨number, ts, sequencer, sequencer', rfl, hdraws⟩ | ⟨hevent, hstill⟩
  · have hlatest := hturn.1
    obtain ⟨hwindow, hpassed⟩ := hsucceeds.last number sequencer hlatest hdraws.before
    have hadvances : sequencer.reading < ts.toNat := by
      rw [hdraws.reading]
      exact hdraws.advances
    refine ⟨Abreast.bounded ⟨h, hdraws.not_lags hwindow⟩ hsucceeds.bounded,
      fun number' found hlast hfound => ?_, ?_⟩
    · obtain rfl : number = number' := by simpa [latest_append, hlatest] using hlast
      obtain rfl := Option.some.inj (hdraws.get?_self.symm.trans hfound)
      refine ⟨?_, fun ts' hts' => ?_⟩
      · cases hdraws.reaches with
        | kept _ hend hkept =>
          rw [hend, hkept]
          exact hwindow
        | moved _ _ hmoved => exact hmoved
      · rw [timestamps_append_draw, List.mem_append, List.mem_singleton] at hts'
        rw [← hdraws.reading]
        rcases hts' with hts' | rfl
        · exact Nat.le_of_lt (Nat.lt_of_le_of_lt (hpassed ts' hts') hadvances)
        · exact Nat.le_refl _
    · rw [timestamps_append_draw, List.pairwise_append]
      refine ⟨hsucceeds.increasing, List.pairwise_singleton .., fun ts' hts' ts'' hts'' => ?_⟩
      obtain rfl := List.mem_singleton.1 hts''
      exact UInt64.lt_iff_toNat_lt.2 (Nat.lt_of_le_of_lt (hpassed ts' hts') hadvances)
  · refine ⟨Abreast.bounded ⟨h, not_lags_of_ne hevent⟩ hsucceeds.bounded,
      fun number found hlast hfound => ?_, ?_⟩
    · rw [timestamps_append_of_ne events hevent]
      rcases hstill.clocks number found hfound with ⟨hne, before, hbefore, hclock⟩ | ⟨-, hopened⟩
      · have hlatest : latest none events = some number := by
          cases event with
          | opened number' =>
            obtain rfl : number' = number := by simpa [latest_append] using hlast
            exact absurd rfl hne
          | _ => simpa only [latest_append] using hlast
        obtain ⟨hwindow, hpassed⟩ := hsucceeds.last number before hlatest hbefore
        rw [hclock.windowEnd, hclock.reading, hstill.window]
        exact ⟨hwindow, hpassed⟩
      · refine ⟨hstill.window.trans hopened.window,
          fun ts hts => Nat.le_of_lt (toNat_lt_reading ?_)⟩
        rw [hopened.physical]
        exact hsucceeds.bounded.under ts hts _ hopened.window
    · rw [timestamps_append_of_ne events hevent]
      exact hsucceeds.increasing

theorem succeeds_of_path (hrun : Path Timely t₀ events t) (hfresh : t₀.Fresh)
    (hreadable : ∃ window, t₀.window? = some window) (hturns : TakesTurns none events) :
    t.Succeeds events := by
  induction hrun with
  | nil =>
    exact ⟨hfresh.bounded hreadable, by simp [hfresh.sequencers], by simp [timestamps]⟩
  | snoc hrun hstep ih =>
    obtain ⟨hturns, hturn⟩ := (takesTurns_append ..).1 hturns
    exact hstep.succeeds (ih hturns) hturn

/--
Sequencers that take turns hand out ascending timestamps, each below the window stored when
it is handed out and ever after. A draw that is refused changes nothing.
-/
theorem timestamps_increase (hfresh : t₀.Fresh) (hreadable : ∃ window, t₀.window? = some window)
    (hrun : Path Timely t₀ events t) (hturns : TakesTurns none events) :
    (timestamps events).Pairwise (· < ·) ∧
    (∀ ts ∈ timestamps events, ∃ window,
      Stored Decimal.readUnsigned t.store.root.window t.store.backend window ∧
        Timestamp.physical ts < window) ∧
    ∀ number e t', Step t (.refusedTimestamp number e) t' → t.Untouched t' := by
  have hsucceeds := succeeds_of_path hrun hfresh hreadable hturns
  have hbounded := hsucceeds.bounded
  refine ⟨hsucceeds.increasing, fun ts hts => ?_, fun number e t' hstep => ?_⟩
  · obtain ⟨window, hwindow⟩ := hbounded.timed.readable
    have hlt := hbounded.under ts hts window hwindow
    have hne : window ≠ 0 := by
      rintro rfl
      exact UInt64.not_lt_zero hlt
    exact ⟨window, stored_of_counter? hwindow hne, hlt⟩
  · cases hstep.effect hbounded.timed.rooted with
    | refusedTimestamp huntouched _ => exact huntouched

/-- The wall clock goes back twice, the second time while the sequencer is opened again. -/
def restarting : List Move :=
  [.open 0 10, .stamp 0 5, .stamp 0 3, .drop 0, .open 1 10, .stamp 1 1]

/-- The sequencer opened later goes on above the window of the first one. -/
theorem restart_goes_on_above :
    timestamps (performAll restarting unused).1 =
        [.compose 5 0, .compose 5 1, .compose 3005 1] ∧
      (timestamps (performAll restarting unused).1).Pairwise (· < ·) ∧
      ∃ window, Stored Decimal.readUnsigned (performAll restarting unused).2.store.root.window
        (performAll restarting unused).2.store.backend window ∧
          Timestamp.physical (.compose 3005 1) < window := by
  have hrange : Along Timely restarting unused := along_timely (by decide +kernel)
  have hevents : (performAll restarting unused).1 = [.opened 0, .drewTimestamp 0 (.compose 5 0),
      .drewTimestamp 0 (.compose 5 1), .quiet, .opened 1, .drewTimestamp 1 (.compose 3005 1)] := by
    decide +kernel
  have hturns : TakesTurns none (performAll restarting unused).1 := by
    rw [hevents]
    exact ⟨rfl, rfl, rfl, trivial⟩
  obtain ⟨hincreasing, hstored, -⟩ :=
    timestamps_increase fresh_unused ⟨0, rfl⟩ (path_performAll hrange) hturns
  have hdrawn : timestamps (performAll restarting unused).1 =
      [.compose 5 0, .compose 5 1, .compose 3005 1] := by
    rw [hevents]
    rfl
  exact ⟨hdrawn, hincreasing, hstored (.compose 3005 1) (by simp [hdrawn])⟩

end IngestCoordinator.Traffic
