-- SUMMARY: The clocks of sequencers over one store: how a draw moves one, and what else sets one.
import IngestCoordinator.Proofs.Store.Keys
import IngestCoordinator.Proofs.Store.Traffic

/-!
# Clocks

Each sequencer has a clock of its own, set at the stored window when the sequencer is opened.
Only drawing a timestamp moves a clock, and the draw may move the window: what a step does
to the clocks is a draw, or they stand still.
-/

namespace IngestCoordinator.Traffic

open Sequencer

variable {t t' t₀ : Traffic} {event : Event} {events : List Event} {number : Nat}
  {ts : Timestamp} {sequencer sequencer' : Sequencer} {window window' : UInt64}

/-! ## Draws -/

/-- A clock that has been drawn from stands within 46 bits. -/
def InRange (t' : Traffic) : Event → Prop
  | .drewTimestamp number _ =>
    ∀ sequencer ∈ t'.store.sequencers.get? number, sequencer.physical.toNat < 2 ^ 46
  | _ => True

instance (t' : Traffic) : (event : Event) → Decidable (t'.InRange event)
  | .drewTimestamp number _ => inferInstanceAs (Decidable
    (∀ sequencer ∈ t'.store.sequencers.get? number, sequencer.physical.toNat < 2 ^ 46))
  | .quiet | .opened _ | .drewId _ _ | .refusedId _ _ | .refusedTimestamp _ _ =>
    inferInstanceAs (Decidable True)

/-- A step after which the clocks are in range. -/
structure Timely (t : Traffic) (event : Event) (t' : Traffic) : Prop where
  step : Step t event t'
  range : t'.InRange event

theorem along_timely {moves : List Move}
    (h : Along (fun _ event t' => t'.InRange event) moves t) : Along Timely moves t :=
  h.imp fun move _ hrange => ⟨.move move, hrange⟩

/-- All clocks can tick, and the window can be read. -/
structure Timed (t : Traffic) : Prop where
  rooted : t.Rooted
  readable : ∃ window, t.window? = some window
  wound : ∀ number sequencer, t.store.sequencers.get? number = some sequencer → sequencer.Wound

/-- The clock of a sequencer reads what that of another one reads. -/
structure SameClock (sequencer sequencer' : Sequencer) : Prop where
  physical : sequencer'.physical = sequencer.physical
  logical : sequencer'.logical = sequencer.logical
  windowEnd : sequencer'.windowEnd = sequencer.windowEnd

/-- A step that draws no timestamp: clocks stand still, but one may be set at the window. -/
structure Still (t : Traffic) (event : Event) (t' : Traffic) : Prop where
  window : t'.window? = t.window?
  clocks : ∀ number sequencer', t'.store.sequencers.get? number = some sequencer' →
    (event ≠ .opened number ∧ ∃ sequencer, t.store.sequencers.get? number = some sequencer ∧
      SameClock sequencer sequencer') ∨
    event = .opened number ∧ t.Opened sequencer'

/-- What becomes of the window when a clock has moved on. -/
inductive Reaches (t t' : Traffic) (sequencer sequencer' : Sequencer) : Prop where
  | kept (hbelow : sequencer'.physical < sequencer.windowEnd)
    (hend : sequencer'.windowEnd = sequencer.windowEnd)
    (hwindow : t'.window? = t.window?)
  | moved (hreached : sequencer.windowEnd ≤ sequencer'.physical)
    (hend : sequencer'.windowEnd = sequencer'.physical + windowMs)
    (hwindow : t'.window? = some sequencer'.windowEnd)

/-- A timestamp has been drawn from the clock of one sequencer. -/
structure Draws (t t' : Traffic) (number : Nat) (ts : Timestamp)
    (sequencer sequencer' : Sequencer) : Prop where
  before : t.store.sequencers.get? number = some sequencer
  after : t'.store.sequencers = t.store.sequencers.insert number sequencer'
  physical : Timestamp.physical ts = sequencer'.physical
  reading : ts.toNat = sequencer'.reading
  advances : sequencer.reading < sequencer'.reading
  physical_le : sequencer.physical ≤ sequencer'.physical
  range : sequencer'.physical.toNat < 2 ^ 46
  logical : sequencer'.logical ≤ Timestamp.logicalMask
  reaches : t.Reaches t' sequencer sequencer'

theorem SameClock.refl (sequencer : Sequencer) : SameClock sequencer sequencer :=
  ⟨rfl, rfl, rfl⟩

theorem SameClock.wound (h : SameClock sequencer sequencer') (hwound : sequencer.Wound) :
    sequencer'.Wound := by
  constructor
  · simpa only [h.logical] using hwound.logical
  · simpa only [h.physical, h.logical] using hwound.physical

theorem SameClock.reading (h : SameClock sequencer sequencer') :
    sequencer'.reading = sequencer.reading := by
  simp [Sequencer.reading, h.physical, h.logical]

theorem Opened.wound (h : t.Opened sequencer) : sequencer.Wound := by
  refine ⟨?_, .inr h.logical⟩
  rw [h.logical]
  decide

theorem still_of_sequencers_eq (hcounters : t.Counters t')
    (hsequencers : t'.store.sequencers = t.store.sequencers)
    (hevent : ∀ number, event ≠ .opened number) : t.Still event t' := by
  refine ⟨hcounters.window?_eq, fun number sequencer' hget => .inl ?_⟩
  rw [hsequencers] at hget
  exact ⟨hevent number, sequencer', hget, .refl sequencer'⟩

/-- A sequencer has been altered, but not its clock. -/
theorem still_of_insert (hwindow : t'.window? = t.window?)
    (hget : t.store.sequencers.get? number = some sequencer)
    (hsequencers : t'.store.sequencers = t.store.sequencers.insert number sequencer')
    (hclock : SameClock sequencer sequencer') (hevent : ∀ number, event ≠ .opened number) :
    t.Still event t' := by
  refine ⟨hwindow, fun number' found hfound => .inl ⟨hevent number', ?_⟩⟩
  rw [hsequencers] at hfound
  rcases SortedMap.get?_insert_cases hfound with ⟨rfl, rfl⟩ | ⟨-, hfound⟩
  · exact ⟨sequencer, hget, hclock⟩
  · exact ⟨found, hfound, .refl found⟩

theorem Effect.still (heffect : Effect t event t')
    (hevent : ∀ number ts, event ≠ .drewTimestamp number ts) : t.Still event t' := by
  cases heffect with
  | quiet hcounters hsequencers _ => exact still_of_sequencers_eq hcounters hsequencers nofun
  | bid hcounters hsequencers _ _ _ => exact still_of_sequencers_eq hcounters hsequencers nofun
  | refusedId huntouched _ _ =>
    exact still_of_sequencers_eq huntouched.counters huntouched.sequencers nofun
  | refusedTimestamp huntouched _ =>
    exact still_of_sequencers_eq huntouched.counters huntouched.sequencers nofun
  | opened hcounters hopened hsequencers _ _ =>
    refine ⟨hcounters.window?_eq, fun number' found hfound => ?_⟩
    rw [hsequencers] at hfound
    rcases SortedMap.get?_insert_cases hfound with ⟨rfl, rfl⟩ | ⟨hnumber, hfound⟩
    · exact .inr ⟨rfl, hopened⟩
    · refine .inl ⟨fun heq => hnumber ?_, found, hfound, .refl found⟩
      cases heq
      rfl
  | dropped hcounters hsequencers _ _ =>
    refine ⟨hcounters.window?_eq, fun number' found hfound => .inl ?_⟩
    rw [hsequencers] at hfound
    exact ⟨nofun, found, SortedMap.get?_of_get?_erase hfound, .refl found⟩
  | handed hcounters hget _ hsequencers _ =>
    exact still_of_insert hcounters.window?_eq hget hsequencers ⟨rfl, rfl, rfl⟩ nofun
  | claimed hroot hget _ _ hentries hsequencers _ =>
    refine still_of_insert ?_ hget hsequencers ⟨rfl, rfl, rfl⟩ nofun
    rw [window?, hroot]
    apply counter?_of_entry
    rw [hentries, SortedMap.get?_insert, if_neg t.store.root.nextId_ne_window.symm]
  | stamped => exact absurd rfl (hevent _ _)

theorem Timely.draws (h : Timely t (.drewTimestamp number ts) t') (ht : t.Timed) :
    ∃ sequencer sequencer', t.Draws t' number ts sequencer sequencer' := by
  cases h.step.effect ht.rooted with
  | @stamped _ _ sequencer now windowEnd hroot hget hsaves hsequencers _ =>
    let sequencer' : Sequencer := { sequencer with
      physical := (sequencer.tick now).1
      logical := (sequencer.tick now).2
      windowEnd }
    obtain ⟨hle, hlogical, hadvances⟩ := tick_spec now (ht.wound _ _ hget)
    have hafter : t'.store.sequencers.get? number = some sequencer' := by
      rw [hsequencers, SortedMap.get?_insert_self]
    have hrange : sequencer'.physical.toNat < 2 ^ 46 := h.range sequencer' hafter
    refine ⟨sequencer, sequencer', hget, hsequencers, Timestamp.physical_compose hrange hlogical,
      Timestamp.toNat_compose_of_lt hrange hlogical, hadvances, hle, hrange, hlogical, ?_⟩
    have hkey := ht.rooted _ _ hget
    cases hsaves with
    | kept hbelow hentries =>
      exact .kept hbelow rfl (counters_of_entries hroot hentries).window?_eq
    | moved hreached hentries =>
      have hstored := stored_of_insert (Decimal.readUnsigned_write _) hentries
      rw [hkey, ← hroot] at hstored
      exact .moved hreached rfl (hstored.counter? 0)

/-- A timestamp is drawn, or the clocks stand still. -/
theorem Timely.draws_or_still (h : Timely t event t') (ht : t.Timed) :
    (∃ number ts sequencer sequencer', event = .drewTimestamp number ts ∧
      t.Draws t' number ts sequencer sequencer') ∨
    (∀ number ts, event ≠ .drewTimestamp number ts) ∧ t.Still event t' := by
  by_cases hevent : ∀ number ts, event ≠ .drewTimestamp number ts
  · exact .inr ⟨hevent, (h.step.effect ht.rooted).still hevent⟩
  · simp only [not_forall, not_not] at hevent
    obtain ⟨number, ts, rfl⟩ := hevent
    obtain ⟨sequencer, sequencer', hdraws⟩ := h.draws ht
    exact .inl ⟨number, ts, sequencer, sequencer', rfl, hdraws⟩

/-- After a draw the other sequencers are what they were. -/
theorem Draws.get? {number' : Nat} {found : Sequencer}
    (h : t.Draws t' number ts sequencer sequencer')
    (hfound : t'.store.sequencers.get? number' = some found) :
    number' = number ∧ found = sequencer' ∨ t.store.sequencers.get? number' = some found := by
  rw [h.after] at hfound
  exact (SortedMap.get?_insert_cases hfound).imp_right And.right

theorem Draws.get?_self (h : t.Draws t' number ts sequencer sequencer') :
    t'.store.sequencers.get? number = some sequencer' := by
  rw [h.after, SortedMap.get?_insert_self]

theorem Draws.exists_window (h : t.Draws t' number ts sequencer sequencer')
    (hreadable : ∃ window, t.window? = some window) : ∃ window, t'.window? = some window := by
  cases h.reaches with
  | kept _ _ hwindow => simpa [hwindow] using hreadable
  | moved _ _ hwindow => exact ⟨_, hwindow⟩

theorem Timely.timed (h : Timely t event t') (ht : t.Timed) : t'.Timed := by
  have hrooted := (h.step.effect ht.rooted).rooted ht.rooted
  rcases h.draws_or_still ht with ⟨number, ts, sequencer, sequencer', rfl, hdraws⟩ | ⟨-, hstill⟩
  · refine ⟨hrooted, hdraws.exists_window ht.readable, fun number' found hfound => ?_⟩
    rcases hdraws.get? hfound with ⟨-, rfl⟩ | hfound
    · exact ⟨hdraws.logical, .inl hdraws.range⟩
    · exact ht.wound number' found hfound
  · refine ⟨hrooted, hstill.window ▸ ht.readable, fun number' found hfound => ?_⟩
    rcases hstill.clocks number' found hfound with ⟨-, before, hbefore, hclock⟩ | ⟨-, hopened⟩
    · exact hclock.wound (ht.wound number' before hbefore)
    · exact hopened.wound

end IngestCoordinator.Traffic
