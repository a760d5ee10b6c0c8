-- SUMMARY: Requests to several sequencers over one store, in steps that may come in any order.
import IngestCoordinator.Proofs.Path
import IngestCoordinator.Proofs.SortedMap
import IngestCoordinator.Proofs.Store.Sequencer
import IngestCoordinator.Store.Sharing

/-!
# Traffic

Sequencers over one store are used at the same time. A request for an identifier that needs
a new block is not done at once: it reads the counter and claims the block later, and in
between the others go on. Each step here makes one call to the backend at most, so every
order of the calls is a path. What a step can do to the counters and to the sequencers is
said once; all that follows about paths is about these effects.
-/

namespace IngestCoordinator

open Operation

/-- How far a request for an identifier has got. -/
inductive Stage where
  /-- No request is under way. -/
  | idle
  /-- The counter is read next, if attempts are left. -/
  | reading (attempts : Nat)
  /-- The block of a bid is claimed next. -/
  | claiming (attempts : Nat) (bid : Sequencer.Bid)
  deriving DecidableEq

/-- A shared store, and how far the request to each sequencer has got. -/
structure Traffic where
  store : SharedStore
  stages : Nat → Stage

/-- What a step hands out, or refuses to. -/
inductive Event where
  | quiet
  | opened (number : Nat)
  | drewId (number : Nat) (id : Int64)
  | refusedId (number : Nat) (e : Error)
  | drewTimestamp (number : Nat) (ts : Timestamp)
  | refusedTimestamp (number : Nat) (e : Error)
  deriving DecidableEq

/-- What can be done next under a number. -/
inductive Move where
  | open (number : Nat) (blockSize : UInt64)
  | drop (number : Nat)
  /-- Asks for an identifier, unless a request is under way already. -/
  | request (number : Nat)
  /-- Makes the next call of the request that is under way. -/
  | advance (number : Nat)
  /-- Gives up waiting for the request that is under way. -/
  | abandon (number : Nat)
  | stamp (number : Nat) (now : UInt64)

namespace Traffic

/-! ## Moves -/

/-- The request under a number has got to a stage. -/
def turn (t : Traffic) (number : Nat) (stage : Stage) : Traffic :=
  { t with stages := Function.update t.stages number stage }

/-- A call has left the backend like this. -/
def on (t : Traffic) (backend : Backend) : Traffic :=
  { t with store.backend := backend }

/-- Hands out the first identifier of a block. -/
def hand (t : Traffic) (number : Nat) (sequencer : Sequencer) (next stop : Int64) :
    Event × Traffic :=
  let (id, sequencer) := sequencer.handOut next stop
  (.drewId number id, { t with store := t.store.keep number sequencer })

/-- Makes a move; one that cannot be made changes nothing. -/
def perform : Move → Traffic → Event × Traffic
  | .open number blockSize, t =>
    match SharedStore.open number blockSize t.store with
    | .ok _ store => (.opened number, turn { t with store } number .idle)
    | .error _ store => (.quiet, { t with store })
  | .drop number, t =>
    (.quiet, turn { t with store.sequencers := t.store.sequencers.erase number } number .idle)
  | .request number, t =>
    match t.stages number, t.store.sequencers.get? number with
    | .idle, some sequencer =>
      if sequencer.stop ≤ sequencer.next then
        (.quiet, t.turn number (.reading Sequencer.reserveAttempts))
      else t.hand number sequencer sequencer.next sequencer.stop
    | _, _ => (.quiet, t)
  | .advance number, t =>
    match t.stages number, t.store.sequencers.get? number with
    | .reading 0, some _ =>
      (.refusedId number (.storeUnavailable .contention), t.turn number .idle)
    | .reading (attempts + 1), some sequencer =>
      match sequencer.bid t.store.backend with
      | .ok bid backend => (.quiet, (t.on backend).turn number (.claiming attempts bid))
      | .error e backend => (.refusedId number e, (t.on backend).turn number .idle)
    | .claiming attempts bid, some sequencer =>
      match sequencer.claim bid t.store.backend with
      | .ok true backend =>
        ((t.on backend).turn number .idle).hand number sequencer bid.start bid.stop
      | .ok false backend => (.quiet, (t.on backend).turn number (.reading attempts))
      | .error e backend => (.refusedId number e, (t.on backend).turn number .idle)
    | _, _ => (.quiet, t)
  | .abandon number, t => (.quiet, t.turn number .idle)
  | .stamp number now, t =>
    match SharedStore.drawTimestamp number now t.store with
    | .ok (some ts) store => (.drewTimestamp number ts, { t with store })
    | .ok none store => (.quiet, { t with store })
    | .error e store => (.refusedTimestamp number e, { t with store })

/-- Makes moves one after another. -/
def performAll : List Move → Traffic → List Event × Traffic
  | [], t => ([], t)
  | move :: moves, t =>
    let (event, t) := perform move t
    let (events, t) := performAll moves t
    (event :: events, t)

/-- Others use the store: which calls are refused or lost changes, and all keys but the counters. -/
structure Around (store store' : SharedStore) : Prop where
  root : store'.root = store.root
  sequencers : store'.sequencers = store.sequencers
  nextId : store'.backend.entries.get? store.root.nextId =
    store.backend.entries.get? store.root.nextId
  window : store'.backend.entries.get? store.root.window =
    store.backend.entries.get? store.root.window

/-- One step: a move, or something happens around the sequencers. -/
inductive Step : Traffic → Event → Traffic → Prop where
  | move {t : Traffic} (move : Move) : Step t (perform move t).1 (perform move t).2
  | around {t : Traffic} {store : SharedStore} (h : Around t.store store) :
    Step t .quiet { t with store }

/-- No sequencer has been opened. -/
structure Fresh (t : Traffic) : Prop where
  sequencers : t.store.sequencers = .empty
  stages : ∀ number, t.stages number = .idle

/-- A store that nobody has used. -/
def unused : Traffic :=
  ⟨{ backend := {}, root := ⟨"meta"⟩ }, fun _ => .idle⟩

theorem fresh_unused : unused.Fresh :=
  ⟨rfl, fun _ => rfl⟩

/-- Moves that are all steps of one kind. -/
def Along (step : Traffic → Event → Traffic → Prop) : List Move → Traffic → Prop
  | [], _ => True
  | move :: moves, t =>
    step t (perform move t).1 (perform move t).2 ∧ Along step moves (perform move t).2

instance decidableAlong {step : Traffic → Event → Traffic → Prop}
    [∀ t event t', Decidable (step t event t')] :
    (moves : List Move) → (t : Traffic) → Decidable (Along step moves t)
  | [], _ => inferInstanceAs (Decidable True)
  | move :: moves, t =>
    have : Decidable (Along step moves (perform move t).2) := decidableAlong moves _
    inferInstanceAs (Decidable (_ ∧ _))

theorem Along.imp {step step' : Traffic → Event → Traffic → Prop} {moves : List Move} {t : Traffic}
    (h : Along step moves t)
    (himp : ∀ move t, step t (perform move t).1 (perform move t).2 →
      step' t (perform move t).1 (perform move t).2) : Along step' moves t := by
  induction moves generalizing t with
  | nil => trivial
  | cons move moves ih => exact ⟨himp move t h.1, ih h.2⟩

theorem along_step (moves : List Move) (t : Traffic) : Along Step moves t := by
  induction moves generalizing t with
  | nil => trivial
  | cons move moves ih => exact ⟨.move move, ih _⟩

theorem path_performAll {step : Traffic → Event → Traffic → Prop} {moves : List Move} {t : Traffic}
    (h : Along step moves t) : Path step t (performAll moves t).1 (performAll moves t).2 := by
  induction moves generalizing t with
  | nil => exact .nil t
  | cons move moves ih => exact (Path.single h.1).append (ih h.2)

/-! ## Effects -/

variable {t t' : Traffic} {number : Nat} {sequencer : Sequencer} {event : Event}

/-- A bid that has been made and not claimed. -/
def Pending (t : Traffic) (number : Nat) (bid : Sequencer.Bid) : Prop :=
  ∃ attempts, t.stages number = .claiming attempts bid

/-- The sequencers are all below the root of the store. -/
def Rooted (t : Traffic) : Prop :=
  ∀ number sequencer, t.store.sequencers.get? number = some sequencer →
    sequencer.root = t.store.root

/-- The identifier that the counter stands at, if it can be read. -/
def nextId? (t : Traffic) : Option Int64 :=
  Sequencer.counter? Decimal.readSigned 1 t.store.root.nextId t.store.backend

/-- The end of the stored window, if it can be read. -/
def window? (t : Traffic) : Option UInt64 :=
  Sequencer.counter? Decimal.readUnsigned 0 t.store.root.window t.store.backend

/-- Nothing that is stored has changed, and no sequencer. -/
structure Untouched (t t' : Traffic) : Prop where
  root : t'.store.root = t.store.root
  sequencers : t'.store.sequencers = t.store.sequencers
  entries : t'.store.backend.entries = t.store.backend.entries

/-- Both counters are what they were. -/
structure Counters (t t' : Traffic) : Prop where
  root : t'.store.root = t.store.root
  nextId : t'.store.backend.entries.get? t.store.root.nextId =
    t.store.backend.entries.get? t.store.root.nextId
  window : t'.store.backend.entries.get? t.store.root.window =
    t.store.backend.entries.get? t.store.root.window

/-- No bid has been made. -/
def NoBids (t t' : Traffic) : Prop :=
  ∀ number bid, t'.Pending number bid → t.Pending number bid

/-- Why a request for an identifier is refused. -/
inductive Refusal (t : Traffic) (number : Nat) : Error → Prop where
  | contention (hlast : t.stages number = .reading 0) :
    Refusal t number (.storeUnavailable .contention)
  | store {e : Error} (h : t.store.backend.Refuses e) : Refusal t number e
  | exhausted : Refusal t number (.internal .idSpaceExhausted)
  | unreadable {e : Error} (h : t.nextId? = none) : Refusal t number e

/-- A sequencer as it is after opening: its clock stands at the stored window. -/
structure Opened (t : Traffic) (sequencer : Sequencer) : Prop where
  root : sequencer.root = t.store.root
  blockSize : 0 < sequencer.blockSize.toInt
  next : sequencer.next = 0
  stop : sequencer.stop = 0
  logical : sequencer.logical = 0
  physical : sequencer.physical = sequencer.windowEnd
  window : t.window? = some sequencer.windowEnd

/-- What one step can do. -/
inductive Effect (t : Traffic) : Event → Traffic → Prop where
  | quiet {t' : Traffic} (hcounters : t.Counters t')
    (hsequencers : t'.store.sequencers = t.store.sequencers) (hbids : t.NoBids t') :
    Effect t .quiet t'
  | bid {t' : Traffic} {number : Nat} {sequencer : Sequencer} {bid : Sequencer.Bid}
    (hcounters : t.Counters t') (hsequencers : t'.store.sequencers = t.store.sequencers)
    (hget : t.store.sequencers.get? number = some sequencer)
    (hfair : 0 < sequencer.blockSize.toInt → sequencer.Fair bid)
    (hbids : ∀ number' bid', t'.Pending number' bid' →
      t.Pending number' bid' ∨ number' = number ∧ bid' = bid) :
    Effect t .quiet t'
  | refusedId {t' : Traffic} {number : Nat} {e : Error} (huntouched : t.Untouched t')
    (hbids : t.NoBids t') (hrefusal : t.Refusal number e) : Effect t (.refusedId number e) t'
  | refusedTimestamp {t' : Traffic} {number : Nat} {e : Error} (huntouched : t.Untouched t')
    (hbids : t.NoBids t') : Effect t (.refusedTimestamp number e) t'
  | opened {t' : Traffic} {number : Nat} {sequencer : Sequencer} (hcounters : t.Counters t')
    (hopened : t.Opened sequencer)
    (hsequencers : t'.store.sequencers = t.store.sequencers.insert number sequencer)
    (hbids : t.NoBids t') (hnone : ∀ bid, ¬ t'.Pending number bid) :
    Effect t (.opened number) t'
  | dropped {t' : Traffic} {number : Nat} (hcounters : t.Counters t')
    (hsequencers : t'.store.sequencers = t.store.sequencers.erase number)
    (hbids : t.NoBids t') (hnone : ∀ bid, ¬ t'.Pending number bid) : Effect t .quiet t'
  | handed {t' : Traffic} {number : Nat} {sequencer : Sequencer} (hcounters : t.Counters t')
    (hget : t.store.sequencers.get? number = some sequencer)
    (hleft : sequencer.next < sequencer.stop)
    (hsequencers : t'.store.sequencers = t.store.sequencers.insert number
      (sequencer.handOut sequencer.next sequencer.stop).2)
    (hbids : t.NoBids t') : Effect t (.drewId number sequencer.next) t'
  | claimed {t' : Traffic} {number : Nat} {sequencer : Sequencer} {bid : Sequencer.Bid}
    (hroot : t'.store.root = t.store.root)
    (hget : t.store.sequencers.get? number = some sequencer) (hpending : t.Pending number bid)
    (hseen : t.store.backend.entries.get? t.store.root.nextId = bid.seen.map .bytes)
    (hentries : t'.store.backend.entries = t.store.backend.entries.insert t.store.root.nextId
      (.bytes (Decimal.writeInt bid.stop.toInt)))
    (hsequencers : t'.store.sequencers = t.store.sequencers.insert number
      (sequencer.handOut bid.start bid.stop).2)
    (hbids : t.NoBids t') : Effect t (.drewId number bid.start) t'
  | stamped {t' : Traffic} {number : Nat} {sequencer : Sequencer} {now windowEnd : UInt64}
    (hroot : t'.store.root = t.store.root)
    (hget : t.store.sequencers.get? number = some sequencer)
    (hsaves : sequencer.Saves (sequencer.tick now).1 t.store.backend windowEnd t'.store.backend)
    (hsequencers : t'.store.sequencers = t.store.sequencers.insert number { sequencer with
      physical := (sequencer.tick now).1
      logical := (sequencer.tick now).2
      windowEnd })
    (hbids : t.NoBids t') :
    Effect t (.drewTimestamp number (.compose (sequencer.tick now).1 (sequencer.tick now).2)) t'

theorem counters_of_entries (hroot : t'.store.root = t.store.root)
    (hentries : t'.store.backend.entries = t.store.backend.entries) : t.Counters t' :=
  ⟨hroot, by rw [hentries], by rw [hentries]⟩

theorem Untouched.counters (h : t.Untouched t') : t.Counters t' :=
  counters_of_entries h.root h.entries

theorem nextId?_of_entry (hroot : t'.store.root = t.store.root)
    (hentry : t'.store.backend.entries.get? t.store.root.nextId =
      t.store.backend.entries.get? t.store.root.nextId) : t'.nextId? = t.nextId? := by
  rw [nextId?, hroot]
  exact Sequencer.counter?_of_entry hentry

theorem Counters.nextId?_eq (h : t.Counters t') : t'.nextId? = t.nextId? :=
  nextId?_of_entry h.root h.nextId

theorem Counters.window?_eq (h : t.Counters t') : t'.window? = t.window? := by
  rw [window?, h.root]
  exact Sequencer.counter?_of_entry h.window

theorem Rooted.of_sequencers_eq (h : t.Rooted) (hroot : t'.store.root = t.store.root)
    (hsequencers : t'.store.sequencers = t.store.sequencers) : t'.Rooted := by
  simpa [Rooted, hroot, hsequencers] using h

theorem Rooted.insert (h : t.Rooted) (hroot : t'.store.root = t.store.root)
    (hsequencers : t'.store.sequencers = t.store.sequencers.insert number sequencer)
    (hsequencer : sequencer.root = t.store.root) : t'.Rooted := by
  intro other found hfound
  rw [hsequencers] at hfound
  rw [hroot]
  rcases SortedMap.get?_insert_cases hfound with ⟨-, rfl⟩ | ⟨-, hfound⟩
  · exact hsequencer
  · exact h other found hfound

/-- No step takes a sequencer to another root. -/
theorem Effect.rooted (heffect : Effect t event t') (h : t.Rooted) : t'.Rooted := by
  cases heffect with
  | quiet hcounters hsequencers _ => exact h.of_sequencers_eq hcounters.root hsequencers
  | bid hcounters hsequencers _ _ _ => exact h.of_sequencers_eq hcounters.root hsequencers
  | refusedId huntouched _ _ => exact h.of_sequencers_eq huntouched.root huntouched.sequencers
  | refusedTimestamp huntouched _ => exact h.of_sequencers_eq huntouched.root huntouched.sequencers
  | opened hcounters hopened hsequencers _ _ =>
    exact h.insert hcounters.root hsequencers hopened.root
  | dropped hcounters hsequencers _ _ =>
    intro other found hfound
    rw [hsequencers] at hfound
    rw [hcounters.root]
    exact h other found (SortedMap.get?_of_get?_erase hfound)
  | handed hcounters hget _ hsequencers _ =>
    have hrooted := h _ _ hget
    exact h.insert hcounters.root hsequencers hrooted
  | claimed hroot hget _ _ _ hsequencers _ =>
    have hrooted := h _ _ hget
    exact h.insert hroot hsequencers hrooted
  | stamped hroot hget _ hsequencers _ =>
    have hrooted := h _ _ hget
    exact h.insert hroot hsequencers hrooted

/-- A request that goes on, or ends, gives its bid up. -/
theorem noBids_turn {stage : Stage} (h : ∀ attempts bid, stage ≠ .claiming attempts bid) :
    t.NoBids (t.turn number stage) := by
  rintro number' bid ⟨attempts, hpending⟩
  simp only [turn, Function.update_apply] at hpending
  split at hpending
  · exact absurd hpending (h attempts bid)
  · exact ⟨attempts, hpending⟩

theorem not_pending_turn_idle (bid : Sequencer.Bid) :
    ¬ (t.turn number .idle).Pending number bid := by
  rintro ⟨attempts, hpending⟩
  simp [turn] at hpending

theorem noBids_turn_idle (t : Traffic) (number : Nat) : t.NoBids (t.turn number .idle) :=
  noBids_turn fun _ _ h => nomatch h

/-- After the stage is set, the bids pending are those of before and the one that it holds. -/
theorem pending_turn_claiming {attempts : Nat} {bid bid' : Sequencer.Bid} {number' : Nat}
    (h : (t.turn number (.claiming attempts bid)).Pending number' bid') :
    t.Pending number' bid' ∨ number' = number ∧ bid' = bid := by
  obtain ⟨attempts', hstage⟩ := h
  simp only [turn, Function.update_apply] at hstage
  split at hstage
  · rename_i hnumber
    cases hstage
    exact .inr ⟨hnumber, rfl⟩
  · exact .inl ⟨attempts', hstage⟩

theorem ensures_open (number : Nat) (blockSize : UInt64) (t : Traffic) :
    Ensures (SharedStore.open number blockSize) t.store
      (fun _ store => ∃ sequencer, t.Opened sequencer ∧ t.Counters { t with store } ∧
        store.sequencers = t.store.sequencers.insert number sequencer)
      (fun _ store => t.Untouched { t with store }) := by
  simp only [SharedStore.open, SharedStore.onBackend, ensures_bind, ensures_get, ensures_onPart,
    ensures_modify]
  refine (Sequencer.ensures_open t.store.root blockSize).imp ?_ ?_
  · rintro sequencer b' ⟨hentries, hsize, window, hwindow, heq⟩
    refine ⟨sequencer, ?_, counters_of_entries rfl hentries, rfl⟩
    rw [heq]
    exact ⟨rfl, hsize, rfl, rfl, rfl, rfl, hwindow⟩
  · intro e b' hentries
    exact ⟨rfl, rfl, hentries⟩

theorem effect_open (number : Nat) (blockSize : UInt64) (t : Traffic) :
    Effect t (perform (.open number blockSize) t).1 (perform (.open number blockSize) t).2 := by
  have hopen := ensures_open number blockSize t
  unfold perform
  unfold Ensures at hopen
  split at hopen
  · rename_i store heq
    obtain ⟨sequencer, hopened, hcounters, hsequencers⟩ := hopen
    simp only [heq]
    exact .opened ⟨hcounters.root, hcounters.nextId, hcounters.window⟩ hopened hsequencers
      (noBids_turn_idle { t with store } number) not_pending_turn_idle
  · rename_i e store heq
    simp only [heq]
    exact .quiet hopen.counters hopen.sequencers fun _ _ h => h

theorem effect_drop (number : Nat) (t : Traffic) :
    Effect t (perform (.drop number) t).1 (perform (.drop number) t).2 :=
  .dropped ⟨rfl, rfl, rfl⟩ rfl
    (noBids_turn_idle { t with store.sequencers := t.store.sequencers.erase number } number)
    not_pending_turn_idle

/-- Nothing has happened but that a request has got to another stage. -/
theorem effect_turn {stage : Stage} (h : ∀ attempts bid, stage ≠ .claiming attempts bid) :
    Effect t .quiet (t.turn number stage) :=
  .quiet ⟨rfl, rfl, rfl⟩ rfl (noBids_turn h)

theorem effect_self (t : Traffic) : Effect t .quiet t :=
  .quiet ⟨rfl, rfl, rfl⟩ rfl fun _ _ h => h

theorem effect_request (number : Nat) (t : Traffic) :
    Effect t (perform (.request number) t).1 (perform (.request number) t).2 := by
  simp only [perform]
  split
  · rename_i sequencer hstage hget
    split
    · exact effect_turn fun _ _ h => nomatch h
    · rename_i hleft
      exact .handed ⟨rfl, rfl, rfl⟩ hget (Int64.not_le.1 hleft) rfl fun _ _ h => h
  · exact effect_self t

theorem effect_advance (hrooted : t.Rooted) (number : Nat) :
    Effect t (perform (.advance number) t).1 (perform (.advance number) t).2 := by
  simp only [perform]
  split
  · rename_i hstage hget
    exact .refusedId ⟨rfl, rfl, rfl⟩ (noBids_turn_idle t number) (.contention hstage)
  · -- The counter is read.
    rename_i attempts sequencer hstage hget
    have hbid := Sequencer.ensures_bid (b := t.store.backend) sequencer
    rw [hrooted _ _ hget] at hbid
    unfold Ensures at hbid
    split at hbid
    · rename_i bid b' heq
      simp only [heq]
      exact .bid (counters_of_entries rfl hbid.1.entries) rfl hget hbid.2.2
        fun _ _ => pending_turn_claiming
    · rename_i e b' heq
      simp only [heq]
      refine .refusedId ⟨rfl, rfl, hbid.1.entries⟩ (noBids_turn_idle (t.on b') number) ?_
      obtain hrefuses | rfl | hunreadable := hbid.2
      · exact .store hrefuses
      · exact .exhausted
      · exact .unreadable hunreadable
  · -- The block is claimed.
    rename_i attempts bid sequencer hstage hget
    have hclaim := Sequencer.ensures_claim (b := t.store.backend) sequencer bid
    rw [hrooted _ _ hget] at hclaim
    unfold Ensures at hclaim
    split at hclaim
    · rename_i claimed b' heq
      cases claimed with
      | true =>
        simp only [heq]
        exact .claimed rfl hget ⟨attempts, hstage⟩ hclaim.1 hclaim.2 rfl
          (noBids_turn_idle (t.on b') number)
      | false =>
        simp only [heq]
        exact .quiet (counters_of_entries rfl hclaim) rfl (noBids_turn fun _ _ h => nomatch h)
    · rename_i e b' heq
      simp only [heq]
      exact .refusedId ⟨rfl, rfl, hclaim.1⟩ (noBids_turn_idle (t.on b') number)
        (.store hclaim.2)
  · exact effect_self t

theorem effect_stamp (number : Nat) (now : UInt64) (t : Traffic) :
    Effect t (perform (.stamp number now) t).1 (perform (.stamp number now) t).2 := by
  cases hget : t.store.sequencers.get? number with
  | none =>
    have hrun : SharedStore.drawTimestamp number now t.store = .ok none t.store := by
      apply eq_ok_of_ensures
      simp [SharedStore.drawTimestamp, hget]
    simp only [perform, hrun]
    exact effect_self t
  | some sequencer =>
    have hdraw : Ensures (SharedStore.drawTimestamp number now) t.store
        (fun ts? store => ∃ ts, ts? = some ts ∧
          Effect t (.drewTimestamp number ts) { t with store })
        (fun e store => Effect t (.refusedTimestamp number e) { t with store }) := by
      simp only [SharedStore.drawTimestamp, SharedStore.onBackend, ensures_bind, ensures_get, hget,
        ensures_onPart, ensures_modify, ensures_pure]
      refine (Sequencer.ensures_drawTimestamp sequencer now).imp ?_ ?_
      · rintro ⟨ts, sequencer'⟩ b' ⟨rfl, windowEnd, hsaves, rfl⟩
        exact ⟨_, rfl, .stamped rfl hget hsaves rfl fun _ _ h => h⟩
      · intro e b' hentries
        exact .refusedTimestamp ⟨rfl, rfl, hentries⟩ fun _ _ h => h
    unfold Ensures at hdraw
    split at hdraw
    · rename_i ts? store heq
      obtain ⟨ts, rfl, heffect⟩ := hdraw
      simp only [perform, heq]
      exact heffect
    · rename_i e store heq
      simp only [perform, heq]
      exact hdraw

/-- Every move has one of the effects. -/
theorem effect_perform (hrooted : t.Rooted) (move : Move) :
    Effect t (perform move t).1 (perform move t).2 := by
  cases move with
  | «open» number blockSize => exact effect_open number blockSize t
  | drop number => exact effect_drop number t
  | request number => exact effect_request number t
  | advance number => exact effect_advance hrooted number
  | abandon number => exact effect_turn fun _ _ h => nomatch h
  | stamp number now => exact effect_stamp number now t

theorem Step.effect (h : Step t event t') (hrooted : t.Rooted) : Effect t event t' := by
  cases h with
  | move move => exact effect_perform hrooted move
  | around haround =>
    exact .quiet ⟨haround.root, haround.nextId, haround.window⟩ haround.sequencers fun _ _ h => h

/-! ## Undisturbed requests -/

/-- Steps that hand out nothing, and then one with this event. -/
def Ends (t : Traffic) (event : Event) (t' : Traffic) : Prop :=
  ∃ count, Path Step t (List.replicate count .quiet ++ [event]) t'

theorem ends_step (h : Step t event t') : Ends t event t' :=
  ⟨0, .single h⟩

theorem Ends.after {t₁ : Traffic} (h : Ends t₁ event t') (hstep : Step t .quiet t₁) :
    Ends t event t' := by
  obtain ⟨count, hpath⟩ := h
  exact ⟨count + 1, (Path.single hstep).append hpath⟩

theorem step_of_perform (move : Move) (h : perform move t = (event, t')) : Step t event t' := by
  have hstep := Step.move (t := t) move
  rwa [h] at hstep

/-- Only the last stage of a request counts, and only the last call. -/
@[simp] theorem turn_on_turn (t : Traffic) (number : Nat) (stage stage' : Stage) (b : Backend) :
    ((t.turn number stage).on b).turn number stage' = (t.on b).turn number stage' := by
  simp [turn, on]

@[simp] theorem on_on (t : Traffic) (b b' : Backend) : (t.on b).on b' = t.on b' := rfl

@[simp] theorem stages_turn (t : Traffic) (number : Nat) (stage : Stage) :
    (t.turn number stage).stages number = stage := by
  simp [turn]

/-- The attempts at a block, one after another, are steps of the request. -/
theorem ends_reserve {attempts : Nat} (hstage : t.stages number = .reading attempts)
    (hget : t.store.sequencers.get? number = some sequencer) :
    Ensures (sequencer.reserve attempts) t.store.backend
      (fun block b' => Ends t (.drewId number block.1)
        (((t.on b').turn number .idle).hand number sequencer block.1 block.2).2)
      (fun e b' => Ends t (.refusedId number e) ((t.on b').turn number .idle)) := by
  induction attempts generalizing t with
  | zero =>
    apply ends_step
    apply step_of_perform (.advance number)
    simp only [perform, hstage, hget]
    rfl
  | succ attempts ih =>
    rw [Sequencer.reserve, ensures_bind]
    refine (Ensures.self sequencer.bid _).imp (fun bid b₁ hbid => ?_) fun e b₁ hbid => ?_
    · let t₁ := (t.on b₁).turn number (.claiming attempts bid)
      have hread : Step t .quiet t₁ := by
        apply step_of_perform (.advance number)
        simp only [perform, hstage, hget, hbid, t₁]
      have hclaiming : t₁.stages number = .claiming attempts bid := stages_turn ..
      have hget₁ : t₁.store.sequencers.get? number = some sequencer := hget
      rw [ensures_bind]
      refine (Ensures.self (sequencer.claim bid) t₁.store.backend).imp (fun claimed b₂ hclaim => ?_)
        fun e b₂ hclaim => ?_
      · cases claimed with
        | true =>
          simp only [if_true, ensures_pure]
          refine (ends_step (step_of_perform (.advance number) ?_)).after hread
          simp only [perform, hclaiming, hget₁, hclaim, t₁, turn_on_turn, on_on]
          rfl
        | false =>
          let t₂ := (t₁.on b₂).turn number (.reading attempts)
          have hlost : Step t₁ .quiet t₂ := by
            apply step_of_perform (.advance number)
            simp only [perform, hclaiming, hget₁, hclaim, t₂]
          have hon (b' : Backend) : (t₂.on b').turn number .idle = (t.on b').turn number .idle := by
            simp [t₂, t₁]
          refine (ih (t := t₂) (stages_turn ..) hget).imp (fun block b' hends => ?_)
            fun e b' hends => ?_
          · rw [hon] at hends
            exact (hends.after hlost).after hread
          · rw [hon] at hends
            exact (hends.after hlost).after hread
      · refine (ends_step (step_of_perform (.advance number) ?_)).after hread
        simp only [perform, hclaiming, hget₁, hclaim, t₁, turn_on_turn, on_on]
    · apply ends_step
      apply step_of_perform (.advance number)
      simp only [perform, hstage, hget, hbid]

/-- A request that nothing comes between does what a call at once does. -/
theorem ends_drawId (hidle : t.stages number = .idle) :
    Ensures (SharedStore.drawId number) t.store
      (fun id? store => ∀ id, id? = some id → Ends t (.drewId number id) { t with store })
      (fun e store => Ends t (.refusedId number e) { t with store }) := by
  have hstages : Function.update t.stages number .idle = t.stages :=
    Function.update_eq_self_iff.2 hidle.symm
  cases hget : t.store.sequencers.get? number with
  | none => simp [SharedStore.drawId, hget]
  | some sequencer =>
    simp only [SharedStore.drawId, SharedStore.onBackend, Sequencer.drawId, ensures_bind,
      ensures_get, hget, ensures_onPart, ensures_modify, ensures_pure]
    split
    · rename_i hused
      let t₁ := t.turn number (.reading Sequencer.reserveAttempts)
      have hstart : Step t .quiet t₁ := by
        apply step_of_perform (.request number)
        simp only [perform, hidle, hget, if_pos hused, t₁]
      have hon (b' : Backend) : (t₁.on b').turn number .idle = t.on b' := by
        simp [t₁, turn, on, hstages]
      rw [ensures_bind]
      refine (ends_reserve (t := t₁) (stages_turn ..) hget).imp (fun block b' hends => ?_)
        fun e b' hends => ?_
      · rw [hon] at hends
        rintro id ⟨⟩
        exact hends.after hstart
      · rw [hon] at hends
        exact hends.after hstart
    · rename_i hleft
      rintro id ⟨⟩
      apply ends_step
      apply step_of_perform (.request number)
      simp only [perform, hidle, hget, if_neg hleft]
      rfl

end Traffic

end IngestCoordinator
