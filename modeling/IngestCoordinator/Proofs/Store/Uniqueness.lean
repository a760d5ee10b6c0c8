-- SUMMARY: Identifiers from several sequencers over one store are all different.
import IngestCoordinator.Proofs.SortedMap
import IngestCoordinator.Proofs.Store.Traffic

/-!
# Identifiers are unique

A block that a sequencer claims begins where the counter stood and ends where it stands
then. So the blocks that sequencers hold do not meet, and an identifier once handed out
lies in none of them, whatever comes between reading the counter and claiming the block.
-/

namespace IngestCoordinator.Traffic

open Operation Sequencer

variable {t t' t₀ : Traffic} {event : Event} {events : List Event} {number : Nat}
  {sequencer sequencer' : Sequencer} {id start stop : Int64}

/-! ## What is always so -/

/-- The sequencers fit their root, and each bid fits its sequencer. -/
structure Orderly (t : Traffic) : Prop where
  rooted : t.Rooted
  sized : ∀ number sequencer, t.store.sequencers.get? number = some sequencer →
    0 < sequencer.blockSize.toInt
  fair : ∀ number bid, t.Pending number bid →
    ∃ sequencer, t.store.sequencers.get? number = some sequencer ∧ sequencer.Fair bid
  readable : ∃ next, t.nextId? = some next

theorem Counters.orderly_of_sequencers_eq (hcounters : t.Counters t') (h : t.Orderly)
    (hsequencers : t'.store.sequencers = t.store.sequencers)
    (hfair : ∀ number bid, t'.Pending number bid →
      ∃ sequencer, t.store.sequencers.get? number = some sequencer ∧ sequencer.Fair bid) :
    t'.Orderly where
  rooted := h.rooted.of_sequencers_eq hcounters.root hsequencers
  sized := by simpa [hsequencers] using h.sized
  fair := by simpa [hsequencers] using hfair
  readable := by simpa [hcounters.nextId?_eq] using h.readable

theorem Orderly.fair_of_get? {bid : Bid} (h : t.Orderly)
    (hget : t.store.sequencers.get? number = some sequencer) (hpending : t.Pending number bid) :
    sequencer.Fair bid := by
  obtain ⟨found, hfound, hfair⟩ := h.fair _ _ hpending
  obtain rfl := Option.some.inj (hget.symm.trans hfound)
  exact hfair

/-- A sequencer comes under a number. -/
theorem Orderly.insert (h : t.Orderly) (hroot : t'.store.root = t.store.root)
    (hsequencers : t'.store.sequencers = t.store.sequencers.insert number sequencer)
    (hrooted : sequencer.root = t.store.root) (hsized : 0 < sequencer.blockSize.toInt)
    (hbids : t.NoBids t') (hfair : ∀ bid, t'.Pending number bid → sequencer.Fair bid)
    (hreadable : ∃ next, t'.nextId? = some next) : t'.Orderly where
  rooted := h.rooted.insert hroot hsequencers hrooted
  sized := by
    intro other found hfound
    rw [hsequencers] at hfound
    rcases SortedMap.get?_insert_cases hfound with ⟨-, rfl⟩ | ⟨-, hfound⟩
    · exact hsized
    · exact h.sized _ _ hfound
  fair := by
    intro other bid hpending
    rw [hsequencers, SortedMap.get?_insert]
    split
    · rename_i hother
      cases hother
      exact ⟨sequencer, rfl, hfair bid hpending⟩
    · exact h.fair _ _ (hbids _ _ hpending)
  readable := hreadable

/-- A sequencer is altered, but not its root or the size of its blocks. -/
theorem Orderly.alter (h : t.Orderly) (hroot : t'.store.root = t.store.root)
    (hget : t.store.sequencers.get? number = some sequencer)
    (hsequencers : t'.store.sequencers = t.store.sequencers.insert number sequencer')
    (hsame : sequencer'.root = sequencer.root) (hsize : sequencer'.blockSize = sequencer.blockSize)
    (hbids : t.NoBids t')
    (hreadable : ∃ next, t'.nextId? = some next) : t'.Orderly := by
  refine h.insert hroot hsequencers (hsame.trans (h.rooted _ _ hget)) ?_ hbids ?_ hreadable
  · rw [hsize]
    exact h.sized _ _ hget
  · intro bid hpending
    exact (h.fair_of_get? hget (hbids _ _ hpending)).of_blockSize hsize

/-- What a claim writes is read back. -/
theorem stored_claim {b b' : Backend} {key : String}
    (hentries : b'.entries = b.entries.insert key (.bytes (Decimal.writeInt stop.toInt))) :
    Stored Decimal.readSigned key b' stop :=
  stored_of_insert (Decimal.readSigned_writeInt stop) hentries

theorem Effect.orderly (heffect : Effect t event t') (h : t.Orderly) : t'.Orderly := by
  have hrooted := heffect.rooted h.rooted
  cases heffect with
  | quiet hcounters hsequencers hbids =>
    exact hcounters.orderly_of_sequencers_eq h hsequencers fun number bid hpending =>
      h.fair number bid (hbids number bid hpending)
  | @bid _ number sequencer bid hcounters hsequencers hget hfair hbids =>
    apply hcounters.orderly_of_sequencers_eq h hsequencers
    intro number' bid' hpending
    rcases hbids number' bid' hpending with hpending | ⟨rfl, rfl⟩
    · exact h.fair number' bid' hpending
    · exact ⟨sequencer, hget, hfair (h.sized _ _ hget)⟩
  | refusedId huntouched hbids _ =>
    exact huntouched.counters.orderly_of_sequencers_eq h huntouched.sequencers
      fun number bid hpending => h.fair number bid (hbids number bid hpending)
  | refusedTimestamp huntouched hbids =>
    exact huntouched.counters.orderly_of_sequencers_eq h huntouched.sequencers
      fun number bid hpending => h.fair number bid (hbids number bid hpending)
  | opened hcounters hopened hsequencers hbids hnone =>
    exact h.insert hcounters.root hsequencers hopened.root hopened.blockSize hbids
      (fun bid hpending => absurd hpending (hnone bid))
      (by simpa [hcounters.nextId?_eq] using h.readable)
  | @dropped _ number hcounters hsequencers hbids hnone =>
    refine ⟨hrooted, ?_, ?_, by simpa [hcounters.nextId?_eq] using h.readable⟩
    · intro other found hfound
      rw [hsequencers] at hfound
      exact h.sized _ _ (SortedMap.get?_of_get?_erase hfound)
    · intro other bid hpending
      rw [hsequencers, SortedMap.get?_erase, if_neg]
      · exact h.fair _ _ (hbids _ _ hpending)
      · rintro rfl
        exact hnone bid hpending
  | handed hcounters hget _ hsequencers hbids =>
    exact h.alter hcounters.root hget hsequencers rfl rfl hbids
      (by simpa [hcounters.nextId?_eq] using h.readable)
  | claimed hroot hget _ _ hentries hsequencers hbids =>
    have hstored := stored_claim hentries
    rw [← hroot] at hstored
    exact h.alter hroot hget hsequencers rfl rfl hbids ⟨_, hstored.counter? 1⟩
  | stamped hroot hget hsaves hsequencers hbids =>
    have hentry := hsaves.nextId
    rw [h.rooted _ _ hget] at hentry
    exact h.alter hroot hget hsequencers rfl rfl hbids
      (by simpa [nextId?_of_entry hroot hentry] using h.readable)

/-! ## Accounts of identifiers -/

/-- The identifiers handed out, in order. -/
def ids (events : List Event) : List Int64 :=
  events.filterMap fun
    | .drewId _ id => some id
    | _ => none

/-- The identifiers handed out under one number. -/
def idsOf (number : Nat) (events : List Event) : List Int64 :=
  events.filterMap fun
    | .drewId number' id => if number' = number then some id else none
    | _ => none

/-- An identifier that a sequencer has reserved and not handed out. -/
def Reserved (t : Traffic) (number : Nat) (id : Int64) : Prop :=
  ∃ sequencer, t.store.sequencers.get? number = some sequencer ∧
    sequencer.next ≤ id ∧ id < sequencer.stop

/-- The counter that is stored has passed the identifier. -/
def Below (t : Traffic) (id : Int64) : Prop :=
  ∃ next, Stored Decimal.readSigned t.store.root.nextId t.store.backend next ∧ id < next

/-- Blocks do not meet, and hold none of the identifiers handed out; all are below the counter. -/
structure Accounted (t : Traffic) (events : List Event) : Prop where
  below : ∀ number id, t.Reserved number id → t.Below id
  apart : ∀ number number' id, t.Reserved number id → t.Reserved number' id → number = number'
  drawn : ∀ id ∈ ids events, t.Below id ∧ ∀ number, ¬ t.Reserved number id
  nodup : (ids events).Nodup
  ascending : ∀ number, (idsOf number events).Pairwise (· < ·)
  ahead : ∀ number id id', id ∈ idsOf number events → t.Reserved number id' → id < id'

/-- What may be handed out next under a number: it is new, and above all handed out under it. -/
structure Next (t : Traffic) (events : List Event) (number : Nat) (id : Int64) : Prop where
  new : id ∉ ids events
  above : ∀ earlier ∈ idsOf number events, earlier < id
  below : t.Below id

theorem mem_ids_of_mem_idsOf (h : id ∈ idsOf number events) : id ∈ ids events := by
  simp only [idsOf, ids, List.mem_filterMap] at h ⊢
  obtain ⟨event, hmem, hid⟩ := h
  refine ⟨event, hmem, ?_⟩
  cases event with
  | drewId number' id' => exact (Option.ite_none_right_eq_some.1 hid).2
  | _ => cases hid

@[simp] theorem ids_append (events events' : List Event) :
    ids (events ++ events') = ids events ++ ids events' := by
  simp [ids]

@[simp] theorem idsOf_append (number : Nat) (events events' : List Event) :
    idsOf number (events ++ events') = idsOf number events ++ idsOf number events' := by
  simp [idsOf]

theorem Below.lt_of_nextId? {next : Int64} (h : t.Below id) (hnext : t.nextId? = some next) :
    id < next := by
  obtain ⟨stored, hstored, hlt⟩ := h
  obtain rfl := Option.some.inj (hnext.symm.trans (hstored.counter? 1))
  exact hlt

theorem Below.of_entry (h : t.Below id) (hroot : t'.store.root = t.store.root)
    (hentry : t'.store.backend.entries.get? t.store.root.nextId =
      t.store.backend.entries.get? t.store.root.nextId) : t'.Below id := by
  obtain ⟨next, hnext, hlt⟩ := h
  refine ⟨next, ?_, hlt⟩
  rw [hroot]
  exact hnext.of_entry hentry

theorem Counters.below (h : t.Counters t') (hbelow : t.Below id) : t'.Below id :=
  hbelow.of_entry h.root h.nextId

/-- The identifiers below the next one can be counted on: adding one does not overflow. -/
theorem toInt_succ {next : Int64} (h : id < next) : (id + 1).toInt = id.toInt + 1 := by
  have hlt := Int64.lt_iff_toInt_lt.1 h
  have htop := next.toInt_lt
  have hlow := id.le_toInt
  have hone : (1 : Int64).toInt = 1 := rfl
  rw [Int64.toInt_add, hone]
  exact Int.bmod_eq_of_le (by omega) (by omega)

theorem lt_of_succ_le {id' : Int64} (h : id < stop) (h' : id + 1 ≤ id') : id < id' := by
  rw [Int64.le_iff_toInt_le, toInt_succ h] at h'
  exact Int64.lt_iff_toInt_lt.2 (by omega)

/-- Under the number of a sequencer that has come there are its identifiers, elsewhere no others. -/
theorem reserved_of_insert {number' : Nat}
    (hsequencers : t'.store.sequencers = t.store.sequencers.insert number sequencer)
    (h : t'.Reserved number' id) :
    t.Reserved number' id ∧ number' ≠ number ∨
      number' = number ∧ sequencer.next ≤ id ∧ id < sequencer.stop := by
  obtain ⟨found, hfound, hge, hlt⟩ := h
  rw [hsequencers] at hfound
  rcases SortedMap.get?_insert_cases hfound with ⟨hnumber, rfl⟩ | ⟨hnumber, hfound⟩
  · exact .inr ⟨hnumber, hge, hlt⟩
  · exact .inl ⟨⟨found, hfound, hge, hlt⟩, hnumber⟩

namespace Accounted

/-- Nothing is handed out; blocks may get smaller, and the counter may move on. -/
theorem mono (h : t.Accounted events) (hbelow : ∀ id, t.Below id → t'.Below id)
    (hreserved : ∀ number id, t'.Reserved number id → t.Reserved number id) :
    t'.Accounted events where
  below number id hid := hbelow id (h.below number id (hreserved number id hid))
  apart number number' id hid hid' :=
    h.apart number number' id (hreserved number id hid) (hreserved number' id hid')
  drawn id hid := by
    obtain ⟨hless, hnone⟩ := h.drawn id hid
    exact ⟨hbelow id hless, fun number hmem => hnone number (hreserved number id hmem)⟩
  nodup := h.nodup
  ascending := h.ascending
  ahead number id id' hid hid' := h.ahead number id id' hid (hreserved number id' hid')

theorem same (h : t.Accounted events) (hsequencers : t'.store.sequencers = t.store.sequencers)
    (hbelow : ∀ id, t.Below id → t'.Below id) : t'.Accounted events :=
  h.mono hbelow fun number id hid => by simpa [Reserved, hsequencers] using hid

/-- A block is reserved, from where the counter stood to where it stands now. -/
theorem reserve (h : t.Accounted events)
    (hstart : t.nextId? = some start)
    (hstop : Stored Decimal.readSigned t'.store.root.nextId t'.store.backend stop)
    (hle : start ≤ stop)
    (hreserved : ∀ number' id, t'.Reserved number' id →
      t.Reserved number' id ∨ number' = number ∧ start ≤ id ∧ id < stop) :
    t'.Accounted events := by
  -- All identifiers so far are below the new block.
  have hold (id : Int64) (hid : t.Below id) : id < start := hid.lt_of_nextId? hstart
  have hmeet {id : Int64} (hid : t.Below id) (hnew : start ≤ id) : False :=
    Int64.lt_irrefl (Int64.lt_of_lt_of_le (hold id hid) hnew)
  have hbelow (id : Int64) (hid : t.Below id) : t'.Below id :=
    ⟨stop, hstop, Int64.lt_of_lt_of_le (hold id hid) hle⟩
  constructor
  · intro number' id hid
    rcases hreserved number' id hid with hid | ⟨_, _, hlt⟩
    · exact hbelow id (h.below number' id hid)
    · exact ⟨stop, hstop, hlt⟩
  · intro first second id hfirst hsecond
    rcases hreserved first id hfirst with hfirst | ⟨rfl, hge, _⟩
    · rcases hreserved second id hsecond with hsecond | ⟨rfl, hge, _⟩
      · exact h.apart first second id hfirst hsecond
      · exact (hmeet (h.below first id hfirst) hge).elim
    · rcases hreserved second id hsecond with hsecond | ⟨rfl, _, _⟩
      · exact (hmeet (h.below second id hsecond) hge).elim
      · rfl
  · intro id hid
    obtain ⟨hless, hnone⟩ := h.drawn id hid
    refine ⟨hbelow id hless, fun number' hmem => ?_⟩
    rcases hreserved number' id hmem with hmem | ⟨_, hge, _⟩
    · exact hnone number' hmem
    · exact hmeet hless hge
  · exact h.nodup
  · exact h.ascending
  · intro number' id id' hid hid'
    rcases hreserved number' id' hid' with hid' | ⟨_, hge, _⟩
    · exact h.ahead number' id id' hid hid'
    · have hless := (h.drawn id (mem_ids_of_mem_idsOf hid)).1
      exact Int64.lt_of_lt_of_le (hold id hless) hge

/-- The first identifier of a block is handed out. -/
theorem hand (h : t.Accounted events) (hid : t.Reserved number id)
    (hbelow : ∀ id, t.Below id → t'.Below id)
    (hreserved : ∀ number' id', t'.Reserved number' id' →
      t.Reserved number' id' ∧ (number' = number → id < id')) :
    t'.Accounted (events ++ [.drewId number id]) := by
  have hgone (number' : Nat) : ¬ t'.Reserved number' id := by
    intro hmem
    obtain ⟨hmem, hlt⟩ := hreserved number' id hmem
    exact Int64.lt_irrefl (hlt (h.apart number' number id hmem hid))
  constructor
  · exact fun number' id' hid' => hbelow id' (h.below number' id' (hreserved number' id' hid').1)
  · exact fun first second id' hfirst hsecond =>
      h.apart first second id' (hreserved first id' hfirst).1 (hreserved second id' hsecond).1
  · intro id' hid'
    rw [ids_append, List.mem_append] at hid'
    rcases hid' with hid' | hid'
    · obtain ⟨hless, hnone⟩ := h.drawn id' hid'
      exact ⟨hbelow id' hless, fun number' hmem => hnone number' (hreserved number' id' hmem).1⟩
    · obtain rfl : id' = id := by simpa [ids] using hid'
      exact ⟨hbelow id' (h.below number id' hid), hgone⟩
  · rw [ids_append, List.nodup_append]
    refine ⟨h.nodup, by simp [ids], fun id' hid' id'' hid'' heq => ?_⟩
    obtain rfl : id'' = id := by simpa [ids] using hid''
    exact (h.drawn id' hid').2 number (heq ▸ hid)
  · intro number'
    rw [idsOf_append, List.pairwise_append]
    refine ⟨h.ascending number', ?_, fun id' hid' id'' hid'' => ?_⟩
    · by_cases hnumber : number = number' <;> simp [idsOf, hnumber]
    · by_cases hnumber : number = number'
      · obtain rfl : id'' = id := by simpa [idsOf, hnumber] using hid''
        exact h.ahead number' id' id'' hid' (hnumber ▸ hid)
      · simp [idsOf, hnumber] at hid''
  · intro number' id' id'' hid' hid''
    obtain ⟨hmem, hlt⟩ := hreserved number' id'' hid''
    rw [idsOf_append, List.mem_append] at hid'
    rcases hid' with hid' | hid'
    · exact h.ahead number' id' id'' hid' hmem
    · by_cases hnumber : number = number'
      · obtain rfl : id' = id := by simpa [idsOf, hnumber] using hid'
        exact hlt hnumber.symm
      · simp [idsOf, hnumber] at hid'

/-- A step that hands out no identifier adds nothing to the account. -/
theorem silent (h : t.Accounted events) (hevent : ∀ number id, event ≠ .drewId number id) :
    t.Accounted (events ++ [event]) := by
  have hids : ids (events ++ [event]) = ids events := by
    cases event with
    | drewId number id => exact absurd rfl (hevent number id)
    | _ => simp [ids]
  have hidsOf (number : Nat) : idsOf number (events ++ [event]) = idsOf number events := by
    cases event with
    | drewId number id => exact absurd rfl (hevent number id)
    | _ => simp [idsOf]
  constructor
  · exact h.below
  · exact h.apart
  · rw [hids]
    exact h.drawn
  · rw [hids]
    exact h.nodup
  · simpa only [hidsOf] using h.ascending
  · simpa only [hidsOf] using h.ahead

/-- The first identifier of a sequencer's block is handed out, and the block begins after it. -/
theorem handOut (h : t.Accounted events)
    (hget : t.store.sequencers.get? number = some sequencer)
    (hleft : sequencer.next < sequencer.stop)
    (hsequencers : t'.store.sequencers = t.store.sequencers.insert number
      (sequencer.handOut sequencer.next sequencer.stop).2)
    (hbelow : ∀ id, t.Below id → t'.Below id) :
    t'.Accounted (events ++ [.drewId number sequencer.next]) := by
  refine h.hand ⟨sequencer, hget, Int64.le_refl _, hleft⟩ hbelow fun number' id' hid' => ?_
  rcases reserved_of_insert hsequencers hid' with ⟨hmem, hne⟩ | ⟨rfl, hge, hlt⟩
  · exact ⟨hmem, fun heq => absurd heq hne⟩
  · have hnext : sequencer.next < id' := lt_of_succ_le hleft hge
    exact ⟨⟨sequencer, hget, Int64.le_of_lt hnext, hlt⟩, fun _ => hnext⟩

/-- A sequencer comes under a number whose block was reserved under it before. -/
theorem insert (h : t.Accounted events)
    (hsequencers : t'.store.sequencers = t.store.sequencers.insert number sequencer)
    (hbelow : ∀ id, t.Below id → t'.Below id)
    (hblock : ∀ id, sequencer.next ≤ id → id < sequencer.stop → t.Reserved number id) :
    t'.Accounted events := by
  refine h.mono hbelow fun number' id hid => ?_
  rcases reserved_of_insert hsequencers hid with ⟨hmem, _⟩ | ⟨rfl, hge, hlt⟩
  · exact hmem
  · exact hblock id hge hlt

/-- A sequencer goes, and what it had reserved is not handed out any more. -/
theorem erase (h : t.Accounted events)
    (hsequencers : t'.store.sequencers = t.store.sequencers.erase number)
    (hbelow : ∀ id, t.Below id → t'.Below id) : t'.Accounted events := by
  apply h.mono hbelow
  rintro number' id ⟨found, hfound, hid⟩
  rw [hsequencers] at hfound
  exact ⟨found, SortedMap.get?_of_get?_erase hfound, hid⟩

/-- A block is claimed: it is reserved as a whole, and then its first identifier handed out. -/
theorem claim {bid : Bid} (h : t.Accounted events)
    (hstart : t.nextId? = some bid.start)
    (hstop : Stored Decimal.readSigned t'.store.root.nextId t'.store.backend bid.stop)
    (hlt : bid.start < bid.stop)
    (hsequencers : t'.store.sequencers = t.store.sequencers.insert number
      (sequencer.handOut bid.start bid.stop).2) :
    t'.Accounted (events ++ [.drewId number bid.start]) := by
  let holder : Sequencer := { sequencer with next := bid.start, stop := bid.stop }
  let between : Traffic :=
    { t' with store.sequencers := t.store.sequencers.insert number holder }
  have hreserved : between.Accounted events := by
    have hstop' : Stored Decimal.readSigned between.store.root.nextId between.store.backend
        bid.stop := hstop
    apply h.reserve hstart hstop' (Int64.le_of_lt hlt)
    intro number' id hid
    exact (reserved_of_insert (t := t) rfl hid).imp_left And.left
  have hget : between.store.sequencers.get? number = some holder := SortedMap.get?_insert_self ..
  refine hreserved.handOut hget hlt ?_ fun _ h => h
  rw [hsequencers]
  exact (SortedMap.insert_insert ..).symm

end Accounted

theorem Effect.accounted (heffect : Effect t event t') (horderly : t.Orderly)
    (h : t.Accounted events) : t'.Accounted (events ++ [event]) := by
  cases heffect with
  | quiet hcounters hsequencers _ =>
    exact (h.same hsequencers fun _ => hcounters.below).silent fun _ _ h => nomatch h
  | bid hcounters hsequencers _ _ _ =>
    exact (h.same hsequencers fun _ => hcounters.below).silent fun _ _ h => nomatch h
  | refusedId huntouched _ _ =>
    exact (h.same huntouched.sequencers fun _ => huntouched.counters.below).silent
      fun _ _ h => nomatch h
  | refusedTimestamp huntouched _ =>
    exact (h.same huntouched.sequencers fun _ => huntouched.counters.below).silent
      fun _ _ h => nomatch h
  | opened hcounters hopened hsequencers _ _ =>
    refine (h.insert hsequencers (fun _ => hcounters.below) fun id hge hlt => ?_).silent
      fun _ _ h => nomatch h
    -- It has reserved nothing yet.
    rw [hopened.next] at hge
    rw [hopened.stop] at hlt
    exact absurd (Int64.lt_of_lt_of_le hlt hge) Int64.lt_irrefl
  | dropped hcounters hsequencers _ _ =>
    exact (h.erase hsequencers fun _ => hcounters.below).silent fun _ _ h => nomatch h
  | handed hcounters hget hleft hsequencers _ =>
    exact h.handOut hget hleft hsequencers fun _ => hcounters.below
  | @claimed _ number sequencer bid hroot hget hpending hseen hentries hsequencers _ =>
    have hfair := horderly.fair_of_get? hget hpending
    have hsize := horderly.sized _ _ hget
    have hstop := hfair.stop
    have hlt : bid.start < bid.stop := Int64.lt_iff_toInt_lt.2 (by omega)
    have hstored := stored_claim hentries
    rw [← hroot] at hstored
    exact h.claim (counter?_of_reads hseen hfair.start) hstored hlt hsequencers
  | @stamped _ number sequencer now windowEnd hroot hget hsaves hsequencers _ =>
    have hentry := hsaves.nextId
    rw [horderly.rooted _ _ hget] at hentry
    exact (h.insert hsequencers (fun _ hid => hid.of_entry hroot hentry)
      fun id hge hlt => ⟨sequencer, hget, hge, hlt⟩).silent fun _ _ h => nomatch h

/-! ## Runs -/

theorem Fresh.orderly (hfresh : t.Fresh) (hreadable : ∃ next, t.nextId? = some next) :
    t.Orderly where
  rooted := by simp [Rooted, hfresh.sequencers]
  sized := by simp [hfresh.sequencers]
  fair := by simp [Pending, hfresh.stages]
  readable := hreadable

theorem Fresh.accounted (hfresh : t.Fresh) : t.Accounted [] := by
  constructor <;> simp [Reserved, hfresh.sequencers, ids, idsOf]

theorem orderly_of_path (hrun : Path Step t₀ events t) (h : t₀.Orderly) : t.Orderly :=
  hrun.invariant (fun _ _ _ h hstep => (hstep.effect h.rooted).orderly h) h

theorem accounted_of_path {earlier : List Event} (hrun : Path Step t₀ events t)
    (horderly : t₀.Orderly) (h : t₀.Accounted earlier) : t.Accounted (earlier ++ events) := by
  induction hrun with
  | nil => simpa using h
  | snoc hrun hstep ih =>
    have horderly := orderly_of_path hrun horderly
    rw [← List.append_assoc]
    exact (hstep.effect horderly.rooted).accounted horderly ih

/-- A refused request has changed nothing, and there are three reasons for a refusal. -/
theorem Orderly.refused {e : Error} (h : t.Orderly) (hstep : Step t (.refusedId number e) t') :
    t.Untouched t' ∧ (e = .storeUnavailable .contention ∧ t.stages number = .reading 0 ∨
      t.store.backend.Refuses e ∨ e = .internal .idSpaceExhausted) := by
  have hreadable := h.readable
  cases hstep.effect h.rooted with
  | refusedId huntouched _ hrefusal =>
    refine ⟨huntouched, ?_⟩
    cases hrefusal with
    | contention hlast => exact .inl ⟨rfl, hlast⟩
    | store hrefuses => exact .inr (.inl hrefuses)
    | exhausted => exact .inr (.inr rfl)
    | unreadable hnone => simp [hnone] at hreadable

/-- What a request ends with when nothing comes between its steps may be handed out next. -/
theorem Accounted.next_of_ends (h : t.Accounted events) (horderly : t.Orderly)
    (hends : Ends t (.drewId number id) t') : t'.Next events number id := by
  obtain ⟨count, hpath⟩ := hends
  have hdrawn := accounted_of_path hpath horderly h
  constructor
  · have hnodup := hdrawn.nodup
    simp only [ids_append, List.nodup_append] at hnodup
    exact fun hid => hnodup.2.2 id hid id (by simp [ids]) rfl
  · have hascending := hdrawn.ascending number
    rw [idsOf_append, List.pairwise_append] at hascending
    exact fun earlier hearlier => hascending.2.2 earlier hearlier id (by simp [idsOf])
  · exact (hdrawn.drawn id (by simp [ids])).1

/-- A call at once that hands out no identifier changes nothing. -/
theorem Orderly.ensures_drawId_fails (h : t.Orderly) (number : Nat) :
    Ensures (SharedStore.drawId number) t.store
      (fun id? _ => id? = none → t.store.sequencers.get? number = none)
      (fun e store => t.Untouched { t with store } ∧
        (e = .storeUnavailable .contention ∧ reserveAttempts ≤ t.store.backend.losses ∨
          ¬ t.store.backend.Healthy ∨ e = .internal .idSpaceExhausted)) := by
  cases hget : t.store.sequencers.get? number with
  | none => simp [SharedStore.drawId, hget]
  | some sequencer =>
    simp only [SharedStore.drawId, SharedStore.onBackend, ensures_bind, ensures_get, hget,
      ensures_onPart, ensures_modify, ensures_pure]
    refine (Sequencer.ensures_drawId_fails sequencer).imp
      (fun _ _ _ hnone => absurd hnone (Option.some_ne_none _)) fun e b' hfails => ?_
    obtain ⟨hentries, hfails⟩ := hfails
    refine ⟨⟨rfl, rfl, hentries⟩, ?_⟩
    cases hfails with
    | contention h => exact .inl ⟨rfl, h⟩
    | unhealthy h => exact .inr (.inl h)
    | exhausted => exact .inr (.inr rfl)
    | unreadable hnone =>
      obtain ⟨next, hnext⟩ := h.readable
      rw [h.rooted _ _ hget] at hnone
      cases hnext.symm.trans hnone

/--
Sequencers over one store never hand out an identifier twice, and each hands them out in
ascending order. The stored counter has passed all of them, and no sum on the way overflows.
A request that is refused changes nothing. The next call for an identifier, at whatever point
it comes, hands out a new one; on a healthy store it is refused only at the end of the
identifiers, or when as many conditional writes have been lost as attempts are made.
-/
theorem ids_are_distinct (hfresh : t₀.Fresh) (hreadable : ∃ next, t₀.nextId? = some next)
    (hrun : Path Step t₀ events t) :
    (ids events).Nodup ∧ (∀ number, (idsOf number events).Pairwise (· < ·)) ∧
      (∀ id ∈ ids events, t.Below id ∧ (id + 1).toInt = id.toInt + 1) ∧
      (∀ number bid, t.Pending number bid → ∃ sequencer,
        t.store.sequencers.get? number = some sequencer ∧
          bid.stop.toInt = bid.start.toInt + sequencer.blockSize.toInt) ∧
      (∀ number e t', Step t (.refusedId number e) t' → t.Untouched t' ∧
        (e = .storeUnavailable .contention ∧ t.stages number = .reading 0 ∨
          t.store.backend.Refuses e ∨ e = .internal .idSpaceExhausted)) ∧
      ∀ number, t.stages number = .idle → Ensures (SharedStore.drawId number) t.store
        (fun id? store => (id? = none → t.store.sequencers.get? number = none) ∧
          ∀ id, id? = some id → Next { t with store } events number id)
        (fun e store => t.Untouched { t with store } ∧
          (e = .storeUnavailable .contention ∧ reserveAttempts ≤ t.store.backend.losses ∨
            ¬ t.store.backend.Healthy ∨ e = .internal .idSpaceExhausted)) := by
  have horderly := orderly_of_path hrun (hfresh.orderly hreadable)
  have haccounted := accounted_of_path hrun (hfresh.orderly hreadable) hfresh.accounted
  rw [List.nil_append] at haccounted
  refine ⟨haccounted.nodup, haccounted.ascending, fun id hid => ?_, fun number bid hpending => ?_,
    fun number e t' => horderly.refused, fun number hidle => ?_⟩
  · have hbelow := (haccounted.drawn id hid).1
    refine ⟨hbelow, ?_⟩
    obtain ⟨next, -, hlt⟩ := hbelow
    exact toInt_succ hlt
  · obtain ⟨sequencer, hget, hfair⟩ := horderly.fair number bid hpending
    exact ⟨sequencer, hget, hfair.stop⟩
  · refine ((horderly.ensures_drawId_fails number).and (ends_drawId hidle)).imp
      (fun id? store h => ⟨h.1, fun id hid => ?_⟩) fun e store h => h.1
    exact haccounted.next_of_ends horderly (h.2 id hid)

/-- Two sequencers read the counter before either claims a block; later one is opened again. -/
def crossing : List Move :=
  [.open 0 2, .open 1 1, .request 0, .request 1, .advance 0, .advance 1, .advance 0, .advance 1,
    .advance 1, .advance 1, .open 0 2, .request 0, .advance 0, .advance 0]

/--
The second bid is lost and made again; the identifier 2 is reserved and never handed out.
A call at once then hands out the next one of the block that is held.
-/
theorem lost_bid_is_made_again :
    ids (performAll crossing unused).1 = [1, 3, 4] ∧ idsOf 0 (performAll crossing unused).1 = [1, 4] ∧
      (idsOf 0 (performAll crossing unused).1).Pairwise (· < ·) ∧
      (ids (performAll crossing unused).1).Nodup ∧ (performAll crossing unused).2.Below 4 ∧
      ∃ store, SharedStore.drawId 0 (performAll crossing unused).2.store = .ok (some 5) store ∧
        Next { (performAll crossing unused).2 with store } (performAll crossing unused).1 0 5 := by
  have hdrawn : ids (performAll crossing unused).1 = [1, 3, 4] := by decide +kernel
  obtain ⟨hnodup, hascending, hbelow, -, -, hnext⟩ :=
    ids_are_distinct fresh_unused ⟨1, rfl⟩ (path_performAll (along_step crossing unused))
  have hcall : ((SharedStore.drawId 0).attempt (performAll crossing unused).2.store).1 =
      .ok (some 5) := by decide +kernel
  have hdraw := eq_ok_of_attempt hcall
  have hidle : (performAll crossing unused).2.stages 0 = .idle := by decide +kernel
  exact ⟨hdrawn, by decide +kernel, hascending 0, hnodup, (hbelow 4 (by simp [hdrawn])).1, _, hdraw,
    ((hnext 0 hidle).ok hdraw).2 5 rfl⟩

end IngestCoordinator.Traffic
