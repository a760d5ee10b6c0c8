-- SUMMARY: What the calls of a sequencer read and write: the two counters, and nothing else.
import IngestCoordinator.Proofs.Store.Calls
import IngestCoordinator.Proofs.Store.Keys
import IngestCoordinator.Proofs.Timestamp
import IngestCoordinator.Store.Sequencer

/-!
# Calls of a sequencer

A sequencer reads a counter, works out what follows from it, and writes one counter at
most. Each call is described by what it has read and by what it leaves in the backend;
a call that fails leaves the entries as they were.
-/

namespace IngestCoordinator.Sequencer

open Operation Backend

variable {sequencer : Sequencer} {root : Root} {b b' : Backend} {α : Type}
  {read : Bytes → Except Decimal.Fault α} {absent value value' : α} {key : String}

/-! ## Counters -/

/-- What bytes say, or what is meant where there are none. -/
def Reads (read : Bytes → Except Decimal.Fault α) (absent : α) : Option Bytes → α → Prop
  | none, value => value = absent
  | some raw, value => read raw = .ok value

/-- The value of a counter, stored or not; none if it cannot be read. -/
def counter? (read : Bytes → Except Decimal.Fault α) (absent : α) (key : String) (b : Backend) :
    Option α :=
  match b.entries.get? key with
  | none => some absent
  | some (.bytes raw) => (read raw).toOption
  | some (.integer _) => none

/-- The value that is stored for a counter. -/
def Stored (read : Bytes → Except Decimal.Fault α) (key : String) (b : Backend) (value : α) :
    Prop :=
  ∃ raw, b.entries.get? key = some (.bytes raw) ∧ read raw = .ok value

theorem counter?_of_reads {seen : Option Bytes} (hseen : b.entries.get? key = seen.map .bytes)
    (hreads : Reads read absent seen value) : counter? read absent key b = some value := by
  cases seen with
  | none =>
    obtain rfl : value = absent := hreads
    simp [counter?, hseen]
  | some raw =>
    have hread : read raw = .ok value := hreads
    simp [counter?, hseen, hread, Except.toOption]

theorem counter?_of_entry (hentry : b'.entries.get? key = b.entries.get? key) :
    counter? read absent key b' = counter? read absent key b := by
  simp only [counter?, hentry]

theorem Stored.counter? (h : Stored read key b value) (absent : α) :
    counter? read absent key b = some value := by
  obtain ⟨raw, hraw, hread⟩ := h
  simp [Sequencer.counter?, hraw, hread, Except.toOption]

theorem stored_of_counter? (h : counter? read absent key b = some value) (hne : value ≠ absent) :
    Stored read key b value := by
  cases hget : b.entries.get? key with
  | none =>
    obtain rfl : absent = value := by simpa [Sequencer.counter?, hget] using h
    exact absurd rfl hne
  | some cell =>
    cases cell with
    | integer _ => simp [Sequencer.counter?, hget] at h
    | bytes raw =>
      refine ⟨raw, hget, ?_⟩
      cases hread : read raw with
      | ok found => simpa [Sequencer.counter?, hget, hread, Except.toOption] using h
      | error fault => simp [Sequencer.counter?, hget, hread, Except.toOption] at h

theorem Stored.of_entry (h : Stored read key b value)
    (hentry : b'.entries.get? key = b.entries.get? key) : Stored read key b' value := by
  obtain ⟨raw, hraw, hread⟩ := h
  exact ⟨raw, hentry.trans hraw, hread⟩

/-- What has just been written is stored. -/
theorem stored_of_insert {raw : Bytes} (hread : read raw = .ok value)
    (hentries : b'.entries = b.entries.insert key (.bytes raw)) : Stored read key b' value := by
  refine ⟨raw, ?_, hread⟩
  rw [hentries, SortedMap.get?_insert_self]

/-- Reading a counter finds what it says, or the call is refused, or it says nothing. -/
theorem ensures_readCounter (key : String) (read : Bytes → Except Decimal.Fault α) (absent : α) :
    Ensures (readCounter key read absent) b
      (fun found b' => b.Same b' ∧ b.entries.get? key = found.1.map .bytes ∧
        Reads read absent found.1 found.2)
      (fun e b' => b.Same b' ∧
        (b.Refuses e ∨ counter? read absent key b = none)) := by
  rw [readCounter, ensures_bind]
  refine (ensures_get? key).imp ?_ ?_
  · rintro found b' ⟨hsame, hfound⟩
    cases found with
    | none => exact ⟨hsame, hfound, rfl⟩
    | some raw =>
      simp only [ensures_bind, ensures_ofExcept, ensures_pure, decodeCounter]
      cases hread : read raw with
      | ok found =>
        constructor
        · intro value hvalue
          obtain rfl : found = value := by simpa [Except.mapError] using hvalue
          exact ⟨hsame, hfound, hread⟩
        · intro e herror
          simp [Except.mapError] at herror
      | error fault =>
        constructor
        · intro value hvalue
          simp [Except.mapError] at hvalue
        · intro e _
          exact ⟨hsame, .inr (by simp [counter?, hfound, hread, Except.toOption])⟩
  · rintro e b' ⟨hsame, hrefuses | ⟨value, hinteger⟩⟩
    · exact ⟨hsame, .inl hrefuses⟩
    · exact ⟨hsame, .inr (by simp [counter?, hinteger])⟩

/-! ## Opening -/

/-- A sequencer is opened at the window, with a block of identifiers yet to be reserved. -/
theorem ensures_open (root : Root) (blockSize : UInt64) : Ensures (Sequencer.open root blockSize) b
    (fun sequencer b' => b'.entries = b.entries ∧ 0 < sequencer.blockSize.toInt ∧
      ∃ window, counter? Decimal.readUnsigned 0 root.window b = some window ∧ sequencer = {
        root
        blockSize := sequencer.blockSize
        physical := window
        windowEnd := window })
    (fun _ b' => b'.entries = b.entries) := by
  rw [Sequencer.open]
  split
  · exact rfl
  · rename_i hsize
    rw [ensures_bind]
    refine (ensures_readCounter root.window Decimal.readUnsigned 0).imp ?_ fun _ _ h => h.1.entries
    rintro ⟨seen, window⟩ b' ⟨hsame, hseen, hreads⟩
    dsimp only
    split
    · exact hsame.entries
    · rename_i hlarge
      have hpositive : 0 < (Int64.ofNat blockSize.toNat).toInt := by
        rw [Int64.toInt_ofNat_of_lt (by omega)]
        have hne : blockSize.toNat ≠ 0 := fun hzero => hsize (UInt64.toNat_inj.1 hzero)
        omega
      exact ⟨hsame.entries, hpositive, window, counter?_of_reads hseen hreads, rfl⟩

/-! ## Identifiers -/

/-- A bid for the block that begins where the counter stood, exactly as long as it should be. -/
structure Fair (sequencer : Sequencer) (bid : Bid) : Prop where
  start : Reads Decimal.readSigned 1 bid.seen bid.start
  stop : bid.stop.toInt = bid.start.toInt + sequencer.blockSize.toInt

theorem Fair.of_blockSize {sequencer' : Sequencer} {bid : Bid} (h : sequencer.Fair bid)
    (hsize : sequencer'.blockSize = sequencer.blockSize) : sequencer'.Fair bid :=
  ⟨h.start, by simpa [hsize] using h.stop⟩

/-- A bid is fair; without one, calls are refused, or the counter is at its end or unreadable. -/
theorem ensures_bid (sequencer : Sequencer) : Ensures sequencer.bid b
    (fun bid b' => b.Same b' ∧ b.entries.get? sequencer.root.nextId = bid.seen.map .bytes ∧
      (0 < sequencer.blockSize.toInt → sequencer.Fair bid))
    (fun e b' => b.Same b' ∧ (b.Refuses e ∨ e = .internal .idSpaceExhausted ∨
      counter? Decimal.readSigned 1 sequencer.root.nextId b = none)) := by
  rw [bid, ensures_bind]
  refine (ensures_readCounter sequencer.root.nextId Decimal.readSigned 1).imp ?_ ?_
  · rintro ⟨seen, start⟩ b' ⟨hsame, hseen, hreads⟩
    dsimp only
    split
    · exact ⟨hsame, .inr (.inl rfl)⟩
    · refine ⟨hsame, hseen, fun hsize => ⟨hreads, ?_⟩⟩
      have hlow := start.le_toInt
      exact Int64.toInt_ofInt_of_le (by omega) (by omega)
  · rintro e b' ⟨hsame, hrefuses | hunreadable⟩
    · exact ⟨hsame, .inl hrefuses⟩
    · exact ⟨hsame, .inr (.inr hunreadable)⟩

/-- A claim moves the counter from what the bid has seen to the end of its block, or not at all. -/
theorem ensures_claim (sequencer : Sequencer) (bid : Bid) : Ensures (sequencer.claim bid) b
    (fun claimed b' => if claimed then
      b.entries.get? sequencer.root.nextId = bid.seen.map .bytes ∧
        b'.entries = b.entries.insert sequencer.root.nextId
          (.bytes (Decimal.writeInt bid.stop.toInt))
      else b'.entries = b.entries)
    (fun e b' => b'.entries = b.entries ∧ b.Refuses e) :=
  ensures_contend ..

/-- Why no block is reserved when nothing comes between the calls of an attempt. -/
inductive Fails (sequencer : Sequencer) (attempts : Nat) (b : Backend) : Error → Prop where
  /-- Other writers win as often as it is tried. -/
  | contention (h : attempts ≤ b.losses) :
    Fails sequencer attempts b (.storeUnavailable .contention)
  | unhealthy {e : Error} (h : ¬ b.Healthy) : Fails sequencer attempts b e
  | exhausted : Fails sequencer attempts b (.internal .idSpaceExhausted)
  | unreadable {e : Error}
    (h : counter? Decimal.readSigned 1 sequencer.root.nextId b = none) :
    Fails sequencer attempts b e

/-- An attempt that another writer has won from is one attempt and one loss fewer. -/
theorem Fails.of_lost {attempts : Nat} {e : Error} (h : sequencer.Fails attempts b' e)
    (hlost : b = { b' with losses := b'.losses + 1 }) : sequencer.Fails (attempts + 1) b e := by
  subst hlost
  cases h with
  | contention h => exact .contention (Nat.succ_le_succ h)
  | unhealthy h => exact .unhealthy fun hhealthy => h ⟨hhealthy.1, hhealthy.2, hhealthy.3⟩
  | exhausted => exact .exhausted
  | unreadable h => exact .unreadable h

/-- What comes of it after calls that have left all as it was. -/
theorem Fails.of_same {attempts : Nat} {e : Error} (h : sequencer.Fails attempts b' e)
    (hsame : b.Same b') : sequencer.Fails attempts b e := by
  cases h with
  | contention h => exact .contention (hsame.losses ▸ h)
  | unhealthy h => exact .unhealthy fun hhealthy => h (hsame.healthy hhealthy)
  | exhausted => exact .exhausted
  | unreadable h => exact .unreadable (by rw [← h, counter?_of_entry (by rw [hsame.entries])])

/-- Reserving a block fails for one of these reasons, and then nothing is written. -/
theorem ensures_reserve_fails (sequencer : Sequencer) (attempts : Nat) :
    Ensures (sequencer.reserve attempts) b (fun _ _ => True)
      (fun e b' => b'.entries = b.entries ∧ sequencer.Fails attempts b e) := by
  induction attempts generalizing b with
  | zero => exact ⟨rfl, .contention (Nat.zero_le _)⟩
  | succ attempts ih =>
    rw [reserve, ensures_bind]
    refine (ensures_bid sequencer).imp (fun bid b₁ hbid => ?_) fun e b₁ hbid => ?_
    · obtain ⟨hsame, hseen, -⟩ := hbid
      rw [← hsame.entries] at hseen
      rw [ensures_bind]
      refine (ensures_contend_expected hseen _).imp (fun claimed b₂ hclaim => ?_)
        fun e b₂ hclaim => ?_
      · cases claimed with
        | true => trivial
        | false =>
          have hlost : b₁ = { b₂ with losses := b₂.losses + 1 } := hclaim
          refine ih.imp (fun _ _ h => h) fun e b₃ h => ⟨?_, (h.2.of_lost hlost).of_same hsame⟩
          rw [h.1, ← hsame.entries, hlost]
      · obtain ⟨hentries, hrefuses⟩ := hclaim
        refine ⟨hentries.trans hsame.entries, .unhealthy fun hhealthy => ?_⟩
        exact hrefuses.not_healthy (hsame.healthy hhealthy)
    · obtain ⟨hsame, hrefuses | rfl | hunreadable⟩ := hbid
      · exact ⟨hsame.entries, .unhealthy hrefuses.not_healthy⟩
      · exact ⟨hsame.entries, .exhausted⟩
      · exact ⟨hsame.entries, .unreadable hunreadable⟩

/-- So does drawing an identifier, if a block has to be reserved for it. -/
theorem ensures_drawId_fails (sequencer : Sequencer) : Ensures sequencer.drawId b
    (fun _ _ => True)
    (fun e b' => b'.entries = b.entries ∧ sequencer.Fails reserveAttempts b e) := by
  rw [drawId]
  split
  · rw [ensures_bind]
    exact (ensures_reserve_fails sequencer reserveAttempts).imp (fun _ _ _ => trivial)
      fun _ _ h => h
  · trivial

/-! ## Timestamps -/

/-- The last timestamp of a sequencer as a number. -/
def reading (sequencer : Sequencer) : Nat :=
  sequencer.physical.toNat * 2 ^ 18 + sequencer.logical.toNat

/-- The clock is in range, or has not ticked since it was set: its next tick does not overflow. -/
structure Wound (sequencer : Sequencer) : Prop where
  logical : sequencer.logical ≤ Timestamp.logicalMask
  physical : sequencer.physical.toNat < 2 ^ 46 ∨ sequencer.logical = 0

/-- A tick moves the clock on, however the wall clock reads. -/
theorem tick_spec (now : UInt64) (h : sequencer.Wound) :
    sequencer.physical ≤ (sequencer.tick now).1 ∧
      (sequencer.tick now).2 ≤ Timestamp.logicalMask ∧
      sequencer.reading < (sequencer.tick now).1.toNat * 2 ^ 18 + (sequencer.tick now).2.toNat := by
  obtain ⟨hlogical, hphysical⟩ := h
  simp only [UInt64.le_iff_toNat_le, ← UInt64.toNat_inj, Timestamp.toNat_logicalMask]
    at hlogical hphysical ⊢
  have hzero : UInt64.toNat 0 = 0 := rfl
  have hone : UInt64.toNat 1 = 1 := rfl
  unfold tick reading
  split
  · rename_i hnow
    rw [UInt64.lt_iff_toNat_lt] at hnow
    dsimp only
    omega
  · split
    · -- The counter is full, so the clock has ticked and is in range.
      rename_i hmask
      rw [UInt64.lt_iff_toNat_lt, Timestamp.toNat_logicalMask, UInt64.toNat_add,
        Nat.mod_eq_of_lt (by omega)] at hmask
      dsimp only
      rw [UInt64.toNat_add, Nat.mod_eq_of_lt (by omega)]
      omega
    · rename_i hmask
      rw [UInt64.lt_iff_toNat_lt, Timestamp.toNat_logicalMask, UInt64.toNat_add,
        Nat.mod_eq_of_lt (by omega)] at hmask
      dsimp only
      rw [UInt64.toNat_add, Nat.mod_eq_of_lt (by omega)]
      omega

theorem toNat_windowMs : windowMs.toNat = 3000 := by
  decide

/-- The window after a draw: it stays, or the draw has reached it and stores a new one. -/
inductive Saves (sequencer : Sequencer) (physical : UInt64) (b : Backend) :
    UInt64 → Backend → Prop where
  | kept {b' : Backend} (h : physical < sequencer.windowEnd) (hentries : b'.entries = b.entries) :
    Saves sequencer physical b sequencer.windowEnd b'
  | moved {b' : Backend} (h : sequencer.windowEnd ≤ physical)
    (hentries : b'.entries = b.entries.insert sequencer.root.window
      (.bytes (Decimal.write (physical + windowMs).toNat))) :
    Saves sequencer physical b (physical + windowMs) b'

theorem Saves.get?_of_ne {physical windowEnd : UInt64} (h : sequencer.Saves physical b windowEnd b')
    (hkey : key ≠ sequencer.root.window) : b'.entries.get? key = b.entries.get? key := by
  cases h with
  | kept _ hentries => rw [hentries]
  | moved _ hentries => rw [hentries, SortedMap.get?_insert, if_neg hkey]

/-- A window that is stored leaves the counter of the identifiers alone. -/
theorem Saves.nextId {physical windowEnd : UInt64} (h : sequencer.Saves physical b windowEnd b') :
    b'.entries.get? sequencer.root.nextId = b.entries.get? sequencer.root.nextId :=
  h.get?_of_ne sequencer.root.nextId_ne_window

/-- A draw ticks and has a window above the tick; failing, it leaves the entries alone. -/
theorem ensures_drawTimestamp (sequencer : Sequencer) (now : UInt64) :
    Ensures (sequencer.drawTimestamp now) b
      (fun drawn b' => drawn.1 = .compose (sequencer.tick now).1 (sequencer.tick now).2 ∧
        ∃ windowEnd, sequencer.Saves (sequencer.tick now).1 b windowEnd b' ∧
          drawn.2 = { sequencer with
            physical := (sequencer.tick now).1
            logical := (sequencer.tick now).2
            windowEnd })
      (fun _ b' => b'.entries = b.entries) := by
  rw [drawTimestamp]
  dsimp only
  split
  · rename_i hreached
    rw [ensures_bind]
    refine (ensures_put ..).imp (fun _ b' h => ?_) fun _ _ h => h.1.entries
    exact ⟨rfl, _, .moved hreached h.1, rfl⟩
  · rename_i hbelow
    exact ⟨rfl, _, .kept (UInt64.not_le.1 hbelow) rfl, rfl⟩

/-! ## Everything else -/

/-- The entries of all keys but the two counters are what they were. -/
def Elsewhere (root : Root) (b b' : Backend) : Prop :=
  ∀ key, key ≠ root.nextId → key ≠ root.window → b'.entries.get? key = b.entries.get? key

theorem Elsewhere.of_entries (h : b'.entries = b.entries) : Elsewhere root b b' :=
  fun _ _ _ => by rw [h]

theorem ensures_claim_elsewhere (sequencer : Sequencer) (bid : Bid) :
    Ensures (sequencer.claim bid) b (fun _ b' => Elsewhere sequencer.root b b')
      (fun _ b' => Elsewhere sequencer.root b b') := by
  refine (ensures_claim sequencer bid).imp ?_ fun _ _ h => .of_entries h.1
  intro claimed b' h
  split at h
  · intro key hnext _
    rw [h.2, SortedMap.get?_insert, if_neg hnext]
  · exact .of_entries h

theorem ensures_reserve_elsewhere (sequencer : Sequencer) (attempts : Nat) :
    Ensures (sequencer.reserve attempts) b (fun _ b' => Elsewhere sequencer.root b b')
      (fun _ b' => Elsewhere sequencer.root b b') := by
  induction attempts generalizing b with
  | zero => exact .of_entries rfl
  | succ attempts ih =>
    rw [reserve, ensures_bind]
    refine (ensures_bid sequencer).imp (fun bid b₁ hbid => ?_) fun _ _ h => .of_entries h.1.entries
    have hfrom {b' : Backend} (h : Elsewhere sequencer.root b₁ b') :
        Elsewhere sequencer.root b b' := fun key hnext hwindow => (h key hnext hwindow).trans (by rw [hbid.1.entries])
    rw [ensures_bind]
    refine (ensures_claim_elsewhere sequencer bid).imp (fun claimed b₂ h => ?_) fun _ _ h => hfrom h
    split
    · exact hfrom h
    · refine ih.imp (fun _ b₃ h' => hfrom ?_) fun _ b₃ h' => hfrom ?_
      all_goals exact fun key hnext hwindow => (h' key hnext hwindow).trans (h key hnext hwindow)

theorem ensures_drawId_elsewhere (sequencer : Sequencer) :
    Ensures sequencer.drawId b (fun _ b' => Elsewhere sequencer.root b b')
      (fun _ b' => Elsewhere sequencer.root b b') := by
  rw [drawId]
  split
  · rw [ensures_bind]
    exact (ensures_reserve_elsewhere sequencer _).imp (fun _ _ h => h) fun _ _ h => h
  · exact .of_entries rfl

theorem ensures_drawTimestamp_elsewhere (sequencer : Sequencer) (now : UInt64) :
    Ensures (sequencer.drawTimestamp now) b (fun _ b' => Elsewhere sequencer.root b b')
      (fun _ b' => Elsewhere sequencer.root b b') := by
  refine (ensures_drawTimestamp sequencer now).imp ?_ fun _ _ h => .of_entries h
  rintro drawn b' ⟨-, windowEnd, hsaves, -⟩
  exact fun key _ hwindow => hsaves.get?_of_ne hwindow

end IngestCoordinator.Sequencer
