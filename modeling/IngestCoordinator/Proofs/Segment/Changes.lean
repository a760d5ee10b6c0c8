-- SUMMARY: What each change does to a segment, and what no change ever does.
import IngestCoordinator.Proofs.Words
import IngestCoordinator.Segment.Lifecycle

/-!
# Changes of segments

The steps in the life of a segment, as data, together with what each of them may
do. No step takes rows or time back, moves a segment to another key, or touches
the range of rows of one that has been sealed.
-/

namespace IngestCoordinator

/-- The state that follows a state. -/
def SegmentState.next? : SegmentState → Option SegmentState
  | .new => some .growing
  | .growing => some .sealed
  | .sealed => some .flushed
  | .flushed => none

namespace SegmentState

variable {state state' : SegmentState}

theorem next?_ne_self (state : SegmentState) : state.next? ≠ some state := by
  cases state <;> simp [next?]

theorem ne_new_of_next (h : state.next? = some state') : state' ≠ .new := by
  rintro rfl
  cases state <;> cases h

theorem isImmutable_of_sealed (h : state = .sealed) : state.isImmutable = true := by
  rw [h]
  rfl

theorem isImmutable_next (h : state.next? = some state') (hclosed : state.isImmutable = true) :
    state'.isImmutable = true := by
  cases state with
  | new | growing => cases hclosed
  | sealed =>
    cases h
    rfl
  | flushed => cases h

theorem isImmutable_of_next (h : state.next? = some state') (hclosed : state'.isImmutable = true)
    (hne : state' ≠ .sealed) : state.isImmutable = true := by
  cases state with
  | new =>
    cases h
    cases hclosed
  | growing =>
    cases h
    exact absurd rfl hne
  | sealed | flushed => rfl

end SegmentState

/-- A change that the coordinator makes to a stored segment. -/
inductive Change where
  | grow
  | grant (offset count : UInt64) (expireTime : Timestamp)
  | supersede
  | sealAt (time : Timestamp)
  | flush (time : Timestamp)
  | report (seq rowDelta memSize : UInt64)
  deriving DecidableEq, Repr

namespace Change

/-- What a change makes of a segment. -/
def apply : Change → Segment → Except Error Segment
  | .grow => Segment.grow
  | .grant offset count expireTime => Segment.grant offset count expireTime
  | .supersede => Segment.supersede
  | .sealAt time => Segment.sealAt time
  | .flush time => Segment.flush time
  | .report seq rowDelta memSize => Segment.report seq rowDelta memSize

/-- A grant is of at least one row and of no more than are left. -/
def Fits : Change → Segment → Prop
  | .grant _ count _, segment => 0 < count ∧ count ≤ segment.remaining
  | _, _ => True

/-- The state that a change takes a segment to, if it is for that. -/
def goal? : Change → Option SegmentState
  | .grow => some .growing
  | .sealAt _ => some .sealed
  | .flush _ => some .flushed
  | .grant .. | .supersede | .report .. => none

/-- Whether the change grants rows. -/
def isGrant : Change → Bool
  | .grant .. => true
  | _ => false

end Change

namespace Segment

variable {segment segment' : Segment}

/-! ## Each change -/

theorem grow_eq_ok_iff : segment.grow = .ok segment' ↔
    segment.state = .new ∧ segment' = { segment with state := .growing, superseded := false } := by
  unfold grow
  by_cases h : segment.state = .new
  · simp [h, eq_comm]
  · simp [h]

theorem grant_eq_ok_iff {offset count : UInt64} {expireTime : Timestamp} :
    segment.grant offset count expireTime = .ok segment' ↔
      segment.nextOffset = offset ∧ segment.isAllocatable = true ∧ segment' = { segment with
        nextOffset := segment.nextOffset + count
        lastExpireTime := max segment.lastExpireTime expireTime } := by
  unfold grant
  split
  · rename_i h
    simp only [Bool.or_eq_true, decide_eq_true_eq, Bool.not_eq_true'] at h
    rcases h with h | h <;> simp [h]
  · rename_i h
    simp only [Bool.or_eq_true, decide_eq_true_eq, Bool.not_eq_true', not_or,
      Decidable.not_not, Bool.not_eq_false] at h
    simp [h.1, h.2, eq_comm]

theorem supersede_eq_ok_iff : segment.supersede = .ok segment' ↔
    segment.state = .growing ∧ segment' = { segment with superseded := true } ∨
      segment.state ≠ .growing ∧ segment' = segment := by
  unfold supersede
  by_cases h : segment.state = .growing
  · simp [h, eq_comm]
  · simp [h, eq_comm (a := segment')]

theorem sealAt_eq_ok_iff {time : Timestamp} : segment.sealAt time = .ok segment' ↔
    segment.state.isImmutable = true ∧ segment' = segment ∨
      segment.state = .growing ∧ segment.lastExpireTime ≤ time ∧
        segment' = { segment with state := .sealed, superseded := true, sealedTime := time } := by
  unfold sealAt isSafeToSeal
  cases hstate : segment.state with
  | new | sealed | flushed => simp [SegmentState.isImmutable, eq_comm]
  | growing =>
    by_cases hsafe : segment.lastExpireTime ≤ time <;>
      simp [SegmentState.isImmutable, hsafe, eq_comm]

theorem flush_eq_ok_iff {time : Timestamp} : segment.flush time = .ok segment' ↔
    segment.state = .sealed ∧ segment' = { segment with state := .flushed, flushedTime := time } ∨
      segment.state = .flushed ∧ segment' = segment := by
  unfold flush
  cases segment.state <;> simp [eq_comm]

/-- A report leaves everything but the statistics as it was. -/
theorem report_eq_ok {seq rowDelta memSize : UInt64}
    (h : segment.report seq rowDelta memSize = .ok segment') : ∃ numRows memSize ledger,
      segment' = { segment with numRows, memSize, ledger } := by
  unfold report at h
  split at h
  · rename_i happlied
    cases h
    obtain ⟨⟨isNew, ledger⟩, -, happlied⟩ := Option.map_eq_some_iff.1 happlied
    cases isNew with
    | false =>
      cases happlied
      exact ⟨_, _, _, rfl⟩
    | true =>
      cases happlied
      exact ⟨_, _, _, rfl⟩
  · cases h

/-! ## Every change -/

/-- What a segment can become: rows and expiries only go up, and not at all once it is sealed. -/
structure Advances (segment segment' : Segment) : Prop where
  id : segment'.id = segment.id
  key : segment'.key = segment.key
  capacity : segment'.capacity = segment.capacity
  nextOffset : segment.nextOffset ≤ segment'.nextOffset
  lastExpireTime : segment.lastExpireTime ≤ segment'.lastExpireTime
  closed : segment.state.isImmutable = true → segment'.state.isImmutable = true ∧
    segment'.nextOffset = segment.nextOffset ∧ segment'.lastExpireTime = segment.lastExpireTime ∧
    segment'.sealedTime = segment.sealedTime

theorem Advances.refl (segment : Segment) : segment.Advances segment :=
  ⟨rfl, rfl, rfl, UInt64.le_refl _, UInt64.le_refl _, fun h => ⟨h, rfl, rfl, rfl⟩⟩

theorem Advances.trans {a b c : Segment} (h : a.Advances b) (h' : b.Advances c) : a.Advances c where
  id := h'.id.trans h.id
  key := h'.key.trans h.key
  capacity := h'.capacity.trans h.capacity
  nextOffset := UInt64.le_trans h.nextOffset h'.nextOffset
  lastExpireTime := UInt64.le_trans h.lastExpireTime h'.lastExpireTime
  closed hclosed := by
    obtain ⟨hb, hoffset, hexpire, hsealed⟩ := h.closed hclosed
    obtain ⟨hc, hoffset', hexpire', hsealed'⟩ := h'.closed hb
    exact ⟨hc, hoffset'.trans hoffset, hexpire'.trans hexpire, hsealed'.trans hsealed⟩

/-- No more rows have been granted than there are, and a sealed segment's grants expired first. -/
structure Sound (segment : Segment) : Prop where
  bounded : segment.nextOffset ≤ segment.capacity
  expired : segment.state.isImmutable = true → segment.lastExpireTime ≤ segment.sealedTime

/-- Rows that are left can be added to the offset without going around the word. -/
theorem toNat_nextOffset_add {count : UInt64} (hbounded : segment.nextOffset ≤ segment.capacity)
    (hcount : count ≤ segment.remaining) :
    (segment.nextOffset + count).toNat = segment.nextOffset.toNat + count.toNat ∧
      segment.nextOffset.toNat + count.toNat ≤ segment.capacity.toNat := by
  rw [UInt64.le_iff_toNat_le] at hbounded hcount
  rw [remaining, Saturating.toNat_sub] at hcount
  have hword := segment.capacity.toNat_lt
  rw [UInt64.toNat_add]
  omega

theorem isAllocatable_iff : segment.isAllocatable = true ↔
    segment.state = .growing ∧ segment.superseded = false ∧ 0 < segment.remaining := by
  simp [isAllocatable, and_assoc]

end Segment

open Segment in
/-- What every change does and what it keeps. -/
theorem Change.advances {change : Change} {segment segment' : Segment}
    (happly : change.apply segment = .ok segment') (hfits : change.Fits segment)
    (hsound : segment.Sound) : segment.Advances segment' ∧ segment'.Sound := by
  cases change with
  | grow =>
    obtain ⟨hnew, rfl⟩ := grow_eq_ok_iff.1 happly
    have hopen : segment.state.isImmutable = false := by rw [hnew]; rfl
    exact ⟨{ Advances.refl segment with closed := fun h => by simp [hopen] at h },
      hsound.bounded, fun h => by simp [SegmentState.isImmutable] at h⟩
  | grant offset count expireTime =>
    obtain ⟨rfl, hallocatable, rfl⟩ := grant_eq_ok_iff.1 happly
    have hgrowing := (isAllocatable_iff.1 hallocatable).1
    have hopen : segment.state.isImmutable = false := by rw [hgrowing]; rfl
    obtain ⟨hsum, hle⟩ := toNat_nextOffset_add hsound.bounded hfits.2
    have hup : segment.nextOffset ≤ segment.nextOffset + count := by
      rw [UInt64.le_iff_toNat_le, hsum]
      exact Nat.le_add_right ..
    have hbounded : segment.nextOffset + count ≤ segment.capacity := by
      rwa [UInt64.le_iff_toNat_le, hsum]
    exact ⟨⟨rfl, rfl, rfl, hup, Word.le_max_left _ _, fun h => by simp [hopen] at h⟩,
      hbounded, fun h => by simp [hopen] at h⟩
  | supersede =>
    rcases supersede_eq_ok_iff.1 happly with ⟨_, rfl⟩ | ⟨_, rfl⟩
    · exact ⟨{ Advances.refl segment with }, hsound.bounded, hsound.expired⟩
    · exact ⟨.refl _, hsound⟩
  | sealAt time =>
    rcases sealAt_eq_ok_iff.1 happly with ⟨_, rfl⟩ | ⟨hgrowing, hsafe, rfl⟩
    · exact ⟨.refl _, hsound⟩
    · have hopen : segment.state.isImmutable = false := by rw [hgrowing]; rfl
      exact ⟨{ Advances.refl segment with closed := fun h => by simp [hopen] at h },
        hsound.bounded, fun _ => hsafe⟩
  | flush time =>
    rcases flush_eq_ok_iff.1 happly with ⟨hsealed, rfl⟩ | ⟨_, rfl⟩
    · have hclosed := SegmentState.isImmutable_of_sealed hsealed
      exact ⟨{ Advances.refl segment with closed := fun _ => ⟨rfl, rfl, rfl, rfl⟩ },
        hsound.bounded, fun _ => hsound.expired hclosed⟩
    · exact ⟨.refl _, hsound⟩
  | report seq rowDelta memSize =>
    obtain ⟨numRows, memSize, ledger, rfl⟩ := report_eq_ok happly
    exact ⟨{ Advances.refl segment with }, hsound.bounded, hsound.expired⟩

open Segment in
/-- Only grants move the next offset. -/
theorem Change.nextOffset_eq {change : Change} {segment segment' : Segment}
    (happly : change.apply segment = .ok segment') (hgrant : change.isGrant = false) :
    segment'.nextOffset = segment.nextOffset := by
  cases change with
  | grow =>
    obtain ⟨_, rfl⟩ := grow_eq_ok_iff.1 happly
    rfl
  | grant offset count expireTime => cases hgrant
  | supersede => rcases supersede_eq_ok_iff.1 happly with ⟨_, rfl⟩ | ⟨_, rfl⟩ <;> rfl
  | sealAt time => rcases sealAt_eq_ok_iff.1 happly with ⟨_, rfl⟩ | ⟨_, _, rfl⟩ <;> rfl
  | flush time => rcases flush_eq_ok_iff.1 happly with ⟨_, rfl⟩ | ⟨_, rfl⟩ <;> rfl
  | report seq rowDelta memSize =>
    obtain ⟨_, _, _, rfl⟩ := report_eq_ok happly
    rfl

open Segment in
/-- No change moves a segment to another number or another key. -/
theorem Change.key_eq {change : Change} {segment segment' : Segment}
    (happly : change.apply segment = .ok segment') :
    segment'.id = segment.id ∧ segment'.key = segment.key := by
  cases change with
  | grow =>
    obtain ⟨_, rfl⟩ := grow_eq_ok_iff.1 happly
    exact ⟨rfl, rfl⟩
  | grant offset count expireTime =>
    obtain ⟨_, _, rfl⟩ := grant_eq_ok_iff.1 happly
    exact ⟨rfl, rfl⟩
  | supersede => rcases supersede_eq_ok_iff.1 happly with ⟨_, rfl⟩ | ⟨_, rfl⟩ <;> exact ⟨rfl, rfl⟩
  | sealAt time => rcases sealAt_eq_ok_iff.1 happly with ⟨_, rfl⟩ | ⟨_, _, rfl⟩ <;> exact ⟨rfl, rfl⟩
  | flush time => rcases flush_eq_ok_iff.1 happly with ⟨_, rfl⟩ | ⟨_, rfl⟩ <;> exact ⟨rfl, rfl⟩
  | report seq rowDelta memSize =>
    obtain ⟨_, _, _, rfl⟩ := report_eq_ok happly
    exact ⟨rfl, rfl⟩

open Segment in
/-- A change leaves a segment in its state, or takes it to the next one if that is its goal. -/
theorem Change.state_eq_or_next {change : Change} {segment segment' : Segment}
    (happly : change.apply segment = .ok segment') : segment'.state = segment.state ∨
      segment.state.next? = some segment'.state ∧ change.goal? = some segment'.state := by
  cases change with
  | grow =>
    obtain ⟨hnew, rfl⟩ := grow_eq_ok_iff.1 happly
    exact .inr ⟨by rw [hnew]; rfl, rfl⟩
  | grant offset count expireTime =>
    obtain ⟨_, _, rfl⟩ := grant_eq_ok_iff.1 happly
    exact .inl rfl
  | supersede => rcases supersede_eq_ok_iff.1 happly with ⟨_, rfl⟩ | ⟨_, rfl⟩ <;> exact .inl rfl
  | sealAt time =>
    rcases sealAt_eq_ok_iff.1 happly with ⟨_, rfl⟩ | ⟨hgrowing, _, rfl⟩
    · exact .inl rfl
    · exact .inr ⟨by rw [hgrowing]; rfl, rfl⟩
  | flush time =>
    rcases flush_eq_ok_iff.1 happly with ⟨hsealed, rfl⟩ | ⟨_, rfl⟩
    · exact .inr ⟨by rw [hsealed]; rfl, rfl⟩
    · exact .inl rfl
  | report seq rowDelta memSize =>
    obtain ⟨_, _, _, rfl⟩ := report_eq_ok happly
    exact .inl rfl

/-- No change opens a segment again that has been sealed. -/
theorem Change.isImmutable {change : Change} {segment segment' : Segment}
    (happly : change.apply segment = .ok segment') (hclosed : segment.state.isImmutable = true) :
    segment'.state.isImmutable = true := by
  rcases Change.state_eq_or_next happly with hstate | ⟨hnext, _⟩
  · rwa [hstate]
  · exact SegmentState.isImmutable_next hnext hclosed

/-- Only sealing closes a segment. -/
theorem Change.isImmutable_before {change : Change} {segment segment' : Segment}
    (happly : change.apply segment = .ok segment') (hgoal : change.goal? ≠ some .sealed)
    (hclosed : segment'.state.isImmutable = true) : segment.state.isImmutable = true := by
  rcases Change.state_eq_or_next happly with hstate | ⟨hnext, hreached⟩
  · rwa [← hstate]
  · exact SegmentState.isImmutable_of_next hnext hclosed fun heq => hgoal (heq ▸ hreached)

/-- A flushed segment stays flushed. -/
theorem Change.flushed {change : Change} {segment segment' : Segment}
    (happly : change.apply segment = .ok segment') (hflushed : segment.state = .flushed) :
    segment'.state = .flushed := by
  rcases Change.state_eq_or_next happly with hstate | ⟨hnext, _⟩
  · exact hstate.trans hflushed
  · rw [hflushed] at hnext
    cases hnext

/-- No change makes a segment new again that has been opened. -/
theorem Change.state_ne_new {change : Change} {segment segment' : Segment}
    (happly : change.apply segment = .ok segment') (hopened : segment.state ≠ .new) :
    segment'.state ≠ .new := by
  rcases Change.state_eq_or_next happly with hstate | ⟨hnext, _⟩
  · rwa [hstate]
  · exact SegmentState.ne_new_of_next hnext

open Segment in
/-- A segment gets a time of sealing only by being sealed. -/
theorem Change.sealedTime_eq_zero {change : Change} {segment segment' : Segment}
    (happly : change.apply segment = .ok segment')
    (hnone : segment.state.isImmutable = false → segment.sealedTime = 0)
    (hopen : segment'.state.isImmutable = false) : segment'.sealedTime = 0 := by
  cases change with
  | grow =>
    obtain ⟨hnew, rfl⟩ := grow_eq_ok_iff.1 happly
    exact hnone (by rw [hnew]; rfl)
  | grant offset count expireTime =>
    obtain ⟨_, _, rfl⟩ := grant_eq_ok_iff.1 happly
    exact hnone hopen
  | supersede => rcases supersede_eq_ok_iff.1 happly with ⟨_, rfl⟩ | ⟨_, rfl⟩ <;> exact hnone hopen
  | sealAt time =>
    rcases sealAt_eq_ok_iff.1 happly with ⟨_, rfl⟩ | ⟨_, _, rfl⟩
    · exact hnone hopen
    · cases hopen
  | flush time =>
    rcases flush_eq_ok_iff.1 happly with ⟨_, rfl⟩ | ⟨_, rfl⟩
    · cases hopen
    · exact hnone hopen
  | report seq rowDelta memSize =>
    obtain ⟨_, _, _, rfl⟩ := report_eq_ok happly
    exact hnone hopen

end IngestCoordinator
