-- SUMMARY: One step in the life of a segment: which fields may change when, and by which writes.
import IngestCoordinator.Proofs.Segment.History

/-!
# The life of a segment

A segment is new, then grows, then is sealed, then flushed, and takes one of these
steps at a time. Rows are granted only while it grows. Its number, key, group, node,
capacity and time of opening are written once. An operation that serves one goal
can write a segment many times and takes it one step further at most.
-/

namespace IngestCoordinator

namespace Segment

variable {goal : Option SegmentState} {segment segment' a b c : Segment}

/-! ## What is written once -/

/-- The two are records of one segment: what is written once is the same in both. -/
structure SameOrigin (segment segment' : Segment) : Prop where
  id : segment'.id = segment.id
  key : segment'.key = segment.key
  group : segment'.group = segment.group
  node : segment'.node = segment.node
  openTime : segment'.openTime = segment.openTime
  capacity : segment'.capacity = segment.capacity

theorem SameOrigin.refl (segment : Segment) : segment.SameOrigin segment :=
  ⟨rfl, rfl, rfl, rfl, rfl, rfl⟩

theorem SameOrigin.trans (h : a.SameOrigin b) (h' : b.SameOrigin c) : a.SameOrigin c :=
  ⟨h'.id.trans h.id, h'.key.trans h.key, h'.group.trans h.group, h'.node.trans h.node,
    h'.openTime.trans h.openTime, h'.capacity.trans h.capacity⟩

theorem SameOrigin.collection (h : segment.SameOrigin segment') :
    segment'.collection = segment.collection :=
  congrArg SegmentKey.collection h.key

/-- No change writes again what is written once. -/
theorem SameOrigin.of_change {change : Change} (happly : change.apply segment = .ok segment') :
    segment.SameOrigin segment' := by
  cases change with
  | grow =>
    obtain ⟨_, rfl⟩ := grow_eq_ok_iff.1 happly
    exact ⟨rfl, rfl, rfl, rfl, rfl, rfl⟩
  | grant offset count expireTime =>
    obtain ⟨_, _, rfl⟩ := grant_eq_ok_iff.1 happly
    exact ⟨rfl, rfl, rfl, rfl, rfl, rfl⟩
  | supersede =>
    rcases supersede_eq_ok_iff.1 happly with ⟨_, rfl⟩ | ⟨_, rfl⟩ <;>
      exact ⟨rfl, rfl, rfl, rfl, rfl, rfl⟩
  | sealAt time =>
    rcases sealAt_eq_ok_iff.1 happly with ⟨_, rfl⟩ | ⟨_, _, rfl⟩ <;>
      exact ⟨rfl, rfl, rfl, rfl, rfl, rfl⟩
  | flush time =>
    rcases flush_eq_ok_iff.1 happly with ⟨_, rfl⟩ | ⟨_, rfl⟩ <;>
      exact ⟨rfl, rfl, rfl, rfl, rfl, rfl⟩
  | report seq rowDelta memSize =>
    obtain ⟨_, _, _, rfl⟩ := report_eq_ok happly
    exact ⟨rfl, rfl, rfl, rfl, rfl, rfl⟩

/-- What a segment hands on to its later records, whatever happens to it. -/
structure Inherits (segment segment' : Segment) : Prop extends SameOrigin segment segment' where
  nextOffset : segment.nextOffset ≤ segment'.nextOffset
  lastExpireTime : segment.lastExpireTime ≤ segment'.lastExpireTime
  opened : segment.state ≠ .new → segment'.state ≠ .new
  /-- Once it grows, a segment that is superseded stays so. -/
  superseded : segment.state ≠ .new → segment.superseded = true → segment'.superseded = true

theorem Inherits.refl (segment : Segment) : segment.Inherits segment :=
  ⟨.refl segment, UInt64.le_refl _, UInt64.le_refl _, fun h => h, fun _ h => h⟩

theorem Inherits.trans (h : a.Inherits b) (h' : b.Inherits c) : a.Inherits c where
  toSameOrigin := h.toSameOrigin.trans h'.toSameOrigin
  nextOffset := UInt64.le_trans h.nextOffset h'.nextOffset
  lastExpireTime := UInt64.le_trans h.lastExpireTime h'.lastExpireTime
  opened hopened := h'.opened (h.opened hopened)
  superseded hopened hflag := h'.superseded (h.opened hopened) (h.superseded hopened hflag)

/-- No change of a segment that has been opened takes back that it is superseded. -/
theorem superseded_of_change {change : Change} (happly : change.apply segment = .ok segment')
    (hopened : segment.state ≠ .new) (hflag : segment.superseded = true) :
    segment'.superseded = true := by
  cases change with
  | grow => exact absurd (grow_eq_ok_iff.1 happly).1 hopened
  | grant offset count expireTime =>
    obtain ⟨_, _, rfl⟩ := grant_eq_ok_iff.1 happly
    exact hflag
  | supersede =>
    rcases supersede_eq_ok_iff.1 happly with ⟨_, rfl⟩ | ⟨_, rfl⟩
    · rfl
    · exact hflag
  | sealAt time =>
    rcases sealAt_eq_ok_iff.1 happly with ⟨_, rfl⟩ | ⟨_, _, rfl⟩
    · exact hflag
    · rfl
  | flush time => rcases flush_eq_ok_iff.1 happly with ⟨_, rfl⟩ | ⟨_, rfl⟩ <;> exact hflag
  | report seq rowDelta memSize =>
    obtain ⟨_, _, _, rfl⟩ := report_eq_ok happly
    exact hflag

/-- Every change hands on what is to be handed on. -/
theorem Inherits.of_change {change : Change} (happly : change.apply segment = .ok segment')
    (hfits : change.Fits segment) (hsound : segment.Sound) : segment.Inherits segment' where
  toSameOrigin := .of_change happly
  nextOffset := (Change.advances happly hfits hsound).1.nextOffset
  lastExpireTime := (Change.advances happly hfits hsound).1.lastExpireTime
  opened := Change.state_ne_new happly
  superseded := superseded_of_change happly

/-! ## One step at a time -/

/-- What one step may make of a segment. -/
structure Steps (segment segment' : Segment) : Prop extends Inherits segment segment' where
  state : segment'.state = segment.state ∨ segment.state.next? = some segment'.state
  /-- Offset and expiry move only while the segment grows. -/
  rows : segment'.nextOffset ≠ segment.nextOffset ∨
    segment'.lastExpireTime ≠ segment.lastExpireTime →
      segment.state = .growing ∧ segment'.state = .growing
  sealedTime : segment'.sealedTime ≠ segment.sealedTime →
    segment.state = .growing ∧ segment'.state = .sealed
  flushedTime : segment'.flushedTime ≠ segment.flushedTime →
    segment.state = .sealed ∧ segment'.state = .flushed

/--
What an operation makes of a segment if it takes segments to one state only, or to
none and grants rows instead.
-/
structure Serves (goal : Option SegmentState) (segment segment' : Segment) : Prop
    extends Inherits segment segment' where
  state : segment'.state = segment.state ∨
    segment.state.next? = some segment'.state ∧ goal = some segment'.state
  rows : segment'.nextOffset = segment.nextOffset ∧
    segment'.lastExpireTime = segment.lastExpireTime ∨ goal = none ∧ segment.state = .growing
  sealedTime : segment'.sealedTime = segment.sealedTime ∨
    segment.state = .growing ∧ segment'.state = .sealed
  flushedTime : segment'.flushedTime = segment.flushedTime ∨
    segment.state = .sealed ∧ segment'.state = .flushed

theorem Serves.refl (segment : Segment) : segment.Serves goal segment :=
  ⟨.refl segment, .inl rfl, .inl ⟨rfl, rfl⟩, .inl rfl, .inl rfl⟩

/-- A segment that has reached the goal stays there. -/
theorem Serves.state_eq_of_goal (h : segment.Serves goal segment')
    (hgoal : goal = some segment.state) : segment'.state = segment.state := by
  rcases h.state with hstate | ⟨hnext, hreached⟩
  · exact hstate
  · exact absurd (hnext.trans (hreached.symm.trans hgoal)) (SegmentState.next?_ne_self _)

/-- Two operations for one goal do not both move a segment. -/
theorem Serves.moved {before after : SegmentState} (h : a.Serves goal b) (h' : b.Serves goal c)
    (hne : before ≠ after) (hmoved : a.state = before ∧ b.state = after ∨
      b.state = before ∧ c.state = after) : a.state = before ∧ c.state = after := by
  rcases hmoved with ⟨rfl, rfl⟩ | ⟨rfl, rfl⟩
  · rcases h.state with hstate | ⟨_, hgoal⟩
    · exact absurd hstate.symm hne
    · exact ⟨rfl, h'.state_eq_of_goal hgoal⟩
  · rcases h.state with hstate | ⟨_, hgoal⟩
    · exact ⟨hstate.symm, rfl⟩
    · exact absurd (h'.state_eq_of_goal hgoal).symm hne

theorem Serves.trans (h : a.Serves goal b) (h' : b.Serves goal c) : a.Serves goal c := by
  refine ⟨h.toInherits.trans h'.toInherits, ?_, ?_, ?_, ?_⟩
  · rcases h.state with hstate | ⟨hnext, hgoal⟩
    · rw [← hstate]
      exact h'.state
    · rw [h'.state_eq_of_goal hgoal]
      exact .inr ⟨hnext, hgoal⟩
  · rcases h.rows with ⟨hoffset, hexpire⟩ | hgrants
    · rcases h'.rows with ⟨hoffset', hexpire'⟩ | ⟨hgoal, hgrowing⟩
      · exact .inl ⟨hoffset'.trans hoffset, hexpire'.trans hexpire⟩
      · rcases h.state with hstate | ⟨_, hreached⟩
        · exact .inr ⟨hgoal, hstate ▸ hgrowing⟩
        · cases hgoal.symm.trans hreached
    · exact .inr hgrants
  · rcases h.sealedTime with heq | hmoved
    · rcases h'.sealedTime with heq' | hmoved
      · exact .inl (heq'.trans heq)
      · exact .inr (h.moved h' (by simp) (.inr hmoved))
    · exact .inr (h.moved h' (by simp) (.inl hmoved))
  · rcases h.flushedTime with heq | hmoved
    · rcases h'.flushedTime with heq' | hmoved
      · exact .inl (heq'.trans heq)
      · exact .inr (h.moved h' (by simp) (.inr hmoved))
    · exact .inr (h.moved h' (by simp) (.inl hmoved))

/-- Whatever its goal, an operation takes one step. -/
theorem Serves.steps (h : segment.Serves goal segment') : segment.Steps segment' := by
  refine ⟨h.toInherits, h.state.imp_right And.left, fun hmoved => ?_,
    fun hmoved => h.sealedTime.resolve_left hmoved, fun hmoved => h.flushedTime.resolve_left hmoved⟩
  rcases h.rows with ⟨hoffset, hexpire⟩ | ⟨hgoal, hgrowing⟩
  · exact absurd hoffset (hmoved.resolve_right (not_not_intro hexpire))
  · rcases h.state with hstate | ⟨_, hreached⟩
    · exact ⟨hgrowing, hstate.trans hgrowing⟩
    · cases hgoal.symm.trans hreached

end Segment

/-! ## Writes for one goal -/

/-- Whether a change is one that an operation for the goal makes. -/
def Change.Serves (goal : Option SegmentState) : Change → Prop
  | .grow => goal = some .growing
  | .grant .. => goal = none
  | .sealAt _ => goal = some .sealed
  | .flush _ => goal = some .flushed
  | .supersede | .report .. => True

open Segment in
theorem Change.Serves.segment {goal : Option SegmentState} {change : Change}
    {segment segment' : Segment} (h : change.Serves goal)
    (happly : change.apply segment = .ok segment') (hfits : change.Fits segment)
    (hsound : segment.Sound) : segment.Serves goal segment' := by
  have hinherits := Inherits.of_change happly hfits hsound
  cases change with
  | grow =>
    obtain ⟨hnew, rfl⟩ := grow_eq_ok_iff.1 happly
    have hnext : segment.state.next? = some .growing := by
      rw [hnew]
      rfl
    exact ⟨hinherits, .inr ⟨hnext, h⟩, .inl ⟨rfl, rfl⟩, .inl rfl, .inl rfl⟩
  | grant offset count expireTime =>
    obtain ⟨_, hallocatable, rfl⟩ := grant_eq_ok_iff.1 happly
    exact ⟨hinherits, .inl rfl, .inr ⟨h, (isAllocatable_iff.1 hallocatable).1⟩, .inl rfl, .inl rfl⟩
  | supersede =>
    rcases supersede_eq_ok_iff.1 happly with ⟨_, rfl⟩ | ⟨_, rfl⟩
    · exact ⟨hinherits, .inl rfl, .inl ⟨rfl, rfl⟩, .inl rfl, .inl rfl⟩
    · exact .refl _
  | sealAt time =>
    rcases sealAt_eq_ok_iff.1 happly with ⟨_, rfl⟩ | ⟨hgrowing, _, rfl⟩
    · exact .refl _
    · have hnext : segment.state.next? = some .sealed := by
        rw [hgrowing]
        rfl
      exact ⟨hinherits, .inr ⟨hnext, h⟩, .inl ⟨rfl, rfl⟩, .inr ⟨hgrowing, rfl⟩, .inl rfl⟩
  | flush time =>
    rcases flush_eq_ok_iff.1 happly with ⟨hsealed, rfl⟩ | ⟨_, rfl⟩
    · have hnext : segment.state.next? = some .flushed := by
        rw [hsealed]
        rfl
      exact ⟨hinherits, .inr ⟨hnext, h⟩, .inl ⟨rfl, rfl⟩, .inl rfl, .inr ⟨hsealed, rfl⟩⟩
    · exact .refl _
  | report seq rowDelta memSize =>
    obtain ⟨_, _, _, rfl⟩ := report_eq_ok happly
    exact ⟨hinherits, .inl rfl, .inl ⟨rfl, rfl⟩, .inl rfl, .inl rfl⟩

/-- A write that an operation for the goal makes; segments that it has added may also grow. -/
def Write.Serves (base : Segments) (goal : Option SegmentState) : Write → Prop
  | .add _ => True
  | .change id step => step.Serves goal ∨ base.get? id = none ∧ step = .grow

theorem Write.Serves.sealTime?_eq_none {base : Segments} {goal : Option SegmentState} {write : Write}
    (h : write.Serves base goal) (hgoal : goal ≠ some .sealed) : write.sealTime? = none := by
  cases write with
  | add segment => rfl
  | change id change =>
    cases change with
    | sealAt time =>
      rcases h with h | ⟨_, h⟩
      · exact absurd h hgoal
      · cases h
    | grow | grant | supersede | flush | report => rfl

/-- Whatever happens, a stored segment keeps what is written once. -/
theorem History.sameOrigin {before after : Segments} {writes : List Write}
    (hhistory : History before writes after) {id : SegmentId} {segment : Segment}
    (hget : before.get? id = some segment) :
    ∃ segment', after.get? id = some segment' ∧ segment.SameOrigin segment' :=
  hhistory.keeps (fun happly h => h.trans (.of_change happly)) ⟨segment, hget, .refl segment⟩

/-- A segment that is sealed after some writes, and had been closed before them, was sealed then. -/
theorem History.sealed_before {before after : Segments} {writes : List Write}
    (hhistory : History before writes after) {id : SegmentId} (hclosed : ClosedIn before id)
    {segment' : Segment} (hget' : after.get? id = some segment') (hsealed : segment'.state = .sealed) :
    ∃ segment, before.get? id = some segment ∧ segment.state = .sealed ∧
      segment.SameOrigin segment' := by
  obtain ⟨segment, hget, hclosed⟩ := hclosed
  obtain ⟨_, hget₁, hsame⟩ := hhistory.sameOrigin hget
  cases hget'.symm.trans hget₁
  refine ⟨segment, hget, ?_, hsame⟩
  cases hstate : segment.state with
  | new | growing =>
    rw [hstate] at hclosed
    cases hclosed
  | sealed => rfl
  | flushed =>
    -- It would be flushed still.
    obtain ⟨_, hget₂, hflushed⟩ := hhistory.keeps Change.flushed ⟨segment, hget, hstate⟩
    cases hget'.symm.trans hget₂
    cases hsealed.symm.trans hflushed

/-- What holds of stored and of added segments by what is written once goes on to hold. -/
theorem History.forall_origin {p : Segment → Prop} {before after : Segments} {writes : List Write}
    (hhistory : History before writes after)
    (hkeeps : ∀ {segment segment' : Segment}, segment.SameOrigin segment' → p segment → p segment')
    (hadd : ∀ segment, .add segment ∈ writes → p segment)
    (h : ∀ id segment, before.get? id = some segment → p segment) :
    ∀ id segment, after.get? id = some segment → p segment := by
  induction hhistory with
  | nil => exact h
  | @snoc between after writes write _ hdoes ih =>
    have hbetween := ih fun segment hmem => hadd segment (List.mem_append_left _ hmem)
    intro id segment hget
    cases hdoes.origin hget with
    | kept hget => exact hbetween id segment hget
    | added => exact hadd _ (List.mem_append_right _ (List.mem_singleton_self _))
    | changed hold happly => exact hkeeps (.of_change happly) (hbetween id _ hold)

/-- Writes for one goal take a segment that was stored before them one step further at most. -/
theorem History.serves {base after : Segments} {writes : List Write} {goal : Option SegmentState}
    {grants : List Grant} (hhistory : History base writes after) (haccounts : Accounts grants base)
    (hserves : ∀ write ∈ writes, write.Serves base goal) {id : SegmentId} {segment : Segment}
    (hget : base.get? id = some segment) :
    ∃ segment', after.get? id = some segment' ∧ segment.Serves goal segment' := by
  induction hhistory with
  | nil => exact ⟨segment, hget, .refl segment⟩
  | @snoc between after writes write hhistory hdoes ih =>
    obtain ⟨hearlier, hlast⟩ := List.forall_mem_append.1 hserves
    obtain ⟨segment₁, hget₁, hserves₁⟩ := ih hearlier
    obtain ⟨segment₂, hget₂, hleaves⟩ := hdoes.leaves hget₁
    refine ⟨segment₂, hget₂, ?_⟩
    cases hleaves with
    | same => exact hserves₁
    | changed happly hfits =>
      have hsound := ((haccounts.history hhistory).stored hget₁).2.sound
      -- The segment was there from the start, so it is not one that may still grow.
      rcases hlast _ (List.mem_singleton_self _) with hchange | ⟨hnone, _⟩
      · exact hserves₁.trans (hchange.segment happly hfits hsound)
      · cases hget.symm.trans hnone

end IngestCoordinator
