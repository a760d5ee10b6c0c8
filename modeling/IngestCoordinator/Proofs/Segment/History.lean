-- SUMMARY: Histories of segment writes, and the grants that they add up to.
import IngestCoordinator.Allocator.Grant
import IngestCoordinator.Proofs.Path
import IngestCoordinator.Proofs.Segment.Changes
import IngestCoordinator.Proofs.SortedMap

/-!
# Histories

Whatever the coordinator does, the stored segments change by single writes: a new
record is added, or one record is changed. A history lists the writes in order.
The grants among them tile each segment from its first row to its next offset,
and none comes after the segment has been sealed.
-/

namespace IngestCoordinator

/-- The stored segments by number. -/
abbrev Segments := SortedMap SegmentId Segment

/-- A write of one segment. -/
inductive Write where
  /-- A segment that has just been built is added. -/
  | add (segment : Segment)
  | change (id : SegmentId) (change : Change)
  deriving DecidableEq, Repr

/-- The segment has been built and nothing has happened to it since. -/
def Segment.IsFresh (segment : Segment) : Prop :=
  segment = .fresh segment.id segment.key segment.group segment.node segment.capacity
    segment.openTime

namespace Write

/-- What a write does to the stored segments. -/
inductive Does : Write → Segments → Segments → Prop where
  | add {segment : Segment} {segments : Segments} (hfresh : segment.IsFresh)
      (habsent : segments.get? segment.id = none) :
      Does (.add segment) segments (segments.insert segment.id segment)
  | change {id : SegmentId} {change : Change} {segments : Segments} {segment updated : Segment}
      (hget : segments.get? id = some segment) (happly : change.apply segment = .ok updated)
      (hfits : change.Fits segment) :
      Does (.change id change) segments (segments.insert id updated)

/-- The grant that a write records. -/
def grant? : Write → Option Grant
  | .change id (.grant offset count expireTime) => some ⟨id, offset, count, expireTime⟩
  | _ => none

/-- The time at which a write seals a segment. -/
def sealTime? : Write → Option Timestamp
  | .change _ (.sealAt time) => some time
  | _ => none

theorem goal?_ne_sealed {id : SegmentId} {change : Change}
    (h : (Write.change id change).sealTime? = none) : change.goal? ≠ some .sealed := by
  cases change with
  | sealAt time => cases h
  | grow | grant | supersede | flush | report => simp [Change.goal?]

end Write

/-- The grants among some writes, in order. -/
def grantsOf (writes : List Write) : List Grant :=
  writes.filterMap Write.grant?

theorem grantsOf_single (write : Write) : grantsOf [write] = write.grant?.toList := by
  cases h : write.grant? <;> simp [grantsOf, h]

theorem grantsOf_append (writes writes' : List Write) :
    grantsOf (writes ++ writes') = grantsOf writes ++ grantsOf writes' :=
  List.filterMap_append

/-- Writes made one after another. -/
def History : Segments → List Write → Segments → Prop :=
  Path fun before write after => write.Does before after

variable {before between after segments segments' : Segments} {writes writes' : List Write}
  {write : Write} {grants : List Grant}

/-! ## One write and one segment -/

namespace Write

/-- A stored segment is left as it is by writes about others, and changed by one about it. -/
inductive Leaves (id : SegmentId) (segment : Segment) : Write → Segment → Prop where
  | same {write : Write} (hother : ∀ change, write ≠ .change id change) :
    Leaves id segment write segment
  | changed {change : Change} {updated : Segment} (happly : change.apply segment = .ok updated)
    (hfits : change.Fits segment) : Leaves id segment (.change id change) updated

/-- What is stored after a write was stored before, or has just been added or changed. -/
inductive Origin (before : Segments) (id : SegmentId) (segment : Segment) : Write → Prop where
  | kept {write : Write} (hget : before.get? id = some segment) : Origin before id segment write
  | added (hfresh : segment.IsFresh) : Origin before id segment (.add segment)
  | changed {change : Change} {old : Segment} (hget : before.get? id = some old)
    (happly : change.apply old = .ok segment) : Origin before id segment (.change id change)

theorem Does.leaves (hdoes : write.Does before after) {id : SegmentId} {segment : Segment}
    (hget : before.get? id = some segment) :
    ∃ segment', after.get? id = some segment' ∧ write.Leaves id segment segment' := by
  cases hdoes with
  | @add added _ _ habsent =>
    have hid : id ≠ added.id := fun heq => by
      rw [heq, habsent] at hget
      cases hget
    exact ⟨segment, by rwa [SortedMap.get?_insert, if_neg hid], .same fun _ => nofun⟩
  | @change id' change _ old updated hold happly hfits =>
    rw [SortedMap.get?_insert]
    split
    · rename_i heq
      subst heq
      cases hget.symm.trans hold
      exact ⟨updated, rfl, .changed happly hfits⟩
    · rename_i hne
      refine ⟨segment, hget, .same fun change' heq => hne ?_⟩
      cases heq
      rfl

theorem Does.origin (hdoes : write.Does before after) {id : SegmentId} {segment : Segment}
    (hget : after.get? id = some segment) : write.Origin before id segment := by
  cases hdoes with
  | add hfresh _ =>
    rcases SortedMap.get?_insert_cases hget with ⟨-, rfl⟩ | ⟨-, hget⟩
    · exact .added hfresh
    · exact .kept hget
  | change hold happly _ =>
    rcases SortedMap.get?_insert_cases hget with ⟨rfl, rfl⟩ | ⟨-, hget⟩
    · exact .changed hold happly
    · exact .kept hget

end Write

/-! ## Tilings -/

/-- The grants are of one row or more each, and follow one another from `start` to `stop`. -/
def Tiles (start : Nat) : List Grant → Nat → Prop
  | [], stop => start = stop
  | grant :: grants, stop => grant.offset.toNat = start ∧ 1 ≤ grant.count.toNat ∧
      Tiles (start + grant.count.toNat) grants stop

theorem Tiles.le {start stop : Nat} (h : Tiles start grants stop) : start ≤ stop := by
  induction grants generalizing start with
  | nil => exact Nat.le_of_eq h
  | cons grant grants ih =>
    have hrest := ih h.2.2
    omega

theorem Tiles.concat {start stop : Nat} (h : Tiles start grants stop) (grant : Grant)
    (hoffset : grant.offset.toNat = stop) (hcount : 1 ≤ grant.count.toNat) :
    Tiles start (grants ++ [grant]) (stop + grant.count.toNat) := by
  induction grants generalizing start with
  | nil =>
    cases h
    exact ⟨hoffset, hcount, rfl⟩
  | cons first grants ih => exact ⟨h.1, h.2.1, ih h.2.2⟩

/-- Every grant of a tiling lies between its ends. -/
theorem Tiles.within {start stop : Nat} (h : Tiles start grants stop) :
    ∀ grant ∈ grants, start ≤ grant.offset.toNat ∧
      grant.offset.toNat + grant.count.toNat ≤ stop := by
  induction grants generalizing start with
  | nil => simp
  | cons first grants ih =>
    obtain ⟨hoffset, _, hrest⟩ := h
    refine List.forall_mem_cons.2 ⟨⟨Nat.le_of_eq hoffset.symm, ?_⟩, fun grant hmem => ?_⟩
    · rw [hoffset]
      exact hrest.le
    · obtain ⟨hle, hend⟩ := ih hrest grant hmem
      exact ⟨Nat.le_trans (Nat.le_add_right ..) hle, hend⟩

/-- The grants of a tiling come in the order of their rows and share none. -/
theorem Tiles.ordered {start stop : Nat} (h : Tiles start grants stop) :
    grants.Pairwise fun a b => a.offset.toNat + a.count.toNat ≤ b.offset.toNat := by
  induction grants generalizing start with
  | nil => exact .nil
  | cons first grants ih =>
    obtain ⟨hoffset, _, hrest⟩ := h
    refine List.pairwise_cons.2 ⟨fun grant hmem => ?_, ih hrest⟩
    rw [hoffset]
    exact (hrest.within grant hmem).1

/-! ## Accounts -/

/-- The grants on one segment, in order. -/
def grantsOn (id : SegmentId) (grants : List Grant) : List Grant :=
  grants.filter fun grant => grant.segment == id

theorem mem_grantsOn {id : SegmentId} {grant : Grant} :
    grant ∈ grantsOn id grants ↔ grant ∈ grants ∧ grant.segment = id := by
  simp [grantsOn]

theorem grantsOn_append (id : SegmentId) (grants grants' : List Grant) :
    grantsOn id (grants ++ grants') = grantsOn id grants ++ grantsOn id grants' :=
  List.filter_append ..

/-- The grants on a segment add up to what its record says. -/
structure Accounted (segment : Segment) (grants : List Grant) : Prop where
  sound : segment.Sound
  tiles : Tiles 0 grants segment.nextOffset.toNat
  expires : ∀ grant ∈ grants, grant.expireTime ≤ segment.lastExpireTime

/-- All grants are on stored segments, and add up for each of them. -/
structure Accounts (grants : List Grant) (segments : Segments) : Prop where
  stored : ∀ {id segment}, segments.get? id = some segment →
    segment.id = id ∧ Accounted segment (grantsOn id grants)
  granted : ∀ grant ∈ grants, ∃ segment, segments.get? grant.segment = some segment

theorem Accounts.empty : Accounts [] .empty where
  stored h := nomatch h
  granted _ h := nomatch h

theorem accounted_fresh {segment : Segment} (h : segment.IsFresh) : Accounted segment [] := by
  rw [h]
  exact ⟨⟨UInt64.zero_le, fun h => by cases h⟩, rfl, by simp⟩

/-- A change of a segment brings the account up to date, with the grant that it may be. -/
theorem Accounted.change {id : SegmentId} {change : Change} {segment updated : Segment}
    (h : Accounted segment grants) (happly : change.apply segment = .ok updated)
    (hfits : change.Fits segment) :
    Accounted updated (grants ++ ((Write.change id change).grant?).toList) := by
  obtain ⟨hadvances, hsound⟩ := Change.advances happly hfits h.sound
  have hexpires : ∀ grant ∈ grants, grant.expireTime ≤ updated.lastExpireTime := fun grant hmem =>
    UInt64.le_trans (h.expires grant hmem) hadvances.lastExpireTime
  cases change with
  | grant offset count expireTime =>
    obtain ⟨rfl, _, rfl⟩ := Segment.grant_eq_ok_iff.1 happly
    obtain ⟨hsum, _⟩ := Segment.toNat_nextOffset_add h.sound.bounded hfits.2
    refine ⟨hsound, ?_, ?_⟩
    · simp only [Write.grant?, Option.toList_some, hsum]
      exact h.tiles.concat ⟨id, segment.nextOffset, count, expireTime⟩ rfl
        (UInt64.lt_iff_toNat_lt.1 hfits.1)
    · intro grant hmem
      rcases List.mem_append.1 hmem with hmem | hmem
      · exact hexpires grant hmem
      · obtain rfl := List.mem_singleton.1 hmem
        exact Word.le_max_right ..
  -- No other change moves the offset, so the account adds up as before.
  | grow | supersede | sealAt | flush | report =>
    have hoffset := Change.nextOffset_eq happly rfl
    refine ⟨hsound, ?_, ?_⟩
    · simpa [Write.grant?, hoffset] using h.tiles
    · simpa [Write.grant?] using hexpires

theorem Accounts.add {segment : Segment} (h : Accounts grants before) (hfresh : segment.IsFresh)
    (habsent : before.get? segment.id = none) :
    Accounts grants (before.insert segment.id segment) := by
  have hnone : grantsOn segment.id grants = [] := by
    refine List.filter_eq_nil_iff.2 fun grant hmem heq => ?_
    obtain ⟨_, hget⟩ := h.granted grant hmem
    rw [beq_iff_eq.1 heq, habsent] at hget
    cases hget
  refine ⟨fun hget => ?_, fun grant hmem => ?_⟩
  · rw [SortedMap.get?_insert] at hget
    split at hget
    · rename_i hid
      cases hget
      rw [hid, hnone]
      exact ⟨rfl, accounted_fresh hfresh⟩
    · exact h.stored hget
  · obtain ⟨old, hget⟩ := h.granted grant hmem
    have hid : grant.segment ≠ segment.id := fun heq => by
      rw [heq, habsent] at hget
      cases hget
    exact ⟨old, by rwa [SortedMap.get?_insert, if_neg hid]⟩

/-- The grant that a change of a segment may be is on that segment. -/
theorem segment_of_mem_grant? {id : SegmentId} {change : Change} {grant : Grant}
    (h : grant ∈ ((Write.change id change).grant?).toList) : grant.segment = id := by
  cases change with
  | grant offset count expireTime =>
    obtain rfl := List.mem_singleton.1 h
    rfl
  | grow | supersede | sealAt | flush | report => cases h

theorem grantsOn_grant?_of_ne {id id' : SegmentId} {change : Change} (hne : id' ≠ id) :
    grantsOn id' ((Write.change id change).grant?).toList = [] := by
  refine List.filter_eq_nil_iff.2 fun grant hmem heq => hne ?_
  exact (beq_iff_eq.1 heq).symm.trans (segment_of_mem_grant? hmem)

theorem Accounts.change {id : SegmentId} {change : Change} {segment updated : Segment}
    (h : Accounts grants before) (hget : before.get? id = some segment)
    (happly : change.apply segment = .ok updated) (hfits : change.Fits segment) :
    Accounts (grants ++ ((Write.change id change).grant?).toList) (before.insert id updated) := by
  obtain ⟨hid, haccounted⟩ := h.stored hget
  have hadvances := (Change.advances happly hfits haccounted.sound).1
  refine ⟨fun {id'} segment' hget' => ?_, fun grant hmem => ?_⟩
  · rw [SortedMap.get?_insert] at hget'
    rw [grantsOn_append]
    split at hget'
    · rename_i heq
      cases hget'
      subst heq
      have hown : grantsOn id' ((Write.change id' change).grant?).toList =
          ((Write.change id' change).grant?).toList :=
        List.filter_eq_self.2 fun grant hmem => by simpa using segment_of_mem_grant? hmem
      rw [hown]
      exact ⟨hadvances.id.trans hid, haccounted.change happly hfits⟩
    · rename_i hne
      rw [grantsOn_grant?_of_ne hne, List.append_nil]
      exact h.stored hget'
  · rw [SortedMap.get?_insert]
    split
    · exact ⟨updated, rfl⟩
    · rename_i hne
      rcases List.mem_append.1 hmem with hmem | hmem
      · exact h.granted grant hmem
      · exact absurd (segment_of_mem_grant? hmem) hne

theorem Accounts.does (h : Accounts grants before) (hdoes : write.Does before after) :
    Accounts (grants ++ write.grant?.toList) after := by
  cases hdoes with
  | add hfresh habsent =>
    simpa [Write.grant?] using h.add hfresh habsent
  | change hget happly hfits => exact h.change hget happly hfits

/-- A history adds its grants to the accounts. -/
theorem Accounts.history (h : Accounts grants before) (hhistory : History before writes after) :
    Accounts (grants ++ grantsOf writes) after := by
  induction hhistory with
  | nil => simpa [grantsOf] using h
  | @snoc between after writes write _ hdoes ih =>
    rw [grantsOf_append, ← List.append_assoc, grantsOf_single]
    exact ih.does hdoes

/-- Grants on one segment come in the order of their rows and share none. -/
theorem Accounts.ordered (h : Accounts grants segments) : grants.Pairwise fun a b =>
    a.segment = b.segment → a.offset.toNat + a.count.toNat ≤ b.offset.toNat := by
  refine List.pairwise_iff_forall_sublist.2 fun {a b} hsub heq => ?_
  obtain ⟨segment, hget⟩ := h.granted a (hsub.subset List.mem_cons_self)
  have hon : [a, b].Sublist (grantsOn a.segment grants) := by
    have hfilter := hsub.filter fun grant => grant.segment == a.segment
    simpa [grantsOn, heq] using hfilter
  have hordered := (h.stored hget).2.tiles.ordered.sublist hon
  exact (List.pairwise_cons.1 hordered).1 b (List.mem_singleton_self b)

/-- Every grant lies below the next offset of its segment and expires by the time noted there. -/
theorem Accounts.covered (h : Accounts grants segments) {grant : Grant} (hmem : grant ∈ grants) :
    ∃ segment, segments.get? grant.segment = some segment ∧
      grant.offset.toNat + grant.count.toNat ≤ segment.nextOffset.toNat ∧
      grant.expireTime ≤ segment.lastExpireTime := by
  obtain ⟨segment, hget⟩ := h.granted grant hmem
  obtain ⟨_, haccounted⟩ := h.stored hget
  have hon : grant ∈ grantsOn grant.segment grants := mem_grantsOn.2 ⟨hmem, rfl⟩
  exact ⟨segment, hget, (haccounted.tiles.within grant hon).2, haccounted.expires grant hon⟩

/-! ## What becomes of one segment -/

theorem Write.Does.advances (hdoes : write.Does before after) (h : Accounts grants before)
    {id : SegmentId} {segment : Segment} (hget : before.get? id = some segment) :
    ∃ segment', after.get? id = some segment' ∧ segment.Advances segment' ∧
      (segment.state.isImmutable = true → grantsOn id write.grant?.toList = []) := by
  obtain ⟨segment', hget', hleaves⟩ := hdoes.leaves hget
  refine ⟨segment', hget', ?_⟩
  cases hleaves with
  | same hother =>
    refine ⟨.refl segment, fun _ => ?_⟩
    cases write with
    | add => rfl
    | change id' change => exact grantsOn_grant?_of_ne fun heq => hother change (heq ▸ rfl)
  | @changed change _ happly hfits =>
    refine ⟨(Change.advances happly hfits (h.stored hget).2.sound).1, fun hclosed => ?_⟩
    cases change with
    | grant offset count expireTime =>
      obtain ⟨_, hallocatable, _⟩ := Segment.grant_eq_ok_iff.1 happly
      rw [(Segment.isAllocatable_iff.1 hallocatable).1] at hclosed
      cases hclosed
    | grow | supersede | sealAt | flush | report => rfl

/-- A stored segment stays and only advances; once it is sealed nothing is granted on it. -/
theorem History.advances (hhistory : History before writes after) (h : Accounts grants before)
    {id : SegmentId} {segment : Segment} (hget : before.get? id = some segment) :
    ∃ segment', after.get? id = some segment' ∧ segment.Advances segment' ∧
      (segment.state.isImmutable = true → grantsOn id (grantsOf writes) = []) := by
  induction hhistory with
  | nil => exact ⟨segment, hget, .refl segment, fun _ => rfl⟩
  | @snoc between after writes write hhistory hdoes ih =>
    obtain ⟨segment₁, hget₁, hadvances₁, hnone₁⟩ := ih
    obtain ⟨segment₂, hget₂, hadvances₂, hnone₂⟩ := hdoes.advances (h.history hhistory) hget₁
    refine ⟨segment₂, hget₂, hadvances₁.trans hadvances₂, fun hclosed => ?_⟩
    rw [grantsOf_append, grantsOn_append, hnone₁ hclosed, grantsOf_single,
      hnone₂ (hadvances₁.closed hclosed).1, List.append_nil]

/-- What no change among some writes takes from a segment, these writes do not take from it. -/
theorem History.keeps_of_mem {p : Segment → Prop} (hhistory : History before writes after)
    (hkeeps : ∀ {id change}, .change id change ∈ writes → ∀ {segment updated},
      change.apply segment = .ok updated → p segment → p updated) {id : SegmentId}
    (h : ∃ segment, before.get? id = some segment ∧ p segment) :
    ∃ segment, after.get? id = some segment ∧ p segment := by
  induction hhistory with
  | nil => exact h
  | @snoc between after writes write _ hdoes ih =>
    obtain ⟨segment, hget, hp⟩ := ih fun hmem => hkeeps (List.mem_append_left _ hmem)
    obtain ⟨segment', hget', hleaves⟩ := hdoes.leaves hget
    refine ⟨segment', hget', ?_⟩
    cases hleaves with
    | same => exact hp
    | changed happly _ =>
      exact hkeeps (List.mem_append_right _ (List.mem_singleton_self _)) happly hp

/-- What no change takes from a segment, no history takes from it. -/
theorem History.keeps {p : Segment → Prop}
    (hkeeps : ∀ {change segment updated}, Change.apply change segment = .ok updated →
      p segment → p updated)
    (hhistory : History before writes after) {id : SegmentId}
    (h : ∃ segment, before.get? id = some segment ∧ p segment) :
    ∃ segment, after.get? id = some segment ∧ p segment :=
  hhistory.keeps_of_mem (fun _ => hkeeps) h

/-- What holds of fresh segments and no change takes away holds of all stored segments. -/
theorem History.forall_stored {p : Segment → Prop} (hfresh : ∀ {segment : Segment}, segment.IsFresh →
      p segment)
    (hkeeps : ∀ {change segment updated}, Change.apply change segment = .ok updated →
      p segment → p updated)
    (hhistory : History before writes after)
    (h : ∀ id segment, before.get? id = some segment → p segment) :
    ∀ id segment, after.get? id = some segment → p segment := by
  induction hhistory with
  | nil => exact h
  | @snoc between after writes write _ hdoes ih =>
    intro id segment hget
    cases hdoes.origin hget with
    | kept hget => exact ih id segment hget
    | added hadded => exact hfresh hadded
    | changed hold happly => exact hkeeps happly (ih id _ hold)

/-- Whatever happens, a stored segment stays under its number and its key. -/
theorem History.key_eq (hhistory : History before writes after) {id : SegmentId} {segment : Segment}
    (hget : before.get? id = some segment) :
    ∃ segment', after.get? id = some segment' ∧ segment'.key = segment.key :=
  hhistory.keeps (p := fun segment' => segment'.key = segment.key)
    (fun happly hkey => (Change.key_eq happly).2.trans hkey) ⟨segment, hget, rfl⟩

/-- The segment is stored, and has been sealed or flushed. -/
def ClosedIn (segments : Segments) (id : SegmentId) : Prop :=
  ∃ segment, segments.get? id = some segment ∧ segment.state.isImmutable = true

/-- Whatever happens, a sealed segment stays sealed or flushed. -/
theorem History.closedIn (hhistory : History before writes after) {id : SegmentId}
    (h : ClosedIn before id) : ClosedIn after id :=
  hhistory.keeps Change.isImmutable h

/-- What is sealed after some writes, none of which seals, was sealed before. -/
theorem History.closedIn_of_unsealed (hhistory : History before writes after)
    (hunsealed : ∀ write ∈ writes, write.sealTime? = none) {id : SegmentId}
    (h : ClosedIn after id) : ClosedIn before id := by
  induction hhistory with
  | nil => exact h
  | @snoc between after writes write _ hdoes ih =>
    obtain ⟨hearlier, hlast⟩ := List.forall_mem_append.1 hunsealed
    refine ih hearlier ?_
    obtain ⟨segment, hget, hclosed⟩ := h
    cases hdoes.origin hget with
    | kept hget => exact ⟨segment, hget, hclosed⟩
    | added hfresh =>
      rw [hfresh] at hclosed
      cases hclosed
    | changed hold happly =>
      have hgoal := Write.goal?_ne_sealed (hlast _ (List.mem_singleton_self _))
      exact ⟨_, hold, Change.isImmutable_before happly hgoal hclosed⟩

/-- Whatever happens, a segment that has been opened is growing, or sealed or flushed. -/
theorem History.opened (hhistory : History before writes after) {id : SegmentId} {segment : Segment}
    (hget : before.get? id = some segment) (hopened : segment.state ≠ .new) :
    ∃ segment', after.get? id = some segment' ∧ segment'.state ≠ .new :=
  hhistory.keeps Change.state_ne_new ⟨segment, hget, hopened⟩

/-- Every sealed segment was sealed at a time within a bound. -/
def SealedBy (bound : Timestamp) (segments : Segments) : Prop :=
  ∀ id segment, segments.get? id = some segment → segment.state.isImmutable = true →
    segment.sealedTime ≤ bound

theorem SealedBy.mono {bound bound' : Timestamp} (h : SealedBy bound segments)
    (hle : bound ≤ bound') : SealedBy bound' segments :=
  fun id segment hget hclosed => UInt64.le_trans (h id segment hget hclosed) hle

theorem SealedBy.change {bound : Timestamp} {id : SegmentId} {change : Change}
    {segment updated : Segment}
    (h : segment.state.isImmutable = true → segment.sealedTime ≤ bound)
    (happly : change.apply segment = .ok updated)
    (htime : ∀ time, (Write.change id change).sealTime? = some time → time ≤ bound)
    (hclosed : updated.state.isImmutable = true) : updated.sealedTime ≤ bound := by
  cases change with
  | grow =>
    obtain ⟨_, rfl⟩ := Segment.grow_eq_ok_iff.1 happly
    cases hclosed
  | grant offset count expireTime =>
    obtain ⟨_, _, rfl⟩ := Segment.grant_eq_ok_iff.1 happly
    exact h hclosed
  | supersede =>
    rcases Segment.supersede_eq_ok_iff.1 happly with ⟨_, rfl⟩ | ⟨_, rfl⟩
    · exact h hclosed
    · exact h hclosed
  | sealAt time =>
    rcases Segment.sealAt_eq_ok_iff.1 happly with ⟨_, rfl⟩ | ⟨_, _, rfl⟩
    · exact h hclosed
    · exact htime time rfl
  | flush time =>
    rcases Segment.flush_eq_ok_iff.1 happly with ⟨hsealed, rfl⟩ | ⟨_, rfl⟩
    · exact h (SegmentState.isImmutable_of_sealed hsealed)
    · exact h hclosed
  | report seq rowDelta memSize =>
    obtain ⟨_, _, _, rfl⟩ := Segment.report_eq_ok happly
    exact h hclosed

/-- If nothing is sealed past a bound, what is sealed afterwards was sealed within it. -/
theorem History.sealedBy {bound : Timestamp} (hhistory : History before writes after)
    (h : SealedBy bound before)
    (htime : ∀ write ∈ writes, ∀ time, write.sealTime? = some time → time ≤ bound) :
    SealedBy bound after := by
  induction hhistory with
  | nil => exact h
  | @snoc between after writes write _ hdoes ih =>
    obtain ⟨hearlier, hlast⟩ := List.forall_mem_append.1 htime
    have hbetween := ih hearlier
    intro id segment hget hclosed
    cases hdoes.origin hget with
    | kept hget => exact hbetween _ _ hget hclosed
    | added hfresh =>
      rw [hfresh] at hclosed
      cases hclosed
    | changed hold happly =>
      exact SealedBy.change (hbetween _ _ hold) happly (hlast _ (List.mem_singleton_self _)) hclosed

end IngestCoordinator
