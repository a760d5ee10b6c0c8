-- SUMMARY: However locks are taken, dropped and forgotten, each key has one owner at most.
import IngestCoordinator.KeyedLocks
import IngestCoordinator.Proofs.SortedMap
import Mathlib.Data.List.Induction

/-!
# Locks by key

The lock of a key may be forgotten and made anew, and then it has another number. As long
as somebody holds a lock it is not forgotten, so whoever asks for the key finds that very
lock. Hence who owns a key depends on the attempts and drops of that key alone: neither
other keys nor what was forgotten in between make a difference.
-/

namespace IngestCoordinator.KeyedLocks

variable {κ : Type} [Ord κ] {locks : KeyedLocks κ} {key other : κ} {lock : Nat}

/-! ## Calls -/

/-- A call to the locks. -/
inductive Call (κ : Type) where
  | attempt (key : κ)
  | drop (key : κ)
  | release (key : κ)
  deriving DecidableEq, Repr

/-- Whether a key is owned after a call, by whether it was before: attempts and drops count. -/
def Call.ownedAfter [DecidableEq κ] (key : κ) (owned : Bool) : Call κ → Bool
  | .attempt key' => owned || key' = key
  | .drop key' => owned && key' ≠ key
  | .release _ => owned

/-- Whether a key is owned after some calls. -/
def owned [DecidableEq κ] (calls : List (Call κ)) (key : κ) : Bool :=
  calls.foldl (Call.ownedAfter key) false

/-- The keys of the live guards. -/
def owners (locks : KeyedLocks κ) : List κ :=
  locks.guards.map (·.1)

theorem mem_owners_iff : key ∈ locks.owners ↔ ∃ lock, (key, lock) ∈ locks.guards := by
  simp [owners]

theorem isHeld_iff : locks.isHeld lock = true ↔ ∃ key, (key, lock) ∈ locks.guards := by
  simp [isHeld]

/-- The locks after a call. -/
def after [Std.TransOrd κ] (locks : KeyedLocks κ) : Call κ → KeyedLocks κ
  | .attempt key => (locks.attempt key).2
  | .drop key => (locks.drop key).2
  | .release key => locks.release key

/-- The locks after some calls, of which there were none before. -/
def run [Std.TransOrd κ] (calls : List (Call κ)) : KeyedLocks κ :=
  calls.foldl after {}

/-! ## Exclusion -/

/-- Every guard holds the lock that its key has now, and no two keys or guards share a lock. -/
structure Exclusive (locks : KeyedLocks κ) : Prop where
  current : ∀ key lock, (key, lock) ∈ locks.guards → locks.locks.get? key = some lock
  distinct : ∀ key other lock, locks.locks.get? key = some lock →
    locks.locks.get? other = some lock → key = other
  numbered : ∀ key lock, locks.locks.get? key = some lock → lock < locks.next
  single : locks.owners.Nodup

theorem exclusive_empty : Exclusive ({} : KeyedLocks κ) where
  current _ _ h := nomatch h
  distinct _ _ _ h := nomatch h
  numbered _ _ h := nomatch h
  single := .nil

/-- A lock is held exactly if its key is owned. -/
theorem Exclusive.isHeld_iff (h : locks.Exclusive) (hget : locks.locks.get? key = some lock) :
    locks.isHeld lock = true ↔ key ∈ locks.owners := by
  rw [KeyedLocks.isHeld_iff, mem_owners_iff]
  constructor
  · rintro ⟨other, hmem⟩
    obtain rfl := h.distinct _ _ _ hget (h.current _ _ hmem)
    exact ⟨lock, hmem⟩
  · rintro ⟨lock', hmem⟩
    cases hget.symm.trans (h.current _ _ hmem)
    exact ⟨key, hmem⟩

/-- Who owns a key has a lock for it. -/
theorem Exclusive.contains_of_mem (h : locks.Exclusive) (hmem : key ∈ locks.owners) :
    locks.locks.contains key = true := by
  obtain ⟨lock, hmem⟩ := mem_owners_iff.1 hmem
  exact SortedMap.contains_iff.2 ⟨lock, h.current _ _ hmem⟩

variable [Std.LawfulEqOrd κ] [DecidableEq κ]

/-! ## Drops -/

/-- A drop takes back the guard of the key, if there is one, and no other. -/
theorem Exclusive.drop_eq (h : locks.Exclusive) (key : κ) : (locks.drop key).2 =
    { locks with guards := locks.guards.filter fun guard => guard.1 ≠ key } := by
  unfold KeyedLocks.drop
  split
  · rename_i hnone
    have hall : locks.guards.filter (fun guard => guard.1 ≠ key) = locks.guards := by
      refine List.filter_eq_self.2 fun guard hmem => ?_
      simpa using List.find?_eq_none.1 hnone guard hmem
    rw [hall]
  · rename_i found lock hfound
    have hmem := List.mem_of_find?_eq_some hfound
    obtain rfl : found = key := by simpa using List.find?_some hfound
    -- The lock of the guard is that of the key, so guards of this lock are guards of this key.
    have hget := h.current _ _ hmem
    refine congrArg (fun guards => { locks with guards }) (List.filter_congr fun guard hguard => ?_)
    have hlock : guard.2 = lock ↔ guard.1 = found := by
      have hguard := h.current _ _ hguard
      refine ⟨fun heq => h.distinct _ _ _ hguard (heq ▸ hget), fun heq => ?_⟩
      rw [heq, hget] at hguard
      exact (Option.some.inj hguard).symm
    rw [Bool.eq_iff_iff, bne_iff_ne, decide_eq_true_iff, ne_eq, hlock]

theorem Exclusive.owners_drop (h : locks.Exclusive) (key : κ) :
    (locks.drop key).2.owners = locks.owners.filter (· ≠ key) := by
  rw [h.drop_eq key, owners, owners, List.filter_map]
  rfl

theorem Exclusive.drop (h : locks.Exclusive) (key : κ) : (locks.drop key).2.Exclusive := by
  have hsingle : (locks.drop key).2.owners.Nodup := by
    rw [h.owners_drop key]
    exact h.single.filter _
  rw [h.drop_eq key] at hsingle ⊢
  exact ⟨fun other lock hmem => h.current _ _ (List.mem_filter.1 hmem).1, h.distinct, h.numbered,
    hsingle⟩

/-! ## Attempts -/

variable [Std.TransOrd κ]

omit [Std.LawfulEqOrd κ] [DecidableEq κ] in
theorem owners_lockOf (locks : KeyedLocks κ) (key : κ) :
    (locks.lockOf key).2.owners = locks.owners := by
  unfold lockOf
  split <;> rfl

theorem get?_lockOf (locks : KeyedLocks κ) (key : κ) :
    (locks.lockOf key).2.locks.get? key = some (locks.lockOf key).1 := by
  unfold lockOf
  split
  · assumption
  · exact SortedMap.get?_insert_self ..

/-- A lock that is made has a number of its own. -/
theorem Exclusive.lockOf (h : locks.Exclusive) (key : κ) : (locks.lockOf key).2.Exclusive := by
  unfold KeyedLocks.lockOf
  split
  · exact h
  · rename_i hnone
    refine ⟨fun other lock hmem => ?_, fun a b lock ha hb => ?_, fun other lock hget => ?_,
      h.single⟩
    · have hget := h.current _ _ hmem
      have hne : other ≠ key := by
        rintro rfl
        cases hnone.symm.trans hget
      rwa [SortedMap.get?_insert, if_neg hne]
    · rcases SortedMap.get?_insert_cases ha with ⟨rfl, rfl⟩ | ⟨-, ha'⟩
      · rcases SortedMap.get?_insert_cases hb with ⟨rfl, -⟩ | ⟨-, hb'⟩
        · rfl
        · exact absurd (h.numbered _ _ hb') (Nat.lt_irrefl _)
      · rcases SortedMap.get?_insert_cases hb with ⟨-, rfl⟩ | ⟨-, hb'⟩
        · exact absurd (h.numbered _ _ ha') (Nat.lt_irrefl _)
        · exact h.distinct _ _ _ ha' hb'
    · rcases SortedMap.get?_insert_cases hget with ⟨-, rfl⟩ | ⟨-, hget'⟩
      · exact Nat.lt_succ_self _
      · exact Nat.lt_succ_of_lt (h.numbered _ _ hget')

theorem Exclusive.isHeld_lockOf (h : locks.Exclusive) (key : κ) :
    (locks.lockOf key).2.isHeld (locks.lockOf key).1 = true ↔ key ∈ locks.owners := by
  rw [(h.lockOf key).isHeld_iff (get?_lockOf locks key), owners_lockOf]

/-- An attempt makes the lock if need be, and takes it unless the key is owned. -/
theorem Exclusive.attempt_eq (h : locks.Exclusive) (key : κ) : locks.attempt key =
    if key ∈ locks.owners then (false, (locks.lockOf key).2)
    else (true, { (locks.lockOf key).2 with
      guards := (key, (locks.lockOf key).1) :: (locks.lockOf key).2.guards }) := by
  unfold KeyedLocks.attempt
  simp only [h.isHeld_lockOf key]

theorem Exclusive.attempt_fst (h : locks.Exclusive) (key : κ) :
    (locks.attempt key).1 = !decide (key ∈ locks.owners) := by
  rw [h.attempt_eq key]
  split <;> simp_all

theorem Exclusive.owners_attempt (h : locks.Exclusive) (key : κ) :
    (locks.attempt key).2.owners =
      if key ∈ locks.owners then locks.owners else key :: locks.owners := by
  have hsame := owners_lockOf locks key
  rw [h.attempt_eq key]
  split
  · exact hsame
  · exact congrArg (key :: ·) hsame

theorem Exclusive.attempt (h : locks.Exclusive) (key : κ) : (locks.attempt key).2.Exclusive := by
  have hmade := h.lockOf key
  rw [h.attempt_eq key]
  split
  · exact hmade
  · rename_i hfree
    refine ⟨fun other lock hmem => ?_, hmade.distinct, hmade.numbered, ?_⟩
    · rcases List.mem_cons.1 hmem with heq | hmem
      · cases heq
        exact get?_lockOf locks key
      · exact hmade.current _ _ hmem
    · refine List.nodup_cons.2 ⟨?_, hmade.single⟩
      rw [← owners_lockOf locks key] at hfree
      exact hfree

/-! ## Releases -/

/-- What is forgotten is the lock of a key without an owner. -/
theorem Exclusive.release_eq (h : locks.Exclusive) (key : κ) : locks.release key =
    if key ∈ locks.owners then locks else { locks with locks := locks.locks.erase key } := by
  unfold KeyedLocks.release
  split
  · rename_i hnone
    have habsent : locks.locks.erase key = locks.locks := by
      refine SortedMap.ext_get? fun other => ?_
      rw [SortedMap.get?_erase]
      split
      · rename_i heq
        rw [heq, hnone]
      · rfl
    rw [habsent, ite_self]
  · rename_i lock hget
    simp only [h.isHeld_iff hget]

theorem Exclusive.owners_release (h : locks.Exclusive) (key : κ) :
    (locks.release key).owners = locks.owners := by
  rw [h.release_eq key]
  split <;> rfl

theorem Exclusive.contains_release (h : locks.Exclusive) (key other : κ) :
    (locks.release key).locks.contains other = true ↔
      locks.locks.contains other = true ∧ (other = key → key ∈ locks.owners) := by
  rw [h.release_eq key]
  split
  · rename_i hmem
    exact ⟨fun hcontains => ⟨hcontains, fun _ => hmem⟩, And.left⟩
  · rename_i hfree
    simp only [SortedMap.contains, SortedMap.get?_erase]
    split
    · rename_i heq
      simp [heq, hfree]
    · rename_i hne
      simp [hne]

theorem Exclusive.release (h : locks.Exclusive) (key : κ) : (locks.release key).Exclusive := by
  rw [h.release_eq key]
  split
  · exact h
  · rename_i hfree
    refine ⟨fun other lock hmem => ?_, fun a b lock ha hb => ?_, fun other lock hget => ?_,
      h.single⟩
    · have hne : other ≠ key := by
        rintro rfl
        exact hfree (mem_owners_iff.2 ⟨lock, hmem⟩)
      rw [SortedMap.get?_erase, if_neg hne]
      exact h.current _ _ hmem
    · exact h.distinct _ _ _ (SortedMap.get?_of_get?_erase ha) (SortedMap.get?_of_get?_erase hb)
    · exact h.numbered _ _ (SortedMap.get?_of_get?_erase hget)

/-! ## Runs -/

theorem Exclusive.after (h : locks.Exclusive) (call : Call κ) : (locks.after call).Exclusive := by
  cases call with
  | attempt key => exact h.attempt key
  | drop key => exact h.drop key
  | release key => exact h.release key

theorem exclusive_run (calls : List (Call κ)) : (run calls).Exclusive :=
  List.foldlRecOn (motive := Exclusive) _ _ exclusive_empty fun _ h call _ => h.after call

/-- A call makes an owner, or takes one away, by the rule. -/
theorem Exclusive.mem_owners_after {before : Bool} (h : locks.Exclusive)
    (hbefore : key ∈ locks.owners ↔ before = true) (call : Call κ) :
    key ∈ (locks.after call).owners ↔ call.ownedAfter key before = true := by
  cases call with
  | attempt key' =>
    rw [KeyedLocks.after, h.owners_attempt, Call.ownedAfter, Bool.or_eq_true, decide_eq_true_iff,
      ← hbefore]
    grind
  | drop key' =>
    rw [KeyedLocks.after, h.owners_drop, Call.ownedAfter, Bool.and_eq_true, decide_eq_true_iff,
      ← hbefore]
    grind
  | release key' => rwa [KeyedLocks.after, h.owners_release]

/-- The owners after some calls, whatever has been forgotten and made anew in between. -/
theorem mem_owners_run (calls : List (Call κ)) (key : κ) :
    key ∈ (run calls).owners ↔ owned calls key = true := by
  induction calls using List.reverseRecOn with
  | nil => simp [run, owned, owners]
  | append_singleton calls call ih =>
    rw [run, owned, List.foldl_append, List.foldl_append]
    exact (exclusive_run calls).mem_owners_after ih call

/--
At every moment a key has one guard if it is owned, and none if it is not. An attempt
succeeds exactly if the key is not owned. Releasing a key forgets its lock exactly if there
is one and the key is not owned, and forgets no other; so whoever owns a key has its lock.
-/
theorem one_owner_for_each_key (calls : List (Call κ)) (key : κ) :
    (run calls).owners.count key = (owned calls key).toNat ∧
    ((run calls).attempt key).1 = !owned calls key ∧
    (∀ other, ((run calls).release key).locks.contains other = true ↔
      (run calls).locks.contains other = true ∧ (other = key → owned calls key = true)) ∧
    (owned calls key = true → (run calls).locks.contains key = true) := by
  have hexclusive := exclusive_run calls
  have howned := mem_owners_run calls key
  refine ⟨?_, ?_, fun other => ?_, fun h => hexclusive.contains_of_mem (howned.2 h)⟩
  · rw [hexclusive.single.count]
    cases hown : owned calls key <;> simp [howned, hown]
  · rw [hexclusive.attempt_fst, Bool.eq_iff_iff]
    simp [howned]
  · rw [hexclusive.contains_release, howned]

/-- A lock is forgotten only once it is dropped; made anew, it excludes as before. -/
theorem one_owner_of_forgotten_lock :
    let held : List (Call String) := [.attempt "a", .release "a", .attempt "a", .attempt "b"]
    let calls := held ++ [.drop "a", .release "a", .attempt "a"]
    ((run held).attempt "a").1 = false ∧ (run held).locks.contains "a" = true ∧
    ((run (held ++ [.drop "a"])).release "a").locks.contains "a" = false ∧
    ((run (held ++ [.drop "a", .release "a"])).attempt "a").1 = true ∧
    (run calls).owners.count "a" = 1 ∧ ((run calls).attempt "a").1 = false := by
  intro held calls
  obtain ⟨-, hbusy, -, hkept⟩ := one_owner_for_each_key held "a"
  obtain ⟨-, -, hforgotten, -⟩ := one_owner_for_each_key (held ++ [.drop "a"]) "a"
  obtain ⟨-, hfree, -, -⟩ := one_owner_for_each_key (held ++ [.drop "a", .release "a"]) "a"
  obtain ⟨hone, hagain, -, -⟩ := one_owner_for_each_key calls "a"
  refine ⟨hbusy.trans (by decide), hkept (by decide), ?_, hfree.trans (by decide),
    hone.trans (by decide), hagain.trans (by decide)⟩
  rw [Bool.eq_false_iff, ne_eq, hforgotten]
  exact fun h => absurd (h.2 rfl) (by decide)

end IngestCoordinator.KeyedLocks
