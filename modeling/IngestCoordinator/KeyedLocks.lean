-- SUMMARY: Mutual exclusion by key, with locks made on demand and forgotten when idle.
import IngestCoordinator.SortedMap

/-!
# Locks by key

There is one lock for each key in use. It is made at the first attempt to take
it and forgotten on request, but only while nobody holds it: a lock that was
forgotten and made anew would not exclude the holder of the old one.
-/

namespace IngestCoordinator

/-- The locks by key, and the guards of those that are held. -/
structure KeyedLocks (κ : Type u) [Ord κ] where
  /-- The number of the lock of each key. -/
  locks : SortedMap κ Nat := .empty
  /-- The key and the lock of every live guard. -/
  guards : List (κ × Nat) := []
  /-- The number of the next lock. -/
  next : Nat := 0
  deriving Repr

namespace KeyedLocks

variable {κ : Type u} [Ord κ]

/-- Whether a guard holds the lock with a number. -/
def isHeld (locks : KeyedLocks κ) (lock : Nat) : Bool :=
  locks.guards.any fun guard => guard.2 == lock

/-- The lock of a key, made if there is none. -/
def lockOf [Std.TransOrd κ] (locks : KeyedLocks κ) (key : κ) : Nat × KeyedLocks κ :=
  match locks.locks.get? key with
  | some lock => (lock, locks)
  | none =>
    (locks.next,
      { locks with locks := locks.locks.insert key locks.next, next := locks.next + 1 })

/-- Tries once to take the lock of a key; says whether a guard was handed out. -/
def attempt [Std.TransOrd κ] (locks : KeyedLocks κ) (key : κ) : Bool × KeyedLocks κ :=
  let (lock, locks) := locks.lockOf key
  if locks.isHeld lock then (false, locks)
  else (true, { locks with guards := (key, lock) :: locks.guards })

/-- Drops the guard of a key; says whether there was one. -/
def drop (locks : KeyedLocks κ) (key : κ) : Bool × KeyedLocks κ :=
  match locks.guards.find? fun guard => compare guard.1 key == .eq with
  | none => (false, locks)
  | some (_, lock) =>
    (true, { locks with guards := locks.guards.filter fun guard => guard.2 != lock })

/-- Forgets the lock of a key unless it is held. -/
def release (locks : KeyedLocks κ) (key : κ) : KeyedLocks κ :=
  match locks.locks.get? key with
  | none => locks
  | some lock =>
    if locks.isHeld lock then locks else { locks with locks := locks.locks.erase key }

/-- The number of keys that have a lock. -/
def size (locks : KeyedLocks κ) : Nat :=
  locks.locks.size

end KeyedLocks

end IngestCoordinator
