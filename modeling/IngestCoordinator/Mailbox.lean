-- SUMMARY: Bounded queues of messages on their way to the coordinator.

/-!
# Mailboxes

A mailbox holds the messages that nobody has read yet, in the order in which they
came, and no more than its capacity. Once closed it takes nothing and what it held
is lost.
-/

namespace IngestCoordinator

/-- A queue of messages. -/
structure Mailbox (α : Type) where
  capacity : Nat
  isOpen : Bool := true
  unread : List α := []
  deriving DecidableEq, Repr

/-- What became of a message. -/
inductive Delivery where
  | sent
  | full
  | closed
  deriving DecidableEq, Repr

/-- The word for what became of a message. -/
def Delivery.name : Delivery → String
  | .sent => "sent"
  | .full => "full"
  | .closed => "closed"

namespace Mailbox

/-- An empty mailbox; there is always room for one message. -/
def ofCapacity (capacity : Nat) : Mailbox α where
  capacity := max 1 capacity

/-- Puts a message in, if the mailbox is open and has room. -/
def offer (mailbox : Mailbox α) (message : α) : Delivery × Mailbox α :=
  if !mailbox.isOpen then (.closed, mailbox)
  else if mailbox.capacity ≤ mailbox.unread.length then (.full, mailbox)
  else (.sent, { mailbox with unread := mailbox.unread ++ [message] })

/-- The mailbox once everything in it has been read. -/
def emptied (mailbox : Mailbox α) : Mailbox α :=
  { mailbox with unread := [] }

/-- Closes the mailbox. -/
def close (mailbox : Mailbox α) : Mailbox α :=
  { mailbox with isOpen := false, unread := [] }

end Mailbox

end IngestCoordinator
