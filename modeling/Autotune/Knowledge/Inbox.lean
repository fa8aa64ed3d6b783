import Autotune.Knowledge.Basic

/-!
# Queued knowledge

Updates may be produced away from the control loop.  They wait in a bounded queue, first in and
first out, until the loop takes them.  Opening a queue closes the one before it, and whoever still
holds a `Sender` of a closed queue is told so.
-/

namespace Autotune

/-- The right to send to one queue, told apart by its number. -/
structure Sender where
  queue : Nat
  capacity : Nat

/-- The queue that is open, if any: the number of queues opened so far, and what waits. -/
structure Inbox (kn mn : Nat) where
  opened : Nat
  pending : List (Update kn mn)

namespace Inbox

variable {kn mn : Nat}

def closed : Inbox kn mn := ⟨0, []⟩

/-- Opens a queue with room for at least one update. -/
def openQueue (inbox : Inbox kn mn) (capacity : Nat) : Sender × Inbox kn mn :=
  (⟨inbox.opened + 1, max capacity 1⟩, ⟨inbox.opened + 1, []⟩)

/-- Appends an update, if the sender's queue is the open one and has room. -/
def send (inbox : Inbox kn mn) (sender : Sender) (update : Update kn mn) :
    Except UpdateFault (Inbox kn mn) :=
  if sender.queue ≠ inbox.opened then .error .disconnected
  else if sender.capacity ≤ inbox.pending.length then .error (.queueFull sender.capacity)
  else .ok { inbox with pending := inbox.pending ++ [update] }

/-- Takes everything that waits, in the order in which it was sent. -/
def drain (inbox : Inbox kn mn) : List (Update kn mn) × Inbox kn mn :=
  (inbox.pending, { inbox with pending := [] })

end Inbox

end Autotune
