import Autotune.Monitor.Window

/-!
# Banks of monitors

Monitors are shared: the application, the adaptors and the constraints of one or of several blocks
may read the same one.  A `Bank` holds all monitors of a program, and a `MonitorId` is the place of
one of them.  Whoever holds an id sees every observation made through it.
-/

namespace Autotune

/-- The place of a monitor in its bank. -/
structure MonitorId where
  place : Nat
deriving DecidableEq

/-- All monitors of a program. -/
structure Bank where
  monitors : List Monitor

namespace Bank

def empty : Bank := ⟨[]⟩

/-- Adds an empty monitor and gives its id. -/
def allocate (bank : Bank) (capacity : Nat) : MonitorId × Bank :=
  (⟨bank.monitors.length⟩, ⟨bank.monitors ++ [.ofCapacity capacity]⟩)

/-- Adds an empty monitor for each of the given owners, with the capacity that stands with it. -/
def allocateEach {α : Type} (bank : Bank) : List (α × Nat) → List (α × MonitorId) × Bank
  | [] => ([], bank)
  | (owner, capacity) :: rest =>
    let (id, bank) := bank.allocate capacity
    let (ids, bank) := bank.allocateEach rest
    ((owner, id) :: ids, bank)

def get? (bank : Bank) (id : MonitorId) : Option Monitor := bank.monitors[id.place]?

/-- The mean of what the monitor with the given id has observed. -/
def average? (bank : Bank) (id : MonitorId) : Option Float :=
  (bank.get? id).bind Monitor.average?

def set (bank : Bank) (id : MonitorId) (monitor : Monitor) : Bank :=
  ⟨bank.monitors.set id.place monitor⟩

def modify (bank : Bank) (id : MonitorId) (f : Monitor → Monitor) : Bank :=
  ⟨bank.monitors.modify id.place f⟩

end Bank

end Autotune
