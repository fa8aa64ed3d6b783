import Autotune.Journal.Event

/-!
# Telemetry of a block

A block counts the events that a host wants to watch without reading its journal.  `Counters.count`
says which event moves which counter, and `Telemetry.emit` is the only way to move one.
-/

namespace Autotune

/-- How often each watched event happened. -/
structure Counters where
  degradedSelections : Nat
  undefinedCorrections : Nat
  undefinedRanks : Nat
  knowledgeUpdates : Nat
  stateSwitches : Nat
  selections : Nat
deriving DecidableEq

namespace Counters

def zero : Counters := ⟨0, 0, 0, 0, 0, 0⟩

/-- Counts an event. -/
def count (c : Counters) : Event → Counters
  | .degraded _ (.emptyEligibleSet _) => { c with degradedSelections := c.degradedSelections + 1 }
  | .degraded _ (.undefinedCorrection _) =>
    { c with undefinedCorrections := c.undefinedCorrections + 1 }
  | .degraded _ (.undefinedRank _) => { c with undefinedRanks := c.undefinedRanks + 1 }
  | .knowledgeSwapped .. => { c with knowledgeUpdates := c.knowledgeUpdates + 1 }
  | .stateSwitched .. => { c with stateSwitches := c.stateSwitches + 1 }
  | .selected .. => { c with selections := c.selections + 1 }
  | _ => c

end Counters

/-- The name that a block puts on its events, and its counters. -/
structure Telemetry where
  block : String
  counters : Counters

namespace Telemetry

def ofBlock (block : String) : Telemetry := ⟨block, .zero⟩

/-- Counts events that are already in a journal. -/
def count (t : Telemetry) (events : List Event) : Telemetry :=
  { t with counters := events.foldl Counters.count t.counters }

/-- Announces an event and counts it. -/
def emit (t : Telemetry) (event : Event) : Logged Telemetry := .noting event (t.count [event])

def degraded (t : Telemetry) (condition : Degradation) : Logged Telemetry :=
  t.emit (.degraded t.block condition)

def selected (t : Telemetry) (configuration : String) (rank : Float) : Logged Telemetry :=
  t.emit (.selected t.block configuration rank)

def knowledgeSwapped (t : Telemetry) (version points : Nat) : Logged Telemetry :=
  t.emit (.knowledgeSwapped t.block version points)

def stateSwitched (t : Telemetry) (before after : String) : Logged Telemetry :=
  t.emit (.stateSwitched t.block before after)

end Telemetry

end Autotune
