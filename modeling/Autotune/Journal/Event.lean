import Autotune.Constraint.Debounce
import Autotune.Fault

/-!
# The journal of a block

Everything worth telling is an `Event`.  Operations return the events they cause, in order, as
`Logged` values; nothing is printed here.  `Event.record` turns an event into its severity, its
message and its named fields.
-/

namespace Autotune

/-- What can happen to a block, with the name of the block where it matters. -/
inductive Event where
  | ready (block : String) (points states : Nat) (active : String) (adaptors : Nat)
  | degraded (block : String) (condition : Degradation)
  | selected (block configuration : String) (rank : Float)
  | applied (block configuration : String)
  | adapted (block : String) (metric : Nat) (observed predicted coefficient : Float)
  | statusChanged (state : String) (priority : UInt32) (status : Status) (value : Float)
  | stateSwitched (block before after : String)
  | knowledgeSwapped (block : String) (version points : Nat)
  | updateSkipped (block : String) (fault : UpdateFault)
  | clusterAdded (block cluster : String) (points : Nat)
  | clusterRemoved (cluster : String)
  | clusterSelected (block cluster : String)

/-- How serious an event is. -/
inductive Severity where
  | debug
  | info
  | warn
deriving DecidableEq

instance : Named Severity where
  all := [.debug, .info, .warn]
  name
    | .debug => "DEBUG"
    | .info => "INFO"
    | .warn => "WARN"
  mem_all a := by cases a <;> simp
  name_injective a b := by cases a <;> cases b <;> simp

/-- The value of a named field of a record. -/
inductive Datum where
  | text (value : String)
  | count (value : Nat)
  | number (value : Float)

/-- An event written down. -/
structure Record where
  severity : Severity
  message : String
  fields : List (String × Datum)

/-- How an event is written down. -/
def Event.record : Event → Record
  | ready block points states active adaptors =>
    ⟨.info, "manager ready", [("block", .text block), ("points", .count points),
      ("states", .count states), ("active", .text active), ("adaptors", .count adaptors)]⟩
  | degraded block (.emptyEligibleSet violation) =>
    ⟨.warn, "no operating point satisfies every constraint, using least violating",
      [("block", .text block), ("violation", .number violation)]⟩
  | degraded block (.undefinedCorrection metric) =>
    ⟨.warn, "correction sample needs a division by zero, keeping neutral coefficient",
      [("block", .text block), ("metric", .count metric)]⟩
  | degraded block (.undefinedRank excluded) =>
    ⟨.warn, "corrected rank undefined, points left out of the selection",
      [("block", .text block), ("excluded", .count excluded)]⟩
  | selected block configuration rank =>
    ⟨.debug, "best configuration selected",
      [("block", .text block), ("configuration", .text configuration), ("rank", .number rank)]⟩
  | applied block configuration =>
    ⟨.info, "configuration applied",
      [("block", .text block), ("configuration", .text configuration)]⟩
  | adapted block metric observed predicted coefficient =>
    ⟨.debug, "field adaptor updated",
      [("block", .text block), ("metric", .count metric), ("observed", .number observed),
        ("predicted", .number predicted), ("coefficient", .number coefficient)]⟩
  | statusChanged state priority status value =>
    ⟨.debug, "constraint status changed",
      [("state", .text state), ("priority", .count priority.toNat), ("status", .text (name status)),
        ("value", .number value)]⟩
  | stateSwitched block before after =>
    ⟨.info, "active state switched",
      [("block", .text block), ("from", .text before), ("to", .text after)]⟩
  | knowledgeSwapped block version points =>
    ⟨.info, "knowledge base swapped",
      [("block", .text block), ("version", .count version), ("points", .count points)]⟩
  | updateSkipped block fault =>
    ⟨.warn, "skipping knowledge update", [("block", .text block), ("error", .text fault.message)]⟩
  | clusterAdded block cluster points =>
    ⟨.info, "feature cluster added",
      [("block", .text block), ("cluster", .text cluster), ("points", .count points)]⟩
  | clusterRemoved cluster => ⟨.info, "feature cluster removed", [("cluster", .text cluster)]⟩
  | clusterSelected block cluster =>
    ⟨.info, "feature cluster selected", [("block", .text block), ("cluster", .text cluster)]⟩

/-! ### Results with their events -/

/-- A result together with the events that led to it, the earliest first. -/
structure Logged (α : Type) where
  value : α
  events : List Event

namespace Logged

/-- A result reached without any event. -/
def quiet {α : Type} (value : α) : Logged α := ⟨value, []⟩

/-- A result announced by one event. -/
def noting {α : Type} (event : Event) (value : α) : Logged α := ⟨value, [event]⟩

/-- Changes the result and keeps the events. -/
def map {α β : Type} (f : α → β) (a : Logged α) : Logged β := ⟨f a.value, a.events⟩

/-- Goes on from a result.  The later events follow the earlier ones. -/
def andThen {α β : Type} (a : Logged α) (f : α → Logged β) : Logged β :=
  let b := f a.value
  ⟨b.value, a.events ++ b.events⟩

instance : Monad Logged where
  pure := quiet
  bind := andThen

/-- Applies a step to each element in turn. -/
def each {α β : Type} (f : α → Logged β) : List α → Logged (List β)
  | [] => quiet []
  | a :: as => (f a).andThen fun b => (each f as).map (b :: ·)

end Logged

end Autotune
