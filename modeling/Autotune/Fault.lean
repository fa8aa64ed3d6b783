import Autotune.Number.Decimal
import Autotune.Named

/-!
# What can go wrong

* `Fault` lists the reasons for which a block, a state or a cluster refuses what it is given;
* `UpdateFault` lists the ways in which queued knowledge can fail to arrive;
* `Degradation` describes trouble at run time.  It is never an error: it is reported with the
  decision that met it.

Every cause carries the data of its message, and its wording stands in one function.
-/

namespace Autotune

/-- Why a configuration is refused. -/
inductive Fault where
  | arityMismatch (expected found : Nat)
  | indexOutOfRange (segment : Segment) (index size : Nat)
  | invalidDeviation (value : Float)
  | compositionArity (composer expected : String) (found : Nat)
  | undefinedPower (segment : Segment) (index : Nat) (value exponent : Float)
      (configuration : String)
  | unknownState (name : String)
  | duplicateState (name : String)
  | activeStateRemoval (name : String)
  | duplicatePriority (state : String) (priority : UInt32)
  | unknownConstraint (state : String) (priority : UInt32)
  | emptyKnowledge
  | duplicateAdaptor (metric : Nat)
  | unknownField (segment : Segment) (name : String)
  | invalidFeature (index : Nat) (value : Float)
  | duplicateCluster (key : String)
  | unknownCluster (key : String)
  | activeClusterRemoval (key : String)
  | noCluster

def Fault.message : Fault → String
  | arityMismatch expected found => s!"arity mismatch: expected {expected} fields, found {found}"
  | indexOutOfRange segment index size =>
    s!"index {index} out of range for {segment.label} segment of size {size}"
  | invalidDeviation value =>
    "standard deviation must be non-negative, got " ++ Number.text value
  | compositionArity composer expected found =>
    s!"{composer} composition needs {expected} term(s), got {found}"
  | undefinedPower segment index value exponent configuration =>
    s!"geometric rank undefined: {segment.label} field {index} is " ++ Number.text value ++
      s!" in configuration {configuration} under exponent " ++ Number.text exponent
  | unknownState name => s!"unknown state '{name}'"
  | duplicateState name => s!"state '{name}' is already registered"
  | activeStateRemoval name => s!"state '{name}' is active and cannot be removed"
  | duplicatePriority state priority =>
    s!"state '{state}' already has a constraint at priority {priority}"
  | unknownConstraint state priority => s!"state '{state}' has no constraint at priority {priority}"
  | emptyKnowledge => "knowledge base is empty"
  | duplicateAdaptor metric => s!"metric {metric} already has a field adaptor"
  | unknownField segment name => s!"unknown {segment.label} field '{name}'"
  | invalidFeature index value => s!"data feature {index} is not finite: " ++ Number.text value
  | duplicateCluster key => s!"feature cluster [{key}] already exists"
  | unknownCluster key => s!"unknown feature cluster [{key}]"
  | activeClusterRemoval key => s!"feature cluster [{key}] is selected and cannot be removed"
  | noCluster => "no feature cluster registered"

/-- Why a queued knowledge update does not take effect. -/
inductive UpdateFault where
  | queueFull (capacity : Nat)
  | disconnected
  | rejected (fault : Fault)

def UpdateFault.message : UpdateFault → String
  | queueFull capacity => s!"knowledge update queue is full ({capacity} pending)"
  | disconnected => "knowledge update queue is disconnected"
  | rejected fault => "knowledge update rejected: " ++ fault.message

/-- Trouble met at run time, which degrades a decision and never prevents it. -/
inductive Degradation where
  /-- No point was eligible; the one chosen violates the goals by this much in total. -/
  | emptyEligibleSet (violation : Float)
  /-- An observation of this metric would have needed a division by zero. -/
  | undefinedCorrection (metric : Nat)
  /-- This many points had no defined rank and were left out. -/
  | undefinedRank (excluded : Nat)
deriving BEq

/-- The wording of a degradation.  A violation is rounded to six places. -/
def Degradation.message : Degradation → String
  | emptyEligibleSet violation =>
    "no eligible operating point (violation " ++ Number.fixedText 6 violation ++ ")"
  | undefinedCorrection metric => s!"undefined correction on metric {metric}"
  | undefinedRank excluded => s!"rank undefined on {excluded} corrected point(s)"

end Autotune
