import Autotune.Feedback.Adaptors
import Autotune.Proofs.Roster
import Mathlib.Tactic.Lemma

/-!
# Samples

What an adaptor learns while a point runs is a list of samples: `Adaptor.sampled?` is the sample
that one evaluation takes, if the monitor of the adaptor holds anything, and `Adaptor.pushed` is the
adaptor after a list of samples.  Samples change the window only, so which samples are taken later
does not depend on them, and the adaptors of a block learn side by side (`Adaptors.taught`).
-/

namespace Autotune

variable {kn mn : Nat} {p : OperatingPoint kn mn} {bank : Bank}

namespace Adaptor

variable {a : Adaptor}

/-- The sample that the adaptor takes while a point runs: none, if its monitor is empty. -/
def sampled? (a : Adaptor) (p : OperatingPoint kn mn) (bank : Bank) : Option Float :=
  match p.field .metrics a.metric with
  | .ok predicted => (bank.average? a.monitor).map fun observed =>
    (sample? a.mode observed predicted).getD a.mode.neutral
  | .error _ => none

/-- The adaptor after a list of samples. -/
def pushed (a : Adaptor) (samples : List Float) : Adaptor := samples.foldl push a

lemma pushed_append (a : Adaptor) (samples more : List Float) :
    a.pushed (samples ++ more) = (a.pushed samples).pushed more :=
  List.foldl_append

lemma pushed_eq (a : Adaptor) (samples : List Float) :
    a.pushed samples = { a with window := (a.pushed samples).window } := by
  induction samples generalizing a with
  | nil => rfl
  | cons sample rest ih => exact ih (a.push sample)

lemma key_pushed (a : Adaptor) (samples : List Float) :
    Keyed.key (a.pushed samples) = Keyed.key a := by
  rw [pushed_eq]
  rfl

lemma sampled?_pushed (a : Adaptor) (samples : List Float) :
    (a.pushed samples).sampled? p bank = a.sampled? p bank := by
  rw [pushed_eq]
  rfl

lemma sampled?_of_empty (empty : bank.average? a.monitor = none) : a.sampled? p bank = none := by
  unfold sampled?
  split
  · rw [empty, Option.map_none]
  · rfl

end Adaptor

namespace Adaptors

open Adaptor (sampled?)

lemma evaluateAt_next (block : String) (bank : Bank) (p : OperatingPoint kn mn) (a : Adaptor) :
    (evaluateAt block bank p a).value.2 = a.pushed (a.sampled? p bank).toList := by
  cases known : p.field .metrics a.metric with
  | error fault =>
    have unsampled : a.sampled? p bank = none := by rw [sampled?, known]
    rw [evaluateAt, known, unsampled]
    rfl
  | ok predicted =>
    rw [evaluateAt, known, sampled?, known]
    cases held : bank.average? a.monitor with
    | none => simp only [Adaptor.evaluate, held]; rfl
    | some observed => simp only [Adaptor.evaluate, held]; rfl

/-- The adaptors after evaluations with what the monitors held at one time after the other. -/
def taught (p : OperatingPoint kn mn) (banks : List Bank) (as : Adaptors) : Adaptors :=
  as.map (fun a => a.pushed (banks.filterMap (a.sampled? p))) fun a => a.key_pushed _

lemma evaluate_next (as : Adaptors) (block : String) (bank : Bank) (p : OperatingPoint kn mn) :
    (as.evaluate block bank p).value.2 = as.taught p [bank] := by
  rw [evaluate, Logged.map, Roster.each_value, taught]
  dsimp only
  refine Roster.map_congr fun a _ => ?_
  rw [evaluateAt_next, filterMap_singleton]

lemma taught_of_unsampled {as : Adaptors} {banks : List Bank}
    (empty : ∀ bank ∈ banks, ∀ a ∈ as.items, a.sampled? p bank = none) :
    as.taught p banks = as := by
  refine Roster.map_of_fixed fun a ha => ?_
  rw [List.filterMap_eq_nil_iff.mpr fun bank hb => empty bank hb a ha]
  rfl

lemma taught_nil (as : Adaptors) : as.taught p [] = as := taught_of_unsampled nofun

lemma taught_append (as : Adaptors) (banks more : List Bank) :
    as.taught p (banks ++ more) = (as.taught p banks).taught p more := by
  rw [taught, taught, taught, Roster.map_map]
  refine Roster.map_congr fun a _ => ?_
  rw [List.filterMap_append, Adaptor.pushed_append]
  exact congrArg _ (List.filterMap_congr fun bank _ => (a.sampled?_pushed _).symm)

end Adaptors

end Autotune
