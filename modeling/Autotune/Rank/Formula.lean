import Autotune.Number.Binary
import Autotune.Rank.Selector

/-!
# Formulas

A `Formula` reduces weighted selectors to one number:

* simple: the value of its only term;
* linear: the sum of `coefficient * value`, of any number of terms;
* geometric: the product of `value ^ coefficient`, of at least one term.

`Formula.ofTerms` checks the number of terms.  A geometric formula has no defined value where a
power is undefined (`undefinedPower`): `Formula.validatePoints` rejects predictions on which that
happens, and `Formula.isDefined` asks the same of corrected values.
-/

namespace Autotune

/-- How the terms of a formula are put together. -/
inductive Composer where
  | simple
  | linear
  | geometric
deriving DecidableEq

instance : Named Composer where
  all := [.simple, .linear, .geometric]
  name
    | .simple => "Simple"
    | .linear => "Linear"
    | .geometric => "Geometric"
  mem_all a := by cases a <;> simp
  name_injective a b := by cases a <;> cases b <;> simp

/-- The composer's name in messages. -/
def Composer.label : Composer → String
  | simple => "simple"
  | linear => "linear"
  | geometric => "geometric"

/-- A selector and its weight. -/
structure Term where
  selector : Selector
  coefficient : Float

/-- Terms and the way in which they are put together. -/
structure Formula where
  composer : Composer
  terms : List Term

/-- A power that is NaN or not finite by its very arguments: of NaN, of a negative base to an
exponent that is not whole, or of zero to an exponent that is not whole and positive. -/
def undefinedPower (base exponent : Float) : Bool :=
  base.isNaN || (base < 0 && !Number.isWhole exponent) ||
    (base == 0 && (exponent ≤ 0 || !Number.isWhole exponent))

namespace Formula

/-- The formula without terms, whose value is the empty sum. -/
def constant : Formula := ⟨.linear, []⟩

/-- The formula with the given terms, if the composer takes that many. -/
def ofTerms (composer : Composer) (terms : List Term) : Except Fault Formula :=
  match composer with
  | .simple =>
    if terms.length = 1 then .ok ⟨composer, terms⟩
    else .error (.compositionArity composer.label "exactly 1" terms.length)
  | .linear => .ok ⟨composer, terms⟩
  | .geometric =>
    if terms.isEmpty then .error (.compositionArity composer.label "at least 1" terms.length)
    else .ok ⟨composer, terms⟩

/-- The value of a formula whose selectors read the given values, each paired with its
coefficient. -/
def compose (composer : Composer) (values : List (Float × Float)) : Float :=
  match composer with
  | .simple => (values.head?.map Prod.fst).getD 0
  | .linear => Number.sum (values.map fun (v, c) => c * v)
  | .geometric => Number.product (values.map fun (v, c) => Number.power v c)

/-- Accepts a formula whose selectors all lie within their segments.  The first that does not is
reported. -/
def validateIndices (f : Formula) (kn mn : Nat) : Except Fault Unit :=
  f.terms.forM fun term => term.selector.check kn mn

variable {kn mn : Nat}

/-- The predicted value at a point. -/
def value (f : Formula) (p : OperatingPoint kn mn) : Float :=
  compose f.composer (f.terms.map fun t => (t.selector.read p, t.coefficient))

/-- The value at a point under corrections. -/
def valueCorrected (f : Formula) (p : OperatingPoint kn mn) (corrections : Corrections) : Float :=
  compose f.composer (f.terms.map fun t => (t.selector.readCorrected p corrections, t.coefficient))

/-- Accepts a term whose power is defined at a point. -/
def Term.validate (t : Term) (p : OperatingPoint kn mn) : Except Fault Unit :=
  let value := t.selector.read p
  if undefinedPower value t.coefficient then
    .error (.undefinedPower t.selector.segment t.selector.index value t.coefficient p.id)
  else .ok ()

/-- Accepts points on which every predicted power is defined.  The first undefined one, by point and
then by term, is reported.  Only a geometric formula has powers. -/
def validatePoints (f : Formula) (points : List (OperatingPoint kn mn)) : Except Fault Unit :=
  match f.composer with
  | .geometric => points.forM fun p => f.terms.forM fun t => Term.validate t p
  | _ => .ok ()

/-- Whether the value at a point under corrections is defined. -/
def isDefined (f : Formula) (p : OperatingPoint kn mn) (corrections : Corrections) : Bool :=
  match f.composer with
  | .geometric =>
    f.terms.all fun t => !undefinedPower (t.selector.readCorrected p corrections) t.coefficient
  | _ => true

end Formula

end Autotune
