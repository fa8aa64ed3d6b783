/-!
# Finite choices with written names

A `Named` type has finitely many values, each written by a name of its own.  `Named.ofName?` reads a
name back; it inverts `Named.name` because the names are distinct.

The first such choice is the `Segment`: an operating point has a row of knobs, which the application
sets, and a row of metrics, which it is predicted to show.
-/

namespace Autotune

/-- A type whose values are listed in `all` and told apart by `name`. -/
class Named (α : Type) where
  all : List α
  name : α → String
  mem_all : ∀ a : α, a ∈ all
  name_injective : ∀ a b : α, name a = name b → a = b

export Named (name)

/-- The value with the given name, if there is one. -/
def Named.ofName? {α : Type} [Named α] (s : String) : Option α :=
  (Named.all : List α).find? fun a => name a == s

@[simp] theorem Named.ofName?_name {α : Type} [Named α] (a : α) :
    (Named.ofName? (name a) : Option α) = some a := by
  have found : (Named.ofName? (name a) : Option α).isSome := by
    simp only [Named.ofName?, List.find?_isSome]
    exact ⟨a, Named.mem_all a, by simp⟩
  obtain ⟨b, h⟩ := Option.isSome_iff_exists.mp found
  rw [h, Named.name_injective b a (by simpa using List.find?_some h)]

/-! ### The two rows of an operating point -/

/-- Which row of an operating point a field belongs to. -/
inductive Segment where
  | knobs
  | metrics
deriving DecidableEq

/-- The word for the row in messages and reports. -/
def Segment.label : Segment → String
  | knobs => "knobs"
  | metrics => "metrics"

instance : Named Segment where
  all := [.knobs, .metrics]
  name
    | .knobs => "Knobs"
    | .metrics => "Metrics"
  mem_all a := by cases a <;> simp
  name_injective a b := by cases a <;> cases b <;> simp

end Autotune
