import Autotune.Journal.Event

/-!
# Rosters

A `Roster` holds items that are told apart by a key of their own, by ascending key.  Because the key
is part of the item, an item cannot be filed under a wrong one; because the keys ascend strictly, no
two items share one.  Every operation keeps that order.
-/

namespace Autotune

/-- A type whose values carry a key. -/
class Keyed (α : Type) (κ : outParam Type) where
  key : α → κ

/-- A type whose order is a strict linear one, so that its values can serve as keys. -/
class KeyOrder (κ : Type) [LT κ] : Prop where
  lt_irrefl : ∀ a : κ, ¬ a < a
  lt_trans : ∀ {a b c : κ}, a < b → b < c → a < c
  lt_trichotomy : ∀ a b : κ, a < b ∨ a = b ∨ b < a

instance : KeyOrder Nat := ⟨Nat.lt_irrefl, Nat.lt_trans, Nat.lt_trichotomy⟩

instance : KeyOrder UInt32 := ⟨UInt32.lt_irrefl, UInt32.lt_trans, Std.lt_trichotomy⟩

instance : KeyOrder String := ⟨String.lt_irrefl, String.lt_trans, Std.lt_trichotomy⟩

/-- Items by ascending key. -/
structure Roster (α : Type) {κ : Type} [Keyed α κ] [LT κ] where
  items : List α
  ascending : items.Pairwise fun a b => Keyed.key a < Keyed.key b

namespace Roster

section

variable {α κ : Type} [Keyed α κ] [LT κ]

def empty : Roster α := ⟨[], .nil⟩

def size (r : Roster α) : Nat := r.items.length

/-- Changes every item, but not its key. -/
def map (r : Roster α) (f : α → α) (keeps : ∀ a, Keyed.key (f a) = Keyed.key a) : Roster α where
  items := r.items.map f
  ascending := by
    refine List.pairwise_map.mpr (r.ascending.imp fun h => ?_)
    rwa [keeps, keeps]

/-- Lets every item take a step that keeps its key, in order.  The steps yield results of their
own. -/
def each {β : Type} (r : Roster α) (f : α → Logged (β × α))
    (keeps : ∀ a, Keyed.key (f a).value.2 = Keyed.key a) : Logged (List β × Roster α) :=
  let steps := Logged.each f r.items
  ⟨(steps.value.map Prod.fst, r.map (fun a => (f a).value.2) keeps), steps.events⟩

variable [DecidableEq κ]

def get? (r : Roster α) (key : κ) : Option α := r.items.find? fun a => Keyed.key a = key

/-- Whether there is an item with the given key. -/
def contains (r : Roster α) (key : κ) : Bool := r.items.any fun a => Keyed.key a = key

/-- Drops the item with the given key. -/
def erase (r : Roster α) (key : κ) : Roster α where
  items := r.items.filter fun a => Keyed.key a ≠ key
  ascending := r.ascending.filter _

/-- Changes the item with the given key, but not its key. -/
def modify (r : Roster α) (key : κ) (f : α → α) (keeps : ∀ a, Keyed.key (f a) = Keyed.key a) :
    Roster α :=
  r.map (fun a => if Keyed.key a = key then f a else a) fun a => by
    split
    · exact keeps a
    · rfl

end

section

variable {α κ : Type} [Keyed α κ] [LT κ] [DecidableLT κ] [KeyOrder κ]

/-- Files an item at the place of its key.  An item with the same key gives way. -/
def insert (r : Roster α) (a : α) : Roster α where
  items := r.items.filter (fun b => Keyed.key b < Keyed.key a) ++
    a :: r.items.filter fun b => Keyed.key a < Keyed.key b
  ascending := by
    have below : ∀ b ∈ r.items.filter (fun b => Keyed.key b < Keyed.key a),
        Keyed.key b < Keyed.key a := fun b hb => by simpa using (List.mem_filter.mp hb).2
    have above : ∀ b ∈ r.items.filter (fun b => Keyed.key a < Keyed.key b),
        Keyed.key a < Keyed.key b := fun b hb => by simpa using (List.mem_filter.mp hb).2
    refine List.pairwise_append.mpr
      ⟨r.ascending.filter _, List.pairwise_cons.mpr ⟨above, r.ascending.filter _⟩, ?_⟩
    intro b hb c hc
    obtain rfl | hc := List.mem_cons.mp hc
    · exact below b hb
    · exact KeyOrder.lt_trans (below b hb) (above c hc)

end

end Roster

/-! ### The first of the least -/

/-- The least of a value and a list, by the given order.  Of equal ones the earliest is kept. -/
def leastOf {α : Type} (compare : α → α → Ordering) (a : α) (as : List α) : α :=
  as.foldl (fun best b => if (compare b best).isLT then b else best) a

/-- The least of a list, by the given order, if it has any element. -/
def least? {α : Type} (compare : α → α → Ordering) : List α → Option α
  | [] => none
  | a :: as => some (leastOf compare a as)

end Autotune
