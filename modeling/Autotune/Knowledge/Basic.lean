import Autotune.Point.Basic
import Autotune.Roster

/-!
# Knowledge

The `Knowledge` of a block is its set of operating points, one per configuration, in the order in
which the configurations were first seen.  It is a value: an `Update` yields a new one with the next
version.  It is never empty.

* replacing starts over from the given points;
* merging replaces a known configuration in its place and appends a new one;
* removing drops the named configurations.

The points stand in a `Table` beside an index, by which a configuration is found.  Putting a point
adds to the index, and dropping points makes a new one.
-/

namespace Autotune

/-- The position at which something is found by its name: the point of a configuration, or a
cluster. -/
structure Place where
  id : String
  position : Nat

instance : Keyed Place String := ⟨Place.id⟩

/-- Operating points and the index of their places. -/
structure Table (kn mn : Nat) where
  points : List (OperatingPoint kn mn)
  index : Roster Place

variable {kn mn : Nat}

namespace Table

def empty : Table kn mn := ⟨[], .empty⟩

/-- Puts a point in the place of its configuration, or at the end if the configuration is new. -/
def upsert (t : Table kn mn) (p : OperatingPoint kn mn) : Table kn mn :=
  match t.index.get? p.id with
  | some place => { t with points := t.points.set place.position p }
  | none => ⟨t.points ++ [p], t.index.insert ⟨p.id, t.points.length⟩⟩

/-- Puts points one after the other. -/
def upsertAll (t : Table kn mn) (new : List (OperatingPoint kn mn)) : Table kn mn :=
  new.foldl upsert t

/-- The points with a new index. -/
def ofPoints (points : List (OperatingPoint kn mn)) : Table kn mn :=
  ⟨points, points.zipIdx.foldl (fun index (p, i) => index.insert ⟨p.id, i⟩) .empty⟩

/-- Drops the named configurations. -/
def without (t : Table kn mn) (ids : List String) : Table kn mn :=
  ofPoints (t.points.filter fun p => !ids.contains p.id)

/-- The place of a configuration. -/
def position? (t : Table kn mn) (id : String) : Option Nat := (t.index.get? id).map Place.position

def get? (t : Table kn mn) (id : String) : Option (OperatingPoint kn mn) :=
  (t.position? id).bind fun i => t.points[i]?

theorem upsertAll_ne_nil {t : Table kn mn} (h : t.points ≠ []) (new : List (OperatingPoint kn mn)) :
    (t.upsertAll new).points ≠ [] := by
  induction new generalizing t with
  | nil => exact h
  | cons p new ih =>
    refine ih ?_
    unfold upsert
    split
    · simpa using h
    · simp

end Table

/-- A table that is not empty, with the number of updates it has seen.  The version is a natural
number: that a counter of 64 bits starts again from zero after `2 ^ 64` updates is left out. -/
structure Knowledge (kn mn : Nat) extends Table kn mn where
  version : Nat
  nonempty : points ≠ []

/-- A change of the set of points. -/
inductive Update (kn mn : Nat) where
  | replace (points : List (OperatingPoint kn mn))
  | merge (points : List (OperatingPoint kn mn))
  | remove (ids : List String)

namespace Knowledge

/-- A table at the given version, if it holds any point. -/
def ofTable? (t : Table kn mn) (version : Nat) : Except Fault (Knowledge kn mn) :=
  if h : t.points = [] then .error .emptyKnowledge else .ok ⟨t, version, h⟩

/-- The first knowledge of a block.  Of several points of one configuration the last counts. -/
def ofPoints (points : List (OperatingPoint kn mn)) : Except Fault (Knowledge kn mn) :=
  ofTable? (Table.empty.upsertAll points) 0

/-- The knowledge after an update, unless that would leave no point. -/
def apply (k : Knowledge kn mn) : Update kn mn → Except Fault (Knowledge kn mn)
  | .replace new => (ofPoints new).map fun next => { next with version := k.version + 1 }
  | .merge new =>
    .ok ⟨k.toTable.upsertAll new, k.version + 1, Table.upsertAll_ne_nil k.nonempty new⟩
  | .remove ids => ofTable? (k.toTable.without ids) (k.version + 1)

def size (k : Knowledge kn mn) : Nat := k.points.length

/-- The point that was seen first. -/
def first (k : Knowledge kn mn) : OperatingPoint kn mn := k.points.head k.nonempty

end Knowledge

end Autotune
