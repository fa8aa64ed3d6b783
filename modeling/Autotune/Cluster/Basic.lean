import Autotune.Block.Builder
import Autotune.Block.Control
import Autotune.Cluster.Feature

/-!
# Clusters of data

A block may behave differently on different data.  `Clusters` keeps one block per feature vector,
all built from one template and sharing its monitors, and one of them is selected.

* `Clusters.add` builds the block of a new cluster, with the states that the first one has now;
* `Clusters.remove` drops a cluster that is not selected;
* `Clusters.selectFor` hands over to the cluster that fits an input best: an admissible one before
  an inadmissible one, then the closer one, then the older one.

Beside the clusters stands an index, by which one is found under the key of its features.  Adding a
cluster adds to the index, and dropping one makes a new index.
-/

namespace Autotune

open Operation (read check ensure step)

/-- A block and the features of the data that it serves. -/
structure Cluster (kn mn fn : Nat) where
  features : Vector Float fn
  block : Block kn mn

/-- The key of a cluster: its features, with both zeros as one. -/
def Cluster.key {kn mn fn : Nat} (c : Cluster kn mn fn) : String := Autotune.key c.features.toList

/-- Clusters in the order in which they were added, the index of their keys, and the place of the
selected one. -/
structure Clusters (kn mn fn : Nat) where
  template : Builder kn mn
  comparisons : Vector FeatureComparison fn
  distance : FeatureDistance
  entries : List (Cluster kn mn fn)
  index : Roster Place
  selected : Option Nat

namespace Clusters

variable {kn mn fn : Nat}

/-- No clusters yet.  Data has at least one feature. -/
def ofTemplate (template : Builder kn mn) (comparisons : Vector FeatureComparison fn)
    (distance : FeatureDistance) : Except Fault (Clusters kn mn fn) :=
  if fn = 0 then .error (.arityMismatch 1 0)
  else .ok ⟨template, comparisons, distance, [], .empty, none⟩

def current? (cs : Clusters kn mn fn) : Option (Cluster kn mn fn) :=
  cs.selected.bind fun i => cs.entries[i]?

/-- The selected cluster, or the fault that there is none. -/
def current (cs : Clusters kn mn fn) : Except Fault (Cluster kn mn fn) :=
  match cs.current? with
  | some c => .ok c
  | none => .error .noCluster

/-- A new index of clusters. -/
def indexOf (entries : List (Cluster kn mn fn)) : Roster Place :=
  entries.zipIdx.foldl (fun index (c, i) => index.insert ⟨c.key, i⟩) .empty

/-- The place of the cluster with a key. -/
def position? (cs : Clusters kn mn fn) (key : String) : Option Nat :=
  (cs.index.get? key).map Place.position

def find? (cs : Clusters kn mn fn) (features : Vector Float fn) : Option (Cluster kn mn fn) :=
  (cs.position? (key features.toList)).bind fun i => cs.entries[i]?

/-- The clusters with the block at one place replaced. -/
def setBlock (cs : Clusters kn mn fn) (i : Nat) (b : Block kn mn) : Clusters kn mn fn :=
  { cs with entries := cs.entries.modify i fun c => { c with block := b } }

/-! ### Adding and removing -/

/-- The parts of another block like the template.  The states of a block that is already there
replace those of the template, with nothing observed. -/
def sibling (cs : Clusters kn mn fn) (points : List (OperatingPoint kn mn)) : Builder kn mn :=
  match cs.entries.head? with
  | none => { cs.template with points := points }
  | some c =>
    { cs.template with
      points := points
      states := c.block.states.items.map State.reset
      active := some c.block.active }

/-- Adds a cluster.  The first one becomes the selected one. -/
def add (features : Vector Float fn) (points : List (OperatingPoint kn mn)) :
    Operation (Clusters kn mn fn) Unit := do
  check (checkFeatures features.toList)
  let cs ← read
  let key := key features.toList
  ensure ((cs.position? key).isNone) (.duplicateCluster key)
  let built ← check (cs.sibling points).build
  step fun cs => built.andThen fun b =>
    .noting (.clusterAdded b.telemetry.block key b.knowledge.size) ((),
      { cs with
        entries := cs.entries ++ [⟨features, b⟩]
        index := cs.index.insert ⟨key, cs.entries.length⟩
        selected := some (cs.selected.getD cs.entries.length) })

/-- The place of the cluster with a key, or the fault that there is none. -/
def place (cs : Clusters kn mn fn) (key : String) : Except Fault Nat :=
  match cs.position? key with
  | some i => .ok i
  | none => .error (.unknownCluster key)

/-- Drops a cluster that is not selected.  The selection stays with its cluster. -/
def remove (features : Vector Float fn) : Operation (Clusters kn mn fn) Unit := do
  let cs ← read
  let key := key features.toList
  let i ← check (cs.place key)
  ensure (cs.selected ≠ some i) (.activeClusterRemoval key)
  step fun cs =>
    .noting (.clusterRemoved key) ((),
      { cs with
        entries := cs.entries.eraseIdx i
        index := indexOf (cs.entries.eraseIdx i)
        selected := cs.selected.map fun j => if i < j then j - 1 else j })

/-! ### Selecting -/

/-- Whether a cluster may serve an input at all. -/
def admissible (cs : Clusters kn mn fn) (cluster input : Vector Float fn) : Bool :=
  (cs.comparisons.toList.zip (cluster.toList.zip input.toList)).all fun (comparison, c, x) =>
    comparison.admits c x

/-- Whether an input is better served by the second of two clusters. -/
def prefers (cs : Clusters kn mn fn) (input best other : Vector Float fn) : Bool :=
  if cs.admissible best input != cs.admissible other input then cs.admissible other input
  else
    let (toBest, toOther) := cs.distance.measure input.toList best.toList other.toList
    toOther < toBest

/-- The place of the cluster that serves an input best, found in one pass over the list. -/
def bestFor (cs : Clusters kn mn fn) (input : Vector Float fn) (first : Cluster kn mn fn)
    (others : List (Cluster kn mn fn)) : Nat :=
  let scan := fun (best : Cluster kn mn fn × Nat) (other : Cluster kn mn fn × Nat) =>
    if cs.prefers input best.1.features other.1.features then other else best
  ((others.zipIdx 1).foldl scan (first, 0)).2

/-- Prepares the block of a cluster to take over.  It forgets what it learned under other data, and
if it knows the configuration that runs, that one runs in it too. -/
def takeOver (b : Block kn mn) (running : Option (OperatingPoint kn mn)) : Logged (Block kn mn) :=
  let fresh := b.resetAdaptation
  match running.bind fun p => fresh.knowledge.get? p.id with
  | some p => fresh.apply p
  | none => .quiet fresh

/-- Hands over to the cluster at a place, if it is not the selected one.  The flag tells whether it
is another one. -/
def handOver (cs : Clusters kn mn fn) (best : Nat) : Logged (Bool × Clusters kn mn fn) :=
  if cs.selected = some best then .quiet (false, cs)
  else
    match cs.entries[best]? with
    | none => .quiet (false, cs)
    | some next =>
      let running := cs.current?.bind fun c => c.block.running
      (takeOver next.block running).andThen fun b =>
        .noting (.clusterSelected b.telemetry.block next.key)
          (true, { cs with selected := some best }.setBlock best b)

/-- Selects the cluster that serves an input best.  The flag tells whether it is another one. -/
def selectFor (input : Vector Float fn) : Operation (Clusters kn mn fn) Bool := do
  check (checkFeatures input.toList)
  let cs ← read
  match cs.entries with
  | [] => check (.error .noCluster)
  | first :: others => step fun cs => cs.handOver (cs.bestFor input first others)

def featureVectors (cs : Clusters kn mn fn) : List (Vector Float fn) :=
  cs.entries.map Cluster.features

end Clusters

end Autotune
