import Autotune.Named

/-!
# Debounced statuses

A `Debounce` follows a stream of votes and reports a status that does not jitter: it changes only
after `inertia` consecutive votes against it (one vote, when the inertia is zero).  A vote that
agrees with the reported status starts the count anew.
-/

namespace Autotune

/-- What a constraint is reported to be. -/
inductive Status where
  | satisfied
  | violated
deriving DecidableEq

instance : Named Status where
  all := [.satisfied, .violated]
  name
    | .satisfied => "Satisfied"
    | .violated => "Violated"
  mem_all a := by cases a <;> simp
  name_injective a b := by cases a <;> cases b <;> simp

/-- The status that a vote speaks for. -/
def Status.ofVote (satisfied : Bool) : Status := if satisfied then .satisfied else .violated

/-- A reported status and the number of votes in a row against it. -/
structure Debounce where
  inertia : UInt32
  status : Status
  streak : UInt32

namespace Debounce

/-- A fresh status, which is satisfied. -/
def start (inertia : UInt32) : Debounce := ⟨inertia, .satisfied, 0⟩

/-- The number of disagreeing votes that changes the status. -/
def threshold (d : Debounce) : UInt32 := if d.inertia = 0 then 1 else d.inertia

/-- One vote more in a row.  The count stops at the greatest number it can hold. -/
def lengthened (d : Debounce) : UInt32 := if d.streak = 0xffffffff then d.streak else d.streak + 1

/-- Takes a vote.  The flag tells whether the reported status changed. -/
def vote (d : Debounce) (satisfied : Bool) : Bool × Debounce :=
  let voted := Status.ofVote satisfied
  if voted = d.status then (false, { d with streak := 0 })
  else if d.threshold ≤ d.lengthened then (true, { d with status := voted, streak := 0 })
  else (false, { d with streak := d.lengthened })

/-- Forgets every vote. -/
def reset (d : Debounce) : Debounce := start d.inertia

end Debounce

end Autotune
