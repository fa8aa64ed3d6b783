import Autotune.Monitor.Bank
import Mathlib.Data.List.DropRight
import Mathlib.Data.List.Induction
import Mathlib.Tactic.Lemma

/-!
# What a monitor remembers

Whoever holds the id of a monitor may record through it.  All that was ever asked of a monitor,
through whichever of its holders, is its past: a list of requests without any bound.  What the monitor
holds can be read off the past at once: the last of the values that were `recorded` since the last
`clear`, and whether a bracket is `Opened`.

* `Monitor.Recalls.serve`: one request after the other, a monitor recalls its past;
* `Bank.get?_foldl_serve`: what is asked of other monitors does not matter;
* `Bank.recalls_of_uses`: what follows for everything that a holder can see.
-/

namespace Autotune

/-! ### The last entries of a list -/

lemma length_rtake {α : Type} {n : Nat} {xs : List α} (long : n ≤ xs.length) :
    (xs.rtake n).length = n := by
  rw [List.rtake, List.length_drop]
  omega

lemma length_rtake_le {α : Type} (n : Nat) (xs : List α) : (xs.rtake n).length ≤ n := by
  rw [List.rtake, List.length_drop]
  omega

/-- A window slides: one more entry pushes the oldest one out. -/
lemma rtake_concat {α : Type} {n : Nat} {xs : List α} (positive : 0 < n) (long : n ≤ xs.length)
    (x : α) : (xs ++ [x]).rtake n = (xs.rtake n).drop 1 ++ [x] := by
  have later : (xs ++ [x]).length - n = xs.length - n + 1 := by
    rw [List.length_append, List.length_singleton]
    omega
  rw [List.rtake, List.rtake, later, List.drop_drop, List.drop_append_of_le_length (by omega)]

lemma rtake_concat_of_lt {α : Type} {n : Nat} {xs : List α} (room : xs.length < n) (x : α) :
    (xs ++ [x]).rtake n = xs.rtake n ++ [x] := by
  have whole : (xs ++ [x]).length - n = 0 := by
    rw [List.length_append, List.length_singleton]
    omega
  have whole' : xs.length - n = 0 := by omega
  rw [List.rtake, List.rtake, whole, whole', List.drop_zero, List.drop_zero]

lemma rtake_append_of_le {α : Type} {n : Nat} {xs : List α} (before : List α)
    (long : n ≤ xs.length) : (before ++ xs).rtake n = xs.rtake n := by
  have start : (before ++ xs).length - n = before.length + (xs.length - n) := by
    rw [List.length_append]
    omega
  rw [List.rtake, List.rtake, start, ← List.drop_drop, List.drop_left]

lemma getLast?_rtake {α : Type} {n : Nat} (positive : 0 < n) (xs : List α) :
    (xs.rtake n).getLast? = xs.getLast? := by
  induction xs using List.reverseRecOn with
  | nil => rw [List.rtake_nil]
  | append_singleton xs x =>
    have last : ∃ kept, (xs ++ [x]).rtake n = kept ++ [x] := by
      obtain room | long := Nat.lt_or_ge xs.length n
      · exact ⟨_, rtake_concat_of_lt room x⟩
      · exact ⟨_, rtake_concat positive long x⟩
    obtain ⟨kept, last⟩ := last
    rw [last, List.getLast?_concat, List.getLast?_concat]

namespace Monitor

/-! ### Requests -/

/-- What a holder of a monitor may ask of it.  For how many seconds a bracket was open is told by the
clock. -/
inductive Request where
  | push (value : Float)
  | measure (value : Float)
  | start
  | stop (value : Float)
  | stopElapsed (seconds : Float)
  | clear

/-- What a holder is told. -/
inductive Reply where
  | done
  | closed (recorded : Bool)
  | elapsed (seconds : Option Float)

/-- The reply to a request, and the monitor afterwards. -/
def serve (m : Monitor) : Request → Reply × Monitor
  | .push value => (.done, m.push value)
  | .measure value => (.done, m.measure value)
  | .start => (.done, m.start)
  | .stop value => (.closed (m.stop value).1, (m.stop value).2)
  | .stopElapsed seconds => (.elapsed (m.stopElapsed seconds).1, (m.stopElapsed seconds).2)
  | .clear => (.done, m.clear)

/-! ### What the past says -/

/-- Whether no bracket is open after the request, whatever was before. -/
def Request.closes : Request → Bool
  | stop _ | stopElapsed _ | clear => true
  | push _ | measure _ | start => false

def Request.isStart : Request → Bool
  | start => true
  | _ => false

def Request.isClear : Request → Bool
  | clear => true
  | _ => false

/-- A bracket is open: nothing has closed the one that some `start` opened. -/
def Opened (past : List Request) : Prop :=
  ∃ before after, past = before ++ .start :: after ∧ ∀ request ∈ after, ¬ request.closes

lemma not_opened_nil : ¬ Opened [] := by
  rintro ⟨before, after, same, -⟩
  simp at same

lemma opened_concat {past : List Request} {request : Request} :
    Opened (past ++ [request]) ↔ request = .start ∨ Opened past ∧ ¬ request.closes := by
  constructor
  · rintro ⟨before, after, same, closed⟩
    cases after using List.reverseRecOn with
    | nil => exact .inl (List.singleton_inj.mp (List.append_inj' same rfl).2)
    | append_singleton after last =>
      rw [← List.cons_append, ← List.append_assoc] at same
      obtain ⟨rfl, last⟩ := List.append_inj' same rfl
      obtain rfl := List.singleton_inj.mp last
      have closed' : ∀ other ∈ after, ¬ other.closes := fun other ho =>
        closed other (List.mem_append_left _ ho)
      exact .inr ⟨⟨before, after, rfl, closed'⟩, closed _ (by simp)⟩
  · rintro (rfl | ⟨⟨before, after, rfl, closed⟩, open'⟩)
    · exact ⟨past, [], rfl, by simp⟩
    · refine ⟨before, after ++ [request], by simp, fun other ho => ?_⟩
      obtain ho | ho := List.mem_append.mp ho
      · exact closed other ho
      · rwa [List.mem_singleton.mp ho]

/-- Whether a bracket is open, followed request by request. -/
def openedAfter (past : List Request) : Bool :=
  past.foldl (fun opened request => request.isStart || (opened && !request.closes)) false

lemma openedAfter_iff (past : List Request) : openedAfter past = true ↔ Opened past := by
  induction past using List.reverseRecOn with
  | nil => exact iff_of_false Bool.false_ne_true not_opened_nil
  | append_singleton past request ih =>
    rw [openedAfter, List.foldl_concat, opened_concat, ← ih]
    cases request <;> simp [Request.closes, Request.isStart, openedAfter]

instance : DecidablePred Opened := fun past => decidable_of_iff _ (openedAfter_iff past)

/-- The value that a request records, when it comes after a given past. -/
def Request.value? (past : List Request) : Request → Option Float
  | push value | measure value => some value
  | stop value | stopElapsed value => if Opened past then some value else none
  | start | clear => none

/-- What a holder is told, when the request comes after a given past. -/
def Request.reply (past : List Request) : Request → Reply
  | stop _ => .closed (decide (Opened past))
  | stopElapsed seconds => .elapsed (if Opened past then some seconds else none)
  | push _ | measure _ | start | clear => .done

/-- The values that were recorded since the last `clear`, in the order in which they were: the value
of each request that no `clear` came after. -/
def recorded (past : List Request) : List Float :=
  (List.range past.length).filterMap fun i =>
    if (past.drop i).any Request.isClear then none
    else past[i]?.bind fun request => request.value? (past.take i)

lemma recorded_concat (past : List Request) (request : Request) :
    recorded (past ++ [request]) =
      if request.isClear then [] else recorded past ++ (request.value? past).toList := by
  have last : (past ++ [request]).drop past.length = [request] := List.drop_left
  have earlier {i : Nat} (h : i ∈ List.range past.length) :
      (past ++ [request]).drop i = past.drop i ++ [request] ∧
        (past ++ [request])[i]? = past[i]? ∧ (past ++ [request]).take i = past.take i := by
    have inside : i < past.length := List.mem_range.mp h
    exact ⟨List.drop_append_of_le_length inside.le, List.getElem?_append_left inside,
      List.take_append_of_le_length inside.le⟩
  rw [recorded, List.length_append, List.length_singleton, List.range_succ, List.filterMap_append]
  split
  case isTrue cleared =>
    have nothing : ∀ i ∈ List.range past.length ++ [past.length],
        ((past ++ [request]).drop i).any Request.isClear = true := by
      intro i hi
      obtain hi | hi := List.mem_append.mp hi
      · rw [(earlier hi).1]
        simp [cleared]
      · rw [List.mem_singleton.mp hi, last]
        simp [cleared]
    rw [← List.filterMap_append, List.filterMap_eq_nil_iff]
    intro i hi
    rw [if_pos (nothing i hi)]
  case isFalse kept =>
    congr 1
    · refine List.filterMap_congr fun i hi => ?_
      obtain ⟨later, here, before⟩ := earlier hi
      rw [later, here, before, List.any_append]
      simp [kept]
    · rw [List.filterMap_cons, List.filterMap_nil, last, List.any_cons, List.any_nil, Bool.or_false,
        if_neg kept, List.getElem?_concat_length, List.take_left]
      cases h : request.value? past <;> simp [h]

/-! ### One request after the other -/

/-- A monitor of a given capacity is what its past says: it holds the last of the values that were
recorded, and it knows whether a bracket is open. -/
structure Recalls (capacity : Nat) (past : List Request) (m : Monitor) : Prop where
  sized : m.capacity = max capacity 1
  samples : m.samples = (recorded past).rtake (max capacity 1)
  started : m.started = true ↔ Opened past

lemma recalls_ofCapacity (capacity : Nat) : Recalls capacity [] (ofCapacity capacity) where
  sized := rfl
  samples := by rw [ofCapacity, recorded, List.length_nil, List.range_zero, List.filterMap_nil,
    List.rtake_nil]
  started := iff_of_false Bool.false_ne_true not_opened_nil

/-- A full monitor slides and any other one grows: in both cases it holds the last values of one more
than before. -/
lemma samples_push {m : Monitor} {size : Nat} {values : List Float} (capacity : m.capacity = size)
    (positive : 0 < size) (held : m.samples = values.rtake size) (value : Float) :
    (m.push value).samples = (values ++ [value]).rtake size := by
  rw [push]
  dsimp only
  obtain short | long := Nat.lt_or_ge values.length size
  · have free : ¬ m.samples.length = m.capacity := by
      rw [held, capacity, List.rtake, List.length_drop]
      omega
    rw [if_neg free, held, rtake_concat_of_lt short]
  · have full : m.samples.length = m.capacity := by rw [held, length_rtake long, capacity]
    rw [if_pos full, held, rtake_concat positive long]

lemma average?_eq_none_iff {m : Monitor} : m.average? = none ↔ m.samples = [] := by
  simp [average?]

lemma stop_of_opened {m : Monitor} (opened : m.started = true) (value : Float) :
    m.stop value = (true, { m with started := false }.push value) := if_pos opened

lemma stop_of_not_opened {m : Monitor} (closed : ¬ m.started = true) (value : Float) :
    m.stop value = (false, m) := if_neg closed

lemma stopElapsed_of_opened {m : Monitor} (opened : m.started = true) (seconds : Float) :
    m.stopElapsed seconds = (some seconds, { m with started := false }.push seconds) :=
  if_pos opened

lemma stopElapsed_of_not_opened {m : Monitor} (closed : ¬ m.started = true) (seconds : Float) :
    m.stopElapsed seconds = (none, m) := if_neg closed

namespace Recalls

variable {capacity : Nat} {past : List Request} {m : Monitor}

lemma reply_eq (h : Recalls capacity past m) (request : Request) :
    (m.serve request).1 = request.reply past := by
  cases request with
  | stop value =>
    rw [Monitor.serve, Request.reply]
    by_cases opened : m.started = true
    · rw [stop_of_opened opened, decide_eq_true (h.started.mp opened)]
    · rw [stop_of_not_opened opened, decide_eq_false (mt h.started.mpr opened)]
  | stopElapsed seconds =>
    rw [Monitor.serve, Request.reply]
    by_cases opened : m.started = true
    · rw [stopElapsed_of_opened opened, if_pos (h.started.mp opened)]
    · rw [stopElapsed_of_not_opened opened, if_neg (mt h.started.mpr opened)]
  | push value => rfl
  | measure value => rfl
  | start => rfl
  | clear => rfl

lemma samples_of_none (h : Recalls capacity past m) {request : Request} (kept : request.isClear = false)
    (nothing : request.value? past = none) :
    m.samples = (recorded (past ++ [request])).rtake (max capacity 1) := by
  rw [recorded_concat, kept, if_neg Bool.false_ne_true, nothing, Option.toList_none, List.append_nil,
    h.samples]

lemma samples_of_some (h : Recalls capacity past m) {request : Request} (kept : request.isClear = false)
    {value : Float} (some : request.value? past = some value) :
    (m.push value).samples = (recorded (past ++ [request])).rtake (max capacity 1) := by
  rw [recorded_concat, kept, if_neg Bool.false_ne_true, some, Option.toList_some]
  exact samples_push h.sized (by omega) h.samples value

lemma started_of_not_closes (h : Recalls capacity past m) {request : Request} (other : request ≠ .start)
    (keeps : request.closes = false) : m.started = true ↔ Opened (past ++ [request]) := by
  rw [opened_concat, h.started, keeps]
  simp [other]

lemma not_opened_of_closes {request : Request} (other : request ≠ .start)
    (closes : request.closes = true) : ¬ Opened (past ++ [request]) := by
  rw [opened_concat, closes]
  simp [other]

lemma serve (h : Recalls capacity past m) (request : Request) :
    Recalls capacity (past ++ [request]) (m.serve request).2 := by
  cases request with
  | push value =>
    exact ⟨h.sized, h.samples_of_some rfl rfl, h.started_of_not_closes (by simp) rfl⟩
  | measure value =>
    exact ⟨h.sized, h.samples_of_some rfl rfl, h.started_of_not_closes (by simp) rfl⟩
  | start =>
    exact ⟨h.sized, h.samples_of_none rfl rfl, iff_of_true rfl (opened_concat.mpr (.inl rfl))⟩
  | stop value =>
    have closed : ¬ Opened (past ++ [.stop value]) := not_opened_of_closes (by simp) rfl
    rw [Monitor.serve]
    by_cases opened : m.started = true
    · rw [stop_of_opened opened]
      exact ⟨h.sized, h.samples_of_some rfl (if_pos (h.started.mp opened)),
        iff_of_false Bool.false_ne_true closed⟩
    · rw [stop_of_not_opened opened]
      exact ⟨h.sized, h.samples_of_none rfl (if_neg (mt h.started.mpr opened)),
        iff_of_false opened closed⟩
  | stopElapsed seconds =>
    have closed : ¬ Opened (past ++ [.stopElapsed seconds]) := not_opened_of_closes (by simp) rfl
    rw [Monitor.serve]
    by_cases opened : m.started = true
    · rw [stopElapsed_of_opened opened]
      exact ⟨h.sized, h.samples_of_some rfl (if_pos (h.started.mp opened)),
        iff_of_false Bool.false_ne_true closed⟩
    · rw [stopElapsed_of_not_opened opened]
      exact ⟨h.sized, h.samples_of_none rfl (if_neg (mt h.started.mpr opened)),
        iff_of_false opened closed⟩
  | clear =>
    have emptied : recorded (past ++ [.clear]) = [] := by rw [recorded_concat]; rfl
    refine ⟨h.sized, ?_, iff_of_false Bool.false_ne_true (not_opened_of_closes (by simp) rfl)⟩
    rw [emptied, List.rtake_nil]
    rfl

lemma foldl_serve (h : Recalls capacity past m) (more : List Request) :
    Recalls capacity (past ++ more) (more.foldl (fun now request => (now.serve request).2) m) := by
  induction more generalizing past m with
  | nil => rwa [List.append_nil]
  | cons request rest ih =>
    rw [List.foldl_cons, List.append_cons]
    exact ih (h.serve request)

end Recalls

end Monitor

/-! ### Whoever asks -/

namespace Bank

/-- A request to one of the monitors, from whoever has its id. -/
structure Use where
  id : MonitorId
  request : Monitor.Request

/-- All monitors after a request to one of them. -/
def serve (bank : Bank) (use : Use) : Bank :=
  bank.modify use.id fun m => (m.serve use.request).2

/-- The past of a monitor, when all uses are known: the requests to it, whoever they came from. -/
def pastOf (id : MonitorId) (uses : List Use) : List Monitor.Request :=
  uses.filterMap fun use => if use.id = id then some use.request else none

lemma pastOf_cons (id : MonitorId) (use : Use) (uses : List Use) :
    pastOf id (use :: uses) =
      if use.id = id then use.request :: pastOf id uses else pastOf id uses := by
  rw [pastOf, List.filterMap_cons]
  by_cases own : use.id = id
  · rw [if_pos own, if_pos own]
    rfl
  · rw [if_neg own, if_neg own]
    rfl

lemma get?_modify (bank : Bank) (other id : MonitorId) (f : Monitor → Monitor) :
    (bank.modify other f).get? id = (bank.get? id).map fun m => if other = id then f m else m := by
  rw [get?, modify, List.getElem?_modify, get?, Option.map_eq_map]
  refine congrArg (fun g => Option.map g bank.monitors[id.place]?) (funext fun m => ?_)
  by_cases own : other = id
  · rw [if_pos own, if_pos (congrArg MonitorId.place own)]
  · rw [if_neg own, if_neg fun same => own (congrArg MonitorId.mk same)]

lemma get?_foldl_serve (bank : Bank) (id : MonitorId) (uses : List Use) :
    (uses.foldl serve bank).get? id = (bank.get? id).map fun m =>
      (pastOf id uses).foldl (fun now request => (now.serve request).2) m := by
  induction uses generalizing bank with
  | nil => exact Option.map_id'.symm
  | cons use rest ih =>
    rw [List.foldl_cons, ih, serve, get?_modify, Option.map_map]
    refine congrArg (fun f => Option.map f (bank.get? id)) (funext fun m => ?_)
    rw [Function.comp_apply, pastOf_cons]
    by_cases own : use.id = id
    · rw [if_pos own, if_pos own, List.foldl_cons]
    · rw [if_neg own, if_neg own]

lemma get?_allocate (bank : Bank) (capacity : Nat) :
    (bank.allocate capacity).2.get? (bank.allocate capacity).1 = some (.ofCapacity capacity) :=
  List.getElem?_concat_length

open Monitor in
/-- **A monitor recalls its past.**  Whatever was asked of a monitor and of any other one, in whatever
order and by whomever: the monitor holds the last values that were recorded since the last `clear`, as
many as it has room for.  So there are never more than that, the last of them is the one recorded
last, and there is an average unless there is none.  A bracket that is closed records its value and
says so if and only if it was opened since the last `stop`, `stopElapsed` or `clear`.  Otherwise
nothing changes. -/
theorem recalls_of_uses (bank : Bank) (capacity : Nat) (uses : List Use) :
    let own := (bank.allocate capacity).1
    let size := max capacity 1
    let past := pastOf own uses
    ∃ m, (uses.foldl serve (bank.allocate capacity).2).get? own = some m ∧
      m.samples = (recorded past).rtake size ∧
      m.size ≤ size ∧
      m.last? = (recorded past).getLast? ∧
      (m.average? = none ↔ recorded past = []) ∧
      (∀ request, (m.serve request).1 = request.reply past) ∧
      (∀ value, ((m.stop value).1 = true ↔ Opened past) ∧
        (Opened past → (m.stop value).2.samples = (recorded past ++ [value]).rtake size) ∧
        (¬ Opened past → (m.stop value).2 = m)) := by
  intro own size past
  obtain ⟨m, found, recalls⟩ : ∃ m, (uses.foldl serve (bank.allocate capacity).2).get? own = some m ∧
      Recalls capacity past m :=
    ⟨_, by rw [get?_foldl_serve, get?_allocate, Option.map_some],
      (recalls_ofCapacity capacity).foldl_serve past⟩
  have positive : 0 < size := by omega
  have last : m.samples.getLast? = (recorded past).getLast? := by
    rw [recalls.samples, getLast?_rtake positive]
  refine ⟨m, found, recalls.samples, ?_, last, ?_, recalls.reply_eq, fun value => ?_⟩
  · rw [Monitor.size, recalls.samples]
    exact length_rtake_le size _
  · rw [average?_eq_none_iff, ← List.getLast?_eq_none_iff, last, List.getLast?_eq_none_iff]
  · by_cases opened : m.started = true
    · rw [stop_of_opened opened]
      exact ⟨iff_of_true rfl (recalls.started.mp opened),
        fun _ => samples_push recalls.sized positive recalls.samples value,
        fun closed => absurd (recalls.started.mp opened) closed⟩
    · have closed : ¬ Opened past := mt recalls.started.mpr opened
      rw [stop_of_not_opened opened]
      exact ⟨iff_of_false Bool.false_ne_true closed, fun opened => absurd opened closed, fun _ => rfl⟩

end Bank

end Autotune
