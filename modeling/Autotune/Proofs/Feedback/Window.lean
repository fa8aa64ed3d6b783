import Autotune.Proofs.Feedback.Samples
import Autotune.Proofs.Monitor.Record

/-!
# The window as a record of the past

A `History` is an adaptor from its creation on: the inputs that it took, among them what was done to
the monitors.  The window is replaced one sample at a time, but what it holds can be read off the
history at once: a `Ledger` notes the value that was set last and the comparisons made since, without
any bound, and the window is the tail of both (`Ledger.window`, `run_eq`).

So the window always has its full length, and as many comparisons as fit into it are all that it
remembers (`window_of_history`).
-/

namespace Autotune

/-- What may be done to a monitor.  A bracket that is closed by the clock stops with the seconds
that passed. -/
inductive Monitor.Call where
  | push (value : Float)
  | start
  | stop (value : Float)
  | clear

/-- The monitor after a call. -/
def Monitor.answer (m : Monitor) : Call → Monitor
  | .push value => m.push value
  | .start => m.start
  | .stop value => (m.stop value).2
  | .clear => m.clear

namespace Adaptor

/-- What may happen to an adaptor: one of its own calls, or a call of some monitor. -/
inductive Input where
  | evaluate (predicted : Reading)
  | setCoefficient (coefficient : Float)
  | clear
  | monitor (id : MonitorId) (call : Monitor.Call)

/-- Whether an input leaves every sample but the oldest where it is. -/
def Input.Keeps : Input → Prop
  | evaluate _ | monitor _ _ => True
  | setCoefficient _ | clear => False

/-- An adaptor and all monitors after an input. -/
def take (block : String) (now : Adaptor × Bank) : Input → Adaptor × Bank
  | .evaluate predicted => ((now.1.evaluate block now.2 predicted).value.2, now.2)
  | .setCoefficient coefficient => (now.1.setCoefficient coefficient, now.2)
  | .clear => (now.1.clear, now.2)
  | .monitor id call => (now.1, now.2.modify id fun m => m.answer call)

/-- An adaptor from its creation on, with the monitors as they were then. -/
structure History where
  block : String
  metric : Nat
  monitor : MonitorId
  bank : Bank
  inputs : List Input

/-- What the inputs leave to be remembered: what the monitors hold, the value that was set last, and
each prediction since that was compared, with the observed mean. -/
structure Ledger where
  bank : Bank
  value : Float
  compared : List (Reading × Float)

namespace Ledger

/-- The ledger after an input. -/
def take (mode : CorrectionMode) (monitor : MonitorId) (l : Ledger) : Input → Ledger
  | .evaluate predicted =>
    match l.bank.average? monitor with
    | some observed => { l with compared := l.compared ++ [(predicted, observed)] }
    | none => l
  | .setCoefficient coefficient => { l with value := coefficient, compared := [] }
  | .clear => { l with value := mode.neutral, compared := [] }
  | .monitor id call => { l with bank := l.bank.modify id fun m => m.answer call }

/-- The samples that the comparisons yield. -/
def samples (mode : CorrectionMode) (l : Ledger) : List Float :=
  l.compared.map fun c => (sample? mode c.2 c.1).getD mode.neutral

/-- The last entries of as many copies of the value that was set, and the samples taken since. -/
def window (mode : CorrectionMode) (size : Nat) (l : Ledger) : List Float :=
  (List.replicate size l.value ++ l.samples mode).rtake size

end Ledger

namespace History

/-- The history with more inputs at its end. -/
def followedBy (h : History) (more : List Input) : History := { h with inputs := h.inputs ++ more }

/-- The adaptor and all monitors at the end of a history. -/
def run (h : History) (inertia : Nat) (mode : CorrectionMode) : Adaptor × Bank :=
  h.inputs.foldl (Adaptor.take h.block) (fresh h.metric h.monitor inertia mode, h.bank)

/-- The ledger at the end of a history.  At its creation, an adaptor is set to the neutral value. -/
def ledger (h : History) (mode : CorrectionMode) : Ledger :=
  h.inputs.foldl (Ledger.take mode h.monitor) ⟨h.bank, mode.neutral, []⟩

/-- What would be compared on more inputs, before the next value is set. -/
def comparisons (h : History) (mode : CorrectionMode) (more : List Input) : List (Reading × Float) :=
  (more.foldl (Ledger.take mode h.monitor) { h.ledger mode with compared := [] }).compared

end History

/-! ### The ledger tells the window -/

namespace Ledger

variable {mode : CorrectionMode} {size : Nat} {l : Ledger}

lemma length_window (mode : CorrectionMode) (size : Nat) (l : Ledger) :
    (l.window mode size).length = size := by
  refine length_rtake ?_
  rw [List.length_append, List.length_replicate]
  omega

lemma window_of_set (mode : CorrectionMode) (size : Nat) (bank : Bank) (value : Float) :
    (Ledger.mk bank value []).window mode size = List.replicate size value := by
  rw [window, samples, List.map_nil, List.append_nil, List.rtake, List.length_replicate,
    Nat.sub_self, List.drop_zero]

lemma window_of_compared (positive : 0 < size) (predicted : Reading) (observed : Float) :
    { l with compared := l.compared ++ [(predicted, observed)] }.window mode size =
      (l.window mode size).drop 1 ++ [(sample? mode observed predicted).getD mode.neutral] := by
  rw [window, samples, List.map_append, ← List.append_assoc]
  refine rtake_concat positive ?_ _
  rw [List.length_append, List.length_replicate]
  omega

/-- Enough comparisons make up the whole window. -/
lemma window_of_le (before after : List (Reading × Float)) (whole : l.compared = before ++ after)
    (long : size ≤ after.length) :
    l.window mode size =
      (after.map fun c => (sample? mode c.2 c.1).getD mode.neutral).rtake size := by
  rw [window, samples, whole, List.map_append, ← List.append_assoc]
  exact rtake_append_of_le _ (by rwa [List.length_map])

lemma compared_foldl {monitor : MonitorId} {more : List Input} (keeps : ∀ i ∈ more, i.Keeps)
    (l : Ledger) :
    (more.foldl (take mode monitor) l).compared =
      l.compared ++ (more.foldl (take mode monitor) { l with compared := [] }).compared := by
  have added : ∀ (before : List (Reading × Float)) (l : Ledger),
      (more.foldl (take mode monitor) { l with compared := before ++ l.compared }).compared =
        before ++ (more.foldl (take mode monitor) l).compared := by
    intro before
    induction more with
    | nil => exact fun _ => rfl
    | cons i rest ih =>
      intro l
      have step : take mode monitor { l with compared := before ++ l.compared } i =
          { take mode monitor l i with compared := before ++ (take mode monitor l i).compared } := by
        cases i with
        | evaluate predicted =>
          simp only [take]
          cases l.bank.average? monitor with
          | none => rfl
          | some observed => simp only [List.append_assoc]
        | monitor id call => rfl
        | setCoefficient coefficient => exact (keeps _ List.mem_cons_self).elim
        | clear => exact (keeps _ List.mem_cons_self).elim
      rw [List.foldl_cons, List.foldl_cons, step]
      exact ih (fun j hj => keeps j (List.mem_cons_of_mem _ hj)) _
  rw [← added l.compared { l with compared := [] }, List.append_nil]

end Ledger

lemma take_eq (block : String) {size : Nat} (positive : 0 < size) (metric : Nat)
    (monitor : MonitorId) (mode : CorrectionMode) (l : Ledger) (i : Input) :
    take block (⟨metric, monitor, mode, size, l.window mode size⟩, l.bank) i =
      (⟨metric, monitor, mode, size, (l.take mode monitor i).window mode size⟩,
        (l.take mode monitor i).bank) := by
  have filled (value : Float) :
      (l.window mode size).map (fun _ => value) =
        (Ledger.mk l.bank value []).window mode size := by
    rw [Ledger.window_of_set, List.map_const', Ledger.length_window]
  cases i with
  | evaluate predicted =>
    cases held : l.bank.average? monitor with
    | none => simp only [take, evaluate, Ledger.take, held]; rfl
    | some observed =>
      simp only [take, evaluate, Ledger.take, held, Ledger.window_of_compared positive]
      rfl
  | setCoefficient coefficient => simp only [take, setCoefficient, Ledger.take, filled]
  | clear => simp only [take, clear, setCoefficient, Ledger.take, filled]
  | monitor id call => rfl

namespace History

lemma run_eq (h : History) (inertia : Nat) (mode : CorrectionMode) :
    h.run inertia mode =
      (⟨h.metric, h.monitor, mode, max inertia 1, (h.ledger mode).window mode (max inertia 1)⟩,
        (h.ledger mode).bank) := by
  have whole (inputs : List Input) (l : Ledger) :
      inputs.foldl (Adaptor.take h.block)
        (⟨h.metric, h.monitor, mode, max inertia 1, l.window mode (max inertia 1)⟩, l.bank) =
      (⟨h.metric, h.monitor, mode, max inertia 1,
          (inputs.foldl (Ledger.take mode h.monitor) l).window mode (max inertia 1)⟩,
        (inputs.foldl (Ledger.take mode h.monitor) l).bank) := by
    induction inputs generalizing l with
    | nil => rfl
    | cons i rest ih => rw [List.foldl_cons, List.foldl_cons, take_eq _ (by omega), ih]
  rw [run, fresh, ← Ledger.window_of_set mode _ h.bank]
  exact whole h.inputs _

lemma compared_followedBy (h : History) (mode : CorrectionMode) {more : List Input}
    (keeps : ∀ i ∈ more, i.Keeps) :
    ((h.followedBy more).ledger mode).compared =
      (h.ledger mode).compared ++ h.comparisons mode more := by
  rw [ledger, followedBy, List.foldl_append]
  exact Ledger.compared_foldl keeps _

end History

/-- **What a window holds.**  At the end of any history, the window has its full length, and it holds
the last entries of this list: as many copies as fit into it of the value that was set last, and then
the samples of the comparisons made since.  With an empty monitor, an evaluation does nothing.  And a
window remembers nothing else: two adaptors of the same mode and inertia, with whatever histories,
have the same window and the same coefficient as soon as the same comparisons have filled it. -/
theorem window_of_history (inertia : Nat) (mode : CorrectionMode) (h : History) :
    let size := max inertia 1
    let now := h.run inertia mode
    now.1.window.length = size ∧
    now.1.window =
      (List.replicate size (h.ledger mode).value ++ (h.ledger mode).samples mode).rtake size ∧
    (now.2.average? h.monitor = none → ∀ block predicted,
      now.1.evaluate block now.2 predicted = .quiet (false, now.1)) ∧
    ∀ (other : History) (more more' : List Input), (∀ i ∈ more, i.Keeps) → (∀ i ∈ more', i.Keeps) →
      h.comparisons mode more = other.comparisons mode more' →
      size ≤ (h.comparisons mode more).length →
        ((h.followedBy more).run inertia mode).1.window =
          ((other.followedBy more').run inertia mode).1.window ∧
        ((h.followedBy more).run inertia mode).1.coefficient =
          ((other.followedBy more').run inertia mode).1.coefficient := by
  dsimp only
  refine ⟨?_, ?_, fun empty block predicted => ?_, fun other more more' keeps keeps' same long => ?_⟩
  · rw [History.run_eq]
    exact Ledger.length_window _ _ _
  · rw [History.run_eq]
    rfl
  · have own : (h.run inertia mode).1.monitor = h.monitor := by rw [History.run_eq]
    rw [evaluate, own, empty]
  · have windows : ((h.followedBy more).run inertia mode).1.window =
        ((other.followedBy more').run inertia mode).1.window := by
      rw [History.run_eq, History.run_eq]
      dsimp only
      rw [Ledger.window_of_le _ _ (h.compared_followedBy mode keeps) long,
        Ledger.window_of_le _ _ (other.compared_followedBy mode keeps') (same ▸ long), same]
    exact ⟨windows, congrArg Number.mean windows⟩

/-- Three evaluations, of which the monitor is empty at the first, and a bracket of another monitor. -/
def learning : History :=
  ⟨"first", 0, ⟨0⟩, ⟨[.ofCapacity 2, .ofCapacity 1]⟩,
    [.evaluate ⟨5, 0⟩, .monitor ⟨0⟩ (.push 3), .evaluate ⟨5, 0⟩, .monitor ⟨1⟩ .start,
      .evaluate ⟨4, 0⟩]⟩

/-- A value that was set before anything was observed. -/
def restored : History := ⟨"second", 1, ⟨1⟩, ⟨[.ofCapacity 1, .ofCapacity 3]⟩, [.setCoefficient 9]⟩

/-- An observation, and as many evaluations as a window of two has room for. -/
def twice (id : MonitorId) : List Input :=
  [.monitor id .clear, .monitor id (.push 8), .evaluate ⟨5, 0⟩, .evaluate ⟨6, 0⟩]

lemma keeps_twice (id : MonitorId) : ∀ i ∈ twice id, i.Keeps := by
  simp [twice, Input.Keeps]

theorem window_of_history_sample :
    ((learning.run 2 .additive).1.window = [3 - 5, 3 - 4]) ∧
    ((restored.run 2 .additive).1.evaluate "second" (restored.run 2 .additive).2 ⟨5, 0⟩ =
      .quiet (false, (restored.run 2 .additive).1)) ∧
    ((learning.followedBy (twice ⟨0⟩)).run 2 .additive).1.window =
      ((restored.followedBy (twice ⟨1⟩)).run 2 .additive).1.window := by
  refine ⟨?_, ?_, ?_⟩
  · rw [(window_of_history 2 .additive learning).2.1]
    decide +kernel
  · exact (window_of_history 2 .additive restored).2.2.1 (by decide +kernel) _ _
  · exact ((window_of_history 2 .additive learning).2.2.2 restored (twice ⟨0⟩) (twice ⟨1⟩)
      (keeps_twice _) (keeps_twice _) rfl (by decide +kernel)).1

end Adaptor

end Autotune
