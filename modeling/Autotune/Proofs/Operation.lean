import Autotune.Journal.Operation
import Mathlib.Tactic.Lemma

/-!
# What an operation yields and what its refusal leaves

An operation works in place, so two things have to be known about it.

* `Operation.Yields` says that it is accepted, with which result, and in which state it ends.  There
  is one lemma for each way to build an operation, and rewriting with them takes an operation apart.
* `Operation.Atomic` says that a refusal leaves the state as it was and announces nothing.  As
  nothing is undone, this is about the order of the steps: whatever may refuse has to be `Silent` as
  long as something else may still refuse (`Silent.bind`), and only `Sure` steps may follow a
  change.

`Operation.Keeps` says that it leaves a part of the state as it was in either case.
-/

namespace Autotune

namespace Operation

variable {σ α β : Type} {op : Operation σ α} {f : α → Operation σ β} {s s' : σ} {a : α}

/-- The operation is accepted, with a result, and ends in a state. -/
def Yields (op : Operation σ α) (s : σ) (a : α) (s' : σ) : Prop :=
  (op.run s).outcome = .ok a ∧ (op.run s).state = s'

/-- A refusal leaves everything as it was. -/
def Atomic (op : Operation σ α) : Prop :=
  ∀ s fault, (op.run s).outcome = .error fault → (op.run s).state = s ∧ (op.run s).events = []

/-- The operation looks at the state at most. -/
def Silent (op : Operation σ α) : Prop := ∀ s, (op.run s).state = s ∧ (op.run s).events = []

/-- Whether it is accepted or refused, the operation leaves a part of the state as it was. -/
def Keeps {γ : Type} (part : σ → γ) (op : Operation σ α) : Prop :=
  ∀ s, part (op.run s).state = part s

/-- The operation is never refused. -/
def Sure (op : Operation σ α) : Prop := ∀ s, ∃ a, (op.run s).outcome = .ok a

/-! ### Accepted operations -/

lemma run_bind_of_ok (h : (op.run s).outcome = .ok a) :
    (op >>= f).run s =
      ⟨((f a).run (op.run s).state).outcome, ((f a).run (op.run s).state).state,
        (op.run s).events ++ ((f a).run (op.run s).state).events⟩ := by
  show op.andThen f s = _
  simp only [andThen, h]

lemma run_bind_of_error {fault : Fault} (h : (op.run s).outcome = .error fault) :
    (op >>= f).run s = ⟨.error fault, (op.run s).state, (op.run s).events⟩ := by
  show op.andThen f s = _
  simp only [andThen, h]

lemma run_read_bind {f : σ → Operation σ β} : (read >>= f).run s = (f s).run s := rfl

lemma run_check_bind {result : Except Fault α} :
    (check result >>= f).run s =
      match result with
      | .ok a => (f a).run s
      | .error fault => ⟨.error fault, s, []⟩ := by
  cases result <;> rfl

lemma run_step (g : σ → Logged (α × σ)) :
    (step g).run s = ⟨.ok (g s).value.1, (g s).value.2, (g s).events⟩ := rfl

lemma bind_yields {b : β} :
    (op >>= f).Yields s b s' ↔ ∃ a between, op.Yields s a between ∧ (f a).Yields between b s' := by
  unfold Yields
  cases h : (op.run s).outcome with
  | error fault => simp [run_bind_of_error h]
  | ok a =>
    rw [run_bind_of_ok h]
    constructor
    · rintro ⟨ok, rfl⟩
      exact ⟨a, _, ⟨rfl, rfl⟩, ok, rfl⟩
    · rintro ⟨b, between, ⟨same, rfl⟩, ok, rfl⟩
      cases same
      exact ⟨ok, rfl⟩

lemma pure_yields {b : α} : (pure a : Operation σ α).Yields s b s' ↔ a = b ∧ s = s' := by
  simp [Yields, run, pure]

lemma read_bind_yields {f : σ → Operation σ β} {b : β} :
    (read >>= f).Yields s b s' ↔ (f s).Yields s b s' := Iff.rfl

lemma check_yields {result : Except Fault α} :
    (check result : Operation σ α).Yields s a s' ↔ result = .ok a ∧ s = s' := Iff.rfl

lemma check_bind_yields {result : Except Fault α} {b : β} :
    (check result >>= f).Yields s b s' ↔ ∃ a, result = .ok a ∧ (f a).Yields s b s' := by
  simp [bind_yields, check_yields, and_assoc]

lemma ensure_bind_yields {c : Prop} [Decidable c] {fault : Fault} {f : Unit → Operation σ β}
    {b : β} : (ensure c fault >>= f).Yields s b s' ↔ c ∧ (f ⟨⟩).Yields s b s' := by
  rw [ensure, check_bind_yields]
  by_cases h : c
  · simp only [h, if_true, true_and]
    exact ⟨fun ⟨⟨⟩, rest⟩ => rest, fun rest => ⟨⟨⟩, rest⟩⟩
  · simp [h]

lemma step_yields {g : σ → Logged (α × σ)} :
    (step g).Yields s a s' ↔ (g s).value.1 = a ∧ (g s).value.2 = s' := by
  simp [Yields, run, step]

lemma change_yields {g : σ → σ} {u : Unit} : (change g).Yields s u s' ↔ g s = s' := by
  simp [change, step_yields, Logged.quiet]

lemma change_bind_yields {g : σ → σ} {f : Unit → Operation σ β} {b : β} :
    (change g >>= f).Yields s b s' ↔ (f ⟨⟩).Yields (g s) b s' := Iff.rfl

lemma finish_eq_ok {op : Operation σ Unit} : op.finish s = .ok s' ↔ op.Yields s ⟨⟩ s' := by
  unfold finish Yields
  dsimp only
  cases (op.run s).outcome with
  | error fault => simp [Except.map]
  | ok u => simp [Except.map]

lemma forM_yields {f : α → Operation σ Unit} {motive : σ → Prop} {as : List α} {u : Unit}
    (start : motive s) (step : ∀ a s u s', motive s → (f a).Yields s u s' → motive s')
    (ok : (as.forM f).Yields s u s') : motive s' := by
  induction as generalizing s with
  | nil =>
    obtain ⟨-, rfl⟩ := pure_yields.mp ok
    exact start
  | cons a as ih =>
    obtain ⟨v, between, first, rest⟩ := bind_yields.mp ok
    exact ih (step a s v between start first) rest

lemma discard_yields {u : Unit} : (discard op).Yields s u s' ↔ ∃ a, op.Yields s a s' := by
  have steps : discard op = op >>= fun _ => pure ⟨⟩ := rfl
  simp [steps, bind_yields, pure_yields]

lemma run_discard_state : ((discard op).run s).state = (op.run s).state := by
  have steps : discard op = op >>= fun _ => pure ⟨⟩ := rfl
  rw [steps]
  cases h : (op.run s).outcome with
  | error fault => rw [run_bind_of_error h]
  | ok a => rw [run_bind_of_ok h]; rfl

/-! ### Refused operations -/

lemma silent_read : (read : Operation σ σ).Silent := fun _ => ⟨rfl, rfl⟩

lemma silent_check (result : Except Fault α) : (check result : Operation σ α).Silent :=
  fun _ => ⟨rfl, rfl⟩

lemma silent_ensure (c : Prop) [Decidable c] (fault : Fault) :
    (ensure c fault : Operation σ Unit).Silent := silent_check _

lemma sure_pure (a : α) : (pure a : Operation σ α).Sure := fun _ => ⟨a, rfl⟩

lemma sure_step (g : σ → Logged (α × σ)) : (step g).Sure := fun _ => ⟨_, rfl⟩

lemma sure_change (g : σ → σ) : (change g).Sure := sure_step _

lemma Sure.bind (first : op.Sure) (rest : ∀ a, (f a).Sure) : (op >>= f).Sure := fun s => by
  obtain ⟨a, ok⟩ := first s
  rw [run_bind_of_ok ok]
  exact rest a _

lemma Sure.atomic (h : op.Sure) : op.Atomic := fun s fault refused => by
  obtain ⟨a, ok⟩ := h s
  rw [ok] at refused
  cases refused

lemma Silent.atomic (h : op.Silent) : op.Atomic := fun s _ _ => h s

/-- **Checks may come before whatever refuses cleanly.** -/
lemma Silent.bind (first : op.Silent) (rest : ∀ a, (f a).Atomic) : (op >>= f).Atomic := by
  intro s fault refused
  obtain ⟨same, quiet⟩ := first s
  cases h : (op.run s).outcome with
  | error fault =>
    rw [run_bind_of_error h]
    exact ⟨same, quiet⟩
  | ok a =>
    rw [run_bind_of_ok h] at refused ⊢
    rw [same] at refused ⊢
    obtain ⟨same', quiet'⟩ := rest a s fault refused
    exact ⟨same', by rw [quiet, quiet', List.append_nil]⟩

/-- Nothing may follow a change that could still be refused. -/
lemma Atomic.bind (first : op.Atomic) (rest : ∀ a, (f a).Sure) : (op >>= f).Atomic := by
  intro s fault refused
  cases h : (op.run s).outcome with
  | error fault =>
    rw [run_bind_of_error h]
    exact first s fault h
  | ok a =>
    rw [run_bind_of_ok h] at refused
    obtain ⟨b, ok⟩ := rest a (op.run s).state
    rw [ok] at refused
    cases refused

lemma Atomic.discard (h : op.Atomic) : (discard op).Atomic := h.bind fun _ => sure_pure _

/-! ### What stays -/

section

variable {γ : Type} {part : σ → γ}

lemma keeps_step {g : σ → Logged (α × σ)} (h : ∀ s, part (g s).value.2 = part s) :
    Keeps part (step g) := h

lemma Silent.keeps (h : op.Silent) : Keeps part op := fun s => congrArg part (h s).1

lemma Keeps.bind (first : Keeps part op) (rest : ∀ a, Keeps part (f a)) :
    Keeps part (op >>= f) := by
  intro s
  cases h : (op.run s).outcome with
  | error fault =>
    rw [run_bind_of_error h]
    exact first s
  | ok a =>
    rw [run_bind_of_ok h]
    exact (rest a _).trans (first s)

lemma Keeps.discard (h : Keeps part op) : Keeps part (discard op) :=
  h.bind fun _ _ => rfl

end

end Operation

end Autotune
