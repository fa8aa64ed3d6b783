import Mathlib.Data.List.Forall2
import Mathlib.Tactic.Lemma

/-!
# Computations that may be refused

An operation that can be refused is a computation in `Except`.  It yields a result exactly when every
one of its steps does:

* `bind_eq_ok`, `map_eq_ok` and `guard_eq_ok` take one step off a computation;
* `forM_eq_ok` is about a check of every element of a list, `mapM_eq_ok` and `exists_of_mem_mapM`
  about a result for every element;
* `foldlM_eq_ok` carries an invariant through a list of steps.

When it is refused, one of its steps is: `bind_eq_error`, `guard_eq_error`, `forM_eq_error` and
`foldlM_eq_error` say which.
-/

namespace Autotune

variable {ε α β : Type}

/-! ### Lists and tables -/

lemma exists_of_mem_forall₂ {R : α → β → Prop} {as : List α} {bs : List β}
    (h : List.Forall₂ R as bs) : ∀ b ∈ bs, ∃ a ∈ as, R a b := by
  induction h with
  | nil => simp
  | cons head _ ih =>
    intro b hb
    obtain rfl | hb := List.mem_cons.mp hb
    · exact ⟨_, List.mem_cons_self, head⟩
    · obtain ⟨a, ha, related⟩ := ih b hb
      exact ⟨a, List.mem_cons_of_mem _ ha, related⟩

lemma mem_of_lookup [BEq α] [LawfulBEq α] {table : List (α × β)} {a : α} {b : β}
    (h : table.lookup a = some b) : (a, b) ∈ table := by
  obtain ⟨before, after, rfl, -⟩ := List.lookup_eq_some_iff.mp h
  exact List.mem_append_right _ List.mem_cons_self

/-! ### Accepted computations -/

lemma bind_eq_ok {x : Except ε α} {f : α → Except ε β} {b : β} :
    x >>= f = .ok b ↔ ∃ a, x = .ok a ∧ f a = .ok b := by
  cases x with
  | error e => simp [bind, Except.bind]
  | ok a => simp [bind, Except.bind]

lemma pure_eq_ok {a b : α} : (pure a : Except ε α) = .ok b ↔ a = b := by
  simp [pure, Except.pure]

lemma map_eq_ok {x : Except ε α} {f : α → β} {b : β} :
    f <$> x = .ok b ↔ ∃ a, x = .ok a ∧ f a = b := by
  cases x with
  | error e => simp [Functor.map, Except.map]
  | ok a => simp [Functor.map, Except.map]

lemma exists_eq_ok {x : Except ε α} (h : x.isOk = true) : ∃ a, x = .ok a := by
  cases x with
  | error e => cases h
  | ok a => exact ⟨a, rfl⟩

/-- What a test of the result accepts is a result. -/
lemma exists_ok_of_any {x : Except ε α} {test : α → Bool} (h : x.toOption.any test = true) :
    ∃ a, x = .ok a ∧ test a = true := by
  cases x with
  | error e => cases h
  | ok a => exact ⟨a, rfl, h⟩

lemma guard_eq_ok {c : Prop} [Decidable c] {e : ε} {k : Unit → Except ε β} {b : β} :
    (if c then (Except.error e : Except ε Unit) >>= k else k ⟨⟩) = .ok b ↔ ¬ c ∧ k ⟨⟩ = .ok b := by
  by_cases h : c <;> simp [h, bind, Except.bind]

lemma forM_eq_ok {f : α → Except ε Unit} {as : List α} :
    as.forM f = .ok ⟨⟩ ↔ ∀ a ∈ as, f a = .ok ⟨⟩ := by
  induction as with
  | nil => simp [List.forM, pure, Except.pure]
  | cons a as ih =>
    have step : (a :: as).forM f = f a >>= fun _ => as.forM f := rfl
    rw [step, bind_eq_ok, List.forall_mem_cons, ← ih]
    constructor
    · rintro ⟨⟨⟩, ha, has⟩
      exact ⟨ha, has⟩
    · rintro ⟨ha, has⟩
      exact ⟨⟨⟩, ha, has⟩

lemma mapM_eq_ok {f : α → Except ε β} {as : List α} {bs : List β} :
    as.mapM f = .ok bs ↔ List.Forall₂ (fun a b => f a = .ok b) as bs := by
  induction as generalizing bs with
  | nil =>
    rw [List.mapM_nil, pure_eq_ok, List.forall₂_nil_left_iff]
    exact eq_comm
  | cons a as ih =>
    simp only [List.mapM_cons, bind_eq_ok, pure_eq_ok, List.forall₂_cons_left_iff, ih]
    constructor
    · rintro ⟨b, hb, rest, hrest, rfl⟩
      exact ⟨b, rest, hb, hrest, rfl⟩
    · rintro ⟨b, rest, hb, hrest, rfl⟩
      exact ⟨b, hb, rest, hrest, rfl⟩

lemma exists_of_mem_mapM {f : α → Except ε β} {as : List α} {bs : List β}
    (h : as.mapM f = .ok bs) : ∀ b ∈ bs, ∃ a ∈ as, f a = .ok b :=
  exists_of_mem_forall₂ (mapM_eq_ok.mp h)

lemma exists_mapM_eq_ok {f : α → Except ε β} {as : List α} :
    (∃ bs, as.mapM f = .ok bs) ↔ ∀ a ∈ as, ∃ b, f a = .ok b := by
  induction as with
  | nil => exact iff_of_true ⟨[], rfl⟩ (by simp)
  | cons a as ih =>
    rw [List.forall_mem_cons, ← ih]
    simp only [List.mapM_cons, bind_eq_ok, pure_eq_ok]
    constructor
    · rintro ⟨_, b, hb, bs, hbs, rfl⟩
      exact ⟨⟨b, hb⟩, bs, hbs⟩
    · rintro ⟨⟨b, hb⟩, bs, hbs⟩
      exact ⟨_, b, hb, bs, hbs, rfl⟩

/-- What holds at the start and is kept by every accepted step holds at the end. -/
lemma foldlM_eq_ok {f : β → α → Except ε β} {motive : β → Prop} {as : List α} {b b' : β}
    (start : motive b) (step : ∀ b a b', a ∈ as → motive b → f b a = .ok b' → motive b')
    (h : as.foldlM f b = .ok b') : motive b' := by
  induction as generalizing b with
  | nil =>
    rw [List.foldlM_nil, pure_eq_ok] at h
    exact h ▸ start
  | cons a as ih =>
    rw [List.foldlM_cons, bind_eq_ok] at h
    obtain ⟨next, first, rest⟩ := h
    have head : motive next := step b a next (by simp) start first
    exact ih head (fun b a b' ha => step b a b' (List.mem_cons_of_mem _ ha)) rest

/-! ### Refused computations -/

lemma bind_eq_error {x : Except ε α} {f : α → Except ε β} {e : ε} :
    x >>= f = .error e ↔ x = .error e ∨ ∃ a, x = .ok a ∧ f a = .error e := by
  cases x with
  | error e' => simp [bind, Except.bind]
  | ok a => simp [bind, Except.bind]

lemma guard_eq_error {c : Prop} [Decidable c] {e e' : ε} {k : Unit → Except ε β} :
    (if c then (Except.error e : Except ε Unit) >>= k else k ⟨⟩) = .error e' ↔
      c ∧ e = e' ∨ ¬ c ∧ k ⟨⟩ = .error e' := by
  by_cases h : c <;> simp [h, bind, Except.bind]

lemma forM_eq_error {f : α → Except ε Unit} {as : List α} {e : ε} (h : as.forM f = .error e) :
    ∃ a ∈ as, f a = .error e := by
  induction as with
  | nil => cases h
  | cons a as ih =>
    have step : (a :: as).forM f = f a >>= fun _ => as.forM f := rfl
    rw [step, bind_eq_error] at h
    obtain here | ⟨-, -, later⟩ := h
    · exact ⟨a, List.mem_cons_self, here⟩
    · obtain ⟨b, hb, refused⟩ := ih later
      exact ⟨b, List.mem_cons_of_mem _ hb, refused⟩

lemma foldlM_eq_error {f : β → α → Except ε β} {as : List α} {b : β} {e : ε}
    (h : as.foldlM f b = .error e) :
    ∃ before a after between, as = before ++ a :: after ∧ before.foldlM f b = .ok between ∧
      f between a = .error e := by
  induction as generalizing b with
  | nil => cases h
  | cons a as ih =>
    rw [List.foldlM_cons, bind_eq_error] at h
    obtain here | ⟨next, first, later⟩ := h
    · exact ⟨[], a, as, b, rfl, rfl, here⟩
    · obtain ⟨before, c, after, between, rfl, accepted, refused⟩ := ih later
      refine ⟨a :: before, c, after, between, rfl, ?_, refused⟩
      rw [List.foldlM_cons, bind_eq_ok]
      exact ⟨next, first, accepted⟩

end Autotune
