import Autotune.Proofs.Feedback.Corrections
import Autotune.Proofs.Feedback.Window
import Autotune.Proofs.Number.Mean
import Mathlib.Logic.Function.Iterate

/-!
# Restored coefficients

A coefficient is restored by filling the window with it, and read as the mean of the window.  So what
is read back is the mean of copies of what was saved, a `refill`.  It is the saved coefficient as long
as no sum of copies has to be rounded, and close to it unless the sum is too large.

* `coefficient_setCoefficient`: what is read back;
* `Adaptors.items_cycle`: what happens to the adaptors when all coefficients are saved and restored,
  any number of times;
* `Adaptors.coefficients_of_restored`: what the application sees.
-/

namespace Autotune

open Number (value HasMultiples)

namespace Adaptor

/-- What is read back from a window of a given size that was filled with one value. -/
def refill (size : Nat) (c : Float) : Float := Number.mean (List.replicate size c)

variable {a : Adaptor} {c : Float} {size : Nat}

lemma coefficient_setCoefficient (a : Adaptor) (c : Float) :
    (a.setCoefficient c).coefficient = refill a.window.length c := by
  rw [coefficient, setCoefficient, List.map_const']
  rfl

@[simp] lemma length_setCoefficient (a : Adaptor) (c : Float) :
    (a.setCoefficient c).window.length = a.window.length := List.length_map _

/-- What is read back from a small window, or a value with a short mantissa, is what was put in. -/
lemma refill_eq (finite : c.isFinite = true) (positive : 0 < size) (small : size < 2 ^ 53)
    (exact : HasMultiples c size) : refill size c = c :=
  Number.mean_replicate finite positive small exact

lemma refill_of_le_two (finite : c.isFinite = true)
    (few : size = 1 ∨ size = 2 ∧ (c + c).isFinite = true) : refill size c = c := by
  obtain rfl | ⟨rfl, twice⟩ := few
  · exact refill_eq finite (by decide) (by decide) (Number.hasMultiples_one finite)
  · exact refill_eq finite (by decide) (by decide) (Number.hasMultiples_two finite twice)

/-- The window filled with its own mean. -/
def renew (a : Adaptor) : Adaptor := a.setCoefficient a.coefficient

lemma metric_renew (a : Adaptor) : Keyed.key a.renew = Keyed.key a := rfl

/-- A window is never filled with anything but what was read last. -/
lemma renew_iterate (a : Adaptor) (cycles : Nat) :
    (renew^[cycles] a).metric = a.metric ∧ (renew^[cycles] a).mode = a.mode ∧
      (renew^[cycles] a).window.length = a.window.length ∧
      (renew^[cycles] a).coefficient = (refill a.window.length)^[cycles] a.coefficient := by
  induction cycles with
  | zero => exact ⟨rfl, rfl, rfl, rfl⟩
  | succ cycles ih =>
    obtain ⟨metric, mode, length, shown⟩ := ih
    rw [Function.iterate_succ_apply', Function.iterate_succ_apply', ← shown, ← length]
    exact ⟨metric, mode, length_setCoefficient _ _, coefficient_setCoefficient _ _⟩

end Adaptor

namespace Adaptors

open Adaptor (refill renew)

/-- All coefficients are saved and restored. -/
def cycle (as : Adaptors) : Adaptors := as.restore as.coefficients

lemma items_restore (as : Adaptors) (saved : List (Nat × Float)) :
    (as.restore saved).items = as.items.map fun a =>
      saved.foldl (fun a entry => if a.metric = entry.1 then a.setCoefficient entry.2 else a) a := by
  induction saved generalizing as with
  | nil => exact (List.map_id' _).symm
  | cons entry rest ih =>
    have step : as.restore (entry :: rest) =
        restore (as.modify entry.1 (fun a => a.setCoefficient entry.2) fun _ => rfl) rest := rfl
    rw [step, ih]
    exact List.map_map

lemma foldl_saved {items : List Adaptor} (apart : items.Pairwise fun a d => a.metric ≠ d.metric)
    (a : Adaptor) (ha : a ∈ items) :
    (items.map fun a => (a.metric, a.coefficient)).foldl
      (fun a entry => if a.metric = entry.1 then a.setCoefficient entry.2 else a) a = a.renew := by
  have others {rest : List Adaptor} {a : Adaptor} (absent : ∀ d ∈ rest, a.metric ≠ d.metric) :
      (rest.map fun a => (a.metric, a.coefficient)).foldl
        (fun a entry => if a.metric = entry.1 then a.setCoefficient entry.2 else a) a = a := by
    induction rest with
    | nil => rfl
    | cons d rest ih =>
      rw [List.map_cons, List.foldl_cons, if_neg (absent d List.mem_cons_self)]
      exact ih fun d hd => absent d (List.mem_cons_of_mem _ hd)
  induction items with
  | nil => cases ha
  | cons d rest ih =>
    obtain ⟨first, apart⟩ := List.pairwise_cons.mp apart
    rw [List.map_cons, List.foldl_cons]
    obtain rfl | ha := List.mem_cons.mp ha
    · rw [if_pos rfl]
      exact others first
    · rw [if_neg (first a ha).symm]
      exact ih apart ha

lemma cycle_eq (as : Adaptors) : as.cycle = as.map renew Adaptor.metric_renew := by
  have apart : as.items.Pairwise fun a d => a.metric ≠ d.metric :=
    as.ascending.imp fun less => Nat.ne_of_lt less
  have items : as.cycle.items = as.items.map renew := by
    rw [cycle, items_restore]
    exact List.map_congr_left fun a ha => foldl_saved apart a ha
  exact Roster.eq_of_mem_iff fun a => by rw [items]; rfl

/-- **Saving and restoring acts on each adaptor on its own.** -/
theorem items_cycle (as : Adaptors) (cycles : Nat) :
    (cycle^[cycles] as).items = as.items.map renew^[cycles] := by
  induction cycles with
  | zero => exact (List.map_id _).symm
  | succ cycles ih =>
    have step : (cycle (cycle^[cycles] as)).items = (cycle^[cycles] as).items.map renew := by
      rw [cycle_eq]
      rfl
    rw [Function.iterate_succ_apply', step, ih, List.map_map, Function.iterate_succ']

lemma coefficients_cycle (as : Adaptors) (cycles : Nat) :
    (cycle^[cycles] as).coefficients =
      as.items.map fun a => (a.metric, (refill a.window.length)^[cycles] a.coefficient) := by
  rw [coefficients, items_cycle, List.map_map]
  refine List.map_congr_left fun a _ => ?_
  obtain ⟨metric, -, -, shown⟩ := a.renew_iterate cycles
  rw [Function.comp_apply, metric, shown]

lemma corrections_eq_foldl (as : Adaptors) :
    as.corrections = (as.items.map fun a => (a.metric, a.correction)).foldl
      (fun c entry => c.set entry.1 entry.2) .none := by
  rw [corrections, List.foldl_map]

lemma cycle_of_fixed {as : Adaptors}
    (fixed : ∀ a ∈ as.items, refill a.window.length a.coefficient = a.coefficient) (cycles : Nat) :
    (cycle^[cycles] as).coefficients = as.coefficients ∧
      (cycle^[cycles] as).corrections = as.corrections := by
  have kept (a : Adaptor) (ha : a ∈ as.items) :
      (refill a.window.length)^[cycles] a.coefficient = a.coefficient :=
    Function.iterate_fixed (fixed a ha) cycles
  constructor
  · rw [coefficients_cycle, coefficients]
    exact List.map_congr_left fun a ha => by rw [kept a ha]
  · rw [corrections_eq_foldl, corrections_eq_foldl, items_cycle, List.map_map]
    refine congrArg (fun entries => List.foldl _ _ entries) (List.map_congr_left fun a ha => ?_)
    obtain ⟨metric, mode, -, shown⟩ := a.renew_iterate cycles
    rw [Function.comp_apply, metric, Adaptor.correction, mode, shown, kept a ha]
    rfl

open Adaptor in
/-- **What comes back of a coefficient.**  Whatever an adaptor has been through, a coefficient that is
set is read back as the mean of `inertia` copies of it.  This is the coefficient itself if no sum of
copies has to be rounded, so for one copy, for two unless their sum overflows, and for every coefficient
whose mantissa is short enough; otherwise it is off by half of the distance of two numbers for each
copy, as long as their sum is not too large.  So all coefficients of a block that are saved and restored
again and again go through that many means, and those that one mean returns are never changed, nor is
the table of corrections. -/
theorem coefficients_of_restored (inertia : Nat) (mode : CorrectionMode) (h : History) (c : Float)
    (as : Adaptors) (cycles : Nat) :
    (let size := max inertia 1
      let restored := ((h.run inertia mode).1.setCoefficient c).coefficient
      restored = Number.mean (List.replicate size c) ∧
      (c.isFinite = true → size < 2 ^ 53 →
        (HasMultiples c size → restored = c) ∧
        (size = 1 ∨ size = 2 ∧ (c + c).isFinite = true → restored = c) ∧
        (size * |value c| ≤ 2 ^ (1022 : ℤ) → restored.isFinite = true ∧
          |value restored - value c| ≤ (size + 1) / 2 ^ 53 * |value c| + 2 ^ (-1075 : ℤ)))) ∧
    (cycle^[cycles] as).coefficients =
      as.items.map (fun a => (a.metric, (refill a.window.length)^[cycles] a.coefficient)) ∧
    ((∀ a ∈ as.items, a.coefficient.isFinite = true ∧ 0 < a.window.length ∧
        a.window.length < 2 ^ 53 ∧ HasMultiples a.coefficient a.window.length) →
      (cycle^[cycles] as).coefficients = as.coefficients ∧
      (cycle^[cycles] as).corrections = as.corrections) := by
  refine ⟨?_, coefficients_cycle as cycles, fun exact => ?_⟩
  · intro size restored
    have positive : 0 < size := by omega
    have shown : restored = refill size c := by
      show ((h.run inertia mode).1.setCoefficient c).coefficient = _
      rw [coefficient_setCoefficient, History.run_eq]
      exact congrArg (fun n => refill n c) (Ledger.length_window _ _ _)
    rw [shown]
    refine ⟨rfl, fun finite small => ⟨fun exact => ?_, fun few => ?_, fun moderate => ?_⟩⟩
    · exact refill_eq finite positive small exact
    · exact refill_of_le_two finite few
    · exact Number.mean_replicate_close finite positive small moderate
  · refine cycle_of_fixed (fun a ha => ?_) cycles
    obtain ⟨finite, positive, small, multiples⟩ := exact a ha
    exact refill_eq finite positive small multiples

/-- Two adaptors with three and two samples. -/
def learned : Adaptors :=
  Roster.insert
    (Roster.insert Roster.empty ((Adaptor.fresh 0 ⟨0⟩ 3 .multiplicative).setCoefficient 5))
    ((Adaptor.fresh 1 ⟨1⟩ 2 .additive).setCoefficient 7)

theorem coefficients_of_restored_sample :
    (((Adaptor.learning.run 3 .additive).1.setCoefficient 5).coefficient = 5) ∧
    (((Adaptor.learning.run 2 .additive).1.setCoefficient 0.1).coefficient = 0.1) ∧
    ((cycle^[4] learned).coefficients = learned.coefficients) := by
  obtain ⟨three, -, unchanged⟩ := coefficients_of_restored 3 .additive Adaptor.learning 5 learned 4
  obtain ⟨two, -⟩ := coefficients_of_restored 2 .additive Adaptor.learning 0.1 learned 4
  refine ⟨?_, ?_, ?_⟩
  · exact (three.2 (by decide) (by decide)).1 (Number.hasMultiples_ofNat (by decide) (by decide))
  · exact (two.2 (by decide +kernel) (by decide)).2.1 (.inr ⟨rfl, by decide +kernel⟩)
  · refine (unchanged fun a ha => ?_).1
    have items : learned.items = [(Adaptor.fresh 0 ⟨0⟩ 3 .multiplicative).setCoefficient 5,
        (Adaptor.fresh 1 ⟨1⟩ 2 .additive).setCoefficient 7] := rfl
    rw [items, List.mem_pair] at ha
    obtain rfl | rfl := ha
    · have shown : ((Adaptor.fresh 0 ⟨0⟩ 3 .multiplicative).setCoefficient 5).coefficient = 5 := by
        decide +kernel
      rw [shown]
      exact ⟨by decide, by decide, by decide, Number.hasMultiples_ofNat (by decide) (by decide)⟩
    · have shown : ((Adaptor.fresh 1 ⟨1⟩ 2 .additive).setCoefficient 7).coefficient = 7 := by
        decide +kernel
      rw [shown]
      exact ⟨by decide, by decide, by decide, Number.hasMultiples_ofNat (by decide) (by decide)⟩

/-- An adaptor of ten samples whose coefficient was restored. -/
def worn : Adaptors :=
  Roster.insert Roster.empty ((Adaptor.fresh 0 ⟨0⟩ 10 .multiplicative).setCoefficient 0.3)

/-- **A coefficient need not come back.**  Three copies of `0.1` are rounded to a greater sum, two of
a large number are infinite, and a coefficient that was restored moves again when it is restored once
more. -/
theorem exists_unreturned :
    ((Adaptor.fresh 0 ⟨0⟩ 3 .multiplicative).setCoefficient 0.1).coefficient ≠ 0.1 ∧
    ((Adaptor.fresh 0 ⟨0⟩ 2 .additive).setCoefficient 1e308).coefficient.isFinite = false ∧
    worn.coefficients = [(0, 0.29999999999999993)] ∧
    worn.cycle.coefficients = [(0, 0.2999999999999999)] := by
  decide +kernel

end Adaptors

end Autotune
