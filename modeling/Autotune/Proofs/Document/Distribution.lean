import Autotune.Cluster.Feature
import Autotune.Proofs.Document.Blueprint
import Autotune.Proofs.Document.Settings
import Mathlib.Data.List.Basic

/-!
# The written form of distributions

A distribution is accepted exactly when both its numbers are there, as fields of an object, once
each, or as the two items of a list, and the deviation may be one (`Distribution.decode_iff`).  Over
64-bit numbers what was read stays the same.  Over 32-bit numbers it does so exactly when both
numbers are finite (`Distribution.decode_encode_iff`), since a number beyond their range is read as
infinite, which cannot be written.
-/

namespace Autotune

open Document

variable {v : Value}

namespace Document

/-- The object has the field once, with the given value. -/
def Value.Has (v : Value) (s : String) (w : Value) : Prop :=
  ∃ fields, v = .object fields ∧ fields.filter (fun field => field.1 == s) = [(s, w)]

/-- The value is a number of any kind. -/
def Value.isNumber : Value → Bool
  | .integer _ | .number _ | .single _ => true
  | _ => false

lemma filter_eq_singleton {fields : List (String × Value)} {s : String} {w : Value} :
    fields.filter (fun field => field.1 == s) = [(s, w)] ↔
      fields.lookup s = some w ∧ fields.countP (fun field => field.1 == s) ≤ 1 := by
  induction fields with
  | nil => simp
  | cons field fields ih =>
    obtain ⟨label, x⟩ := field
    by_cases here : label = s
    · subst here
      rw [List.filter_cons_of_pos (by simp), List.lookup_cons_self,
        List.countP_cons_of_pos (by simp), List.countP_eq_length_filter]
      simp
    · have elsewhere : (s == label) = false := beq_false_of_ne (Ne.symm here)
      rw [List.filter_cons_of_neg (by simpa using here),
        List.countP_cons_of_neg (by simpa using here), List.lookup_cons, elsewhere]
      exact ih

lemma exists_fieldsOf_iff {m s : Value} :
    (∃ fields, fieldsOf ["mean", "standard_deviation"] v = .ok fields ∧
      fields.lookup "mean" = some m ∧ fields.lookup "standard_deviation" = some s) ↔
    v = .list [m, s] ∨ v.Has "mean" m ∧ v.Has "standard_deviation" s := by
  simp only [Value.Has, filter_eq_singleton]
  constructor
  · rintro ⟨fields, read, mean, deviation⟩
    obtain ⟨rfl, once⟩ | ⟨items, rfl, short, rfl⟩ := fieldsOf_eq_ok.mp read
    · simp only [List.forall_mem_cons] at once
      exact .inr ⟨⟨fields, rfl, mean, once.1⟩, fields, rfl, deviation, once.2.1⟩
    · match items, short with
      | [], _ => cases mean
      | [_], _ => cases deviation
      | [_, _], _ =>
        cases mean
        cases deviation
        exact .inl rfl
      | _ :: _ :: _ :: _, short => simp at short
  · rintro (rfl | ⟨⟨fields, rfl, mean, once⟩, _, same, deviation, once'⟩)
    · exact ⟨_, rfl, rfl, rfl⟩
    · cases same
      exact ⟨fields, fieldsOf_eq_ok.mpr (.inl ⟨rfl, by simp [once, once']⟩), mean, deviation⟩

lemma exists_decode_double {m : Value} :
    (∃ x : Stored Float, decode m = .ok x) ↔ m.isNumber = true := by
  cases m with
  | integer | number | single => exact iff_of_true ⟨_, rfl⟩ rfl
  | _ =>
    refine iff_of_false ?_ Bool.false_ne_true
    rintro ⟨x, read⟩
    cases read

lemma exists_decode_single {m : Value} :
    (∃ x : Stored Float32, decode m = .ok x) ↔ m.isNumber = true := by
  cases m with
  | integer | number | single => exact iff_of_true ⟨_, rfl⟩ rfl
  | _ =>
    refine iff_of_false ?_ Bool.false_ne_true
    rintro ⟨x, read⟩
    cases read

end Document

namespace Distribution

variable {α : Type} [Measure α] {d : Distribution α}

lemma ofMeanDeviation_eq_ok {mean deviation : α} :
    ofMeanDeviation mean deviation = .ok d ↔ mean = d.mean ∧ deviation = d.deviation := by
  unfold ofMeanDeviation
  constructor
  · intro h
    split at h
    · cases h
      exact ⟨rfl, rfl⟩
    · cases h
  · rintro ⟨rfl, rfl⟩
    exact dif_pos d.valid

variable [Coded α]

lemma decode_eq_ok : decode v = .ok d ↔
    ∃ fields, fieldsOf ["mean", "standard_deviation"] v = .ok fields ∧
      required fields "mean" = .ok d.mean ∧
      required fields "standard_deviation" = .ok d.deviation := by
  simp only [decode, bind_eq_ok]
  constructor
  · rintro ⟨fields, object, mean, hmean, deviation, hdeviation, accepted⟩
    cases made : ofMeanDeviation mean deviation with
    | ok d' =>
      rw [made] at accepted
      cases accepted
      obtain ⟨rfl, rfl⟩ := ofMeanDeviation_eq_ok.mp made
      exact ⟨fields, object, hmean, hdeviation⟩
    | error fault =>
      rw [made] at accepted
      cases accepted
  · rintro ⟨fields, object, mean, deviation⟩
    refine ⟨fields, object, _, mean, _, deviation, ?_⟩
    rw [ofMeanDeviation_eq_ok.mpr ⟨rfl, rfl⟩]
    rfl

/-- **A distribution is accepted exactly when it has both numbers and they make one.**  They are the
items of a list, or fields of an object that has each of them once. -/
theorem decode_iff : decode v = .ok d ↔
    ∃ m s mean deviation, (v = .list [m, s] ∨ v.Has "mean" m ∧ v.Has "standard_deviation" s) ∧
      decode m = .ok mean ∧ decode s = .ok deviation ∧
      ofMeanDeviation mean deviation = .ok d := by
  simp only [decode_eq_ok, required_eq_ok, ofMeanDeviation_eq_ok, ← exists_fieldsOf_iff]
  constructor
  · rintro ⟨fields, read, ⟨m, found, mean⟩, s, found', deviation⟩
    exact ⟨m, s, _, _, ⟨fields, read, found, found'⟩, mean, deviation, rfl, rfl⟩
  · rintro ⟨m, s, _, _, ⟨fields, read, found, found'⟩, mean, deviation, rfl, rfl⟩
    exact ⟨fields, read, ⟨m, found, mean⟩, s, found', deviation⟩

lemma decode_encode_eq_ok : decode (encode d) = .ok d ↔
    decode (encode d.mean) = .ok d.mean ∧ decode (encode d.deviation) = .ok d.deviation := by
  constructor
  · intro back
    obtain ⟨fields, object, mean, deviation⟩ := decode_eq_ok.mp back
    have written : fieldsOf ["mean", "standard_deviation"] (encode d) =
        .ok [("mean", encode d.mean), ("standard_deviation", encode d.deviation)] :=
      fieldsOf_object rfl (by decide)
    rw [written] at object
    cases object
    exact ⟨mean, deviation⟩
  · rintro ⟨mean, deviation⟩
    exact decode_eq_ok.mpr ⟨_, fieldsOf_object rfl (by decide), required_eq_ok.mpr ⟨_, rfl, mean⟩,
      required_eq_ok.mpr ⟨_, rfl, deviation⟩⟩

instance [Writable α] : Writable (Distribution α) :=
  ⟨fun d => writable d.mean ∧ writable d.deviation⟩

theorem returns [Writable α] (h : Returns α) : Returns (Distribution α) where
  roundTrip d finite := by
    obtain ⟨mean, deviation⟩ := finite
    exact decode_encode_eq_ok.mpr ⟨h.roundTrip _ mean, h.roundTrip _ deviation⟩
  settled v d carried read := by
    obtain ⟨fields, object, mean, deviation⟩ := decode_eq_ok.mp read
    have inside := carried_of_fieldsOf carried object
    obtain ⟨m, found, mean⟩ := required_eq_ok.mp mean
    obtain ⟨s, found', deviation⟩ := required_eq_ok.mp deviation
    exact decode_encode_eq_ok.mpr ⟨h.settled m _ (inside _ (mem_of_lookup found)) mean,
      h.settled s _ (inside _ (mem_of_lookup found')) deviation⟩

end Distribution

/-! ### 32-bit numbers -/

lemma decode_encode_single_iff {x : Stored Float32} : decode (encode x) = .ok x ↔ writable x := by
  refine ⟨fun back => ?_, decode_encode⟩
  cases x with
  | nan => cases back
  | number x =>
    by_contra infinite
    have written : encode (Stored.number x) = Value.null := by
      show (if (Number.widen x).isFinite then Value.single x else .null) = .null
      rw [if_neg fun finite => infinite (Number.isFinite_widen_iff.mp finite)]
    rw [written] at back
    cases back

/-- **A distribution of 32-bit numbers comes back exactly when both are finite.** -/
theorem Distribution.decode_encode_iff {d : Distribution (Stored Float32)} :
    decode (encode d) = .ok d ↔ writable d := by
  rw [decode_encode_eq_ok, decode_encode_single_iff, decode_encode_single_iff]
  exact Iff.rfl

end Autotune
