import Autotune.Proofs.Point.Key

/-!
# When two points are of one configuration

A configuration is identified in three ways: by its name, by its hash, and by comparing the knobs of
two points as numbers.  As long as no knob is NaN (`OperatingPoint.HasNumbers`), name and comparison
say the same, and the hash is that of the numbers with both zeros as the positive one.  A name tells
its numbers because each number has a text of its own, and none with a comma in it (`key_eq_iff`).

* `OperatingPoint.id_eq_iff`: points have one name when they compare equal;
* `OperatingPoint.hash_eq`: the hash is read off the numbers that the name is made of;
* `OperatingPoint.forall₂_of_id_eq`: what one name says where there may be NaN.
-/

namespace Autotune

open Float.Model

namespace Number

lemma not_isNaN_of_beq {x y : Float} (h : (x == y) = true) :
    x.isNaN = false ∧ y.isNaN = false := by
  replace h : x.toModel.unpack.beq y.toModel.unpack = true := h
  show x.toModel.unpack.isNaN = false ∧ y.toModel.unpack.isNaN = false
  generalize x.toModel.unpack = u at *
  generalize y.toModel.unpack = v at *
  cases u <;> cases v <;> first | exact ⟨rfl, rfl⟩ | cases h

end Number

open Number

/-- A stored number is identified by its bits, unless it is a NaN with a payload of its own. -/
lemma Stored.toBits_eq {α : Type} [Measure α]
    (plain : ∀ x : α, Measure.toBits x = (Measure.toFloat x).toBits) {value : Stored α}
    (number : (Measure.toFloat value).isNaN = false) :
    Measure.toBits value = (Measure.toFloat value).toBits := by
  cases value with
  | number x => exact plain x
  | nan bits =>
    have nan : (0 / 0 : Float).isNaN = true := by decide +kernel
    exact absurd (nan.symm.trans number) (by decide)

lemma Field.bits_eq {field : Field} (number : field.average.isNaN = false) :
    field.bits = field.average.toBits := by
  cases field with
  | integer | spreadInt => rfl
  | double | spread => exact Stored.toBits_eq (fun _ => rfl) number
  | single | spread32 => exact Stored.toBits_eq (fun _ => rfl) number

/-- What a field adds to a hash are the bits of its average, with both zeros as the positive one. -/
lemma Field.normalBits_eq {field : Field} (number : field.average.isNaN = false) :
    field.normalBits = (unsignedZero field.average).toBits := by
  unfold normalBits unsignedZero
  split
  · rfl
  · exact bits_eq number

lemma length_averages {n : Nat} (row : Vector Field n) : (averages row).length = n := by
  rw [averages, List.length_map, Vector.length_toList]

lemma sameAverages_iff {n : Nat} {a b : Vector Field n} :
    sameAverages a b = true ↔
      List.Forall₂ (fun x y => (x == y) = true) (averages a) (averages b) := by
  rw [List.forall₂_iff_zip, length_averages, length_averages, sameAverages, List.all_eq_true]
  exact ⟨fun same => ⟨rfl, fun {x y} h => same (x, y) h⟩, fun same _ h => same.2 h⟩

namespace OperatingPoint

variable {kn mn : Nat} {p q : OperatingPoint kn mn}

/-- No knob is NaN. -/
def HasNumbers (p : OperatingPoint kn mn) : Prop := ∀ x ∈ averages p.knobs, x.isNaN = false

instance : Decidable p.HasNumbers := inferInstanceAs (Decidable (∀ x ∈ averages p.knobs, _))

lemma length_knobs (p q : OperatingPoint kn mn) :
    (averages p.knobs).length = (averages q.knobs).length := by
  rw [length_averages, length_averages]

/-- **Points have one name when they compare equal.** -/
theorem id_eq_iff (numbers : q.HasNumbers) : p.id = q.id ↔ p.sameConfiguration q = true :=
  (key_eq_iff_forall₂ (length_knobs p q) numbers).trans sameAverages_iff.symm

lemma hasNumbers_of_sameConfiguration (same : p.sameConfiguration q = true) :
    p.HasNumbers ∧ q.HasNumbers := by
  have equal := sameAverages_iff.mp same
  have left := equal.imp fun _ _ xy => And.intro (not_isNaN_of_beq xy).1 xy
  have right := equal.flip.imp fun _ _ xy => And.intro (not_isNaN_of_beq xy).2 xy
  exact ⟨((List.forall₂_and_left _ _).mp left).1, ((List.forall₂_and_left _ _).mp right).1⟩

/-- **The hash is read off the numbers that the name is made of.** -/
theorem hash_eq (numbers : p.HasNumbers) :
    p.hash = (((averages p.knobs).map unsignedZero).map Float.toBits).foldl mixBytes
      0xcbf29ce484222325 := by
  have bits : p.knobs.toList.map Field.normalBits =
      ((averages p.knobs).map unsignedZero).map Float.toBits := by
    rw [averages, List.map_map, List.map_map]
    exact List.map_congr_left fun field known =>
      field.normalBits_eq (numbers _ (List.mem_map_of_mem known))
  rw [hash, ← bits, List.foldl_map]

lemma id_and_hash_of_sameConfiguration (same : p.sameConfiguration q = true) :
    p.id = q.id ∧ p.hash = q.hash := by
  obtain ⟨hp, hq⟩ := hasNumbers_of_sameConfiguration same
  have name : p.id = q.id := (id_eq_iff hq).mpr same
  refine ⟨name, ?_⟩
  rw [hash_eq hp, hash_eq hq, (key_eq_iff (length_knobs p q)).mp name]

/-- **Points of one name have equal numbers**, and NaN where the other one has NaN. -/
theorem forall₂_of_id_eq (same : p.id = q.id) :
    List.Forall₂ (fun x y => (x == y) = true ∨ x.isNaN = true ∧ y.isNaN = true)
      (averages p.knobs) (averages q.knobs) := by
  have equal := (key_eq_iff (length_knobs p q)).mp same
  rw [← List.forall₂_eq_eq_eq, List.forall₂_map_left_iff, List.forall₂_map_right_iff] at equal
  refine equal.imp fun x y xy => ?_
  cases hy : y.isNaN with
  | false => exact .inl ((unsignedZero_eq_iff hy).mp xy)
  | true =>
    refine .inr ⟨?_, rfl⟩
    rw [← isNaN_unsignedZero, xy, isNaN_unsignedZero, hy]

end OperatingPoint

end Autotune
