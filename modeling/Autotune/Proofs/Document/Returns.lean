import Autotune.Proofs.Document.Distribution

/-!
# Every written form returns

`written_forms_return` puts the forms together: those of all choices, of blueprints and their parts,
of settings, of reports and of distributions.  It is about every document that is read, in whatever
notation its records and choices stand, and so about every text.  The only forms that do not return
are distributions of 32-bit numbers that were read out of their range (`exists_unsettled_form`).
-/

namespace Autotune

open Document

/-- **What is written reads back, and what was read once stays.**  Every finite value comes back, and
so does every value that was read from a document or a text, with the defaults that were filled in.
A distribution of 32-bit numbers comes back exactly when both are finite.  A distribution is
accepted exactly when it has both numbers, as the items of a list or as fields that stand once each
in an object, and they make one. -/
theorem written_forms_return :
    (Returns Segment ∧ Returns Bound ∧ Returns Composer ∧ Returns Objective ∧
      Returns Comparison ∧ Returns Status ∧ Returns CorrectionMode ∧
      Returns FeatureComparison ∧ Returns FeatureDistance) ∧
    (Returns FieldRef ∧ Returns TermPlan ∧ Returns ConstraintPlan ∧ Returns StatePlan ∧
      Returns AdaptorPlan ∧ Returns Blueprint) ∧
    (Returns Selector ∧ Returns Term ∧ Returns Formula ∧ Returns Rank ∧ Returns Goal ∧
      Returns Degradation ∧ Returns Counters) ∧
    Returns (Distribution (Stored Float)) ∧
    (∀ d : Distribution (Stored Float32), decode (encode d) = .ok d ↔ writable d) ∧
    (∀ (α : Type) [Measure α] [Coded α] [Writable α], Returns α → Returns (Distribution α)) ∧
    (∀ (α : Type) [Coded α] [Writable α] (text : String) (a : α), Returns α →
      ofText text = .ok a → decode (encode a) = .ok a) ∧
    (∀ (α : Type) [Measure α] [Coded α] (v : Value) (d : Distribution α), decode v = .ok d ↔
      ∃ m s mean deviation, (v = .list [m, s] ∨ v.Has "mean" m ∧ v.Has "standard_deviation" s) ∧
        decode m = .ok mean ∧ decode s = .ok deviation ∧
        Distribution.ofMeanDeviation mean deviation = .ok d) ∧
    ∀ m : Value, ((∃ x : Stored Float, decode m = .ok x) ↔ m.isNumber = true) ∧
      ((∃ x : Stored Float32, decode m = .ok x) ↔ m.isNumber = true) := by
  refine ⟨⟨returns, returns, returns, returns, returns, returns, returns, returns, returns⟩,
    ⟨returns, returns, returns, returns, returns, returns⟩,
    ⟨returns, returns, returns, returns, returns, returns, returns⟩,
    Distribution.returns returns, fun d => Distribution.decode_encode_iff, ?_, ?_, ?_, ?_⟩
  · intro α _ _ _ numbers
    exact Distribution.returns numbers
  · intro α _ _ text a forms read
    exact forms.settled_ofText read
  · intro α _ _ v d
    exact Distribution.decode_iff
  · intro m
    exact ⟨exists_decode_double, exists_decode_single⟩

/-- A block of one state, with a term, a constraint and an adaptor. -/
def sampleBlueprint : Blueprint where
  name := "sample"
  knobs := ["threads"]
  metrics := ["latency"]
  states := [⟨"fast", .minimize, .linear, [⟨⟨.metrics, "latency"⟩, .upper, 2, 1⟩],
    [⟨⟨.knobs, "threads"⟩, .lessOrEqual, 8, 0, 1, 0⟩]⟩]
  activeState := some "fast"
  adaptors := [⟨"latency", 1, .additive, 4⟩]

/-- The same block without what has a default. -/
def sampleDocument : Value :=
  .object [("name", .text "sample"), ("knobs", .list [.text "threads"]), ("metrics", .list [])]

/-- A text with the fields of such a block in order. -/
def sampleText : String := "[\"sample\", [\"threads\"], [\"latency\"]]"

theorem written_forms_return_sample :
    decode (encode sampleBlueprint) = .ok sampleBlueprint ∧
    (∃ d : Blueprint, decode sampleDocument = .ok d ∧ decode (encode d) = .ok d) ∧
    (∃ d : Blueprint, ofText sampleText = .ok d ∧ decode (encode d) = .ok d) ∧
    Returns (Distribution Float) ∧
    ∃ d : Distribution (Stored Float), decode (.list [.integer 3, .number 0.5]) = .ok d := by
  obtain ⟨-, ⟨-, -, -, -, -, blueprints⟩, -, -, -, distributions, texts, accepted, -⟩ :=
    written_forms_return
  have two : writable (2 : Float) := by
    show (2 : Float).isFinite = true
    decide +kernel
  have eight : writable (8 : Float) := by
    show (8 : Float).isFinite = true
    decide +kernel
  have finite : writable sampleBlueprint := by
    refine ⟨trivial, fun _ _ => trivial, fun _ _ => trivial, ?_, fun _ _ => trivial, ?_⟩
    · refine List.forall_mem_singleton.mpr ⟨trivial, trivial, trivial, ?_, ?_⟩
      · exact List.forall_mem_singleton.mpr ⟨⟨trivial, trivial⟩, trivial, two, writable_one⟩
      · exact List.forall_mem_singleton.mpr
          ⟨⟨trivial, trivial⟩, trivial, eight, writable_zero, trivial, trivial⟩
    · refine List.forall_mem_singleton.mpr ⟨trivial, ?_, trivial, ?_⟩
      · show 1 < UInt64.size
        decide
      · show 4 < UInt64.size
        decide
  have carried : sampleDocument.Carried := by
    refine .object ?_
    simp only [List.forall_mem_cons]
    exact ⟨.text _, .list (List.forall_mem_singleton.mpr (.text _)), .list (by simp), by simp⟩
  have read : decode sampleDocument =
      .ok (⟨"sample", ["threads"], [], [], none, []⟩ : Blueprint) := rfl
  obtain ⟨block, spelled, -⟩ : ∃ block : Blueprint, ofText sampleText = .ok block ∧
      (block.metrics == ["latency"]) = true := exists_ok_of_any (by decide +kernel)
  let d : Distribution (Stored Float) :=
    ⟨.number (Float.ofInt 3), .number 0.5, by decide +kernel⟩
  have pair : decode (.list [.integer 3, .number 0.5]) = .ok d :=
    (accepted _ _ d).mpr ⟨_, _, d.mean, d.deviation, .inl rfl, rfl, rfl, dif_pos d.valid⟩
  exact ⟨blueprints.roundTrip _ finite, ⟨_, read, blueprints.settled _ _ carried read⟩,
    ⟨block, spelled, texts _ _ _ blueprints spelled⟩, distributions Float returns, d, pair⟩

/-- A distribution over a mean beyond the range of 32 bits. -/
def overflowingDocument : Value :=
  .object [("mean", .number 1e39), ("standard_deviation", .integer 1)]

/-- A mean beyond the range of 32 bits is accepted as infinite and does not come back. -/
theorem exists_unsettled_form :
    ∃ d : Distribution (Stored Float32), overflowingDocument.Carried ∧
      decode overflowingDocument = .ok d ∧ decode (encode d) ≠ .ok d := by
  let d : Distribution (Stored Float32) :=
    ⟨.number (Number.narrow 1e39), .number (Float32.ofInt 1), by decide +kernel⟩
  have infinite : (Number.narrow 1e39).isFinite = false := by decide +kernel
  refine ⟨d, ?_, Distribution.decode_eq_ok.mpr ⟨_, rfl, rfl, rfl⟩, fun back => ?_⟩
  · refine .object ?_
    simp only [List.forall_mem_cons]
    exact ⟨.number (by decide +kernel), .integer (by decide +kernel), by simp⟩
  · have finite : (Number.narrow 1e39).isFinite = true :=
      (Distribution.decode_encode_iff.mp back).1
    rw [infinite] at finite
    cases finite

end Autotune
