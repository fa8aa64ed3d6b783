import Autotune.Proofs.Block.Uncorrected
import Autotune.Proofs.Number.Finite
import Autotune.Proofs.Number.Zero

/-!
# Reading an average beside its spread

All bounds are read as `average + k * deviation`, the average with `k = 0`.  A field is built with a
deviation that is neither negative nor NaN (`Field.isDeviation_deviation`), but it may be infinite,
and no multiple of infinity by zero is a number.

* `Reading.isNaN_bound`: a bound of a finite average is NaN exactly when the deviation is infinite
  and `k` is zero;
* `Selector.level_readCorrected`: where the deviations of two points are not infinite, a selector
  with `k = 0` reads equal numbers from equal averages, and the same number if no deviation or both
  are the negative zero (`Selector.readCorrected_eq_of_sameSign`);
* `Constraint.alike_of_sameAverage`, `Formula.alike_of_sameAverage`: so the spread of such points
  does not decide about constraints of no confidence and about formulas of averages.
-/

namespace Autotune

open Number (level)

variable {kn mn : Nat} {p q : OperatingPoint kn mn} {r r' : Reading} {c : Corrections} {k x : Float}

namespace Number

open Float.Model.UnpackedFloat

variable {d d' : Float}

lemma eq_negZero_iff : x = -0.0 ↔ x.toModel.unpack = .zero .negative := by
  constructor
  · rintro rfl
    rfl
  · intro zero
    rw [← pack_unpack x, zero]
    rfl

/-- The only deviation with a sign is the negative zero. -/
lemma sign?_of_isDeviation (valid : isDeviation d = true) :
    sign? d.toModel.unpack = if d = -0.0 then some .negative else some .positive := by
  obtain ⟨nonneg, number⟩ := isDeviation_iff.mp valid
  have number : d.toModel.unpack.isNaN = false := number
  have above : ¬ d.toModel.unpack.compare (.zero .positive) = some .lt := fun less =>
    nonneg (lt_iff_compare.mpr less)
  by_cases zero : d = -0.0
  · rw [if_pos zero, eq_negZero_iff.mp zero]
    rfl
  · rw [if_neg zero]
    have other : d.toModel.unpack ≠ .zero .negative := mt eq_negZero_iff.mpr zero
    generalize d.toModel.unpack = u at number above other
    cases u with
    | notANumber => cases number
    | zero s =>
      cases s with
      | negative => exact absurd rfl other
      | positive => rfl
    | infinity s | finite s =>
      cases s with
      | negative => exact absurd rfl above
      | positive => rfl

lemma sign?_eq_of_isDeviation (valid : isDeviation d = true) (valid' : isDeviation d' = true)
    (same : d = -0.0 ↔ d' = -0.0) : sign? d.toModel.unpack = sign? d'.toModel.unpack := by
  rw [sign?_of_isDeviation valid, sign?_of_isDeviation valid']
  exact if_congr same rfl rfl

end Number

/-! ### What fields say -/

/-- **No field has a negative deviation, or NaN for one.** -/
theorem Field.isDeviation_deviation (field : Field) :
    isDeviation field.reading.deviation = true := by
  have none : isDeviation 0 = true := by decide +kernel
  cases field with
  | spread d | spread32 d | spreadInt d => exact d.valid
  | integer | double | single => exact none

lemma fieldAt_eq_ok {n : Nat} {segment : Segment} {row : Vector Field n} {index : Nat} :
    fieldAt segment row index = .ok r ↔ ∃ field, row[index]? = some field ∧ field.reading = r := by
  unfold fieldAt
  cases row[index]? with
  | none => simp
  | some field => simp

namespace OperatingPoint

lemma isDeviation_of_field {segment : Segment} {index : Nat}
    (known : p.field segment index = .ok r) : isDeviation r.deviation = true := by
  have reads : ∃ field : Field, field.reading = r := by
    cases segment with
    | knobs | metrics =>
      obtain ⟨field, -, reads⟩ := fieldAt_eq_ok.mp known
      exact ⟨field, reads⟩
  obtain ⟨field, rfl⟩ := reads
  exact field.isDeviation_deviation

lemma field_or_missing (p q : OperatingPoint kn mn) (segment : Segment) (index : Nat) :
    (∃ r r', p.field segment index = .ok r ∧ q.field segment index = .ok r') ∨
      ∃ fault, p.field segment index = .error fault ∧ q.field segment index = .error fault := by
  have row {n : Nat} (a b : Vector Field n) :
      (∃ r r', fieldAt segment a index = .ok r ∧ fieldAt segment b index = .ok r') ∨
        ∃ fault, fieldAt segment a index = .error fault ∧
          fieldAt segment b index = .error fault := by
    by_cases inside : index < n
    · obtain ⟨r, known⟩ := State.fieldAt_of_lt inside
      obtain ⟨r', known'⟩ := State.fieldAt_of_lt inside
      exact .inl ⟨r, r', known, known'⟩
    · have missing (row : Vector Field n) :
          fieldAt segment row index = .error (.indexOutOfRange segment index n) := by
        rw [fieldAt, Vector.getElem?_eq_none (Nat.le_of_not_lt inside)]
      exact .inr ⟨_, missing a, missing b⟩
  cases segment with
  | knobs => exact row p.knobs q.knobs
  | metrics => exact row p.metrics q.metrics

end OperatingPoint

/-! ### Bounds -/

namespace Reading

/-- **A bound of a finite average is NaN exactly when no multiple of an infinite deviation is
added.** -/
theorem isNaN_bound (average : r.average.isFinite = true) (valid : isDeviation r.deviation = true)
    (finite : k.isFinite = true) :
    (r.bound k).isNaN = true ↔ r.deviation.isInf = true ∧ (k == 0) = true := by
  rw [bound, Number.isNaN_add average, Number.isNaN_mul_iff (Number.isNaN_of_isFinite finite)
    (isDeviation_iff.mp valid).2, Number.Clash, Number.isInf_of_isFinite finite]
  simp [and_comm]

lemma level_add_mul (valid : isDeviation r.deviation = true) (limited : r.deviation.isInf = false)
    (zero : (k == 0) = true) : level (x + k * r.deviation) = level x := by
  have finite := Number.isFinite_of_isInf (isDeviation_iff.mp valid).2 limited
  exact Number.level_add_of_zero (Number.mul_of_zero zero finite)

end Reading

/-! ### Selectors -/

namespace Selector

variable {s : Selector}

/-- The selector finds equal averages in two points, with deviations that are not infinite, if it
finds anything. -/
def SameAverage (s : Selector) (p q : OperatingPoint kn mn) : Prop :=
  ∀ r r', p.field s.segment s.index = .ok r → q.field s.segment s.index = .ok r' →
    r.average = r'.average ∧ r.deviation.isInf = false ∧ r'.deviation.isInf = false

/-- The selector finds the negative zero for a deviation in both points or in neither. -/
def SameSign (s : Selector) (p q : OperatingPoint kn mn) : Prop :=
  ∀ r r', p.field s.segment s.index = .ok r → q.field s.segment s.index = .ok r' →
    (r.deviation = -0.0 ↔ r'.deviation = -0.0)

/-- The average that a selector starts from. -/
def centre (s : Selector) (c : Corrections) (average : Float) : Float :=
  match s.segment with
  | .knobs => average
  | .metrics => c.correct s.index average

lemma k_of_average (average : s.bound = .average) : (s.k == 0) = true := by
  have zero : ((0 : Float) == 0) = true := by decide +kernel
  rw [k, average]
  exact zero

lemma isFinite_k (counted : s.bound = .average ∨ s.sigma.isFinite = true) :
    s.k.isFinite = true := by
  rw [k]
  split
  case h_1 lower => exact Number.isFinite_neg (counted.resolve_left (by rw [lower]; nofun))
  case h_2 => rfl
  case h_3 upper => exact counted.resolve_left (by rw [upper]; nofun)

lemma read_eq (known : p.field s.segment s.index = .ok r) : s.read p = r.bound s.k := by
  rw [read, known]

lemma readCorrected_eq (known : p.field s.segment s.index = .ok r) (c : Corrections) :
    s.readCorrected p c = s.centre c r.average + s.k * r.deviation := by
  cases segment : s.segment with
  | knobs => simp only [readCorrected, centre, segment, read_eq known, Reading.bound]
  | metrics =>
    rw [segment] at known
    simp only [readCorrected, centre, segment, known]

lemma readCorrected_of_error {fault : Fault} (missing : p.field s.segment s.index = .error fault)
    (c : Corrections) : s.readCorrected p c = 0 / 0 := by
  cases segment : s.segment with
  | knobs | metrics =>
    rw [segment] at missing
    simp only [readCorrected, read, segment, missing]

/-- **Equal averages are read as equal numbers.** -/
theorem level_readCorrected (zero : (s.k == 0) = true) (same : s.SameAverage p q)
    (c : Corrections) : level (s.readCorrected p c) = level (s.readCorrected q c) := by
  obtain ⟨r, r', known, known'⟩ | ⟨fault, missing, missing'⟩ :=
    p.field_or_missing q s.segment s.index
  · obtain ⟨average, limited, limited'⟩ := same r r' known known'
    rw [readCorrected_eq known, readCorrected_eq known', average,
      Reading.level_add_mul (OperatingPoint.isDeviation_of_field known) limited zero,
      Reading.level_add_mul (OperatingPoint.isDeviation_of_field known') limited' zero]
  · rw [readCorrected_of_error missing, readCorrected_of_error missing']

/-- Equal averages beside deviations of one sign are read as the same number. -/
theorem readCorrected_eq_of_sameSign (zero : (s.k == 0) = true) (same : s.SameAverage p q)
    (sign : s.SameSign p q) (c : Corrections) : s.readCorrected p c = s.readCorrected q c := by
  obtain ⟨r, r', known, known'⟩ | ⟨fault, missing, missing'⟩ :=
    p.field_or_missing q s.segment s.index
  · obtain ⟨average, limited, limited'⟩ := same r r' known known'
    have valid := OperatingPoint.isDeviation_of_field known
    have valid' := OperatingPoint.isDeviation_of_field known'
    have nothing : s.k * r.deviation = s.k * r'.deviation :=
      Number.mul_eq_of_zero zero
        (Number.isFinite_of_isInf (isDeviation_iff.mp valid).2 limited)
        (Number.isFinite_of_isInf (isDeviation_iff.mp valid').2 limited')
        (Number.sign?_eq_of_isDeviation valid valid' (sign r r' known known'))
    rw [readCorrected_eq known, readCorrected_eq known', average, nothing]
  · rw [readCorrected_of_error missing, readCorrected_of_error missing']

end Selector

/-! ### Constraints and formulas -/

namespace Goal

variable {g : Goal} {a b : Float}

lemma isMet_of_level (h : level a = level b) : g.isMet a = g.isMet b := by
  obtain ⟨comparison, target⟩ := g
  cases comparison with
  | greater => exact decide_eq_decide.mpr (Number.lt_of_level rfl h)
  | greaterOrEqual => exact decide_eq_decide.mpr (Number.le_of_level rfl h)
  | less => exact decide_eq_decide.mpr (Number.lt_of_level h rfl)
  | lessOrEqual => exact decide_eq_decide.mpr (Number.le_of_level h rfl)

lemma relativeError_of_level (h : level a = level b) : g.relativeError a = g.relativeError b := by
  unfold relativeError
  rw [isMet_of_level h, Number.add_one_of_level h]
  cases zero : g.target == 0 with
  | true => rw [if_pos rfl, if_pos rfl]
  | false =>
    rw [if_neg Bool.false_ne_true, if_neg Bool.false_ne_true,
      Number.abs_of_level (Number.level_sub (Number.level_div_of_ne h zero) rfl)]

end Goal

/-- **The spread does not decide about a constraint of no confidence.** -/
theorem Constraint.alike_of_sameAverage {limit : Constraint} (zero : (limit.selector.k == 0) = true)
    (same : limit.selector.SameAverage p q) (c : Corrections) :
    limit.admits p c = limit.admits q c ∧ limit.violation p c = limit.violation q c :=
  have equal : level (limit.value p c) = level (limit.value q c) :=
    Selector.level_readCorrected zero same c
  ⟨Goal.isMet_of_level equal, Goal.relativeError_of_level equal⟩

namespace Formula

variable {f : Formula}

/-- **The spread does not decide about a formula of averages.** -/
theorem alike_of_sameAverage
    (averages : ∀ t ∈ f.terms, t.selector.bound = .average)
    (same : ∀ t ∈ f.terms, t.selector.SameAverage p q ∧ t.selector.SameSign p q)
    (c : Corrections) :
    f.valueCorrected p c = f.valueCorrected q c ∧ f.isDefined p c = f.isDefined q c := by
  have reads : ∀ t ∈ f.terms, t.selector.readCorrected p c = t.selector.readCorrected q c := by
    intro t ht
    obtain ⟨average, sign⟩ := same t ht
    exact Selector.readCorrected_eq_of_sameSign (Selector.k_of_average (averages t ht)) average
      sign c
  exact ⟨valueCorrected_congr reads, isDefined_congr reads⟩

end Formula

/-! ### What is read -/

namespace OperatingPoint

/-- **An average is read as it is, unless its spread is infinite.**  A selector without a correction
reads what was predicted.  With a finite number of deviations it reads NaN beside a finite average
exactly when the deviation is infinite and none of it is to be added, and an average beside any
other deviation is read as an equal number.  So between points of equal averages whose deviations
are not infinite, the spread decides neither about a constraint of no confidence, whether it admits
them and by how much they violate it, nor about a formula of averages.  Where all averages are the
negative zero, a sum shows whether a deviation is the negative zero as well; so the latter is for
points that have this in common. -/
theorem read_beside_spread (p q : OperatingPoint kn mn) (c : Corrections) :
    (∀ (s : Selector) (r : Reading), p.field s.segment s.index = .ok r →
      r.average.isFinite = true → (s.segment = .metrics → c.get? s.index = none) →
        s.readCorrected p c = s.read p ∧
        (s.bound = .average ∨ s.sigma.isFinite = true →
          ((s.read p).isNaN = true ↔ r.deviation.isInf = true ∧ (s.k == 0) = true)) ∧
        (s.bound = .average → r.deviation.isInf = false → (s.read p == r.average) = true)) ∧
    (∀ limit : Constraint, (limit.selector.k == 0) = true → limit.selector.SameAverage p q →
      limit.admits p c = limit.admits q c ∧ limit.violation p c = limit.violation q c) ∧
    ∀ f : Formula, (∀ t ∈ f.terms, t.selector.bound = .average) →
      (∀ t ∈ f.terms, t.selector.SameAverage p q ∧ t.selector.SameSign p q) →
        f.valueCorrected p c = f.valueCorrected q c ∧ f.isDefined p c = f.isDefined q c := by
  refine ⟨fun s r known finite uncorrected => ?_,
    fun limit zero same => Constraint.alike_of_sameAverage zero same c,
    fun f averages same => Formula.alike_of_sameAverage averages same c⟩
  have valid := isDeviation_of_field known
  refine ⟨Selector.readCorrected_eq_read uncorrected p, fun counted => ?_,
    fun average limited => ?_⟩
  · rw [Selector.read_eq known]
    exact Reading.isNaN_bound finite valid (Selector.isFinite_k counted)
  · rw [Selector.read_eq known]
    exact Number.beq_of_level
      (Reading.level_add_mul valid limited (Selector.k_of_average average))
      (Number.isNaN_of_isFinite finite)

/-- A point with a knob of zero and the given metric. -/
def withMetric (metric : Field) : OperatingPoint 1 1 := ⟨#v[.double (.number 0)], #v[metric]⟩

/-- Two points with the average two, of which one has a spread. -/
theorem read_beside_spread_sample :
    let s : Selector := .averageOf .metrics 0
    let p := withMetric (.spread ⟨.number 2, .number 3, by decide +kernel⟩)
    let q := withMetric (.double (.number 2))
    let limit := Constraint.on s ⟨.less, 10⟩ 0 0 0
    (s.read p == 2) = true ∧ limit.admits p .none = limit.admits q .none ∧
      (Formula.mk .linear [⟨s, 3⟩]).valueCorrected p .none =
        (Formula.mk .linear [⟨s, 3⟩]).valueCorrected q .none := by
  intro s p q limit
  have same : s.SameAverage p q := by
    rintro r r' ⟨⟩ ⟨⟩
    exact ⟨rfl, by decide +kernel, by decide +kernel⟩
  have sign : s.SameSign p q := by
    rintro r r' ⟨⟩ ⟨⟩
    decide +kernel
  obtain ⟨reads, limits, formulas⟩ := read_beside_spread p q .none
  obtain ⟨-, -, read⟩ := reads s ⟨2, 3⟩ rfl (by decide +kernel) fun _ => rfl
  refine ⟨read rfl (by decide +kernel), (limits limit (by decide +kernel) same).1, ?_⟩
  refine (formulas ⟨.linear, [⟨s, 3⟩]⟩ ?_ ?_).1
  · exact List.forall_mem_singleton.mpr rfl
  · exact List.forall_mem_singleton.mpr ⟨same, sign⟩

/-- The average one with an infinite deviation. -/
def boundless : Distribution (Stored Float) := ⟨.number 1, .number (1 / 0), by decide +kernel⟩

/-- **There are averages that are not read**: an infinite deviation is accepted, and beside it the
average one is read as NaN, in both ways and as a bound of no deviations too, so a constraint of no
confidence, which admits the plain number one, refuses it.  The sign of a zero deviation beside the
average zero shows as well: it decides between ranks that are equal numbers. -/
theorem exists_unread_average :
    Distribution.ofMeanDeviation boundless.mean boundless.deviation = .ok boundless ∧
      let s : Selector := .averageOf .metrics 0
      let p := withMetric (.spread boundless)
      let limit := Constraint.on s ⟨.less, 10⟩ 0 0 0
      (Measure.toFloat boundless.mean).isFinite = true ∧
        (s.read p).isNaN = true ∧ (s.readCorrected p .none).isNaN = true ∧
        ((s.lower 0).read p).isNaN = true ∧ ((s.upper 0).read p).isNaN = true ∧
        limit.admits (withMetric (.double (.number 1))) .none = true ∧
        limit.admits p .none = false ∧
        Objective.minimize.compareValues
          (s.read (withMetric (.spread ⟨.number (-0.0), .number (-0.0), by decide +kernel⟩)))
          (s.read (withMetric (.spread ⟨.number (-0.0), .number 0, by decide +kernel⟩))) = .lt :=
  ⟨dif_pos boundless.valid, by decide +kernel⟩

end OperatingPoint

end Autotune
