import Autotune.Proofs.Feedback.Window
import Autotune.Proofs.Number.Mean

/-!
# Observations at the prediction

An observation within one deviation of the prediction teaches an adaptor nothing.  But what is compared
is the mean of all that the monitor holds, and the mean of copies of the prediction may be rounded out
of a narrow band.

* `Number.within_band`: the band is what it says, although its bounds are rounded;
* `Undisturbed.take`: one input after the other, an adaptor that observes nothing but the prediction
  keeps its neutral window;
* `neutral_of_observed`: for which predictions, deviations and capacities this holds.
-/

namespace Autotune

open Number (value HasMultiples)
open Float.Model (UnpackedFloat)
open Float.Model.UnpackedFloat (pack unpack)

namespace Number

variable {x mean deviation observed : Float}

lemma value_of_beq (finite : mean.isFinite = true) (same : (x == mean) = true) :
    x.isFinite = true ∧ value x = value mean := by
  have number : x.isNaN = false := by
    cases nan : x.isNaN with
    | false => rfl
    | true =>
      rw [beq_of_isNaN nan] at same
      cases same
  obtain ⟨s, m, sized, place⟩ := sized_level number
  obtain ⟨t, n, sized', place'⟩ := sized_level (isNaN_of_isFinite finite)
  have levels : level x = level mean := by
    rw [place, place']
    exact (beq_iff sized sized').mp same
  have finite' : x.isFinite = true := by
    rw [isFinite_iff_level number, levels]
    exact (isFinite_iff_level (isNaN_of_isFinite finite)).mp finite
  exact ⟨finite', by rw [value_eq_point finite', value_eq_point finite, levels]⟩

lemma infinite_of_isDeviation (valid : isDeviation deviation = true)
    (infinite : deviation.isFinite = false) : deviation.toModel.unpack = .infinity .positive := by
  have nonneg := isDeviation_iff.mp valid
  have number : deviation.toModel.unpack.isNaN = false := nonneg.2
  have infinite' : deviation.toModel.unpack.isFinite = false := infinite
  have sign : ¬ deviation.toModel.unpack.compare (.zero .positive) = some .lt :=
    mt (lt_iff_compare (b := 0)).mpr nonneg.1
  generalize deviation.toModel.unpack = u at number infinite' sign
  cases u with
  | notANumber => cases number
  | zero | finite => cases infinite'
  | infinity s =>
    cases s with
    | negative => exact absurd rfl sign
    | positive => rfl

lemma value_nonneg_of_isDeviation (valid : isDeviation deviation = true)
    (finite : deviation.isFinite = true) : 0 ≤ value deviation := by
  have nonneg := isDeviation_iff.mp valid
  have origin : level 0 = 0 := by decide
  rw [lt_iff_level nonneg.2 rfl, origin, not_lt] at nonneg
  rw [value_eq_point finite, ← point_zero]
  exact point_le_iff.mpr nonneg.1

/-- **What is at most one deviation off is in the band around the mean**, although the bounds of the
band are rounded. -/
theorem within_band (finite : mean.isFinite = true) (valid : isDeviation deviation = true)
    (finite' : observed.isFinite = true)
    (close : deviation.isFinite = true → |value observed - value mean| ≤ value deviation) :
    mean - deviation ≤ observed ∧ observed ≤ mean + deviation := by
  cases moderate : deviation.isFinite with
  | true =>
    obtain ⟨above, below⟩ := abs_le.mp (close moderate)
    exact ⟨(nearest_sub finite moderate).le_of_le observed finite' (by linarith),
      (nearest_add finite moderate).le_of_ge observed finite' (by linarith)⟩
  | false =>
    have infinite := infinite_of_isDeviation valid moderate
    have number := isNaN_of_isFinite finite'
    have between := (isFinite_iff_level number).mp finite'
    have unpacked : mean.toModel.unpack.isFinite = true := finite
    have low : Sized (mean - deviation).toModel.unpack .negative top := by
      show Sized (unpack .binary64 (pack .binary64
        (UnpackedFloat.sub .binary64 mean.toModel.unpack deviation.toModel.unpack))) _ _
      rw [infinite]
      generalize mean.toModel.unpack = u at unpacked
      cases u with
      | notANumber | infinity => cases unpacked
      | zero | finite => exact sized_pack_infinity .negative
    have high : Sized (mean + deviation).toModel.unpack .positive top := by
      show Sized (unpack .binary64 (pack .binary64
        (UnpackedFloat.add .binary64 mean.toModel.unpack deviation.toModel.unpack))) _ _
      rw [infinite]
      generalize mean.toModel.unpack = u at unpacked
      cases u with
      | notANumber | infinity => cases unpacked
      | zero | finite => exact sized_pack_infinity .positive
    rw [le_iff_level low.isNaN number, le_iff_level number high.isNaN, level_eq_of_sized low,
      level_eq_of_sized high]
    exact ⟨between.1.le, between.2.le⟩

end Number

/-- A call that records nothing but a given number. -/
def Monitor.Call.Records (x : Float) : Call → Prop
  | .push value | .stop value => (value == x) = true
  | .start | .clear => True

/-- What a monitor of a given capacity holds when nothing but a given number was recorded. -/
structure Monitor.Holds (capacity : Nat) (x : Float) (m : Monitor) : Prop where
  sized : m.capacity = capacity
  length : m.samples.length ≤ capacity
  equal : ∀ y ∈ m.samples, (y == x) = true

namespace Monitor.Holds

variable {capacity : Nat} {x : Float} {m : Monitor}

lemma push (h : m.Holds capacity x) (positive : 0 < capacity) {y : Float} (same : (y == x) = true) :
    (m.push y).Holds capacity x := by
  refine ⟨h.sized, ?_, fun z hz => ?_⟩
  · have room := h.length
    have full := h.sized
    rw [Monitor.push, List.length_append, List.length_singleton]
    split
    · rw [List.length_drop]
      omega
    · omega
  · obtain hz | hz := List.mem_append.mp hz
    · split at hz
      · exact h.equal z (List.mem_of_mem_drop hz)
      · exact h.equal z hz
    · rwa [List.mem_singleton.mp hz]

lemma answer (h : m.Holds capacity x) (positive : 0 < capacity) {call : Call}
    (records : call.Records x) : (m.answer call).Holds capacity x := by
  cases call with
  | push y => exact h.push positive records
  | start => exact ⟨h.sized, h.length, h.equal⟩
  | stop y =>
    rw [Monitor.answer, Monitor.stop]
    split
    · have closed : ({ m with started := false } : Monitor).Holds capacity x :=
        ⟨h.sized, h.length, h.equal⟩
      exact closed.push positive records
    · exact h
  | clear => exact ⟨h.sized, Nat.zero_le _, fun y hy => by cases hy⟩

end Monitor.Holds

namespace Adaptor

/-- The mean of as many copies of a number is at most a deviation away from it. -/
def Settled (mean deviation : Float) (copies : Nat) : Prop :=
  (Number.mean (List.replicate copies mean)).isFinite = true ∧
    (deviation.isFinite = true →
      |value (Number.mean (List.replicate copies mean)) - value mean| ≤ value deviation)

/-- An input that compares the monitor with a given prediction, or records nothing else there. -/
def Input.OnTarget (monitor : MonitorId) (predicted : Reading) : Input → Prop
  | .evaluate other => other = predicted
  | .monitor id call => id = monitor → call.Records predicted.average
  | .clear => True
  | .setCoefficient _ => False

/-- An adaptor that learned nothing, and the monitors, of which its own holds nothing but the
prediction. -/
structure Undisturbed (size capacity : Nat) (mode : CorrectionMode) (monitor : MonitorId) (mean : Float)
    (now : Adaptor × Bank) : Prop where
  reads : now.1.monitor = monitor
  kind : now.1.mode = mode
  window : now.1.window = List.replicate size mode.neutral
  holds : ∃ m, now.2.get? monitor = some m ∧ m.Holds capacity mean

variable {size capacity : Nat} {mode : CorrectionMode} {monitor : MonitorId} {predicted : Reading}

lemma sample?_of_holds {m : Monitor} (finite : predicted.average.isFinite = true)
    (valid : isDeviation predicted.deviation = true) (small : capacity < 2 ^ 53)
    (settled : ∀ k, 0 < k → k ≤ capacity → Settled predicted.average predicted.deviation k)
    (holds : m.Holds capacity predicted.average) (some : m.samples ≠ []) :
    sample? mode (Number.mean m.samples) predicted = .some mode.neutral := by
  have positive : 0 < m.samples.length := List.length_pos_iff.mpr some
  have equal (y : Float) (hy : y ∈ m.samples) :
      y.isFinite = true ∧ value y = value predicted.average :=
    Number.value_of_beq finite (holds.equal y hy)
  have near : (Number.mean m.samples).isFinite = true ∧ (predicted.deviation.isFinite = true →
      |value (Number.mean m.samples) - value predicted.average| ≤ value predicted.deviation) := by
    by_cases zero : value predicted.average = 0
    · obtain ⟨finite', same⟩ := Number.mean_of_equal equal finite positive
        (Nat.lt_of_le_of_lt holds.length small) (Number.hasMultiples_of_zero zero _)
      refine ⟨finite', fun moderate => ?_⟩
      rw [same, sub_self, abs_zero]
      exact Number.value_nonneg_of_isDeviation valid moderate
    · have copies : m.samples = List.replicate m.samples.length predicted.average :=
        List.eq_replicate_iff.mpr ⟨rfl, fun y hy =>
          Number.eq_of_value (equal y hy).1 finite (equal y hy).2 zero⟩
      rw [copies]
      exact settled _ positive holds.length
  have band := Number.within_band finite valid near.1 near.2
  unfold sample?
  dsimp only
  rw [if_pos (by simp [band.1, band.2])]

lemma push_replicate {x : Float} (positive : 0 < size) :
    (List.replicate size x).drop 1 ++ [x] = List.replicate size x := by
  rw [List.drop_replicate, ← List.replicate_succ', Nat.sub_add_cancel positive]

/-- **One input after the other, nothing is learned from observations at the prediction.** -/
theorem Undisturbed.take {now : Adaptor × Bank} (block : String) (positive : 0 < size)
    (positive' : 0 < capacity) (finite : predicted.average.isFinite = true)
    (valid : isDeviation predicted.deviation = true) (small : capacity < 2 ^ 53)
    (settled : ∀ k, 0 < k → k ≤ capacity → Settled predicted.average predicted.deviation k)
    (h : Undisturbed size capacity mode monitor predicted.average now) {i : Input}
    (target : i.OnTarget monitor predicted) :
    Undisturbed size capacity mode monitor predicted.average (Adaptor.take block now i) := by
  obtain ⟨m, found, holds⟩ := h.holds
  cases i with
  | evaluate other =>
    obtain rfl : other = predicted := target
    have average : now.2.average? now.1.monitor = m.average? := by
      rw [Bank.average?, h.reads, found, Option.bind_some]
    by_cases some : m.samples = []
    · have quiet : Adaptor.take block now (.evaluate other) = now := by
        rw [Monitor.average?_eq_none_iff.mpr some] at average
        rw [Adaptor.take, evaluate, average]
        rfl
      rwa [quiet]
    · have observed : m.average? = .some (Number.mean m.samples) := by
        rw [Monitor.average?, if_neg (mt List.isEmpty_iff.mp some)]
      have sample : sample? now.1.mode (Number.mean m.samples) other = .some mode.neutral := by
        rw [h.kind]
        exact sample?_of_holds finite valid small settled holds some
      have next : Adaptor.take block now (.evaluate other) = (now.1.push mode.neutral, now.2) := by
        rw [Adaptor.take, evaluate, average, observed]
        dsimp only [Logged.map, observe]
        rw [sample]
        rfl
      rw [next]
      refine ⟨h.reads, h.kind, ?_, h.holds⟩
      rw [push, h.window]
      exact push_replicate positive
  | setCoefficient c => exact target.elim
  | clear =>
    refine ⟨h.reads, h.kind, ?_, h.holds⟩
    rw [Adaptor.take, clear, setCoefficient, h.kind, h.window, List.map_const', List.length_replicate]
  | monitor id call =>
    refine ⟨h.reads, h.kind, h.window, ?_⟩
    rw [Adaptor.take, Bank.get?_modify, found]
    by_cases own : id = monitor
    · exact ⟨_, congrArg some (if_pos own), holds.answer positive' (target own)⟩
    · exact ⟨_, congrArg some (if_neg own), holds⟩

lemma mean_neutral (mode : CorrectionMode) (positive : 0 < size) (small : size < 2 ^ 53) :
    Number.mean (List.replicate size mode.neutral) = mode.neutral := by
  have natural {n : Nat} (bit : n ≤ 1) :
      Number.mean (List.replicate size (Float.ofNat n)) = Float.ofNat n := by
    have room : size * n < 2 ^ 53 := Nat.lt_of_le_of_lt (Nat.mul_le_mul_left size bit) (by omega)
    have finite := (Number.value_ofNat (n := n) (by omega)).1
    exact Number.mean_replicate finite positive small (Number.hasMultiples_ofNat room positive)
  cases mode with
  | multiplicative => exact natural (n := 1) (Nat.le_refl 1)
  | additive => exact natural (n := 0) (Nat.zero_le 1)

/-- The neutral coefficient leaves every number but a zero as it is. -/
lemma apply_neutral (mode : CorrectionMode) {v : Float} (nonzero : (v == 0) = false) :
    mode.apply v mode.neutral = v := by
  cases mode with
  | multiplicative =>
    have one : ((1 : Float) == 0) = false := by decide +kernel
    show (if ((1 : Float) == 0) = true then v else v / 1) = v
    rw [one, if_neg Bool.false_ne_true, Number.div_one_eq]
  | additive => exact Number.add_zero_of_ne nonzero

/-! ### For which predictions -/

lemma settled_of_hasMultiples {mean deviation : Float} {k : Nat} (finite : mean.isFinite = true)
    (valid : isDeviation deviation = true) (positive : 0 < k) (le : k ≤ capacity)
    (small : capacity < 2 ^ 53) (multiples : HasMultiples mean capacity) :
    Settled mean deviation k := by
  rw [Settled, Number.mean_replicate finite positive (Nat.lt_of_le_of_lt le small)
    fun j hj => multiples j (hj.trans le)]
  refine ⟨finite, fun moderate => ?_⟩
  rw [sub_self, abs_zero]
  exact Number.value_nonneg_of_isDeviation valid moderate

lemma settled_of_wide {mean deviation : Float} {k : Nat} (finite : mean.isFinite = true)
    (positive : 0 < k) (le : k ≤ capacity) (small : capacity < 2 ^ 53)
    (moderate : capacity * |value mean| ≤ 2 ^ (1022 : ℤ))
    (wide : deviation.isFinite = true →
      (capacity + 1) / 2 ^ 53 * |value mean| + 2 ^ (-1075 : ℤ) ≤ value deviation) :
    Settled mean deviation k := by
  have le' : (k : ℚ) ≤ capacity := by exact_mod_cast le
  have size : (0 : ℚ) ≤ |value mean| := abs_nonneg _
  obtain ⟨finite', close⟩ := Number.mean_replicate_close finite positive
    (Nat.lt_of_le_of_lt le small) ((mul_le_mul_of_nonneg_right le' size).trans moderate)
  refine ⟨finite', fun limited => close.trans (le_trans ?_ (wide limited))⟩
  refine add_le_add_left (mul_le_mul_of_nonneg_right ?_ size) _
  exact div_le_div_of_nonneg_right (by linarith) (by positivity)

/-- **Observations at the prediction teach nothing**, if the means of copies of the prediction are
within its deviation.  A fresh adaptor then keeps the neutral coefficient, however often it compares,
whatever the other monitors observe, and it changes no number but the sign of a zero.  The means are
within the deviation if no sum of copies is rounded, so for a monitor of one observation, for one of two
unless their sum overflows, and for every prediction whose mantissa is short enough; and if the
deviation is wide enough, half of the distance of two numbers for each observation and once more for
the division, as long as the sum is not too large. -/
theorem neutral_of_observed (block : String) (metric : Nat) (bank : Bank) (capacity inertia : Nat)
    (mode : CorrectionMode) (predicted : Reading) (inputs : List Input)
    (finite : predicted.average.isFinite = true) (valid : isDeviation predicted.deviation = true)
    (small : max capacity 1 < 2 ^ 53) (small' : max inertia 1 < 2 ^ 53)
    (target : ∀ i ∈ inputs, i.OnTarget (bank.allocate capacity).1 predicted) :
    let size := max capacity 1
    let mean := predicted.average
    let now := (History.mk block metric (bank.allocate capacity).1 (bank.allocate capacity).2
      inputs).run inertia mode
    ((∀ k, 0 < k → k ≤ size → Settled mean predicted.deviation k) →
      now.1.coefficient = mode.neutral ∧ ∀ v, (v == 0) = false → now.1.correct v = v) ∧
    ((size = 1 ∨ size = 2 ∧ (mean + mean).isFinite = true ∨ HasMultiples mean size ∨
        size * |value mean| ≤ 2 ^ (1022 : ℤ) ∧ (predicted.deviation.isFinite = true →
          (size + 1) / 2 ^ 53 * |value mean| + 2 ^ (-1075 : ℤ) ≤ value predicted.deviation)) →
      ∀ k, 0 < k → k ≤ size → Settled mean predicted.deviation k) := by
  intro size mean now
  have positive : 0 < size := by omega
  have positive' : 0 < max inertia 1 := by omega
  constructor
  · intro settled
    have kept : Undisturbed (max inertia 1) size mode (bank.allocate capacity).1 mean now := by
      have start : Undisturbed (max inertia 1) size mode (bank.allocate capacity).1 mean
          (fresh metric (bank.allocate capacity).1 inertia mode, (bank.allocate capacity).2) :=
        ⟨rfl, rfl, rfl, _, Bank.get?_allocate bank capacity, rfl, Nat.zero_le _,
          fun y hy => by cases hy⟩
      exact List.foldlRecOn inputs _ start fun before h i hi =>
        h.take block positive' positive finite valid small settled (target i hi)
    have neutral : now.1.coefficient = mode.neutral := by
      rw [coefficient, kept.window]
      exact mean_neutral mode positive' small'
    refine ⟨neutral, fun v nonzero => ?_⟩
    rw [correct, neutral, kept.kind]
    exact apply_neutral mode nonzero
  · intro condition k pos le
    have exact (multiples : HasMultiples mean size) : Settled mean predicted.deviation k :=
      settled_of_hasMultiples finite valid pos le small multiples
    obtain one | ⟨two, twice⟩ | multiples | ⟨moderate, wide⟩ := condition
    · exact exact (one ▸ Number.hasMultiples_one finite)
    · exact exact (two ▸ Number.hasMultiples_two finite twice)
    · exact exact multiples
    · exact settled_of_wide finite pos le small moderate wide

/-- Three observations at the prediction, with a bracket and an observation elsewhere in between. -/
def steady (x : Float) (predicted : Reading) : List Input :=
  [.monitor ⟨1⟩ (.push x), .evaluate predicted, .monitor ⟨0⟩ (.push 9), .monitor ⟨1⟩ .start,
    .monitor ⟨1⟩ (.stop x), .evaluate predicted, .monitor ⟨1⟩ (.push x), .evaluate predicted]

lemma onTarget_steady {x : Float} {predicted : Reading} (same : (x == predicted.average) = true) :
    ∀ i ∈ steady x predicted, i.OnTarget ⟨1⟩ predicted := by
  simp [steady, Input.OnTarget, Monitor.Call.Records, same]

theorem neutral_of_observed_sample :
    let bank : Bank := ⟨[.ofCapacity 2]⟩
    let run (capacity : Nat) (mode : CorrectionMode) (predicted : Reading) :=
      ((History.mk "block" 0 (bank.allocate capacity).1 (bank.allocate capacity).2
        (steady predicted.average predicted)).run 2 mode).1
    (run 3 .multiplicative ⟨4, 0⟩).coefficient = 1 ∧ (run 2 .additive ⟨0.1, 0⟩).correct 7 = 7 := by
  intro bank run
  refine ⟨?_, ?_⟩
  · obtain ⟨settled, condition⟩ := neutral_of_observed "block" 0 bank 3 2 .multiplicative ⟨4, 0⟩
      (steady 4 ⟨4, 0⟩) (by decide) (by decide) (by decide) (by decide)
      (onTarget_steady (by decide +kernel))
    have multiples : HasMultiples 4 3 := Number.hasMultiples_ofNat (by decide) (by decide)
    exact (settled (condition (.inr (.inr (.inl multiples))))).1
  · obtain ⟨settled, condition⟩ := neutral_of_observed "block" 0 bank 2 2 .additive ⟨0.1, 0⟩
      (steady 0.1 ⟨0.1, 0⟩) (by decide +kernel) (by decide) (by decide) (by decide)
      (onTarget_steady (by decide +kernel))
    exact (settled (condition (.inr (.inl ⟨rfl, by decide +kernel⟩)))).2 7 (by decide +kernel)

/-- **Observations at the prediction may teach something.**  The sum of three copies of `0.1` is rounded
up, so their mean is out of a band without width, and the sum of two large copies is infinite. -/
theorem exists_disturbed :
    let bank : Bank := ⟨[.ofCapacity 2]⟩
    let run (capacity : Nat) (mode : CorrectionMode) (predicted : Reading) :=
      ((History.mk "block" 0 (bank.allocate capacity).1 (bank.allocate capacity).2
        (steady predicted.average predicted)).run 1 mode).1
    (run 3 .multiplicative ⟨0.1, 0⟩).coefficient ≠ 1 ∧
    (run 3 .multiplicative ⟨0.1, 0⟩).correct 0.1 ≠ 0.1 ∧
    (run 2 .multiplicative ⟨1e308, 0⟩).coefficient = 0 := by
  decide +kernel

end Adaptor

end Autotune
