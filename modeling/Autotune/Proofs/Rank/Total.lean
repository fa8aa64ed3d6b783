import Autotune.Proofs.Number.Value
import Autotune.Proofs.Rank.Order
import Autotune.Proofs.Roster
import Mathlib.Logic.Basic

/-!
# The order of candidates is total

A candidate is a rank value and a position.  Arithmetic has one NaN, but a stored number may hold it
with any sign and payload, so rank values are given by their bit patterns here: each of the patterns
of 64 bits is one (`Objective.comparePatterns`, `Objective.compareStored`).

* `comparePatterns_eq_eq`: rank values are held equal only when their patterns are the same, or both
  stand for NaN;
* `compareStored_eq_eq`: candidates at different positions are never held equal;
* `least?_of_perm`: so in whichever order they are met, the same one is found to be the least.
-/

namespace Autotune

namespace Number

open Float.Model (Format)
open Float.Model.UnpackedFloat

variable {bits : UInt64}

lemma toBits_ofBits (number : (Float.ofBits bits).isNaN = false) :
    (Float.ofBits bits).toBits = bits := by
  have known : (sign? (unpack .binary64 bits.toBitVec)).isNone = false := by
    rw [isNaN_eq_isNone] at number
    exact (congrArg Option.isNone (sign?_pack _)).symm.trans number
  -- so the pattern is one of those that numbers are made of
  have valid : Format.binary64.Valid bits.toBitVec := by
    refine ⟨fun ones fraction => ?_⟩
    unfold unpack at known
    dsimp only at known
    rw [if_pos ones, if_neg fraction] at known
    cases known
  have made : Float.ofBits bits = .ofModel ⟨bits, valid⟩ := pack_unpack (.ofModel ⟨bits, valid⟩)
  rw [made]
  rfl

end Number

/-! ### The least of a permuted list -/

/-- Where no two elements are held equal, **the least one does not depend on the order in which they
are met**. -/
theorem least?_of_perm {α : Type} {compare : α → α → Ordering} [Std.TransCmp compare]
    {as bs : List α} (apart : ∀ a ∈ as, ∀ b ∈ as, compare a b = .eq → a = b) (perm : bs.Perm as) :
    least? compare bs = least? compare as := by
  cases here : least? compare bs with
  | none =>
    obtain rfl := least?_eq_none.mp here
    obtain rfl := perm.nil_eq
    exact here.symm
  | some m =>
    obtain ⟨hm, below⟩ := least?_eq_some here
    have hm' : m ∈ as := perm.mem_iff.mp hm
    cases there : least? compare as with
    | none =>
      rw [least?_eq_none.mp there] at hm'
      cases hm'
    | some n =>
      obtain ⟨hn, below'⟩ := least?_eq_some there
      have first := below n (perm.mem_iff.mpr hn)
      have second := below' m hm'
      rw [apart m hm' n hn (Std.OrientedCmp.isLE_antisymm first second)]

namespace Objective

variable {o : Objective} {a b c : UInt64}

/-- The order of rank values that are given by their patterns, the better first. -/
def comparePatterns (o : Objective) (a b : UInt64) : Ordering :=
  o.compareValues (.ofBits a) (.ofBits b)

/-- The order of rank values, given by their patterns, with their positions. -/
def compareStored (o : Objective) (a b : UInt64 × Nat) : Ordering :=
  o.compare (.ofBits a.1, a.2) (.ofBits b.1, b.2)

instance (o : Objective) : Std.TransCmp o.comparePatterns := transCmp_on Float.ofBits

instance (o : Objective) : Std.TransCmp o.compareStored :=
  transCmp_on fun a : UInt64 × Nat => (Float.ofBits a.1, a.2)

/-! ### Rank values -/

/-- **Rank values are held equal only when their patterns are the same or both stand for NaN.**  So
the two zeros are told apart. -/
theorem comparePatterns_eq_eq :
    o.comparePatterns a b = .eq ↔
      a = b ∨ (Float.ofBits a).isNaN = true ∧ (Float.ofBits b).isNaN = true := by
  have numbers (ha : (Float.ofBits a).isNaN = false) (hb : (Float.ofBits b).isNaN = false)
      (same : Float.ofBits a = Float.ofBits b) : a = b := by
    rw [← Number.toBits_ofBits ha, same, Number.toBits_ofBits hb]
  constructor
  · intro equal
    unfold comparePatterns compareValues at equal
    cases ha : (Float.ofBits a).isNaN <;> cases hb : (Float.ofBits b).isNaN <;>
      simp only [ha, hb] at equal
    case false.false =>
      refine .inl (numbers ha hb ?_)
      cases o with
      | minimize =>
        have level : Number.compareTotal (.ofBits a) (.ofBits b) = .eq := equal
        exact Std.LawfulEqCmp.eq_of_compare level
      | maximize =>
        have level : Number.compareTotal (.ofBits b) (.ofBits a) = .eq := equal
        exact (Std.LawfulEqCmp.eq_of_compare level).symm
    case true.true => exact .inr ⟨rfl, rfl⟩
    case false.true => cases equal
    case true.false => cases equal
  · rintro (rfl | ⟨ha, hb⟩)
    · exact Std.ReflCmp.compare_self
    · simp only [comparePatterns, compareValues, ha, hb]

/-! ### Candidates -/

lemma position_of_compareStored {a b : UInt64 × Nat} (h : o.compareStored a b = .eq) :
    a.2 = b.2 := by
  simp only [compareStored, compare, Ordering.then_eq_eq] at h
  exact Nat.compare_eq_eq.mp h.2

lemma compareStored_apart {a b : UInt64 × Nat} (apart : a.2 ≠ b.2) :
    Xor (o.compareStored a b = .lt) (o.compareStored b a = .lt) := by
  have swapped : o.compareStored b a = (o.compareStored a b).swap := Std.OrientedCmp.eq_swap
  rw [swapped]
  cases order : o.compareStored a b with
  | lt => exact .inl ⟨rfl, nofun⟩
  | gt => exact .inr ⟨rfl, nofun⟩
  | eq => exact absurd (position_of_compareStored order) apart

lemma eq_of_compareStored {as : List (UInt64 × Nat)} (positions : (as.map Prod.snd).Nodup) :
    ∀ a ∈ as, ∀ b ∈ as, o.compareStored a b = .eq → a = b := fun _ ha _ hb same =>
  List.inj_on_of_nodup_map positions ha hb (position_of_compareStored same)

/-- **Candidates at different positions are ordered strictly and totally**: of two of them exactly
one comes first, and this is transitive.  Rank values by themselves are in a total preorder, which
holds the same patterns equal and all NaNs.  NaN comes after every number under both objectives, and
between numbers each objective is the reverse of the other.  So of any candidates one comes before
all the others, it is the only one that comes behind none, and it is found in whichever order they
are met. -/
theorem strictOrder_of_candidates (o : Objective) :
    (∀ a b : UInt64 × Nat, a.2 ≠ b.2 →
      Xor (o.compareStored a b = .lt) (o.compareStored b a = .lt)) ∧
    (∀ a b c : UInt64 × Nat, o.compareStored a b = .lt → o.compareStored b c = .lt →
      o.compareStored a c = .lt) ∧
    (∀ a b : UInt64, (o.comparePatterns a b).isLE ∨ (o.comparePatterns b a).isLE) ∧
    (∀ a b c : UInt64, (o.comparePatterns a b).isLE → (o.comparePatterns b c).isLE →
      (o.comparePatterns a c).isLE) ∧
    (∀ a b : UInt64, (o.comparePatterns a b).isLE ∧ (o.comparePatterns b a).isLE ↔
      a = b ∨ (Float.ofBits a).isNaN = true ∧ (Float.ofBits b).isNaN = true) ∧
    (∀ a b : UInt64, (Float.ofBits a).isNaN = false → (Float.ofBits b).isNaN = true →
      o.comparePatterns a b = .lt ∧ o.comparePatterns b a = .gt) ∧
    (∀ a b : UInt64, (Float.ofBits a).isNaN = false → (Float.ofBits b).isNaN = false →
      maximize.comparePatterns a b = minimize.comparePatterns b a) ∧
    ∀ as : List (UInt64 × Nat), as ≠ [] → (as.map Prod.snd).Nodup →
      ∃ m ∈ as, (∀ b ∈ as, b ≠ m → o.compareStored m b = .lt) ∧
        (∀ n ∈ as, (∀ b ∈ as, (o.compareStored n b).isLE) → n = m) ∧
        ∀ bs, bs.Perm as → least? o.compareStored bs = some m := by
  refine ⟨fun a b => compareStored_apart, fun a b c => Std.TransCmp.lt_trans, fun a b => ?_,
    fun a b c => Std.TransCmp.isLE_trans, fun a b => ?_, fun a b ha hb => ?_, fun a b ha hb => ?_,
    fun as inhabited positions => ?_⟩
  · have swapped : o.comparePatterns b a = (o.comparePatterns a b).swap := Std.OrientedCmp.eq_swap
    rw [swapped]
    cases o.comparePatterns a b with
    | lt | eq => exact .inl rfl
    | gt => exact .inr rfl
  · rw [← comparePatterns_eq_eq (o := o)]
    constructor
    · rintro ⟨below, above⟩
      exact Std.OrientedCmp.isLE_antisymm below above
    · intro same
      have swapped : o.comparePatterns b a = (o.comparePatterns a b).swap := Std.OrientedCmp.eq_swap
      rw [swapped, same]
      exact ⟨rfl, rfl⟩
  · have first : o.comparePatterns a b = .lt := compareValues_of_isNaN ha hb
    exact ⟨first, Std.OrientedCmp.gt_of_lt first⟩
  · simp only [comparePatterns, compareValues, ha, hb]
  · have apart := eq_of_compareStored (o := o) positions
    cases found : least? o.compareStored as with
    | none => exact absurd (least?_eq_none.mp found) inhabited
    | some m =>
      obtain ⟨hm, least⟩ := least?_eq_some found
      refine ⟨m, hm, fun b hb other => ?_, fun n hn below => ?_, fun bs perm => ?_⟩
      · refine (Ordering.isLE_iff_eq_lt_or_eq_eq.mp (least b hb)).resolve_right fun same => other ?_
        exact (apart m hm b hb same).symm
      · exact apart n hn m hm (Std.OrientedCmp.isLE_antisymm (below m hm) (least n hn))
      · rw [least?_of_perm apart perm, found]

/-- Two NaNs with payloads of their own, both zeros and an infinity: the negative zero is the least,
even when it is met last. -/
theorem strictOrder_of_candidates_sample :
    least? minimize.compareStored [(0x7ff8000000000001, 0), (0x7ff0000000000000, 3), (0, 1),
      (0xfff8000000000002, 4), (0x8000000000000000, 2)] = some (0x8000000000000000, 2) := by
  let as : List (UInt64 × Nat) := [(0x7ff8000000000001, 0), (0, 1), (0x8000000000000000, 2),
    (0x7ff0000000000000, 3), (0xfff8000000000002, 4)]
  obtain ⟨-, -, -, -, -, -, -, least⟩ := strictOrder_of_candidates minimize
  obtain ⟨m, -, -, only, found⟩ := least as (by decide) (by decide)
  rw [found _ (by decide)]
  exact congrArg some (only _ (by decide) (by decide +kernel)).symm

end Objective

end Autotune
