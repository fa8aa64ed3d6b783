import Autotune.Document.Reader
import Autotune.Proofs.Number.Finite

/-!
# What documents carry

Documents carry every finite number of both widths and every integer of 64 bits, and nothing else
counts as a number.  `Value.Carried` says so of a document as a whole.

* `carried_of_read?`: what is read from a text is carried.
-/

namespace Autotune.Document

/-- Data whose numbers are finite and whose integers take 64 bits at most. -/
inductive Value.Carried : Value → Prop
  | null : Carried .null
  | bool (b : Bool) : Carried (.bool b)
  | integer {n : Int} (h : isWord n = true) : Carried (.integer n)
  | number {x : Float} (h : x.isFinite = true) : Carried (.number x)
  | single {x : Float32} (h : x.isFinite = true) : Carried (.single x)
  | text (s : String) : Carried (.text s)
  | list {items : List Value} (h : ∀ item ∈ items, Carried item) : Carried (.list items)
  | object {fields : List (String × Value)} (h : ∀ field ∈ fields, Carried field.2) :
    Carried (.object fields)
  | illegible : Carried .illegible

open Value (Carried)

lemma carried_numberValue (negative : Bool) (whole fraction : List Char) (exponent : Option Int) :
    (numberValue negative whole fraction exponent).Carried := by
  unfold numberValue
  dsimp only
  generalize digitsValue (whole ++ fraction) = digits
  generalize nearest digits (exponent.getD 0 - fraction.length) = size
  generalize (if negative = true then -(digits : Int) else digits) = integer
  by_cases finite : size.isFinite = true
  · rw [if_neg (by simp [finite])]
    split
    case isTrue small =>
      simp only [Bool.and_eq_true] at small
      exact .integer small.1.2
    case isFalse =>
      cases negative with
      | true => exact .number (Number.isFinite_neg finite)
      | false => exact .number finite
  · rw [if_pos (by simp [finite])]
    exact .illegible

lemma carried_readNumber {cs rest : List Char} {v : Value} (h : readNumber cs = some (v, rest)) :
    v.Carried := by
  unfold readNumber at h
  simp only [Option.bind_eq_bind, Option.bind_eq_some_iff, Option.some.injEq, Prod.mk.injEq] at h
  obtain ⟨_, -, _, -, _, -, rfl, -⟩ := h
  exact carried_numberValue ..

lemma exists_of_mapM_eq_some {α β : Type} {f : α → Option β} {as : List α} {bs : List β}
    (h : as.mapM f = some bs) : ∀ b ∈ bs, ∃ a ∈ as, f a = some b := by
  induction as generalizing bs with
  | nil =>
    cases h
    simp
  | cons a as ih =>
    simp only [List.mapM_cons, Option.bind_eq_bind, Option.bind_eq_some_iff, Option.pure_def,
      Option.some.injEq] at h
    obtain ⟨b, first, rest, read, rfl⟩ := h
    intro c hc
    obtain rfl | hc := List.mem_cons.mp hc
    · exact ⟨a, List.mem_cons_self, first⟩
    · obtain ⟨a', ha, found⟩ := ih read c hc
      exact ⟨a', List.mem_cons_of_mem _ ha, found⟩

lemma carried_objectValue {fields : List (Option String × Value)}
    (h : ∀ field ∈ fields, field.2.Carried) : (objectValue fields).Carried := by
  unfold objectValue
  split
  case h_1 labelled all =>
    refine .object fun field hf => ?_
    obtain ⟨⟨name, v⟩, here, read⟩ := exists_of_mapM_eq_some all field hf
    obtain ⟨label, -, rfl⟩ := Option.map_eq_some_iff.mp read
    exact h _ here
  case h_2 => exact .illegible

mutual

lemma carried_readValue {cs rest : List Char} {v : Value} {depth : Nat}
    (h : readValue depth cs = some (v, rest)) : v.Carried := by
  cases depth with
  | zero => cases h
  | succ depth =>
    rw [readValue] at h
    dsimp only at h
    split at h
    case h_1 => cases h
    case h_2 =>
      simp only [Option.map_eq_some_iff, Prod.mk.injEq, Prod.exists] at h
      obtain ⟨s, _, -, rfl, -⟩ := h
      cases s with
      | some s => exact .text s
      | none => exact .illegible
    case h_3 =>
      split at h
      · cases h
        exact .list (by simp)
      · simp only [Option.map_eq_some_iff, Prod.mk.injEq, Prod.exists] at h
        obtain ⟨items, _, read, rfl, -⟩ := h
        exact .list (carried_readItems read)
    case h_4 =>
      split at h
      · cases h
        exact .object (by simp)
      · simp only [Option.map_eq_some_iff, Prod.mk.injEq, Prod.exists] at h
        obtain ⟨fields, _, read, rfl, -⟩ := h
        exact carried_objectValue (carried_readFields read)
    case h_8 => exact carried_readNumber h
    -- the three words
    all_goals
      simp only [Option.map_eq_some_iff, Prod.mk.injEq] at h
      obtain ⟨_, -, rfl, -⟩ := h
      constructor
termination_by depth

lemma carried_readItems {cs rest : List Char} {items : List Value} {depth : Nat}
    (h : readItems depth cs = some (items, rest)) : ∀ item ∈ items, item.Carried := by
  cases depth with
  | zero => cases h
  | succ depth =>
    simp only [readItems, Option.bind_eq_bind, Option.bind_eq_some_iff, Prod.exists] at h
    obtain ⟨item, _, first, h⟩ := h
    have head := carried_readValue first
    split at h
    · cases h
      simpa using head
    · simp only [Option.bind_eq_some_iff, Prod.exists] at h
      obtain ⟨others, _, more, h⟩ := h
      cases h
      exact List.forall_mem_cons.mpr ⟨head, carried_readItems more⟩
    · cases h
termination_by depth

lemma carried_readFields {cs rest : List Char} {fields : List (Option String × Value)}
    {depth : Nat} (h : readFields depth cs = some (fields, rest)) :
    ∀ field ∈ fields, field.2.Carried := by
  cases depth with
  | zero => cases h
  | succ depth =>
    simp only [readFields, Option.bind_eq_bind, Option.bind_eq_some_iff, Prod.exists] at h
    obtain ⟨_, -, name, _, -, _, -, v, _, first, h⟩ := h
    have head := carried_readValue first
    split at h
    · cases h
      simpa using head
    · simp only [Option.bind_eq_some_iff, Prod.exists] at h
      obtain ⟨others, _, more, h⟩ := h
      cases h
      exact List.forall_mem_cons.mpr ⟨head, carried_readFields more⟩
    · cases h
termination_by depth

end

/-- **What a text spells is carried.** -/
theorem carried_of_read? {text : String} {v : Value} (h : read? text = some v) : v.Carried := by
  unfold read? at h
  dsimp only at h
  split at h
  case h_1 value rest read =>
    split at h
    · cases h
      exact carried_readValue read
    · cases h
  case h_2 => cases h

end Autotune.Document
