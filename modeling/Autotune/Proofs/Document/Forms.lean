import Autotune.Document.Codec
import Autotune.Proofs.Document.Carried
import Autotune.Proofs.Refusal
import Mathlib.Data.List.Nodup

/-!
# Written forms that return

A value is `writable` when all its numbers are finite and its counts take 64 bits, so that nothing
is lost when it is written.  Two laws say what a written form does:

* `RoundTrips`: what is writable reads back as itself (`decode_encode`);
* `ReadsWritable`: what is read from carried data is writable (`writable_of_decode`).

A type with both `Returns`: besides, what was read once stays the same when it is written and read
again.  This module has the laws of numbers, texts, choices and lists, and what the laws of records
are made of.
-/

namespace Autotune.Document

/-- A type of which some values have a written form of their own. -/
class Writable (α : Type) where
  /-- The floats of the value are finite, and its counts take 64 bits. -/
  writable : α → Prop

export Writable (writable)

/-- What is writable reads back as itself. -/
class RoundTrips (α : Type) [Coded α] [Writable α] : Prop where
  decode_encode {a : α} : writable a → decode (encode a) = .ok a

/-- What is read is writable. -/
class ReadsWritable (α : Type) [Coded α] [Writable α] : Prop where
  writable_of_decode {v : Value} {a : α} : v.Carried → decode v = .ok a → writable a

export RoundTrips (decode_encode)
export ReadsWritable (writable_of_decode)

/-- A written form that gives every writable value back, and every value that was read once. -/
structure Returns (α : Type) [Coded α] [Writable α] : Prop where
  roundTrip : ∀ a : α, writable a → decode (encode a) = .ok a
  settled : ∀ (v : Value) (a : α), v.Carried → decode v = .ok a → decode (encode a) = .ok a

section

variable {α : Type} [Coded α] [Writable α]

theorem returns [RoundTrips α] [ReadsWritable α] : Returns α where
  roundTrip _ h := decode_encode h
  settled _ _ carried read := decode_encode (writable_of_decode carried read)

theorem Returns.settled_ofText {text : String} {a : α} (h : Returns α)
    (read : ofText text = .ok a) : decode (encode a) = .ok a := by
  unfold ofText at read
  split at read
  case h_1 v found => exact h.settled v a (carried_of_read? found) read
  case h_2 => cases read

end

/-! ### Numbers -/

instance : Writable Nat := ⟨fun n => n < UInt64.size⟩

instance : Writable UInt32 := ⟨fun _ => True⟩

instance : Writable Float := ⟨fun x => x.isFinite = true⟩

instance : Writable Float32 := ⟨fun x => x.isFinite = true⟩

instance {α : Type} [Writable α] : Writable (Stored α) where
  writable
    | .number x => writable x
    | .nan _ => False

lemma writable_zero : writable (0 : Float) := by
  show (0 : Float).isFinite = true
  decide +kernel

lemma writable_one : writable (1 : Float) := by
  show (1 : Float).isFinite = true
  decide +kernel

lemma decodeBelow_eq_ok {bound n : Nat} {v : Value} :
    decodeBelow bound v = .ok n ↔ v = .integer n ∧ n < bound := by
  unfold decodeBelow
  split
  case h_1 m =>
    split
    case isTrue inside =>
      obtain ⟨low, high⟩ := inside
      simp only [Except.ok.injEq, Value.integer.injEq]
      omega
    case isFalse outside =>
      simp only [reduceCtorEq, Value.integer.injEq, false_iff, not_and]
      omega
  case h_2 other =>
    simp only [reduceCtorEq, false_iff, not_and]
    rintro rfl
    exact absurd rfl (other n)

instance : RoundTrips Nat where
  decode_encode h := decodeBelow_eq_ok.mpr ⟨rfl, h⟩

instance : ReadsWritable Nat where
  writable_of_decode _ read := (decodeBelow_eq_ok.mp read).2

instance : RoundTrips UInt32 where
  decode_encode {n} _ := by
    have read : decodeBelow UInt32.size (.integer n.toNat) = .ok n.toNat :=
      decodeBelow_eq_ok.mpr ⟨rfl, n.toNat_lt_size⟩
    show (decodeBelow UInt32.size (.integer n.toNat)).map UInt32.ofNat = .ok n
    rw [read]
    exact congrArg Except.ok UInt32.ofNat_toNat

instance : ReadsWritable UInt32 where
  writable_of_decode _ _ := trivial

instance : RoundTrips Float where
  decode_encode {x} (h : x.isFinite = true) := by
    show decode (if x.isFinite then Value.number x else .null) = _
    rw [if_pos h]
    rfl

lemma natAbs_le_of_isWord {n : Int} (h : isWord n = true) : n.natAbs ≤ 2 ^ 64 := by
  have least : Int64.minValue.toInt = -9223372036854775808 := rfl
  have size : UInt64.size = 18446744073709551616 := rfl
  simp only [isWord, Bool.and_eq_true, decide_eq_true_eq, least, size] at h
  omega

instance : ReadsWritable Float where
  writable_of_decode carried read := by
    cases carried with
    | integer word =>
      cases read
      exact Number.isFinite_ofInt (natAbs_le_of_isWord word)
    | number finite =>
      cases read
      exact finite
    | single finite =>
      cases read
      exact Number.isFinite_widen_iff.mpr finite
    | _ => cases read

instance : RoundTrips Float32 where
  decode_encode {x} (h : x.isFinite = true) := by
    show decode (if (Number.widen x).isFinite then Value.single x else .null) = _
    rw [if_pos (Number.isFinite_widen_iff.mpr h)]
    rfl

section

variable {α : Type} [Coded α] [Writable α]

instance [RoundTrips α] : RoundTrips (Stored α) where
  decode_encode {a} h := by
    cases a with
    | number x =>
      have finite : writable x := h
      show (decode (encode x)).map Stored.number = .ok (.number x)
      rw [decode_encode finite]
      rfl
    | nan => cases h

instance [ReadsWritable α] : ReadsWritable (Stored α) where
  writable_of_decode carried read := by
    obtain ⟨x, number, rfl⟩ := map_eq_ok.mp read
    have finite : writable x := writable_of_decode carried number
    exact finite

end

/-! ### Texts, choices and lists -/

instance : Writable String := ⟨fun _ => True⟩

instance : RoundTrips String where
  decode_encode _ := rfl

instance : ReadsWritable String where
  writable_of_decode _ _ := trivial

section

variable {α : Type} [Named α]

instance (priority := low) : Writable α := ⟨fun _ => True⟩

/-- A choice is found by its name. -/
instance : RoundTrips α where
  decode_encode {a} _ := by
    show decodeName (name a) = .ok a
    rw [decodeName, Named.ofName?_name]

instance : ReadsWritable α where
  writable_of_decode _ _ := trivial

end

section

variable {α : Type} [Writable α]

instance : Writable (List α) := ⟨fun items => ∀ a ∈ items, writable a⟩

instance : Writable (Option α) := ⟨fun a => ∀ b ∈ a, writable b⟩

lemma writable_nil : writable ([] : List α) := List.forall_mem_nil _

lemma writable_none : writable (none : Option α) := by
  intro b h
  cases h

variable [Coded α]

instance [RoundTrips α] : RoundTrips (List α) where
  decode_encode {items} h := by
    show (items.map encode).mapM decode = .ok items
    rw [mapM_eq_ok, List.forall₂_map_left_iff, List.forall₂_same]
    intro a ha
    exact decode_encode (h a ha)

instance [ReadsWritable α] : ReadsWritable (List α) where
  writable_of_decode carried read := by
    cases carried with
    | list items =>
      intro a ha
      obtain ⟨v, hv, item⟩ := exists_of_mem_mapM read a ha
      exact writable_of_decode (items v hv) item
    | _ => cases read

end

instance : RoundTrips (Option String) where
  decode_encode {a} _ := by cases a <;> rfl

instance : ReadsWritable (Option String) where
  writable_of_decode _ _ _ _ := trivial

/-! ### Records -/

variable {known : List String} {fields : List (String × Value)} {v : Value} {s : String}

/-- A record has its fields by name, once each, or in order. -/
lemma fieldsOf_eq_ok : fieldsOf known v = .ok fields ↔
    (v = .object fields ∧ ∀ s ∈ known, fields.countP (fun field => field.1 == s) ≤ 1) ∨
    ∃ items, v = .list items ∧ items.length ≤ known.length ∧ known.zip items = fields := by
  cases v with
  | object others =>
    simp only [fieldsOf, List.all_eq_true, decide_eq_true_eq, Value.object.injEq, reduceCtorEq,
      false_and, exists_false, or_false]
    split
    case isTrue once =>
      simp only [Except.ok.injEq]
      constructor
      · rintro rfl
        exact ⟨rfl, once⟩
      · exact And.left
    case isFalse twice =>
      simp only [reduceCtorEq, false_iff]
      rintro ⟨rfl, once⟩
      exact twice once
  | list items =>
    simp only [fieldsOf, reduceCtorEq, false_and, false_or, Value.list.injEq]
    split
    case isTrue short => simp [short]
    case isFalse long => simp [long]
  | _ => simp [fieldsOf]

lemma fieldsOf_object (names : fields.map Prod.fst = known) (distinct : known.Nodup) :
    fieldsOf known (.object fields) = .ok fields := by
  refine fieldsOf_eq_ok.mpr (.inl ⟨rfl, fun s _ => ?_⟩)
  have once : known.count s ≤ 1 := List.nodup_iff_count_le_one.mp distinct s
  rwa [← names, List.count, List.countP_map] at once

lemma carried_of_fieldsOf (carried : v.Carried) (read : fieldsOf known v = .ok fields) :
    ∀ field ∈ fields, field.2.Carried := by
  obtain ⟨rfl, -⟩ | ⟨items, rfl, -, rfl⟩ := fieldsOf_eq_ok.mp read
  · cases carried with
    | object all => exact all
  · cases carried with
    | list all => exact fun field here => all _ (List.of_mem_zip here).2

section

variable {α : Type} [Coded α] {a d : α}

lemma required_eq_ok :
    required fields s = .ok a ↔ ∃ w, fields.lookup s = some w ∧ decode w = .ok a := by
  unfold required
  cases fields.lookup s with
  | none => simp
  | some w => simp

lemma optional_eq_ok : optional fields s d = .ok a ↔
    (∃ w, fields.lookup s = some w ∧ decode w = .ok a) ∨ fields.lookup s = none ∧ d = a := by
  unfold optional
  cases fields.lookup s with
  | none => simp
  | some w => simp

variable [Writable α]

lemma required_encode [RoundTrips α] (found : fields.lookup s = some (encode a))
    (h : writable a) : required fields s = .ok a :=
  required_eq_ok.mpr ⟨_, found, decode_encode h⟩

lemma optional_encode [RoundTrips α] (found : fields.lookup s = some (encode a))
    (h : writable a) : optional fields s d = .ok a :=
  optional_eq_ok.mpr (.inl ⟨_, found, decode_encode h⟩)

variable [ReadsWritable α] (carried : ∀ field ∈ fields, field.2.Carried)
include carried

lemma writable_of_required (read : required fields s = .ok a) : writable a := by
  obtain ⟨w, found, read⟩ := required_eq_ok.mp read
  exact writable_of_decode (carried _ (mem_of_lookup found)) read

lemma writable_of_optional (default : writable d) (read : optional fields s d = .ok a) :
    writable a := by
  obtain ⟨w, found, read⟩ | ⟨-, rfl⟩ := optional_eq_ok.mp read
  · exact writable_of_decode (carried _ (mem_of_lookup found)) read
  · exact default

end

end Autotune.Document
