import Autotune.Document.Reader
import Autotune.Field.Distribution

/-!
# Written forms

A `Coded` type has a written form: `encode` writes a value as a document and `decode` reads one.
This module holds the class, the forms of numbers, texts, lists and choices, and what is common to
all records:

* a record is written as an object; it is also read from a list of its fields in their order;
* in an object, a field that is known must not be repeated, and one that is not known is passed
  over; a list may end early, but has no more items than there are fields;
* a field may have a default, which stands in when it is missing.

A choice is written by its name; it is also read from an object with that name and no data.
-/

namespace Autotune.Document

/-- Why a document is not the written form of a value. -/
inductive Unreadable where
  /-- It does not have the form. -/
  | malformed
  /-- It has the form, but the value is refused. -/
  | refused (fault : Fault)

/-- A type with a written form. -/
class Coded (α : Type) where
  encode : α → Value
  decode : Value → Except Unreadable α

export Coded (encode decode)

/-- The value whose written form a text spells. -/
def ofText {α : Type} [Coded α] (text : String) : Except Unreadable α :=
  match read? text with
  | some v => decode v
  | none => .error .malformed

/-! ### Numbers, texts and lists -/

/-- An integer below the given bound and not below zero. -/
def decodeBelow (bound : Nat) : Value → Except Unreadable Nat
  | .integer n => if 0 ≤ n ∧ n < bound then .ok n.toNat else .error .malformed
  | _ => .error .malformed

/-- Counts and indices take 64 bits. -/
instance : Coded Nat where
  encode n := .integer n
  decode := decodeBelow UInt64.size

instance : Coded UInt32 where
  encode n := .integer n.toNat
  decode v := (decodeBelow UInt32.size v).map UInt32.ofNat

/-- A number that is not finite has no written form and becomes null. -/
instance : Coded Float where
  encode x := if x.isFinite then .number x else .null
  decode
    | .integer n => .ok (Float.ofInt n)
    | .number x => .ok x
    | .single x => .ok (Number.widen x)
    | _ => .error .malformed

instance : Coded Float32 where
  encode x := if (Number.widen x).isFinite then .single x else .null
  decode
    | .integer n => .ok (Float32.ofInt n)
    | .number x => .ok (Number.narrow x)
    | .single x => .ok x
    | _ => .error .malformed

/-- A stored number is written as the number that it is. -/
instance {α : Type} [Coded α] : Coded (Stored α) where
  encode
    | .number x => encode x
    | .nan _ => .null
  decode v := (decode v).map .number

instance : Coded String where
  encode s := .text s
  decode
    | .text s => .ok s
    | _ => .error .malformed

instance {α : Type} [Coded α] : Coded (List α) where
  encode items := .list (items.map encode)
  decode
    | .list items => items.mapM decode
    | _ => .error .malformed

instance {α : Type} [Coded α] : Coded (Option α) where
  encode
    | some a => encode a
    | none => .null
  decode
    | .null => .ok none
    | v => (decode v).map some

/-- The choice of the given name. -/
def decodeName {α : Type} [Named α] (s : String) : Except Unreadable α :=
  match Named.ofName? s with
  | some a => .ok a
  | none => .error .malformed

/-- A choice is written by its name.  It is also a case without data, and may be read as one. -/
instance {α : Type} [Named α] : Coded α where
  encode a := .text (name a)
  decode
    | .text s => decodeName s
    | .object [(s, .null)] => decodeName s
    | _ => .error .malformed

/-! ### Records -/

/-- The fields of a record with the given names.  An object repeats none of these, and the items of
a list belong to them in this order, as far as the list goes. -/
def fieldsOf (known : List String) : Value → Except Unreadable (List (String × Value))
  | .object fields =>
    if known.all fun s => fields.countP (fun field => field.1 == s) ≤ 1 then .ok fields
    else .error .malformed
  | .list items => if items.length ≤ known.length then .ok (known.zip items) else .error .malformed
  | _ => .error .malformed

/-- A field that has to be there. -/
def required {α : Type} [Coded α] (fields : List (String × Value)) (s : String) :
    Except Unreadable α :=
  match fields.lookup s with
  | some v => decode v
  | none => .error .malformed

/-- A field with a default. -/
def optional {α : Type} [Coded α] (fields : List (String × Value)) (s : String) (default : α) :
    Except Unreadable α :=
  match fields.lookup s with
  | some v => decode v
  | none => .ok default

end Autotune.Document
