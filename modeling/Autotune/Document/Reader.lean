/-!
# Documents

A `Value` is structured data as it stands in a configuration file.  Integers and other numbers are
kept apart, the fields of an object keep their order, and a repeated field is kept too, so that the
reader of an object can refuse it.

`read?` reads a JSON text.  It takes exactly what the standard allows, and nothing may follow the
value but blanks.

The readers below take a list of characters and give what they read together with the rest.  They
call each other with a bound on the depth that goes down with every call.  Of any two calls in a row
at least one takes a character, so twice the length of the text is bound enough.
-/

namespace Autotune.Document

/-- Structured data. -/
inductive Value where
  | null
  | bool (b : Bool)
  | integer (n : Int)
  | number (x : Float)
  | single (x : Float32)
  | text (s : String)
  | list (items : List Value)
  | object (fields : List (String × Value))
  /-- Well-formed data that stands for nothing: a number out of range, or a text with half of a
  surrogate pair.  A reader may pass over it, but no value decodes from it. -/
  | illegible

/-! ### Characters -/

/-- The blanks of the notation. -/
def isBlank (c : Char) : Bool := c == ' ' || c == '\t' || c == '\n' || c == '\r'

/-- The text after its leading blanks. -/
def skipBlanks (cs : List Char) : List Char := cs.dropWhile isBlank

/-- The text after the given beginning. -/
def strip? (beginning : String) (cs : List Char) : Option (List Char) :=
  let expected := beginning.toList
  if expected.isPrefixOf cs then some (cs.drop expected.length) else none

/-! ### Numbers -/

/-- The number that digits spell. -/
def digitsValue (digits : List Char) : Nat :=
  digits.foldl (fun n c => 10 * n + (c.toNat - '0'.toNat)) 0

/-- The digits in front, of which there has to be one. -/
def readDigits (cs : List Char) : Option (List Char × List Char) :=
  match cs.takeWhile Char.isDigit with
  | [] => none
  | digits => some (digits, cs.dropWhile Char.isDigit)

/-- The digits in front of the point.  Only a lone zero may begin with a zero. -/
def readWhole (cs : List Char) : Option (List Char × List Char) := do
  let (digits, rest) ← readDigits cs
  if digits.head? = some '0' && 1 < digits.length then none else some (digits, rest)

/-- The digits after a point, if there is one. -/
def readFraction : List Char → Option (List Char × List Char)
  | '.' :: rest => readDigits rest
  | cs => some ([], cs)

/-- The exponent, if there is one. -/
def readExponent : List Char → Option (Option Int × List Char)
  | c :: rest => do
    if c == 'e' || c == 'E' then
      let (negative, rest) := match rest with
        | '-' :: rest => (true, rest)
        | '+' :: rest => (false, rest)
        | rest => (false, rest)
      let (digits, rest) ← readDigits rest
      let n : Int := digitsValue digits
      some (some (if negative then -n else n), rest)
    else some (none, c :: rest)
  | [] => some (none, [])

/-- The number nearest to `digits * 10 ^ exponent`.  A power so large or so small that it decides
the matter alone is not computed. -/
def nearest (digits : Nat) (exponent : Int) : Float :=
  let size : Int := (toString digits).length + exponent
  if digits = 0 || size < -400 then 0
  else if 400 < size then 1 / 0
  else Float.ofScientific digits (exponent < 0) exponent.natAbs

/-- Whether an integer takes at most 64 bits, with or without a sign. -/
def isWord (n : Int) : Bool := Int64.minValue.toInt ≤ n && n < UInt64.size

/-- A number as a value.  Only digits and a sign make an integer, except for a negative zero.  An
integer of more than 64 bits counts as the nearest number. -/
def numberValue (negative : Bool) (whole fraction : List Char) (exponent : Option Int) : Value :=
  let digits := digitsValue (whole ++ fraction)
  let size := nearest digits (exponent.getD 0 - fraction.length)
  let integer : Int := if negative then -digits else digits
  if !size.isFinite then .illegible
  else if fraction.isEmpty && exponent.isNone && isWord integer && !(negative && digits = 0) then
    .integer integer
  else .number (if negative then -size else size)

/-- A number. -/
def readNumber (cs : List Char) : Option (Value × List Char) := do
  let (negative, cs) := match cs with
    | '-' :: rest => (true, rest)
    | cs => (false, cs)
  let (whole, cs) ← readWhole cs
  let (fraction, cs) ← readFraction cs
  let (exponent, cs) ← readExponent cs
  some (numberValue negative whole fraction exponent, cs)

/-! ### Text -/

/-- The value of a hexadecimal digit. -/
def hexDigit? (c : Char) : Option Nat :=
  if c.isDigit then some (c.toNat - '0'.toNat)
  else if 'a' ≤ c && c ≤ 'f' then some (c.toNat - 'a'.toNat + 10)
  else if 'A' ≤ c && c ≤ 'F' then some (c.toNat - 'A'.toNat + 10)
  else none

/-- Four hexadecimal digits. -/
def readHex : List Char → Option (Nat × List Char)
  | a :: b :: c :: d :: rest => do
    let a ← hexDigit? a
    let b ← hexDigit? b
    let c ← hexDigit? c
    let d ← hexDigit? d
    some (((a * 16 + b) * 16 + c) * 16 + d, rest)
  | _ => none

/-- One unit of a text: a character, or half of a surrogate pair. -/
inductive Unit16 where
  | whole (c : Char)
  | high (code : Nat)
  | low (code : Nat)

/-- The unit with the given code. -/
def Unit16.ofCode (code : Nat) : Unit16 :=
  if 0xd800 ≤ code && code < 0xdc00 then .high code
  else if 0xdc00 ≤ code && code < 0xe000 then .low code
  else .whole (Char.ofNat code)

/-- What follows a backslash. -/
def readEscape : List Char → Option (Unit16 × List Char)
  | '"' :: rest => some (.whole '"', rest)
  | '\\' :: rest => some (.whole '\\', rest)
  | '/' :: rest => some (.whole '/', rest)
  | 'b' :: rest => some (.whole '\x08', rest)
  | 'f' :: rest => some (.whole '\x0c', rest)
  | 'n' :: rest => some (.whole '\n', rest)
  | 'r' :: rest => some (.whole '\r', rest)
  | 't' :: rest => some (.whole '\t', rest)
  | 'u' :: rest => (readHex rest).map fun (code, rest) => (.ofCode code, rest)
  | _ => none

/-- The units up to the closing quote.  Control characters have to be escaped. -/
def readUnits : Nat → List Char → Option (List Unit16 × List Char)
  | 0, _ => none
  | _, [] => none
  | _, '"' :: rest => some ([], rest)
  | depth + 1, '\\' :: rest => do
    let (unit, rest) ← readEscape rest
    let (units, rest) ← readUnits depth rest
    some (unit :: units, rest)
  | depth + 1, c :: rest => do
    if c.toNat < 0x20 then none
    let (units, rest) ← readUnits depth rest
    some (.whole c :: units, rest)

/-- The characters that units stand for.  Halves count only in pairs, the high one first. -/
def joinUnits : List Unit16 → Option (List Char)
  | [] => some []
  | .whole c :: rest => (joinUnits rest).map (c :: ·)
  | .high h :: .low l :: rest =>
    (joinUnits rest).map (Char.ofNat (0x10000 + (h - 0xd800) * 0x400 + (l - 0xdc00)) :: ·)
  | _ => none

/-- A text whose opening quote was read, if its units are all in order. -/
def readText (depth : Nat) (cs : List Char) : Option (Option String × List Char) :=
  (readUnits depth cs).map fun (units, rest) =>
    ((joinUnits units).map String.ofList, rest)

/-! ### Values -/

/-- An object, which an illegible field name makes illegible. -/
def objectValue (fields : List (Option String × Value)) : Value :=
  match fields.mapM fun (name, value) => name.map fun name => (name, value) with
  | some fields => .object fields
  | none => .illegible

mutual

/-- A value, after blanks. -/
def readValue : Nat → List Char → Option (Value × List Char)
  | 0, _ => none
  | depth + 1, cs =>
    let cs := skipBlanks cs
    match cs with
    | [] => none
    | '"' :: rest =>
      (readText depth rest).map fun (s, rest) => ((s.map Value.text).getD .illegible, rest)
    | '[' :: rest =>
      match skipBlanks rest with
      | ']' :: rest => some (.list [], rest)
      | rest => (readItems depth rest).map fun (items, rest) => (.list items, rest)
    | '{' :: rest =>
      match skipBlanks rest with
      | '}' :: rest => some (.object [], rest)
      | rest => (readFields depth rest).map fun (fields, rest) => (objectValue fields, rest)
    | 'n' :: _ => (strip? "null" cs).map fun rest => (.null, rest)
    | 't' :: _ => (strip? "true" cs).map fun rest => (.bool true, rest)
    | 'f' :: _ => (strip? "false" cs).map fun rest => (.bool false, rest)
    | _ => readNumber cs

/-- The items of a list, up to the closing bracket. -/
def readItems : Nat → List Char → Option (List Value × List Char)
  | 0, _ => none
  | depth + 1, cs => do
    let (item, rest) ← readValue depth cs
    match skipBlanks rest with
    | ']' :: rest => some ([item], rest)
    | ',' :: rest =>
      let (items, rest) ← readItems depth rest
      some (item :: items, rest)
    | _ => none

/-- The fields of an object, up to the closing brace. -/
def readFields : Nat → List Char → Option (List (Option String × Value) × List Char)
  | 0, _ => none
  | depth + 1, cs => do
    let rest ← strip? "\"" (skipBlanks cs)
    let (name, rest) ← readText depth rest
    let rest ← strip? ":" (skipBlanks rest)
    let (value, rest) ← readValue depth rest
    match skipBlanks rest with
    | '}' :: rest => some ([(name, value)], rest)
    | ',' :: rest =>
      let (fields, rest) ← readFields depth rest
      some ((name, value) :: fields, rest)
    | _ => none

end

/-- The value that a text spells. -/
def read? (text : String) : Option Value :=
  let cs := text.toList
  match readValue (2 * cs.length + 2) cs with
  | some (value, rest) => if (skipBlanks rest).isEmpty then some value else none
  | none => none

end Autotune.Document
