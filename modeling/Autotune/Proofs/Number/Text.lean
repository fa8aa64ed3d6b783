import Autotune.Proofs.Number.Decimal
import Mathlib.Data.List.TakeWhile

/-!
# The text of a number

A positional text stands for the number that `readText` makes of its digits.  The text of a decimal
reads as that decimal (`readText_text`), so the text of a magnitude reads as a number that rounds to
it (`Magnitude.Valid.rounds_text`), and no other magnitude has that text.

* `text_injective`: the text tells all numbers apart;
* `comma_notMem_text`: no text has a comma.
-/

namespace Autotune.Number

/-! ### Reading a positional text -/

/-- The number that a positional text stands for: its digits without the point, over the power of
ten of the places after the point. -/
def readText (text : List Char) : ℚ :=
  Nat.ofDigitChars 10 (text.filter (· ≠ '.')) 0 / 10 ^ ((text.dropWhile (· ≠ '.')).length - 1)

lemma ne_point_of_isDigit {c : Char} (h : c.isDigit) : c ≠ '.' := by
  rintro rfl
  cases h

lemma isDigit_of_mem_toDigits {n : ℕ} {c : Char} (h : c ∈ Nat.toDigits 10 n) : c.isDigit :=
  Nat.isDigit_of_mem_toDigits (by decide) (by decide) h

lemma readText_append {whole fraction : List Char} (hw : ∀ c ∈ whole, c ≠ '.')
    (hf : ∀ c ∈ fraction, c ≠ '.') :
    readText (whole ++ '.' :: fraction) =
      Nat.ofDigitChars 10 (whole ++ fraction) 0 / 10 ^ fraction.length := by
  have digits : (whole ++ '.' :: fraction).filter (· ≠ '.') = whole ++ fraction := by
    rw [List.filter_append, List.filter_cons_of_neg (by simp)]
    rw [List.filter_eq_self.mpr (by simpa using hw), List.filter_eq_self.mpr (by simpa using hf)]
  have rest : (whole ++ '.' :: fraction).dropWhile (· ≠ '.') = '.' :: fraction := by
    rw [List.dropWhile_append_of_pos (by simpa using hw), List.dropWhile_cons_of_neg (by simp)]
  rw [readText, digits, rest, List.length_cons, Nat.add_sub_cancel]

lemma readText_toDigits (n : ℕ) : readText (Nat.toDigits 10 n) = n := by
  have plain : ∀ c ∈ Nat.toDigits 10 n, c ≠ '.' :=
    fun c hc => ne_point_of_isDigit (isDigit_of_mem_toDigits hc)
  have digits : (Nat.toDigits 10 n).filter (· ≠ '.') = Nat.toDigits 10 n :=
    List.filter_eq_self.mpr (by simpa using plain)
  have rest : (Nat.toDigits 10 n).dropWhile (· ≠ '.') = [] := by
    rw [List.dropWhile_eq_nil_iff]
    simpa using plain
  rw [readText, digits, rest, Nat.ofDigitChars_ten_toDigits]
  simp

/-- The digits after the point, filled up from the left. -/
def fractionDigits (places n : ℕ) : List Char :=
  List.replicate (places - (Nat.toDigits 10 n).length) '0' ++ Nat.toDigits 10 n

lemma toList_positional {units places : ℕ} (h : places ≠ 0) :
    (positional units places).toList =
      Nat.toDigits 10 (units / 10 ^ places) ++
        '.' :: fractionDigits places (units % 10 ^ places) := by
  simp [positional, h, fractionDigits, String.toList_append, ← String.length_toList]

lemma length_fractionDigits {places n : ℕ} (h : places ≠ 0) (small : n < 10 ^ places) :
    (fractionDigits places n).length = places := by
  have fits := (Nat.length_toDigits_le_iff (by decide : 1 < 10) (Nat.pos_of_ne_zero h)).mpr small
  rw [fractionDigits, List.length_append, List.length_replicate, Nat.sub_add_cancel fits]

lemma isDigit_of_mem_fractionDigits {places n : ℕ} {c : Char} (h : c ∈ fractionDigits places n) :
    c.isDigit := by
  obtain zero | digit := List.mem_append.mp h
  · rw [List.eq_of_mem_replicate zero]
    rfl
  · exact isDigit_of_mem_toDigits digit

theorem readText_positional (units places : ℕ) :
    readText (positional units places).toList = units / 10 ^ places := by
  by_cases h : places = 0
  · simp [positional, h, readText_toDigits]
  · have small := Nat.mod_lt units (Nat.pow_pos (by decide : 0 < 10) : 0 < 10 ^ places)
    have digits : Nat.ofDigitChars 10
        (Nat.toDigits 10 (units / 10 ^ places) ++ fractionDigits places (units % 10 ^ places)) 0 =
        units := by
      have length := length_fractionDigits h small
      rw [Nat.ofDigitChars_append, Nat.ofDigitChars_eq_ofDigitChars_zero, length,
        Nat.ofDigitChars_ten_toDigits, fractionDigits, Nat.ofDigitChars_append,
        Nat.ofDigitChars_replicate_zero, Nat.mul_zero, Nat.ofDigitChars_ten_toDigits,
        Nat.div_add_mod]
    rw [toList_positional h, readText_append, digits, length_fractionDigits h small]
    · exact fun c hc => ne_point_of_isDigit (isDigit_of_mem_toDigits hc)
    · exact fun c hc => ne_point_of_isDigit (isDigit_of_mem_fractionDigits hc)

/-- **The text of a decimal reads as the decimal.** -/
theorem readText_text (d : Decimal) : readText d.text.toList = d.value := by
  unfold Decimal.text
  split
  case isTrue whole =>
    rw [readText_positional, Decimal.value, pow_zero, div_one, Nat.pow_eq, Nat.cast_mul,
      Nat.cast_pow, Nat.cast_ofNat, ← zpow_natCast, Int.toNat_of_nonneg whole]
  case isFalse parts =>
    rw [readText_positional, Decimal.value, ← zpow_natCast, Int.toNat_of_nonneg (by omega),
      zpow_neg, div_inv_eq_mul]

/-- **The text of a magnitude reads as a number that rounds to it.** -/
theorem Magnitude.Valid.rounds_text {m : Magnitude} (h : m.Valid) :
    m.Rounds (readText m.text.toList) := by
  unfold Magnitude.text
  split
  case isTrue zero =>
    have value : readText "0".toList = 0 := by
      have read := readText_positional 0 0
      rwa [Nat.cast_zero, zero_div] at read
    rw [value, Magnitude.Rounds, if_pos (by rw [zero]), Magnitude.low, Magnitude.high, zero]
    constructor
    · split <;> simp
    · positivity
  case isFalse positive =>
    rw [readText_text]
    exact digitsFor_rounds h (Nat.pos_of_ne_zero positive)

/-- **The text of a magnitude tells it apart.** -/
theorem Magnitude.Valid.eq_of_text {m m' : Magnitude} (h : m.Valid) (h' : m'.Valid)
    (same : m.text = m'.text) : m = m' :=
  h.rounds_text.unique h h' (same ▸ h'.rounds_text)

/-! ### The characters of a text -/

/-- Digits and a point, and nothing else. -/
def Plain (text : String) : Prop := ∀ c ∈ text.toList, c.isDigit ∨ c = '.'

lemma plain_positional (units places : ℕ) : Plain (positional units places) := by
  intro c hc
  by_cases h : places = 0
  · refine .inl (isDigit_of_mem_toDigits (n := units) ?_)
    simpa [positional, h] using hc
  · rw [toList_positional h, List.mem_append, List.mem_cons] at hc
    obtain whole | point | fraction := hc
    · exact .inl (isDigit_of_mem_toDigits whole)
    · exact .inr point
    · exact .inl (isDigit_of_mem_fractionDigits fraction)

lemma Magnitude.plain_text (m : Magnitude) : Plain m.text := by
  unfold Magnitude.text Decimal.text
  split
  · exact plain_positional 0 0
  · split <;> exact plain_positional _ _

theorem comma_notMem_text (x : Float) : ',' ∉ (text x).toList := by
  have magnitude (m : Magnitude) : ',' ∉ m.text.toList := fun h => by
    simpa using m.plain_text ',' h
  unfold text Parts.textWith
  cases parts x with
  | nan => decide
  | infinite negative => cases negative <;> decide
  | finite negative m =>
    cases negative with
    | false => exact magnitude m
    | true => simpa [String.toList_append] using magnitude m

/-! ### Texts tell numbers apart -/

/-- A sign and a plain text have none of the letters that name the other values. -/
lemma Parts.textWith_finite_ne {negative : Bool} {m : Magnitude} {word : String} {letter : Char}
    (member : letter ∈ word.toList)
    (other : letter.isDigit = false ∧ letter ≠ '.' ∧ letter ≠ '-') :
    (Parts.finite negative m).textWith Magnitude.text ≠ word := by
  rintro rfl
  have plain : letter ∉ m.text.toList := fun h => by
    obtain digit | point := m.plain_text letter h
    · rw [other.1] at digit
      cases digit
    · exact other.2.1 point
  cases negative with
  | false => exact plain member
  | true => simp [textWith, String.toList_append, other, plain] at member

lemma Parts.textWith_finite_inj {s t : Bool} {m m' : Magnitude}
    (same : (Parts.finite s m).textWith Magnitude.text =
      (Parts.finite t m').textWith Magnitude.text) : s = t ∧ m.text = m'.text := by
  -- a plain text does not begin with a sign
  have unsigned (m : Magnitude) (text : String) : m.text ≠ "-" ++ text := fun h => by
    simpa using m.plain_text '-' (by simp [h, String.toList_append])
  cases s with
  | false =>
    cases t with
    | false => exact ⟨rfl, same⟩
    | true => exact absurd same (unsigned m _)
  | true =>
    cases t with
    | false => exact absurd same.symm (unsigned m' _)
    | true =>
      exact ⟨rfl, by simpa [textWith, ← String.toList_inj, String.toList_append] using same⟩

theorem Parts.eq_of_textWith {p q : Parts} (hp : p.Valid) (hq : q.Valid)
    (same : p.textWith Magnitude.text = q.textWith Magnitude.text) : p = q := by
  have hasN : 'N' ∈ (Parts.nan.textWith Magnitude.text).toList := by decide
  have hasI (s : Bool) : 'i' ∈ ((Parts.infinite s).textWith Magnitude.text).toList := by
    cases s <;> decide
  cases p with
  | nan =>
    cases q with
    | nan => rfl
    | infinite t => cases t <;> simp [textWith] at same
    | finite t m' =>
      exact absurd same.symm (textWith_finite_ne hasN (by decide))
  | infinite s =>
    cases q with
    | nan => cases s <;> simp [textWith] at same
    | infinite t => cases s <;> cases t <;> simp [textWith] at same ⊢
    | finite t m' =>
      exact absurd same.symm (textWith_finite_ne (hasI s) (by decide))
  | finite s m =>
    cases q with
    | nan => exact absurd same (textWith_finite_ne hasN (by decide))
    | infinite t =>
      exact absurd same (textWith_finite_ne (hasI t) (by decide))
    | finite t m' =>
      obtain ⟨rfl, texts⟩ := textWith_finite_inj same
      rw [Magnitude.Valid.eq_of_text hp hq texts]

/-- **The text tells all numbers apart.** -/
theorem text_injective {x y : Float} (h : text x = text y) : x = y :=
  parts_injective (Parts.eq_of_textWith (valid_parts x) (valid_parts y) h)

end Autotune.Number
