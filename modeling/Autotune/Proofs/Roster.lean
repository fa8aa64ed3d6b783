import Autotune.Roster
import Mathlib.Data.List.Sort

/-!
# Looking things up in rosters

In a roster no two items share a key, so an item is found under its key and under no other
(`Roster.get?_eq_some_iff`).  The lemmas `Roster.mem_insert` and `Roster.mem_erase` say what filing
and dropping an item do to the items, and those on `Roster.contains` what becomes of the keys.  A
roster is determined by its items (`Roster.eq_of_mem_iff`), whence the laws on filing, dropping and
changing.

`leastOf` and `least?` find the least element by any transitive order, and of equal ones the
earliest: `leastOf_mem` and `isLE_leastOf` for the former, `least?_eq_none` and `least?_eq_some` for
the latter.
-/

namespace Autotune

lemma filterMap_singleton {α β : Type} (f : α → Option β) (a : α) :
    [a].filterMap f = (f a).toList := by
  rw [List.filterMap_cons]
  cases f a <;> rfl

namespace Roster

section

variable {α κ : Type} [Keyed α κ] [LT κ] {r : Roster α} {a b : α} {k : κ}

lemma each_value {β : Type} {f : α → Logged (β × α)}
    {keeps : ∀ a, Keyed.key (f a).value.2 = Keyed.key a} :
    (r.each f keeps).value =
      (r.items.map fun a => (f a).value.1, r.map (fun a => (f a).value.2) keeps) := by
  have steps (as : List α) : (Logged.each f as).value = as.map fun a => (f a).value := by
    induction as with
    | nil => rfl
    | cons a as ih => exact congrArg ((f a).value :: ·) ih
  rw [each, steps, List.map_map]
  rfl

variable [DecidableEq κ]

lemma contains_iff : r.contains k = true ↔ ∃ a ∈ r.items, Keyed.key a = k := by
  simp [contains]

lemma mem_erase : a ∈ (r.erase k).items ↔ a ∈ r.items ∧ Keyed.key a ≠ k := by
  simp [erase]

lemma mem_modify {f : α → α} {keeps : ∀ a, Keyed.key (f a) = Keyed.key a} :
    a ∈ (r.modify k f keeps).items ↔
      (∃ b ∈ r.items, Keyed.key b = k ∧ f b = a) ∨ a ∈ r.items ∧ Keyed.key a ≠ k := by
  constructor
  · intro ha
    obtain ⟨b, hb, rfl⟩ := List.mem_map.mp ha
    by_cases here : Keyed.key b = k
    · exact .inl ⟨b, hb, here, (if_pos here).symm⟩
    · rw [if_neg here]
      exact .inr ⟨hb, here⟩
  · rintro (⟨b, hb, here, rfl⟩ | ⟨ha, elsewhere⟩)
    · exact List.mem_map.mpr ⟨b, hb, if_pos here⟩
    · exact List.mem_map.mpr ⟨a, ha, if_neg elsewhere⟩

lemma contains_map (f : α → α) (keeps : ∀ a, Keyed.key (f a) = Keyed.key a) :
    (r.map f keeps).contains k = r.contains k := by
  simp [contains, map, Function.comp_def, keeps]

lemma get?_map (f : α → α) (keeps : ∀ a, Keyed.key (f a) = Keyed.key a) :
    (r.map f keeps).get? k = (r.get? k).map f := by
  simp only [get?, map, List.find?_map, Function.comp_def, keeps]

lemma contains_erase {k' : κ} :
    (r.erase k).contains k' = true ↔ k' ≠ k ∧ r.contains k' = true := by
  simp only [contains_iff, mem_erase]
  constructor
  · rintro ⟨a, ⟨ha, other⟩, rfl⟩
    exact ⟨other, a, ha, rfl⟩
  · rintro ⟨other, a, ha, rfl⟩
    exact ⟨a, ⟨ha, other⟩, rfl⟩

end

section

variable {α κ : Type} [Keyed α κ] [LT κ] [KeyOrder κ] {r : Roster α} {a b : α} {k : κ}

lemma eq_of_key_eq (ha : a ∈ r.items) (hb : b ∈ r.items) (h : Keyed.key a = Keyed.key b) :
    a = b := by
  have apart {a b : α} (less : Keyed.key a < Keyed.key b) : Keyed.key a ≠ Keyed.key b :=
    fun same => KeyOrder.lt_irrefl _ (same ▸ less)
  refine List.Pairwise.forall_of_forall_of_flip (R := fun a b => Keyed.key a = Keyed.key b → a = b)
    (fun _ _ _ => rfl) ?_ ?_ ha hb h
  · exact r.ascending.imp fun less same => absurd same (apart less)
  · exact r.ascending.imp fun less same => absurd same.symm (apart less)

/-- **An item is found under its key, and nothing else is.** -/
theorem get?_eq_some_iff [DecidableEq κ] :
    r.get? k = some a ↔ a ∈ r.items ∧ Keyed.key a = k := by
  constructor
  · intro h
    exact ⟨List.mem_of_find?_eq_some h, by simpa using List.find?_some h⟩
  · rintro ⟨ha, rfl⟩
    have found : (r.get? (Keyed.key a)).isSome := by
      rw [get?, List.find?_isSome]
      exact ⟨a, ha, by simp⟩
    obtain ⟨b, hb⟩ := Option.isSome_iff_exists.mp found
    have same : Keyed.key b = Keyed.key a := by simpa using List.find?_some hb
    rw [hb, eq_of_key_eq (List.mem_of_find?_eq_some hb) ha same]

lemma nodup_keys (r : Roster α) : (r.items.map Keyed.key).Nodup := by
  refine List.pairwise_map.mpr (r.ascending.imp fun less same => ?_)
  rw [same] at less
  exact KeyOrder.lt_irrefl _ less

lemma filterMap_get?_keys [DecidableEq κ] (r : Roster α) :
    (r.items.map Keyed.key).filterMap r.get? = r.items := by
  have found : ∀ a ∈ r.items, (r.get? ∘ Keyed.key) a = some a :=
    fun a ha => get?_eq_some_iff.mpr ⟨ha, rfl⟩
  rw [List.filterMap_map, List.filterMap_congr found, List.filterMap_some]

/-- **Whoever looks up all keys, in any order, meets every item once.** -/
theorem perm_filterMap_get? [DecidableEq κ] {keys : List κ}
    (perm : keys.Perm (r.items.map Keyed.key)) : (keys.filterMap r.get?).Perm r.items :=
  (perm.filterMap _).trans (.of_eq r.filterMap_get?_keys)

lemma mem_insert [DecidableLT κ] :
    b ∈ (r.insert a).items ↔ b = a ∨ b ∈ r.items ∧ Keyed.key b ≠ Keyed.key a := by
  simp only [insert, List.mem_append, List.mem_cons, List.mem_filter, decide_eq_true_eq]
  constructor
  · rintro (⟨hb, less⟩ | rfl | ⟨hb, less⟩)
    · exact .inr ⟨hb, fun same => KeyOrder.lt_irrefl _ (same ▸ less)⟩
    · exact .inl rfl
    · exact .inr ⟨hb, fun same => KeyOrder.lt_irrefl _ (same ▸ less)⟩
  · rintro (rfl | ⟨hb, other⟩)
    · exact .inr (.inl rfl)
    · obtain less | same | greater := KeyOrder.lt_trichotomy (Keyed.key b) (Keyed.key a)
      · exact .inl ⟨hb, less⟩
      · exact absurd same other
      · exact .inr (.inr ⟨hb, greater⟩)

lemma contains_insert [DecidableLT κ] [DecidableEq κ] :
    (r.insert a).contains k = true ↔ Keyed.key a = k ∨ r.contains k = true := by
  simp only [contains_iff, mem_insert]
  constructor
  · rintro ⟨b, rfl | ⟨hb, -⟩, same⟩
    · exact .inl same
    · exact .inr ⟨b, hb, same⟩
  · rintro (same | ⟨b, hb, rfl⟩)
    · exact ⟨a, .inl rfl, same⟩
    · by_cases same : Keyed.key b = Keyed.key a
      · exact ⟨a, .inl rfl, same.symm⟩
      · exact ⟨b, .inr ⟨hb, same⟩, rfl⟩

/-! ### Laws of filing and dropping -/

/-- **Rosters of the same items are equal.** -/
theorem eq_of_mem_iff {r r' : Roster α} (h : ∀ a, a ∈ r.items ↔ a ∈ r'.items) : r = r' := by
  have irrefl : Std.Irrefl fun a b : α => Keyed.key a < Keyed.key b :=
    ⟨fun a => KeyOrder.lt_irrefl (Keyed.key a)⟩
  have antisymm : Std.Antisymm fun a b : α => Keyed.key a < Keyed.key b :=
    ⟨fun a b less greater => absurd (KeyOrder.lt_trans less greater) (KeyOrder.lt_irrefl _)⟩
  obtain ⟨items, ascending⟩ := r
  obtain ⟨items', ascending'⟩ := r'
  obtain rfl : items = items' := ascending.eq_of_mem_iff ascending' h
  rfl

lemma insert_of_mem [DecidableLT κ] (h : a ∈ r.items) : r.insert a = r := by
  refine eq_of_mem_iff fun b => ?_
  rw [mem_insert]
  constructor
  · rintro (rfl | ⟨hb, -⟩)
    · exact h
    · exact hb
  · intro hb
    by_cases same : Keyed.key b = Keyed.key a
    · exact .inl (eq_of_key_eq hb h same)
    · exact .inr ⟨hb, same⟩

lemma insert_insert [DecidableLT κ] (h : Keyed.key a = Keyed.key b) :
    (r.insert a).insert b = r.insert b := by
  refine eq_of_mem_iff fun c => ?_
  simp only [mem_insert]
  constructor
  · rintro (rfl | ⟨rfl | ⟨hc, -⟩, other⟩)
    · exact .inl rfl
    · exact absurd h other
    · exact .inr ⟨hc, other⟩
  · rintro (rfl | ⟨hc, other⟩)
    · exact .inl rfl
    · exact .inr ⟨.inr ⟨hc, h ▸ other⟩, other⟩

lemma erase_insert [DecidableLT κ] [DecidableEq κ] (free : ¬ r.contains (Keyed.key a)) :
    (r.insert a).erase (Keyed.key a) = r := by
  refine eq_of_mem_iff fun b => ?_
  rw [mem_erase, mem_insert]
  constructor
  · rintro ⟨rfl | ⟨hb, -⟩, other⟩
    · exact absurd rfl other
    · exact hb
  · intro hb
    have other : Keyed.key b ≠ Keyed.key a := fun same => free (contains_iff.mpr ⟨b, hb, same⟩)
    exact ⟨.inr ⟨hb, other⟩, other⟩

lemma get?_insert [DecidableLT κ] [DecidableEq κ] :
    (r.insert a).get? k = if Keyed.key a = k then some a else r.get? k := by
  refine Option.ext fun b => ?_
  rw [get?_eq_some_iff, mem_insert]
  split
  case isTrue here =>
    constructor
    · rintro ⟨rfl | ⟨-, other⟩, same⟩
      · rfl
      · exact absurd (same.trans here.symm) other
    · rintro ⟨⟩
      exact ⟨.inl rfl, here⟩
  case isFalse elsewhere =>
    rw [get?_eq_some_iff]
    constructor
    · rintro ⟨rfl | ⟨hb, -⟩, same⟩
      · exact absurd same elsewhere
      · exact ⟨hb, same⟩
    · rintro ⟨hb, rfl⟩
      exact ⟨.inr ⟨hb, fun same => elsewhere same.symm⟩, rfl⟩

/-! ### Laws of changing every item -/

lemma map_congr {f g : α → α} {keeps : ∀ a, Keyed.key (f a) = Keyed.key a}
    {keeps' : ∀ a, Keyed.key (g a) = Keyed.key a} (h : ∀ a ∈ r.items, f a = g a) :
    r.map f keeps = r.map g keeps' := by
  have items : (r.map f keeps).items = (r.map g keeps').items := List.map_congr_left h
  exact eq_of_mem_iff fun a => by rw [items]

lemma map_map {f g : α → α} {keeps : ∀ a, Keyed.key (f a) = Keyed.key a}
    {keeps' : ∀ a, Keyed.key (g a) = Keyed.key a} :
    (r.map f keeps).map g keeps' = r.map (g ∘ f) fun a => (keeps' (f a)).trans (keeps a) := by
  have items : ((r.map f keeps).map g keeps').items = r.items.map (g ∘ f) := List.map_map
  exact eq_of_mem_iff fun a => by rw [items]; rfl

lemma map_map_of_absorbs {f g : α → α} (keeps : ∀ a, Keyed.key (f a) = Keyed.key a)
    {keeps' : ∀ a, Keyed.key (g a) = Keyed.key a} (absorbs : ∀ a, g (f a) = g a) :
    (r.map f keeps).map g keeps' = r.map g keeps' := by
  rw [map_map]
  exact map_congr fun a _ => absorbs a

lemma map_of_fixed {f : α → α} {keeps : ∀ a, Keyed.key (f a) = Keyed.key a}
    (h : ∀ a ∈ r.items, f a = a) : r.map f keeps = r := by
  have items : (r.map f keeps).items = r.items := (List.map_congr_left h).trans (List.map_id' _)
  exact eq_of_mem_iff fun a => by rw [items]

lemma map_insert [DecidableLT κ] {f : α → α} {keeps : ∀ a, Keyed.key (f a) = Keyed.key a} :
    (r.insert a).map f keeps = (r.map f keeps).insert (f a) := by
  refine eq_of_mem_iff fun b => ?_
  rw [mem_insert]
  constructor
  · intro hb
    obtain ⟨c, hc, rfl⟩ := List.mem_map.mp hb
    obtain rfl | ⟨hc, other⟩ := mem_insert.mp hc
    · exact .inl rfl
    · exact .inr ⟨List.mem_map_of_mem hc, by rwa [keeps, keeps]⟩
  · rintro (rfl | ⟨hb, other⟩)
    · exact List.mem_map_of_mem (mem_insert.mpr (.inl rfl))
    · obtain ⟨c, hc, rfl⟩ := List.mem_map.mp hb
      rw [keeps, keeps] at other
      exact List.mem_map_of_mem (mem_insert.mpr (.inr ⟨hc, other⟩))

lemma map_foldl_insert [DecidableLT κ] {f : α → α} {keeps : ∀ a, Keyed.key (f a) = Keyed.key a}
    {as : List α} :
    (as.foldl insert r).map f keeps = (as.map f).foldl insert (r.map f keeps) := by
  induction as generalizing r with
  | nil => rfl
  | cons a as ih => rw [List.foldl_cons, ih, map_insert, List.map_cons, List.foldl_cons]

lemma map_erase [DecidableEq κ] {f : α → α} {keeps : ∀ a, Keyed.key (f a) = Keyed.key a} :
    (r.erase k).map f keeps = (r.map f keeps).erase k := by
  refine eq_of_mem_iff fun b => ?_
  rw [mem_erase]
  constructor
  · intro hb
    obtain ⟨c, hc, rfl⟩ := List.mem_map.mp hb
    obtain ⟨hc, other⟩ := mem_erase.mp hc
    exact ⟨List.mem_map_of_mem hc, by rwa [keeps]⟩
  · rintro ⟨hb, other⟩
    obtain ⟨c, hc, rfl⟩ := List.mem_map.mp hb
    rw [keeps] at other
    exact List.mem_map_of_mem (mem_erase.mpr ⟨hc, other⟩)

lemma map_modify [DecidableEq κ] {f g : α → α} {keeps : ∀ a, Keyed.key (f a) = Keyed.key a}
    {keeps' : ∀ a, Keyed.key (g a) = Keyed.key a} (commutes : ∀ a, f (g a) = g (f a)) :
    (r.modify k g keeps').map f keeps = (r.map f keeps).modify k g keeps' := by
  rw [modify, map_map, modify, map_map]
  refine map_congr fun a _ => ?_
  dsimp only [Function.comp]
  rw [keeps, apply_ite f, commutes]

lemma modify_modify [DecidableEq κ] {f g : α → α} {keeps : ∀ a, Keyed.key (f a) = Keyed.key a}
    {keeps' : ∀ a, Keyed.key (g a) = Keyed.key a} :
    (r.modify k f keeps).modify k g keeps' =
      r.modify k (g ∘ f) fun a => (keeps' (f a)).trans (keeps a) := by
  rw [modify, modify, map_map]
  refine map_congr fun a _ => ?_
  by_cases here : Keyed.key a = k
  · simp [here, keeps]
  · simp [here]

lemma get?_modify [DecidableEq κ] {f : α → α} {keeps : ∀ a, Keyed.key (f a) = Keyed.key a} :
    (r.modify k f keeps).get? k = (r.get? k).map f := by
  rw [modify, get?_map]
  refine Option.map_congr fun a found => if_pos ?_
  exact (get?_eq_some_iff.mp found).2

/-- To file a changed item in place of the one that is found is to change that one. -/
lemma insert_of_get? [DecidableLT κ] [DecidableEq κ] {f : α → α}
    {keeps : ∀ a, Keyed.key (f a) = Keyed.key a} (found : r.get? k = some a) :
    r.insert (f a) = r.modify k f keeps := by
  obtain ⟨ha, rfl⟩ := get?_eq_some_iff.mp found
  refine eq_of_mem_iff fun b => ?_
  rw [mem_insert, mem_modify, keeps]
  refine or_congr_left ⟨fun same => ⟨a, ha, rfl, same.symm⟩, ?_⟩
  rintro ⟨c, hc, here, rfl⟩
  rw [eq_of_key_eq hc ha here]

lemma modify_of_get?_eq_none [DecidableEq κ] {f : α → α}
    {keeps : ∀ a, Keyed.key (f a) = Keyed.key a} (missing : r.get? k = none) :
    r.modify k f keeps = r := by
  refine map_of_fixed fun a ha => if_neg fun here => ?_
  rw [get?_eq_some_iff.mpr ⟨ha, here⟩] at missing
  cases missing

end

end Roster

/-! ### The first of the least -/

section

variable {α : Type} {compare : α → α → Ordering} {a b m : α} {as : List α}

lemma leastOf_cons :
    leastOf compare a (b :: as) = leastOf compare (if (compare b a).isLT then b else a) as := rfl

lemma leastOf_mem : leastOf compare a as ∈ a :: as := by
  induction as generalizing a with
  | nil => simp [leastOf]
  | cons b as ih =>
    rw [leastOf_cons]
    obtain h | h := List.mem_cons.mp (ih (a := if (compare b a).isLT then b else a))
    · rw [h]
      split <;> simp
    · exact List.mem_cons_of_mem _ (List.mem_cons_of_mem _ h)

/-- The incumbent after one more element is at most the old incumbent and at most the element. -/
lemma isLE_incumbent (compare : α → α → Ordering) [Std.TransCmp compare] (a b : α) :
    (compare (if (compare b a).isLT then b else a) a).isLE ∧
      (compare (if (compare b a).isLT then b else a) b).isLE := by
  split
  case isTrue less =>
    exact ⟨Ordering.isLE_of_eq_lt (Ordering.isLT_iff_eq_lt.mp less), Std.ReflCmp.isLE_rfl⟩
  case isFalse less =>
    have notLess : (compare b a).isLT = false := by simpa only [Bool.not_eq_true] using less
    refine ⟨Std.ReflCmp.isLE_rfl, ?_⟩
    have atLeast : (compare b a).isGE := by rw [← Ordering.not_isLT_eq_isGE, notLess, Bool.not_false]
    exact Std.OrientedCmp.isLE_of_isGE atLeast

lemma isLE_leastOf [Std.TransCmp compare] (h : b ∈ a :: as) :
    (compare (leastOf compare a as) b).isLE := by
  induction as generalizing a b with
  | nil =>
    obtain rfl : b = a := by simpa using h
    exact Std.ReflCmp.isLE_rfl
  | cons c as ih =>
    rw [leastOf_cons]
    obtain ⟨below, below'⟩ := isLE_incumbent compare a c
    have kept := ih (a := if (compare c a).isLT then c else a) List.mem_cons_self
    obtain rfl | rfl | h : b = a ∨ b = c ∨ b ∈ as := by simpa using h
    · exact Std.TransCmp.isLE_trans kept below
    · exact Std.TransCmp.isLE_trans kept below'
    · exact ih (List.mem_cons_of_mem _ h)

lemma least?_eq_none : least? compare as = none ↔ as = [] := by
  cases as <;> simp [least?]

lemma least?_eq_some [Std.TransCmp compare] (h : least? compare as = some m) :
    m ∈ as ∧ ∀ b ∈ as, (compare m b).isLE := by
  cases as with
  | nil => cases h
  | cons a as =>
    obtain rfl : leastOf compare a as = m := by simpa [least?] using h
    exact ⟨leastOf_mem, fun b => isLE_leastOf⟩

variable {β : Type} {f : β → α} {c : β} {cs : List β}

lemma leastOf_map :
    leastOf compare (f c) (cs.map f) = f (leastOf (fun c d => compare (f c) (f d)) c cs) := by
  induction cs generalizing c with
  | nil => rfl
  | cons d cs ih =>
    rw [List.map_cons, leastOf_cons, leastOf_cons, ← ih]
    split <;> rfl

lemma least?_map :
    least? compare (cs.map f) = (least? (fun c d => compare (f c) (f d)) cs).map f := by
  cases cs with
  | nil => rfl
  | cons c cs => exact congrArg some leastOf_map

end

end Autotune
