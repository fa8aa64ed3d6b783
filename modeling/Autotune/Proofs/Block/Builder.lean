import Autotune.Block.Builder
import Autotune.Proofs.Refusal
import Autotune.Proofs.Roster

/-!
# What a builder accepts

`Builder.build_eq_ok` lists what the parts of a block have passed when it is built, and what the
block consists of then.  The steps of building have a lemma each:

* `Builder.fits_of_register`: every registered state fits the points;
* `Builder.mem_registered`: the registered states are the given ones, since no two share a name;
* `Builder.mem_adaptors`: the adaptors of the block are the given ones, since no two share a metric;
* `Builder.exists_register_iff`, `Builder.exists_adaptors_iff`: when there is nothing to refuse;
* `Builder.lt_of_watch`: every watched metric exists.
-/

namespace Autotune

variable {kn mn : Nat}

lemma Roster.mem_foldlM {α κ : Type} [Keyed α κ] [LT κ] [DecidableLT κ] [DecidableEq κ] [KeyOrder κ]
    {file : Roster α → α → Except Fault (Roster α)}
    (files : ∀ r a r', file r a = .ok r' → ¬ r.contains (Keyed.key a) ∧ r.insert a = r')
    {as : List α} {r r' : Roster α} (h : as.foldlM file r = .ok r') {a : α} :
    a ∈ r'.items ↔ a ∈ r.items ∨ a ∈ as := by
  induction as generalizing r with
  | nil =>
    rw [List.foldlM_nil, pure_eq_ok] at h
    simp [h]
  | cons b rest ih =>
    rw [List.foldlM_cons, bind_eq_ok] at h
    obtain ⟨next, first, rest⟩ := h
    obtain ⟨free, rfl⟩ := files r b next first
    have apart : ∀ a ∈ r.items, Keyed.key a ≠ Keyed.key b :=
      fun a ha same => free (Roster.contains_iff.mpr ⟨a, ha, same⟩)
    rw [ih rest, Roster.mem_insert, List.mem_cons]
    constructor
    · rintro ((rfl | ⟨ha, -⟩) | ha)
      · exact .inr (.inl rfl)
      · exact .inl ha
      · exact .inr (.inr ha)
    · rintro (ha | rfl | ha)
      · exact .inl (.inr ⟨ha, apart a ha⟩)
      · exact .inl (.inl rfl)
      · exact .inr ha

/-- Filing items one after the other succeeds if each of them is accepted and no two share a key. -/
lemma Roster.exists_foldlM_iff {α κ : Type} [Keyed α κ] [LT κ] [DecidableLT κ] [DecidableEq κ]
    [KeyOrder κ] {file : Roster α → α → Except Fault (Roster α)} {Accepts : α → Prop}
    (files : ∀ r a r', file r a = .ok r' ↔
      Accepts a ∧ ¬ r.contains (Keyed.key a) ∧ r.insert a = r')
    {as : List α} {r : Roster α} :
    (∃ r', as.foldlM file r = .ok r') ↔
      (∀ a ∈ as, Accepts a) ∧ (∀ a ∈ as, ¬ r.contains (Keyed.key a)) ∧
        (as.map Keyed.key).Nodup := by
  induction as generalizing r with
  | nil => exact iff_of_true ⟨r, rfl⟩ (by simp)
  | cons a as ih =>
    have first : (∃ r', (a :: as).foldlM file r = .ok r') ↔
        Accepts a ∧ ¬ r.contains (Keyed.key a) ∧ ∃ r', as.foldlM file (r.insert a) = .ok r' := by
      simp only [List.foldlM_cons, bind_eq_ok, files]
      constructor
      · rintro ⟨r', next, ⟨accepted, free, rfl⟩, rest⟩
        exact ⟨accepted, free, r', rest⟩
      · rintro ⟨accepted, free, r', rest⟩
        exact ⟨r', _, ⟨accepted, free, rfl⟩, rest⟩
    rw [first, ih, List.forall_mem_cons, List.forall_mem_cons, List.map_cons, List.nodup_cons]
    simp only [Roster.contains_insert, not_or, List.mem_map, not_exists, not_and]
    constructor
    · rintro ⟨accepted, free, accepts, frees, distinct⟩
      exact ⟨⟨accepted, accepts⟩, ⟨free, fun b hb => (frees b hb).2⟩,
        fun b hb same => (frees b hb).1 same.symm, distinct⟩
    · rintro ⟨⟨accepted, accepts⟩, ⟨free, frees⟩, apart, distinct⟩
      exact ⟨accepted, free, accepts, fun b hb => ⟨fun same => apart b hb same.symm, frees b hb⟩,
        distinct⟩

namespace Adaptors

variable {as bs : Adaptors} {a b : Adaptor}

lemma add_eq_ok : as.add a = .ok bs ↔ ¬ as.contains a.metric ∧ as.insert a = bs := by
  unfold add
  split <;> simp [*]

lemma validate_eq_ok : as.validate mn = .ok ⟨⟩ ↔ ∀ a ∈ as.items, a.metric < mn := by
  unfold validate
  split
  case h_1 a found =>
    have outside : mn ≤ a.metric := by simpa using List.find?_some found
    simp only [reduceCtorEq, false_iff]
    intro inside
    exact absurd (inside a (List.mem_of_find?_eq_some found)) (Nat.not_lt.mpr outside)
  case h_2 none => simpa using none

end Adaptors

namespace Builder

lemma registers_iff {points : List (OperatingPoint kn mn)} (r : Roster State) (s : State)
    (r' : Roster State) :
    (do
      s.validate points
      if r.contains s.name then .error (.duplicateState s.name)
      return r.insert s) = .ok r' ↔
        s.validate points = .ok ⟨⟩ ∧ ¬ r.contains s.name ∧ r.insert s = r' := by
  simp only [bind_eq_ok, guard_eq_ok, pure_eq_ok]
  constructor
  · rintro ⟨⟨⟩, fits, new⟩
    exact ⟨fits, new⟩
  · rintro ⟨fits, new⟩
    exact ⟨⟨⟩, fits, new⟩

lemma fits_of_register {points : List (OperatingPoint kn mn)} {states : List State}
    {registered : Roster State} (h : register points states = .ok registered) :
    ∀ s ∈ registered.items, s.validate points = .ok ⟨⟩ := by
  refine foldlM_eq_ok (motive := fun r : Roster State => ∀ s ∈ r.items, s.validate points = .ok ⟨⟩)
    (fun s hs => by cases hs) (fun r s r' _ fits step => ?_) h
  obtain ⟨fit, -, rfl⟩ := (registers_iff r s r').mp step
  intro t ht
  obtain rfl | ⟨ht, -⟩ := Roster.mem_insert.mp ht
  · exact fit
  · exact fits t ht

lemma mem_registered {points : List (OperatingPoint kn mn)} {states : List State}
    {registered : Roster State} (h : register points states = .ok registered) {s : State} :
    s ∈ registered.items ↔ s ∈ states := by
  rw [Roster.mem_foldlM (fun r s r' step => ((registers_iff r s r').mp step).2) h]
  simp [Roster.empty]

/-- **States are registered if each fits the points and no two share a name.** -/
lemma exists_register_iff {points : List (OperatingPoint kn mn)} {states : List State} :
    (∃ registered, register points states = .ok registered) ↔
      (∀ s ∈ states, s.validate points = .ok ⟨⟩) ∧ (states.map State.name).Nodup := by
  have free : ∀ s ∈ states, ¬ (Roster.empty : Roster State).contains (Keyed.key s) :=
    fun _ _ => Bool.false_ne_true
  rw [register, Roster.exists_foldlM_iff registers_iff, and_iff_right free]
  rfl

lemma mem_adaptors {adaptors : List Adaptor} {as bs : Adaptors} {a : Adaptor}
    (h : adaptors.foldlM Adaptors.add as = .ok bs) :
    a ∈ bs.items ↔ a ∈ as.items ∨ a ∈ adaptors :=
  Roster.mem_foldlM (fun _ _ _ => Adaptors.add_eq_ok.mp) h

lemma exists_adaptors_iff {adaptors : List Adaptor} :
    (∃ as, adaptors.foldlM Adaptors.add (Roster.empty : Adaptors) = .ok as) ↔
      (adaptors.map Adaptor.metric).Nodup := by
  have files (as : Adaptors) (a : Adaptor) (bs : Adaptors) : as.add a = .ok bs ↔
      True ∧ ¬ as.contains (Keyed.key a) ∧ as.insert a = bs := by
    rw [true_and]
    exact Adaptors.add_eq_ok
  have free : ∀ a ∈ adaptors, ¬ (Roster.empty : Adaptors).contains (Keyed.key a) :=
    fun _ _ => Bool.false_ne_true
  rw [Roster.exists_foldlM_iff files, and_iff_right fun _ _ => trivial, and_iff_right free]
  rfl

lemma lt_of_watch {monitors watched watching : List (Nat × MonitorId)}
    (start : ∀ entry ∈ monitors, entry.1 < mn) (h : watch mn monitors watched = .ok watching) :
    ∀ entry ∈ watching, entry.1 < mn := by
  refine foldlM_eq_ok (motive := fun entries : List (Nat × MonitorId) => ∀ entry ∈ entries,
    entry.1 < mn) start (fun entries (metric, monitor) entries' _ inRange step => ?_) h
  dsimp only at step
  split at step
  · cases step
  case isFalse inside =>
    split at step
    · cases step
      exact inRange
    · cases step
      intro entry he
      obtain he | he := List.mem_append.mp he
      · exact inRange entry he
      · obtain rfl := List.mem_singleton.mp he
        exact Nat.not_le.mp inside

/-- The states of a block, once the given ones are registered. -/
def allStates (parts : Builder kn mn) (registered : Roster State) : Roster State :=
  if parts.states.isEmpty then registered.insert defaultState else registered

lemma allStates_of_mem {parts : Builder kn mn} {s : State} (given : s ∈ parts.states)
    (registered : Roster State) : parts.allStates registered = registered := by
  have some : parts.states.isEmpty = false := List.isEmpty_eq_false_iff.mpr (List.ne_nil_of_mem given)
  rw [allStates, some, if_neg Bool.false_ne_true]

/-- The name of the state that is active first. -/
def activeName (parts : Builder kn mn) : String :=
  parts.active.getD ((parts.states.head?.map State.name).getD defaultStateName)

/-- The metrics that are watched by the monitor of an adaptor. -/
def adapted (parts : Builder kn mn) : List (Nat × MonitorId) :=
  parts.adaptors.map fun a => (a.metric, a.monitor)

/-- **What an accepted builder has passed, and the block it yields.** -/
theorem build_eq_ok {parts : Builder kn mn} {built : Logged (Block kn mn)}
    (h : parts.build = .ok built) :
    ∃ knowledge registered adaptors monitors telemetry,
      Knowledge.ofPoints parts.points = .ok knowledge ∧
      register knowledge.points parts.states = .ok registered ∧
      (parts.allStates registered).contains parts.activeName ∧
      parts.adaptors.foldlM Adaptors.add Roster.empty = .ok adaptors ∧
      adaptors.validate mn = .ok ⟨⟩ ∧
      watch mn parts.adapted parts.watched = .ok monitors ∧
      built.value = ⟨telemetry, knowledge, .closed, parts.allStates registered, parts.activeName,
        adaptors, monitors, none⟩ := by
  simp only [build, bind_eq_ok, guard_eq_ok, pure_eq_ok] at h
  obtain ⟨knowledge, points, registered, states, active, adaptors, added, ⟨⟩, inRange, monitors,
    watched, rfl⟩ := h
  rw [Bool.not_eq_true, Bool.not_eq_false'] at active
  exact ⟨knowledge, registered, adaptors, monitors, _, points, states, active, added, inRange,
    watched, rfl⟩

end Builder

end Autotune
