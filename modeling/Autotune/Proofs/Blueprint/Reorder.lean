import Autotune.Proofs.Blueprint.Build
import Autotune.Proofs.State.Reorder
import Mathlib.Data.List.FinRange

/-!
# The order in which a blueprint names its metrics

A blueprint refers to metrics by name.  It may name them in another order (`Blueprint.reorder`), if the
metrics of the points are moved along.

* `Blueprint.state_reorder`, `Blueprint.builder_reorder`: it is resolved into parts that read the same
  fields (`Builder.Reordered`);
* `Builder.Reordered.exists_build_iff`: these are accepted exactly when the other ones are;
* `Blueprint.describes_of_build`: what a block that is built knows and decides by;
* `Blueprint.alike_of_reorder`: so every planned state chooses as before, whatever it has observed and
  whatever is corrected.
-/

namespace Autotune

open Equiv (Perm)

variable {kn mn : Nat} {σ : Perm (Fin mn)}

lemma map_eq_of_forall₂ {α β γ δ : Type} {R : α → β → Prop} {R' : α → γ → Prop} {f : β → δ}
    {g : γ → δ} (same : ∀ a b c, R a b → R' a c → g c = f b) {as : List α} {bs : List β}
    {cs : List γ} (h : List.Forall₂ R as bs) (h' : List.Forall₂ R' as cs) : cs.map g = bs.map f := by
  induction h generalizing cs with
  | nil =>
    cases h'
    rfl
  | cons here _ ih =>
    cases h' with
    | cons here' rest' => rw [List.map_cons, List.map_cons, same _ _ _ here here', ih rest']

/-! ### Parts -/

namespace Builder

variable {parts parts' : Builder kn mn}

/-- The second parts are the first ones for metrics in another order.  What they watch does not
matter. -/
structure Reordered (σ : Perm (Fin mn)) (parts parts' : Builder kn mn) : Prop where
  points : parts'.points = parts.points.map (OperatingPoint.reorder σ)
  states : parts'.states = parts.states.map (State.reorder σ)
  active : parts'.active = parts.active
  adaptors : parts'.adaptors.map Adaptor.metric = (parts.adaptors.map Adaptor.metric).map (moved σ)

namespace Reordered

variable {k : Knowledge kn mn} {registered registered' : Roster State}

lemma names (h : Reordered σ parts parts') :
    parts'.states.map State.name = parts.states.map State.name := by
  rw [h.states, List.map_map]
  rfl

lemma activeName (h : Reordered σ parts parts') : parts'.activeName = parts.activeName := by
  rw [Builder.activeName, Builder.activeName, h.active, ← List.head?_map, ← List.head?_map, h.names]

lemma exists_register_iff (h : Reordered σ parts parts') :
    (∃ registered', register (k.reorder σ).points parts'.states = .ok registered') ↔
      ∃ registered, register k.points parts.states = .ok registered := by
  rw [Builder.exists_register_iff, Builder.exists_register_iff, h.names, h.states, List.forall_mem_map]
  exact and_congr_left fun _ => forall₂_congr fun _ _ => State.validate_reorder

lemma registered_eq (h : Reordered σ parts parts')
    (accepted : register k.points parts.states = .ok registered)
    (accepted' : register (k.reorder σ).points parts'.states = .ok registered') :
    registered' = registered.map (State.reorder σ) (State.key_reorder σ) := by
  refine Roster.eq_of_mem_iff fun s => ?_
  rw [mem_registered accepted', h.states, Roster.map, List.mem_map, List.mem_map]
  simp only [mem_registered accepted]

lemma allStates_eq (h : Reordered σ parts parts') (registered : Roster State) :
    parts'.allStates (registered.map (State.reorder σ) (State.key_reorder σ)) =
      (parts.allStates registered).map (State.reorder σ) (State.key_reorder σ) := by
  rw [allStates, allStates, h.states, List.isEmpty_map]
  split
  · rw [Roster.map_insert]
    rfl
  · rfl

/-- **Parts are accepted exactly when they are for metrics in another order.** -/
theorem exists_build_iff (h : Reordered σ parts parts') (inRange : parts.InRange)
    (inRange' : parts'.InRange) :
    (∃ built, parts'.build = .ok built) ↔ ∃ built, parts.build = .ok built := by
  rw [Builder.exists_build_iff inRange, Builder.exists_build_iff inRange', h.points, h.adaptors,
    List.nodup_map_iff (moved σ).injective, h.activeName]
  constructor
  · rintro ⟨_, registered', known', accepted', active, distinct⟩
    obtain ⟨k, known, rfl⟩ := Knowledge.ofPoints_reorder.mp known'
    obtain ⟨registered, accepted⟩ := h.exists_register_iff.mp ⟨registered', accepted'⟩
    rw [h.registered_eq accepted accepted', h.allStates_eq, Roster.contains_map] at active
    exact ⟨k, registered, known, accepted, active, distinct⟩
  · rintro ⟨k, registered, known, accepted, active, distinct⟩
    obtain ⟨registered', accepted'⟩ := h.exists_register_iff.mpr ⟨registered, accepted⟩
    refine ⟨k.reorder σ, registered', Knowledge.ofPoints_reorder.mpr ⟨k, known, rfl⟩, accepted', ?_,
      distinct⟩
    rw [h.registered_eq accepted accepted', h.allStates_eq, Roster.contains_map]
    exact active

end Reordered

end Builder

namespace Blueprint

variable {d : Blueprint} {τ : Perm (Fin d.metrics.length)} {field : FieldRef} {i : Nat}

/-! ### Names -/

/-- The blueprint with the names of its metrics moved. -/
def reorder (d : Blueprint) (τ : Perm (Fin d.metrics.length)) : Blueprint :=
  { d with metrics := List.ofFn fun j => d.metrics[τ.symm j] }

lemma length_metrics_reorder : (d.reorder τ).metrics.length = d.metrics.length := List.length_ofFn

lemma getElem?_metrics_reorder (i : Nat) : (d.reorder τ).metrics[moved τ i]? = d.metrics[i]? := by
  have entries : List.ofFn (fun j : Fin d.metrics.length => d.metrics[j]) = d.metrics :=
    List.ofFn_getElem
  rw [reorder, getElem?_ofFn_moved fun j => d.metrics[j], entries]

lemma mem_metrics_reorder {name : String} : name ∈ (d.reorder τ).metrics ↔ name ∈ d.metrics := by
  have moved_mem : name ∈ (d.reorder τ).metrics ↔ ∃ j, d.metrics[τ.symm j] = name := List.mem_ofFn
  have everywhere : (∃ j : Fin d.metrics.length, d.metrics[j] = name) ↔ ∃ j, d.metrics[τ.symm j] = name :=
    τ.symm.surjective.exists
  rw [moved_mem, ← everywhere, List.mem_iff_get]
  rfl

lemma indexOf_eq_ok_iff {e : Blueprint} (field : FieldRef) (distinct : (e.names field.segment).Nodup) :
    e.indexOf field = .ok i ↔ (e.names field.segment)[i]? = some field.name := by
  rw [indexOf_eq_ok, List.findIdx?_eq_some_iff_getElem, List.getElem?_eq_some_iff]
  refine exists_congr fun inside => ?_
  simp only [beq_iff_eq, and_iff_left_iff_imp]
  intro here j before same
  have positions : j = i := distinct.getElem_inj_iff.mp (same.trans here.symm)
  omega

/-- **A name is found where it was moved.** -/
lemma indexOf_reorder (distinct : d.metrics.Nodup) (found : d.indexOf field = .ok i) :
    (d.reorder τ).indexOf field = .ok (relocated τ field.segment i) := by
  obtain ⟨segment, name⟩ := field
  cases segment with
  | knobs => exact found
  | metrics =>
    have distinct' : (d.reorder τ).metrics.Nodup :=
      List.nodup_ofFn.mpr fun j k same => τ.symm.injective <| by
        exact Fin.ext (distinct.getElem_inj_iff.mp same)
    have here := (indexOf_eq_ok_iff ⟨.metrics, name⟩ distinct).mp found
    refine (indexOf_eq_ok_iff ⟨.metrics, name⟩ distinct').mpr ?_
    exact (getElem?_metrics_reorder i).trans here

lemma declares_reorder : (d.reorder τ).Declares field ↔ d.Declares field := by
  obtain ⟨segment, name⟩ := field
  cases segment with
  | knobs => rfl
  | metrics => exact mem_metrics_reorder

lemma complete_reorder : (d.reorder τ).Complete kn mn ↔ d.Complete kn mn := by
  have planned (plan : StatePlan) : plan.Complete (d.reorder τ) ↔ plan.Complete d := by
    constructor
    all_goals
      rintro ⟨terms, constraints, simple, geometric, priorities⟩
    · exact ⟨fun t ht => declares_reorder.mp (terms t ht),
        fun c hc => declares_reorder.mp (constraints c hc), simple, geometric, priorities⟩
    · exact ⟨fun t ht => declares_reorder.mpr (terms t ht),
        fun c hc => declares_reorder.mpr (constraints c hc), simple, geometric, priorities⟩
  constructor
  · rintro ⟨knobs, metrics, states, adaptors⟩
    exact ⟨knobs, length_metrics_reorder.symm.trans metrics,
      fun plan hp => (planned plan).mp (states plan hp),
      fun plan hp => mem_metrics_reorder.mp (adaptors plan hp)⟩
  · rintro ⟨knobs, metrics, states, adaptors⟩
    exact ⟨knobs, length_metrics_reorder.trans metrics,
      fun plan hp => (planned plan).mpr (states plan hp),
      fun plan hp => mem_metrics_reorder.mpr (adaptors plan hp)⟩

/-! ### States -/

lemma term_reorder (distinct : d.metrics.Nodup) {plan : TermPlan} {t : Term}
    (made : d.term plan = .ok t) : (d.reorder τ).term plan = .ok (t.reorder τ) := by
  obtain ⟨i, found, rfl⟩ := term_eq_ok.mp made
  refine term_eq_ok.mpr ⟨_, indexOf_reorder distinct found, ?_⟩
  cases plan.bound <;> rfl

lemma constraint_reorder (distinct : d.metrics.Nodup) {plan : ConstraintPlan} {c : Constraint}
    (made : d.constraint plan = .ok c) : (d.reorder τ).constraint plan = .ok (c.reorder τ) := by
  obtain ⟨i, found, rfl⟩ := constraint_eq_ok.mp made
  refine constraint_eq_ok.mpr ⟨_, indexOf_reorder distinct found, ?_⟩
  unfold Constraint.reorder Constraint.on
  split <;> rfl

lemma rank_reorder {objective : Objective} {composer : Composer} {terms : List Term} {r : Rank}
    (made : rank objective composer terms = .ok r) :
    rank objective composer (terms.map (Term.reorder τ)) = .ok (r.reorder τ) := by
  unfold rank at made ⊢
  rw [List.isEmpty_map]
  split at made
  case isTrue none =>
    rw [if_pos none]
    cases made
    rfl
  case isFalse some =>
    rw [if_neg some]
    obtain ⟨formula, formed, rfl⟩ := map_eq_ok.mp made
    have fits := Formula.fits_of_ofTerms formed
    obtain rfl := Formula.eq_of_ofTerms formed
    have fits' : (⟨composer, terms.map (Term.reorder τ)⟩ : Formula).Fits := by
      rw [Formula.fits_iff] at fits ⊢
      simpa using fits
    exact map_eq_ok.mpr ⟨_, fits', rfl⟩

/-- **A planned state reads the same fields.** -/
theorem state_reorder (distinct : d.metrics.Nodup) {plan : StatePlan} {s : State}
    (made : d.state plan = .ok s) : (d.reorder τ).state plan = .ok (s.reorder τ) := by
  obtain ⟨terms, r, cs, terms_made, ranked, cs_made, priorities, rfl⟩ := state_eq_ok.mp made
  refine state_eq_ok.mpr ⟨terms.map (Term.reorder τ), r.reorder τ, cs.map (Constraint.reorder τ),
    ?_, rank_reorder ranked, ?_, ?_, ?_⟩
  · exact List.forall₂_map_right_iff.mpr (terms_made.imp fun _ _ => term_reorder distinct)
  · exact List.forall₂_map_right_iff.mpr (cs_made.imp fun _ _ => constraint_reorder distinct)
  · rw [List.map_map]
    exact priorities
  · rw [State.reorder, Roster.map_foldl_insert]
    rfl

/-! ### Parts and blocks -/

/-- **A blueprint with its metrics in another order is resolved into parts that read the same
fields.** -/
theorem builder_reorder (distinct : d.metrics.Nodup) {bank bank' : Bank}
    {made made' : Builder kn d.metrics.length × Bank}
    (ok : d.builder kn d.metrics.length bank = .ok made)
    (ok' : (d.reorder τ).builder kn d.metrics.length bank' = .ok made')
    (points : List (OperatingPoint kn d.metrics.length)) :
    Builder.Reordered τ (made.1.addPoints points)
      (made'.1.addPoints (points.map (OperatingPoint.reorder τ))) := by
  obtain ⟨-, -, states, resolved, planned, adapted, rfl⟩ := builder_eq_ok.mp ok
  obtain ⟨-, -, states', resolved', planned', adapted', rfl⟩ := builder_eq_ok.mp ok'
  refine ⟨rfl, ?_, rfl, ?_⟩
  · have moved := map_eq_of_forall₂ (f := State.reorder τ) (g := id) (fun plan s s' here here' =>
      Except.ok.inj (here'.symm.trans (state_reorder distinct here))) planned planned'
    rwa [List.map_id] at moved
  · rw [List.map_map]
    refine map_eq_of_forall₂ (fun plan a a' here here' => ?_) (forall₂_resolveAdaptors adapted)
      (forall₂_resolveAdaptors adapted')
    exact Except.ok.inj (here'.1.symm.trans (indexOf_reorder distinct here.1))

/-- The block knows the points, and decides by the states that the blueprint plans. -/
structure Describes (d : Blueprint) (points : List (OperatingPoint kn mn)) (b : Block kn mn) :
    Prop where
  knowledge : Knowledge.ofPoints points = .ok b.knowledge
  states : ∀ plan ∈ d.states, ∃ s, d.state plan = .ok s ∧ b.state plan.name = .ok s

/-- **A blueprint describes the block that is built of it.** -/
theorem describes_of_build {bank : Bank} {made : Builder kn mn × Bank}
    (resolved : d.builder kn mn bank = .ok made) {points : List (OperatingPoint kn mn)}
    {built : Logged (Block kn mn)} (ok : (made.1.addPoints points).build = .ok built) :
    d.Describes points built.value := by
  obtain ⟨-, -, states, _, planned, -, rfl⟩ := builder_eq_ok.mp resolved
  obtain ⟨k, registered, _, _, _, known, accepted, -, -, -, -, value⟩ := Builder.build_eq_ok ok
  rw [value]
  refine ⟨known, fun plan hp => ?_⟩
  obtain ⟨s, hs, here⟩ := exists_of_mem_forall₂ planned.flip plan hp
  refine ⟨s, here, ?_⟩
  have found : registered.get? plan.name = some s := by
    obtain ⟨_, _, _, -, -, -, -, rfl⟩ := state_eq_ok.mp here
    exact Roster.get?_eq_some_iff.mpr ⟨(Builder.mem_registered accepted).mpr hs, rfl⟩
  rw [Builder.allStates_of_mem hs, Block.state, found]

/-- **Names give a blueprint its meaning, and not positions.**  A blueprint whose metrics have different
names may name them in another order, as long as the metrics of the points are moved along.  It can be
resolved exactly when it could be before, and what it is resolved into is accepted with the moved
points exactly when it was with the points.  A planned state chooses the point at the same position,
with the same rank, status and flag, whatever its constraints have seen, whichever configuration runs
and whatever is corrected, as long as the corrections are moved along too. -/
theorem alike_of_reorder (d : Blueprint) (distinct : d.metrics.Nodup)
    (τ : Perm (Fin d.metrics.length)) (bank bank' : Bank) :
    (∀ kn mn : Nat,
      (∃ made : Builder kn mn × Bank, (d.reorder τ).builder kn mn bank' = .ok made) ↔
        ∃ made : Builder kn mn × Bank, d.builder kn mn bank = .ok made) ∧
    (∀ (kn : Nat) (made made' : Builder kn d.metrics.length × Bank),
      d.builder kn d.metrics.length bank = .ok made →
      (d.reorder τ).builder kn d.metrics.length bank' = .ok made' →
      ∀ points : List (OperatingPoint kn d.metrics.length),
        let parts := made.1.addPoints points
        let parts' := made'.1.addPoints (points.map (OperatingPoint.reorder τ))
        ((∃ built', parts'.build = .ok built') ↔ ∃ built, parts.build = .ok built) ∧
        (∀ built, parts.build = .ok built → d.Describes points built.value) ∧
        ∀ built', parts'.build = .ok built' →
          (d.reorder τ).Describes (points.map (OperatingPoint.reorder τ)) built'.value) ∧
    ∀ (plan : StatePlan) (s : State), d.state plan = .ok s →
      ∃ s', (d.reorder τ).state plan = .ok s' ∧
        ∀ (kn : Nat) (points : List (OperatingPoint kn d.metrics.length))
          (k : Knowledge kn d.metrics.length), Knowledge.ofPoints points = .ok k →
          ∃ k', Knowledge.ofPoints (points.map (OperatingPoint.reorder τ)) = .ok k' ∧
            ∀ (trackers : UInt32 → Debounce) (c c' : Corrections), c.Reordered τ c' →
              ∀ running : Option String,
                Selection.Alike k k' ((s.tracked trackers).select k c running)
                  ((s'.tracked trackers).select k' c' running) := by
  refine ⟨fun kn mn => ?_, fun kn made made' resolved resolved' points => ?_,
    fun plan s planned => ⟨s.reorder τ, state_reorder distinct planned, fun kn points k known => ?_⟩⟩
  · rw [exists_builder_iff, exists_builder_iff, complete_reorder]
  · refine ⟨?_, fun built ok => describes_of_build resolved ok,
      fun built' ok' => describes_of_build resolved' ok'⟩
    exact (builder_reorder distinct resolved resolved' points).exists_build_iff
      (inRange_of_builder resolved points) (inRange_of_builder resolved' _)
  · refine ⟨k.reorder τ, Knowledge.ofPoints_reorder.mpr ⟨k, known, rfl⟩,
      fun trackers c c' corrected running => ?_⟩
    exact State.select_alike (Knowledge.ofPoints_eq_ok known).1 corrected trackers running

/-- The two metrics change places. -/
def swapped : Perm (Fin twoMetrics.metrics.length) := Equiv.swap ⟨0, by decide⟩ ⟨1, by decide⟩

/-- A point of one knob and two metrics. -/
def pointOf (knob latency power : Float) : OperatingPoint 1 twoMetrics.metrics.length :=
  ⟨Vector.replicate 1 (.double (.number knob)),
    Vector.ofFn fun i => .double (.number (if i.val = 0 then latency else power))⟩

def twoPoints : List (OperatingPoint 1 twoMetrics.metrics.length) := [pointOf 1 5 9, pointOf 2 7 3]

/-- The power is limited, and the latency is ranked and corrected, in either order. -/
theorem alike_of_reorder_sample :
    twoMetrics.metrics.Nodup ∧
    (∃ made' : Builder 1 2 × Bank, (twoMetrics.reorder swapped).builder 1 2 .empty = .ok made' ∧
      ∃ built', (made'.1.addPoints (twoPoints.map (.reorder swapped))).build = .ok built') ∧
    ∃ plan ∈ twoMetrics.states, ∃ s s' k k', twoMetrics.state plan = .ok s ∧
      (twoMetrics.reorder swapped).state plan = .ok s' ∧
      Knowledge.ofPoints twoPoints = .ok k ∧
      Knowledge.ofPoints (twoPoints.map (.reorder swapped)) = .ok k' ∧
      Selection.Alike k k'
        ((s.tracked Debounce.start).select k (Corrections.none.set 0 ⟨.additive, 2⟩) (some "1"))
        ((s'.tracked Debounce.start).select k'
          ((Corrections.none.set 0 ⟨.additive, 2⟩).reorder swapped) (some "1")) := by
  have distinct : twoMetrics.metrics.Nodup := by decide +kernel
  obtain ⟨resolves, builds, states⟩ := alike_of_reorder twoMetrics distinct swapped .empty .empty
  have tested : ((twoMetrics.builder 1 2 .empty).toOption.any fun made =>
      (made.1.addPoints twoPoints).build.isOk) = true := by decide +kernel
  obtain ⟨made, resolved, accepted⟩ := exists_ok_of_any tested
  obtain ⟨made', resolved'⟩ := (resolves 1 2).mpr ⟨made, resolved⟩
  have built' := (builds 1 made made' resolved resolved' twoPoints).1.mpr (exists_eq_ok accepted)
  obtain ⟨plan, hp, s, planned⟩ : ∃ plan ∈ twoMetrics.states, ∃ s, twoMetrics.state plan = .ok s :=
    ⟨_, List.mem_cons_self, exists_eq_ok (by decide +kernel)⟩
  obtain ⟨k, known⟩ : ∃ k, Knowledge.ofPoints twoPoints = .ok k := exists_eq_ok (by decide +kernel)
  obtain ⟨s', planned', choices⟩ := states plan s planned
  obtain ⟨k', known', alike⟩ := choices 1 _ k known
  exact ⟨distinct, ⟨made', resolved', built'⟩, plan, hp, s, s', k, k', planned, planned', known, known',
    alike _ _ _ (Corrections.reordered_reorder _ _) _⟩

end Blueprint

end Autotune
