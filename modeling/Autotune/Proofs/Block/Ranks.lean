import Autotune.Blueprint.Resolve
import Autotune.Document.Settings
import Autotune.Proofs.Block.Registry

/-!
# Where ranks come from

A formula fits its composer (`Formula.Fits`) when it has as many terms as the composer takes.  The
ways to make a formula see to that, the planned ranks of a blueprint included
(`Blueprint.fits_of_builder`), but a written formula is taken as it stands.

No operation of a block makes a rank of its own or looks at the number of its terms.
`Block.Ranked` says that something holds of the ranks of all registered states; every command keeps
it, if it holds of the rank that the command hands in (`Block.Ranked.execute`).  Hence each
registered rank is the one that holds all points equal or one that was handed in
(`Block.rank_of_run`).
-/

namespace Autotune

open Document

namespace Formula

variable {composer : Composer} {terms : List Term} {f : Formula}

/-- The formula has as many terms as its composer takes. -/
def Fits (f : Formula) : Prop := ofTerms f.composer f.terms = .ok f

lemma eq_of_ofTerms (h : ofTerms composer terms = .ok f) : f = ⟨composer, terms⟩ := by
  unfold ofTerms at h
  cases composer with
  | simple =>
    dsimp only at h
    split at h
    · exact (Except.ok.inj h).symm
    · cases h
  | linear => exact (Except.ok.inj h).symm
  | geometric =>
    dsimp only at h
    split at h
    · cases h
    · exact (Except.ok.inj h).symm

/-- **A formula that is made of terms has as many as its composer takes.** -/
lemma fits_of_ofTerms (h : ofTerms composer terms = .ok f) : f.Fits := by
  obtain rfl := eq_of_ofTerms h
  exact h

/-- What it takes to fit: one term for a simple formula, and at least one for a geometric one. -/
theorem fits_iff :
    f.Fits ↔ (f.composer = .simple → f.terms.length = 1) ∧
      (f.composer = .geometric → f.terms ≠ []) := by
  obtain ⟨composer, terms⟩ := f
  cases composer <;> simp [Fits, ofTerms]

instance : Decidable f.Fits := decidable_of_iff _ fits_iff.symm

lemma fits_constant : constant.Fits := rfl

end Formula

/-! ### Blueprints -/

namespace Blueprint

variable {d : Blueprint}

lemma fits_of_rank {objective : Objective} {composer : Composer} {terms : List Term} {r : Rank}
    (h : rank objective composer terms = .ok r) : r.formula.Fits := by
  unfold rank at h
  split at h
  · cases h
    exact Formula.fits_constant
  · cases made : Formula.ofTerms composer terms with
    | error fault =>
      rw [made] at h
      cases h
    | ok formula =>
      rw [made] at h
      cases h
      exact Formula.fits_of_ofTerms made

lemma fits_of_state {plan : StatePlan} {s : State} (h : d.state plan = .ok s) :
    s.rank.formula.Fits := by
  simp only [state, bind_eq_ok, Operation.finish_eq_ok] at h
  obtain ⟨terms, -, r, ranked, finished⟩ := h
  -- adding constraints leaves the rank alone
  refine Operation.forM_yields (motive := fun s : State => s.rank.formula.Fits)
    (fits_of_rank ranked) (fun c s u s' fits added => ?_) finished
  obtain ⟨constraint, -, added⟩ := Operation.check_bind_yields.mp added
  obtain ⟨-, rfl⟩ := State.addConstraint_yields.mp added
  exact fits

/-- **The planned ranks of a blueprint fit.** -/
theorem fits_of_builder {kn mn : Nat} {bank bank' : Bank} {parts : Builder kn mn}
    (h : d.builder kn mn bank = .ok (parts, bank')) : ∀ s ∈ parts.states, s.rank.formula.Fits := by
  simp only [builder, bind_eq_ok, guard_eq_ok, pure_eq_ok] at h
  obtain ⟨-, -, states, planned, adaptors, -, made⟩ := h
  cases made
  intro s hs
  obtain ⟨plan, -, here⟩ := exists_of_mem_mapM planned s hs
  exact fits_of_state here

end Blueprint

/-! ### Blocks -/

variable {kn mn : Nat}

/-- The rank that a command hands in. -/
def Command.rank? : Command kn mn → Option Rank
  | .addState s => some s.rank
  | .setRank _ rank => some rank
  | _ => none

namespace Block

variable {b c : Block kn mn} {P : Rank → Prop}

/-- The property holds of the ranks of all states. -/
def Ranked (P : Rank → Prop) (b : Block kn mn) : Prop := ∀ s ∈ b.states.items, P s.rank

lemma Ranked.of_registry (h : b.Ranked P) (same : c.registry = b.registry) : c.Ranked P :=
  EveryState.of_registry (P := fun s => P s.rank) h (fun _ => Iff.rfl) same

lemma Ranked.of_get? (h : b.Ranked P) {name : String} {s : State}
    (found : b.states.get? name = some s) : P s.rank :=
  EveryState.of_get? (P := fun s => P s.rank) h found

/-- **A command keeps what holds of all ranks, if it holds of the rank that it hands in.** -/
theorem Ranked.execute (h : b.Ranked P) (command : Command kn mn)
    (new : ∀ r, command.rank? = some r → P r) : (b.execute command).value.2.Ranked P := by
  refine EveryState.execute (P := fun s => P s.rank) h (fun _ => Iff.rfl) ?_ ?_
  · rintro s rfl
    exact new s.rank rfl
  · intro s ranked
    cases command with
    | setRank name rank => exact new rank rfl
    | _ => exact ranked

lemma Ranked.after (h : b.Ranked P) {commands : List (Command kn mn)}
    (new : ∀ command ∈ commands, ∀ r, command.rank? = some r → P r) :
    (b.after commands).Ranked P := by
  induction commands generalizing b with
  | nil => exact h
  | cons command rest ih =>
    have here := h.execute command (new command List.mem_cons_self)
    exact ih here fun command hc => new command (List.mem_cons_of_mem _ hc)

/-- A block has the ranks that it was built with, or the one that holds all points equal. -/
lemma ranked_of_build {parts : Builder kn mn} {built : Logged (Block kn mn)}
    (h : parts.build = .ok built) (unranked : P .unranked)
    (given : ∀ s ∈ parts.states, P s.rank) : built.value.Ranked P :=
  everyState_of_build (P := fun s => P s.rank) h unranked given

/-- **Every registered rank was handed in.**  It is the one that holds all points equal, or that of a
state which the block was built with, or one that a command brought along. -/
theorem rank_of_run {parts : Builder kn mn} {built : Logged (Block kn mn)}
    (h : parts.build = .ok built) (commands : List (Command kn mn)) :
    (built.value.after commands).Ranked fun r =>
      r = .unranked ∨ (∃ s ∈ parts.states, r = s.rank) ∨
        ∃ command ∈ commands, command.rank? = some r := by
  refine Ranked.after (ranked_of_build h (.inl rfl) fun s hs => ?_) fun command hc r handed => ?_
  · exact .inr (.inl ⟨s, hs, rfl⟩)
  · exact .inr (.inr ⟨command, hc, handed⟩)

/-- A rank whose formula is simple and has two terms. -/
def pairRank : Rank :=
  ⟨.minimize, ⟨.simple, [⟨.averageOf .knobs 0, 1⟩, ⟨.averageOf .knobs 0, 1⟩]⟩⟩

/-- **A written formula is not asked for the number of its terms.**  The rank with a simple formula
of two terms is read from its written form, and a block with it is accepted. -/
theorem exists_unfit_rank :
    ∃ r : Rank, decode (encode pairRank) = .ok r ∧
      ∃ built, { sampleBuilder with states := [.ofRank "sample" r] }.build = .ok built ∧
        built.value.Reachable ∧ ¬ built.value.activeState.rank.formula.Fits := by
  have unfit : (match ({ sampleBuilder with
        states := [.ofRank "sample" pairRank] }.build).map Logged.value with
      | .ok built => !decide built.activeState.rank.formula.Fits
      | .error _ => false) = true := by decide +kernel
  cases accepted : { sampleBuilder with states := [.ofRank "sample" pairRank] }.build with
  | error fault =>
    rw [accepted] at unfit
    cases unfit
  | ok built =>
    rw [accepted] at unfit
    have unfit : (!decide built.value.activeState.rank.formula.Fits) = true := unfit
    refine ⟨pairRank, by rfl, built, accepted, reachable_of_build accepted, ?_⟩
    simpa using unfit

end Block

end Autotune
