import Autotune.Proofs.Block.Queue

/-!
# Counters tell what the calls of a run said

A block counts what happens to it, each thing where it happens.  The same numbers can be read off
the run: an `Entry` is a call of a run with its answer and the block before and after it, and
`Entry.counted` is what the entry adds to the counters.

* `Block.tallies`: a call moves the counters by what its entry adds, and the version of the knowledge
  by the number of accepted updates;
* `Block.counters_of_build`: so in every run the counters are the numbers of such entries.
-/

namespace Autotune

open Operation

variable {kn mn : Nat}

/-! ### Undefined samples -/

/-- Whether an evaluation would need a division by zero: the monitor holds something, the mode is
multiplicative, and what was observed lies outside the band around the prediction while one of the
two is zero. -/
def Adaptor.undefinedAt (a : Adaptor) (p : OperatingPoint kn mn) (bank : Bank) : Bool :=
  match p.field .metrics a.metric, bank.average? a.monitor with
  | .ok predicted, some observed =>
    a.mode = .multiplicative &&
      !(predicted.average - predicted.deviation ≤ observed &&
        observed ≤ predicted.average + predicted.deviation) &&
      (observed == 0 || predicted.average == 0)
  | _, _ => false

lemma Adaptor.isNone_sample? (mode : CorrectionMode) (observed : Float) (predicted : Reading) :
    (Adaptor.sample? mode observed predicted).isNone =
      (mode = .multiplicative &&
        !(predicted.average - predicted.deviation ≤ observed &&
          observed ≤ predicted.average + predicted.deviation) &&
        (observed == 0 || predicted.average == 0)) := by
  unfold sample?
  dsimp only
  generalize (decide (predicted.average - predicted.deviation ≤ observed) &&
    decide (observed ≤ predicted.average + predicted.deviation)) = inside
  generalize (observed == 0 || predicted.average == 0) = zero
  cases mode <;> cases inside <;> cases zero <;> rfl

namespace Counters

/-- The counters with some more undefined samples. -/
def moreUndefined (c : Counters) (n : Nat) : Counters :=
  { c with undefinedCorrections := c.undefinedCorrections + n }

lemma count_evaluateAt (c : Counters) (block : String) (bank : Bank) (p : OperatingPoint kn mn)
    (a : Adaptor) : (Adaptors.evaluateAt block bank p a).events.foldl count c =
      c.moreUndefined (a.undefinedAt p bank).toNat := by
  unfold Adaptors.evaluateAt Adaptor.undefinedAt
  cases p.field .metrics a.metric with
  | error fault => rfl
  | ok predicted =>
    unfold Adaptor.evaluate
    dsimp only
    cases bank.average? a.monitor with
    | none => rfl
    | some observed =>
      dsimp only
      rw [← Adaptor.isNone_sample?]
      unfold Adaptor.observe
      cases Adaptor.sample? a.mode observed predicted <;> rfl

lemma count_evaluate (c : Counters) (as : Adaptors) (block : String) (bank : Bank)
    (p : OperatingPoint kn mn) : (as.evaluate block bank p).events.foldl count c =
      c.moreUndefined (as.items.countP fun a => a.undefinedAt p bank) := by
  show (Logged.each (Adaptors.evaluateAt block bank p) as.items).events.foldl count c = _
  induction as.items generalizing c with
  | nil => rfl
  | cons a rest ih =>
    have steps : (Logged.each (Adaptors.evaluateAt block bank p) (a :: rest)).events =
        (Adaptors.evaluateAt block bank p a).events ++
          (Logged.each (Adaptors.evaluateAt block bank p) rest).events := rfl
    rw [steps, List.foldl_append, count_evaluateAt, ih, List.countP_cons]
    simp only [moreUndefined, mk.injEq, and_self, true_and, and_true]
    cases a.undefinedAt p bank <;> simp
    omega

end Counters

/-! ### The entries of a run -/

/-- The command counts nothing, whatever becomes of it. -/
def Command.Uncounted : Command kn mn → Prop
  | .setState _ | .updateKnowledge _ | .applyPending | .select | .update _ => False
  | _ => True

/-- A call of a run: a command, or an evaluation of the adaptors that the host asks for itself. -/
inductive Call (kn mn : Nat) where
  | ask (command : Command kn mn)
  | evaluate (bank : Bank) (p : OperatingPoint kn mn)

/-- A call of a run, its answer, and the block before and after it. -/
structure Entry (kn mn : Nat) where
  before : Block kn mn
  call : Call kn mn
  answer : Response kn mn
  after : Block kn mn

namespace Entry

variable (e : Entry kn mn)

/-- A point was chosen. -/
def selects : Bool :=
  match e.call with
  | .ask .select => true
  | _ => false

/-- What stood in the way of the best choice. -/
def condition? : Option Degradation :=
  match e.call, e.answer with
  | .ask .select, .selection s =>
    match s.status with
    | .degraded condition => some condition
    | .optimal => none
  | _, _ => none

/-- A point was chosen although none is eligible. -/
def fallsBack : Bool :=
  match e.condition? with
  | some (.emptyEligibleSet _) => true
  | _ => false

/-- A point was chosen and points without a rank were reported. -/
def missesRanks : Bool :=
  match e.condition? with
  | some (.undefinedRank _) => true
  | _ => false

/-- The number of updates of the knowledge that were accepted. -/
def accepted : Nat :=
  match e.call, e.answer with
  | .ask (.updateKnowledge _), .version _ => 1
  | .ask .applyPending, .taken count => count
  | _, _ => 0

/-- Another state was made the active one. -/
def switches : Bool :=
  match e.call with
  | .ask (.setState _) => e.after.active ≠ e.before.active
  | _ => false

/-- The number of evaluations of adaptors that would have needed a division by zero. -/
def undefinedSamples : Nat :=
  match e.call with
  | .ask (.update bank) =>
    match e.before.running with
    | some p => e.before.adaptors.items.countP fun a => a.undefinedAt p bank
    | none => 0
  | .evaluate bank p => e.before.adaptors.items.countP fun a => a.undefinedAt p bank
  | _ => 0

/-- The counters with what the entry adds to them. -/
def counted (c : Counters) : Counters where
  selections := c.selections + e.selects.toNat
  degradedSelections := c.degradedSelections + e.fallsBack.toNat
  undefinedRanks := c.undefinedRanks + e.missesRanks.toNat
  knowledgeUpdates := c.knowledgeUpdates + e.accepted
  stateSwitches := c.stateSwitches + e.switches.toNat
  undefinedCorrections := c.undefinedCorrections + e.undefinedSamples

/-- The counters have moved by what the entry adds, and the version of the knowledge has moved by
the number of accepted updates. -/
structure Tallies : Prop where
  counters : e.after.telemetry.counters = e.counted e.before.telemetry.counters
  version : e.after.knowledge.version = e.before.knowledge.version + e.accepted

end Entry

namespace Block

variable {b : Block kn mn} {command : Command kn mn}

/-- Lets every adaptor compare its monitor with the prediction of a point.  The number counts those
that had something to compare. -/
def evaluate (b : Block kn mn) (bank : Bank) (p : OperatingPoint kn mn) :
    Logged (Nat × Block kn mn) :=
  let adapted := b.adaptors.evaluate b.telemetry.block bank p
  adapted.map fun (count, adaptors) =>
    (count, { b with adaptors := adaptors, telemetry := b.telemetry.count adapted.events })

/-- Carries out a call. -/
def perform (b : Block kn mn) (call : Call kn mn) : Entry kn mn where
  before := b
  call := call
  answer :=
    match call with
    | .ask command => (b.execute command).value.1
    | .evaluate _ _ => .done
  after :=
    match call with
    | .ask command => (b.execute command).value.2
    | .evaluate bank p => (b.evaluate bank p).value.2

/-- The entries of a run. -/
def history (b : Block kn mn) : List (Call kn mn) → List (Entry kn mn)
  | [] => []
  | call :: rest => b.perform call :: (b.perform call).after.history rest

/-- The block after a run. -/
def through (b : Block kn mn) (calls : List (Call kn mn)) : Block kn mn :=
  calls.foldl (fun b call => (b.perform call).after) b

/-! ### One call -/

/-- **Most commands count nothing** and leave the knowledge alone. -/
theorem telemetry_execute (b : Block kn mn) (h : command.Uncounted) :
    (b.execute command).value.2.telemetry = b.telemetry ∧
      (b.execute command).value.2.knowledge = b.knowledge := by
  have accepted {α : Type} {op : Operation (Block kn mn) α} {answer : α → Response kn mn}
      (atomic : op.Atomic) (ok : ∀ a b', op.Yields b a b' →
        b'.telemetry = b.telemetry ∧ b'.knowledge = b.knowledge) :
      (b.call op answer).value.2.telemetry = b.telemetry ∧
        (b.call op answer).value.2.knowledge = b.knowledge :=
    call_induction (motive := fun b' => b'.telemetry = b.telemetry ∧ b'.knowledge = b.knowledge)
      atomic ⟨rfl, rfl⟩ ok
  cases command with
  | setState | updateKnowledge | applyPending | select | update => cases h
  | addState s =>
    refine accepted atomic_addState fun _ _ ok => ?_
    obtain ⟨-, -, rfl⟩ := addState_yields.mp ok
    exact ⟨rfl, rfl⟩
  | removeState name =>
    refine accepted atomic_removeState fun _ _ ok => ?_
    obtain ⟨-, -, rfl⟩ := removeState_yields.mp ok
    exact ⟨rfl, rfl⟩
  | addConstraint state c =>
    refine accepted atomic_addConstraint fun _ _ ok => ?_
    obtain ⟨-, _, -, -, rfl⟩ := addConstraint_yields.mp ok
    exact ⟨rfl, rfl⟩
  | removeConstraint state priority =>
    refine accepted atomic_removeConstraint fun _ _ ok => ?_
    obtain ⟨_, -, -, rfl⟩ := removeConstraint_yields.mp ok
    exact ⟨rfl, rfl⟩
  | setTarget state priority target =>
    refine accepted atomic_setTarget fun _ _ ok => ?_
    obtain ⟨_, -, -, rfl⟩ := setTarget_yields.mp ok
    exact ⟨rfl, rfl⟩
  | setRank state rank =>
    refine accepted atomic_setRank fun _ _ ok => ?_
    obtain ⟨-, _, -, -, rfl⟩ := setRank_yields.mp ok
    exact ⟨rfl, rfl⟩
  | send sender update =>
    rw [execute_send]
    split_ifs <;> exact ⟨rfl, rfl⟩
  | apply p =>
    obtain ⟨_, same⟩ := execute_apply b p
    rw [same]
    exact ⟨rfl, rfl⟩
  | openQueue | restore | resetAdaptation => exact ⟨rfl, rfl⟩

lemma counters_evaluate (b : Block kn mn) (bank : Bank) (p : OperatingPoint kn mn) :
    (b.evaluate bank p).value.2.telemetry.counters =
      b.telemetry.counters.moreUndefined
        (b.adaptors.items.countP fun a => a.undefinedAt p bank) :=
  b.telemetry.counters.count_evaluate b.adaptors b.telemetry.block bank p

/-- An update counts like an evaluation against what runs, if anything does. -/
lemma telemetry_update (b : Block kn mn) (bank : Bank) :
    (b.update bank).value.2.telemetry =
      match b.running with
      | some p => (b.evaluate bank p).value.2.telemetry
      | none => b.telemetry := by
  unfold update
  cases b.running with
  | none => rfl
  | some p =>
    dsimp only [Logged.andThen]
    split <;> rfl

lemma tallies_update (b : Block kn mn) (bank : Bank) :
    (b.perform (.ask (.update bank))).Tallies := by
  constructor
  · show (b.update bank).value.2.telemetry.counters = b.telemetry.counters.moreUndefined
      (match b.running with
        | some p => b.adaptors.items.countP fun a => a.undefinedAt p bank
        | none => 0)
    rw [telemetry_update]
    cases b.running with
    | none => rfl
    | some p => exact counters_evaluate b bank p
  · obtain ⟨_, _, _, same⟩ := execute_update b bank
    exact congrArg (fun b => b.knowledge.version) same

lemma counters_updateKnowledge (b : Block kn mn) (update : Update kn mn) :
    (b.execute (.updateKnowledge update)).value.2.telemetry.counters =
        { b.telemetry.counters with
          knowledgeUpdates := b.telemetry.counters.knowledgeUpdates +
            (b.execute (.updateKnowledge update)).value.1.isVersion.toNat } ∧
      (b.execute (.updateKnowledge update)).value.2.knowledge.version =
        b.knowledge.version + (b.execute (.updateKnowledge update)).value.1.isVersion.toNat := by
  unfold execute call
  dsimp only
  cases outcome : ((updateKnowledge update).run b).outcome with
  | error fault =>
    rw [(atomic_updateKnowledge b fault outcome).1]
    exact ⟨rfl, rfl⟩
  | ok version =>
    obtain ⟨next, accepted, -, -, state⟩ := updateKnowledge_yields.mp ⟨outcome, rfl⟩
    rw [← state]
    exact ⟨rfl, Knowledge.version_of_apply accepted⟩

lemma counters_updates (b : Block kn mn) (updates : List (Update kn mn)) :
    (b.after (updates.map .updateKnowledge)).telemetry.counters =
        { b.telemetry.counters with
          knowledgeUpdates := b.telemetry.counters.knowledgeUpdates +
            (b.trace (updates.map .updateKnowledge)).countP fun call => call.2.isVersion } ∧
      (b.after (updates.map .updateKnowledge)).knowledge.version = b.knowledge.version +
        (b.trace (updates.map .updateKnowledge)).countP fun call => call.2.isVersion := by
  induction updates generalizing b with
  | nil => exact ⟨rfl, rfl⟩
  | cons update rest ih =>
    obtain ⟨counters, version⟩ := counters_updateKnowledge b update
    obtain ⟨counters', version'⟩ := ih (b.execute (.updateKnowledge update)).value.2
    have steps : b.after ((update :: rest).map .updateKnowledge) =
        (b.execute (.updateKnowledge update)).value.2.after (rest.map .updateKnowledge) := rfl
    rw [steps, counters', version', counters, version, List.map_cons, trace, List.countP_cons]
    cases (b.execute (.updateKnowledge update)).value.1.isVersion <;>
      simp [Nat.add_assoc, Nat.add_comm]

lemma tallies_updateKnowledge (b : Block kn mn) (update : Update kn mn) :
    (b.perform (.ask (.updateKnowledge update))).Tallies := by
  have accepted : (b.perform (.ask (.updateKnowledge update))).accepted =
      (b.execute (.updateKnowledge update)).value.1.isVersion.toNat := by
    unfold perform Entry.accepted
    dsimp only
    cases (b.execute (.updateKnowledge update)).value.1 <;> rfl
  obtain ⟨counters, version⟩ := counters_updateKnowledge b update
  rw [← accepted] at counters version
  exact ⟨counters, version⟩

lemma tallies_applyPending (b : Block kn mn) : (b.perform (.ask .applyPending)).Tallies := by
  obtain ⟨counters, version⟩ := counters_updates b b.inbox.pending
  unfold perform
  dsimp only
  rw [applyPending_eq]
  exact ⟨counters, version⟩

lemma status_select_ne (s : State) (k : Knowledge kn mn) (corrections : Corrections)
    (running : Option String) (metric : Nat) :
    (s.select k corrections running).status ≠ .degraded (.undefinedCorrection metric) := by
  unfold State.select State.fallback State.choose
  dsimp only
  split <;> split <;> simp

lemma tallies_select (b : Block kn mn) : (b.perform (.ask .select)).Tallies := by
  refine ⟨?_, rfl⟩
  have possible := status_select_ne b.activeState b.knowledge b.adaptors.corrections
    (b.running.map OperatingPoint.id)
  unfold perform execute select Entry.counted Entry.fallsBack Entry.missesRanks Entry.condition?
  dsimp only [Logged.map]
  generalize b.activeState.select b.knowledge b.adaptors.corrections
    (b.running.map OperatingPoint.id) = selection at possible
  obtain ⟨point, rank, status, version, changed⟩ := selection
  cases status with
  | optimal => rfl
  | degraded condition =>
    cases condition with
    | emptyEligibleSet violation => rfl
    | undefinedCorrection metric => exact absurd rfl (possible metric)
    | undefinedRank excluded => rfl

lemma state_setState (b : Block kn mn) (name : String) :
    ((setState name).run b).state = b ∨ b.active ≠ name ∧ ((setState name).run b).state =
      { b with telemetry := (b.telemetry.stateSwitched b.active name).value, active := name } := by
  cases outcome : ((setState name).run b).outcome with
  | error fault => exact .inl (atomic_setState b fault outcome).1
  | ok u =>
    obtain ⟨-, state⟩ := setState_yields.mp ⟨outcome, rfl⟩
    by_cases other : b.active ≠ name
    · rw [if_pos other] at state
      exact .inr ⟨other, state.symm⟩
    · rw [if_neg other] at state
      exact .inl state.symm

lemma tallies_setState (b : Block kn mn) (name : String) :
    (b.perform (.ask (.setState name))).Tallies := by
  have entry : b.perform (.ask (.setState name)) = ⟨b, .ask (.setState name),
      (b.execute (.setState name)).value.1, ((setState name).run b).state⟩ := rfl
  rw [entry]
  obtain same | ⟨other, switched⟩ := state_setState b name
  · rw [same]
    refine ⟨?_, rfl⟩
    show _ = { b.telemetry.counters with stateSwitches :=
      b.telemetry.counters.stateSwitches + (decide (b.active ≠ b.active)).toNat }
    rw [decide_eq_false (not_not_intro rfl)]
    rfl
  · rw [switched]
    refine ⟨?_, rfl⟩
    show _ = { b.telemetry.counters with stateSwitches :=
      b.telemetry.counters.stateSwitches + (decide (name ≠ b.active)).toNat }
    rw [decide_eq_true other.symm]
    rfl

lemma tallies_of_uncounted (b : Block kn mn) (h : command.Uncounted) :
    (b.perform (.ask command)).Tallies := by
  obtain ⟨telemetry, knowledge⟩ := telemetry_execute b h
  have counters := congrArg Telemetry.counters telemetry
  have version := congrArg Knowledge.version knowledge
  cases command with
  | setState | updateKnowledge | applyPending | select | update => cases h
  | _ => exact ⟨counters, version⟩

/-- **The counters move by what the entry of a call adds.** -/
theorem tallies (b : Block kn mn) (call : Call kn mn) : (b.perform call).Tallies := by
  cases call with
  | evaluate bank p => exact ⟨counters_evaluate b bank p, rfl⟩
  | ask command =>
    cases command with
    | select => exact tallies_select b
    | update bank => exact tallies_update b bank
    | applyPending => exact tallies_applyPending b
    | updateKnowledge update => exact tallies_updateKnowledge b update
    | setState name => exact tallies_setState b name
    | _ => exact tallies_of_uncounted b trivial

/-! ### Every run -/

lemma sum_history {f : Block kn mn → Nat} {g : Entry kn mn → Nat}
    (step : ∀ b call, f (perform b call).after = f b + g (b.perform call)) (b : Block kn mn)
    (calls : List (Call kn mn)) : f (b.through calls) = f b + ((b.history calls).map g).sum := by
  induction calls generalizing b with
  | nil => rfl
  | cons call rest ih =>
    have later := ih (b.perform call).after
    have first := step b call
    have steps : b.through (call :: rest) = (b.perform call).after.through rest := rfl
    rw [history, List.map_cons, List.sum_cons, steps, later, first, Nat.add_assoc]

lemma sum_toNat (g : Entry kn mn → Bool) (entries : List (Entry kn mn)) :
    (entries.map fun e => (g e).toNat).sum = entries.countP g := by
  induction entries with
  | nil => rfl
  | cons e rest ih =>
    rw [List.map_cons, List.sum_cons, ih, List.countP_cons]
    cases g e <;> simp [Nat.add_comm]

lemma start_of_build {parts : Builder kn mn} {built : Logged (Block kn mn)}
    (accepted : parts.build = .ok built) :
    built.value.telemetry.counters = .zero ∧ built.value.knowledge.version = 0 := by
  constructor
  · simp only [Builder.build, bind_eq_ok, guard_eq_ok, pure_eq_ok] at accepted
    obtain ⟨_, _, _, _, _, _, _, -, -, _, _, rfl⟩ := accepted
    rfl
  · obtain ⟨knowledge, _, _, _, _, known, -, -, -, -, -, same⟩ := Builder.build_eq_ok accepted
    obtain ⟨-, -, version⟩ := Knowledge.ofPoints_eq_ok known
    rw [same]
    exact version

/-- **The counters of a block tell what its run said.**  In every run of a block that was built:

* the selections are the calls that chose a point;
* the degraded selections and the undefined ranks are those that answered with that condition;
* the updates of the knowledge are the version of the knowledge and the number of updates that were
  accepted, whether they were sent to the queue or not;
* the switches are the calls that made another state the active one;
* the undefined corrections are the evaluations of adaptors that would have needed a division by
  zero.

A call that is none of these moves no counter. -/
theorem counters_of_build {parts : Builder kn mn} {built : Logged (Block kn mn)}
    (accepted : parts.build = .ok built) (calls : List (Call kn mn)) :
    let last := built.value.through calls
    let counters := last.telemetry.counters
    let history := built.value.history calls
    counters.selections = history.countP Entry.selects ∧
      counters.degradedSelections = history.countP Entry.fallsBack ∧
      counters.undefinedRanks = history.countP Entry.missesRanks ∧
      counters.knowledgeUpdates = last.knowledge.version ∧
      counters.knowledgeUpdates = (history.map Entry.accepted).sum ∧
      counters.stateSwitches = history.countP Entry.switches ∧
      counters.undefinedCorrections = (history.map Entry.undefinedSamples).sum ∧
      ∀ (b : Block kn mn) (command : Command kn mn), command.Uncounted →
        (b.execute command).value.2.telemetry.counters = b.telemetry.counters := by
  intro last counters history
  obtain ⟨start, version⟩ := start_of_build accepted
  -- a counter that starts at zero is the sum of what is added to it
  have sums {f : Counters → Nat} {g : Entry kn mn → Nat} (zero : f .zero = 0)
      (adds : ∀ (e : Entry kn mn) c, f (e.counted c) = f c + g e) :
      f counters = (history.map g).sum := by
    have total := sum_history (f := fun b => f b.telemetry.counters) (g := g)
      (fun b call => (congrArg f (b.tallies call).counters).trans (adds _ _)) built.value calls
    rwa [start, zero, Nat.zero_add] at total
  have counts {f : Counters → Nat} {g : Entry kn mn → Bool} (zero : f .zero = 0)
      (adds : ∀ (e : Entry kn mn) c, f (e.counted c) = f c + (g e).toNat) :
      f counters = history.countP g := by
    rw [← sum_toNat]
    exact sums zero adds
  have versions : last.knowledge.version = (history.map Entry.accepted).sum := by
    have total := sum_history (f := fun b => b.knowledge.version) (g := Entry.accepted)
      (fun b call => (b.tallies call).version) built.value calls
    rwa [version, Nat.zero_add] at total
  have updates : counters.knowledgeUpdates = (history.map Entry.accepted).sum :=
    sums (f := Counters.knowledgeUpdates) rfl fun _ _ => rfl
  exact ⟨counts (f := Counters.selections) rfl fun _ _ => rfl,
    counts (f := Counters.degradedSelections) rfl fun _ _ => rfl,
    counts (f := Counters.undefinedRanks) rfl fun _ _ => rfl,
    updates.trans versions.symm, updates,
    counts (f := Counters.stateSwitches) rfl fun _ _ => rfl,
    sums (f := Counters.undefinedCorrections) rfl fun _ _ => rfl,
    fun b command quiet => congrArg Telemetry.counters (telemetry_execute b quiet).1⟩

/-- A run that runs into everything but an undefined rank. -/
def countedCalls : List (Call 1 1) :=
  let silent : Bank := ⟨[⟨1, [0], false⟩]⟩
  [.ask .select, .ask (.apply (State.samplePoint 2 5)), .ask (.update silent),
    .evaluate silent (State.samplePoint 2 5), .ask (.updateKnowledge (.remove ["2"])),
    .ask .select, .ask (.openQueue 1), .ask (.send ⟨1, 1⟩ (.remove ["3"])), .ask .applyPending,
    .ask (.addState (.ofRank "other" .unranked)), .ask (.setState "other"),
    .ask (.setState "other"), .ask (.setState "nowhere")]

/-- The counters of a run, and what they say about its entries. -/
theorem counters_of_build_sample :
    ∃ built, sampleBuilder.build = .ok built ∧
      (built.value.through countedCalls).telemetry.counters = ⟨1, 2, 0, 2, 1, 2⟩ ∧
      let history := built.value.history countedCalls
      history.countP Entry.selects = 2 ∧ history.countP Entry.fallsBack = 1 ∧
        history.countP Entry.missesRanks = 0 ∧ (history.map Entry.accepted).sum = 2 ∧
        history.countP Entry.switches = 1 ∧ (history.map Entry.undefinedSamples).sum = 2 := by
  have counted : (match (sampleBuilder.build).map Logged.value with
      | .ok built => (built.through countedCalls).telemetry.counters == ⟨1, 2, 0, 2, 1, 2⟩
      | .error _ => false) = true := by decide +kernel
  cases accepted : sampleBuilder.build with
  | error fault =>
    rw [accepted] at counted
    cases counted
  | ok built =>
    rw [accepted] at counted
    have counters : (built.value.through countedCalls).telemetry.counters = ⟨1, 2, 0, 2, 1, 2⟩ :=
      eq_of_beq counted
    obtain ⟨selections, degraded, undefined, -, updates, switches, corrections, -⟩ :=
      counters_of_build accepted countedCalls
    rw [counters] at selections degraded undefined updates switches corrections
    exact ⟨built, rfl, counters, selections.symm, degraded.symm, undefined.symm, updates.symm,
      switches.symm, corrections.symm⟩

end Block

end Autotune
