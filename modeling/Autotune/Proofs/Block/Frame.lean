import Autotune.Proofs.Block.Registry
import Autotune.Proofs.Knowledge.Update

/-!
# What a command on a block leaves alone

A command that sets something up touches the states, the name of the active one and the telemetry,
and nothing else (`Block.execute_setUp`).  An update by the monitors touches no more than what was
learned and observed (`Block.execute_update`), and one of the knowledge nothing but that
(`Block.execute_updateKnowledge`).

* `Block.execute_induction`: a command keeps whatever the changes keep that it is made of; an adaptor
  goes on to read the same monitor (`Adaptors.links`);
* `Block.running_execute`: only applying a point changes what runs;
* `Block.knowledge_induction`: what accepted updates keep of the knowledge, every command keeps;
* `Block.execute_send`: when the sending of an update is accepted.
-/

namespace Autotune

open Operation

/-- Whether an update of the knowledge was accepted. -/
def Response.isVersion {kn mn : Nat} : Response kn mn → Bool
  | .version _ => true
  | _ => false

/-! ### Adaptors -/

/-- The metric of an adaptor and the monitor that it reads. -/
def Adaptor.link (a : Adaptor) : Nat × MonitorId := (a.metric, a.monitor)

namespace Adaptors

variable {as : Adaptors}

def links (as : Adaptors) : List (Nat × MonitorId) := as.items.map Adaptor.link

lemma links_map {f : Adaptor → Adaptor} {keeps : ∀ a, Keyed.key (f a) = Keyed.key a}
    (same : ∀ a, (f a).monitor = a.monitor) : links (as.map f keeps) = as.links := by
  have links : ∀ a ∈ as.items, (f a).link = a.link := fun a _ => Prod.ext (keeps a) (same a)
  exact List.map_map.trans (List.map_congr_left links)

lemma links_evaluate {kn mn : Nat} (block : String) (bank : Bank) (p : OperatingPoint kn mn) :
    (as.evaluate block bank p).value.2.links = as.links := by
  show links (as.map (fun a => (evaluateAt block bank p a).value.2)
    (evaluateAt_metric block bank p)) = as.links
  refine links_map fun a => ?_
  unfold evaluateAt
  split
  · unfold Adaptor.evaluate
    split <;> rfl
  · rfl

lemma links_restore (coefficients : List (Nat × Float)) :
    (as.restore coefficients).links = as.links := by
  induction coefficients generalizing as with
  | nil => rfl
  | cons entry rest ih =>
    refine ih.trans (links_map fun a => ?_)
    split <;> rfl

end Adaptors

namespace Block

variable {kn mn : Nat} {b b' : Block kn mn} {command : Command kn mn}

/-- **Commands that set something up touch the states and the telemetry only.** -/
theorem execute_setUp (b : Block kn mn) (h : ¬ command.KeepsRegistry) :
    ∃ states active telemetry, (b.execute command).value.2 =
      { b with states := states, active := active, telemetry := telemetry } := by
  -- what is left to show of an accepted operation
  have yielded {α : Type} {op : Operation (Block kn mn) α} {answer : α → Response kn mn}
      (atomic : op.Atomic)
      (accepted : ∀ a b', op.Yields b a b' → ∃ states active telemetry,
        b' = { b with states := states, active := active, telemetry := telemetry }) :
      ∃ states active telemetry, (b.call op answer).value.2 =
        { b with states := states, active := active, telemetry := telemetry } :=
    call_induction (motive := fun b' => ∃ states active telemetry,
      b' = { b with states := states, active := active, telemetry := telemetry }) atomic
      ⟨_, _, _, rfl⟩ accepted
  cases command with
  | addState s =>
    refine yielded atomic_addState fun _ _ ok => ?_
    obtain ⟨-, -, rfl⟩ := addState_yields.mp ok
    exact ⟨_, _, _, rfl⟩
  | removeState name =>
    refine yielded atomic_removeState fun _ _ ok => ?_
    obtain ⟨-, -, rfl⟩ := removeState_yields.mp ok
    exact ⟨_, _, _, rfl⟩
  | setState name =>
    refine yielded atomic_setState fun _ _ ok => ?_
    obtain ⟨-, rfl⟩ := setState_yields.mp ok
    split <;> exact ⟨_, _, _, rfl⟩
  | addConstraint state c =>
    refine yielded atomic_addConstraint fun _ _ ok => ?_
    obtain ⟨-, _, -, -, rfl⟩ := addConstraint_yields.mp ok
    exact ⟨_, _, _, rfl⟩
  | removeConstraint state priority =>
    refine yielded atomic_removeConstraint fun _ _ ok => ?_
    obtain ⟨_, -, -, rfl⟩ := removeConstraint_yields.mp ok
    exact ⟨_, _, _, rfl⟩
  | setTarget state priority target =>
    refine yielded atomic_setTarget fun _ _ ok => ?_
    obtain ⟨_, -, -, rfl⟩ := setTarget_yields.mp ok
    exact ⟨_, _, _, rfl⟩
  | setRank state rank =>
    refine yielded atomic_setRank fun _ _ ok => ?_
    obtain ⟨-, _, -, -, rfl⟩ := setRank_yields.mp ok
    exact ⟨_, _, _, rfl⟩
  | _ => exact absurd trivial h

/-- An update is appended if it is sent to the open queue and that has room.  Otherwise nothing
changes. -/
lemma execute_send (b : Block kn mn) (sender : Sender) (update : Update kn mn) :
    b.execute (.send sender update) =
      if sender.queue ≠ b.inbox.opened then .quiet (.unsent .disconnected, b)
      else if sender.capacity ≤ b.inbox.pending.length then
        .quiet (.unsent (.queueFull sender.capacity), b)
      else .quiet (.done,
        { b with inbox := { b.inbox with pending := b.inbox.pending ++ [update] } }) := by
  by_cases other : sender.queue ≠ b.inbox.opened
  · rw [if_pos other]
    simp only [execute, send, Inbox.send, if_pos other]
    rfl
  · rw [if_neg other]
    by_cases full : sender.capacity ≤ b.inbox.pending.length
    · rw [if_pos full]
      simp only [execute, send, Inbox.send, if_neg other, if_pos full]
      rfl
    · rw [if_neg full]
      simp only [execute, send, Inbox.send, if_neg other, if_neg full]
      rfl

lemma execute_apply (b : Block kn mn) (p : OperatingPoint kn mn) :
    ∃ states, (b.execute (.apply p)).value.2 = { b with running := some p, states := states } := by
  unfold execute Block.apply
  dsimp only
  split <;> exact ⟨_, rfl⟩

lemma execute_update (b : Block kn mn) (bank : Bank) :
    ∃ states adaptors telemetry, (b.execute (.update bank)).value.2 =
      { b with states := states, adaptors := adaptors, telemetry := telemetry } := by
  unfold execute Block.update
  dsimp only
  split
  · exact ⟨_, _, _, rfl⟩
  · dsimp only [Logged.andThen, Logged.map]
    split <;> exact ⟨_, _, _, rfl⟩

lemma execute_updateKnowledge (b : Block kn mn) (update : Update kn mn) :
    (b.execute (.updateKnowledge update)).value.2 = b ∨
      ∃ next telemetry, b.knowledge.apply update = .ok next ∧
        (b.execute (.updateKnowledge update)).value.2 =
          { b with knowledge := next, telemetry := telemetry } := by
  cases outcome : ((updateKnowledge update).run b).outcome with
  | error fault => exact .inl (atomic_updateKnowledge b fault outcome).1
  | ok version =>
    obtain ⟨next, accepted, -, -, state⟩ := updateKnowledge_yields.mp ⟨outcome, rfl⟩
    exact .inr ⟨next, _, accepted, state.symm⟩

lemma takeUpdate_eq (b : Block kn mn) (update : Update kn mn) :
    (b.takeUpdate update).value =
      (if (b.execute (.updateKnowledge update)).value.1.isVersion then 1 else 0,
        (b.execute (.updateKnowledge update)).value.2) := by
  unfold takeUpdate execute call
  dsimp only
  split <;> simp_all [Response.isVersion]

lemma takeUpdates_induction {motive : Block kn mn → Prop} (updates : List (Update kn mn))
    (step : ∀ (b : Block kn mn) update, motive b →
      motive (b.execute (.updateKnowledge update)).value.2)
    (start : motive b) : motive (b.takeUpdates updates).value.2 := by
  induction updates generalizing b with
  | nil => exact start
  | cons update rest ih =>
    have first : motive (b.takeUpdate update).value.2 := by
      rw [takeUpdate_eq]
      exact step b update start
    exact ih first

/-! ### Every command -/

/-- **What the changes keep that commands are made of, every command keeps.** -/
theorem execute_induction {motive : Block kn mn → Prop} (start : motive b)
    (states : ∀ (b : Block kn mn) states active telemetry, motive b →
      motive { b with states := states, active := active, telemetry := telemetry })
    (inbox : ∀ (b : Block kn mn) inbox, motive b → motive { b with inbox := inbox })
    (adaptors : ∀ (b : Block kn mn) (as : Adaptors), as.links = b.adaptors.links → motive b →
      motive { b with adaptors := as })
    (knowledge : ∀ (b : Block kn mn) update next telemetry, b.knowledge.apply update = .ok next →
      motive b → motive { b with knowledge := next, telemetry := telemetry })
    (running : ∀ (b : Block kn mn) p, command = .apply p → motive b →
      motive { b with running := some p }) : motive (b.execute command).value.2 := by
  have known (b : Block kn mn) (update : Update kn mn) (start : motive b) :
      motive (b.execute (.updateKnowledge update)).value.2 := by
    obtain same | ⟨next, telemetry, accepted, state⟩ := execute_updateKnowledge b update
    · rwa [same]
    · rw [state]
      exact knowledge b update next telemetry accepted start
  by_cases keeps : command.KeepsRegistry
  · cases command with
    | addState | removeState | setState | addConstraint | removeConstraint | setTarget | setRank =>
      cases keeps
    | updateKnowledge update => exact known b update start
    | openQueue capacity => exact inbox b _ start
    | send sender update =>
      rw [execute_send]
      split_ifs
      · exact start
      · exact start
      · exact inbox b _ start
    | applyPending => exact takeUpdates_induction b.inbox.drain.1 known (inbox b _ start)
    | select => exact states b b.states b.active _ start
    | apply p =>
      obtain ⟨later, same⟩ := execute_apply b p
      rw [same]
      exact states _ later b.active b.telemetry (running b p rfl start)
    | update bank =>
      unfold execute Block.update
      dsimp only
      split
      · exact start
      case h_2 p _ =>
        have learned := adaptors b _ (Adaptors.links_evaluate b.telemetry.block bank p) start
        have counted := fun telemetry => states _ b.states b.active telemetry learned
        dsimp only [Logged.andThen, Logged.map]
        split
        · exact counted _
        · exact states _ _ b.active _ (counted _)
    | restore coefficients => exact adaptors b _ (Adaptors.links_restore coefficients) start
    | resetAdaptation =>
      have cleared := adaptors b b.adaptors.reset (Adaptors.links_map fun _ => rfl) start
      exact states _ _ b.active b.telemetry cleared
  · obtain ⟨_, _, _, same⟩ := execute_setUp b keeps
    rw [same]
    exact states b _ _ _ start

/-- **Only applying a point changes what runs.** -/
theorem running_execute (b : Block kn mn) (command : Command kn mn) (h : ∀ p, command ≠ .apply p) :
    (b.execute command).value.2.running = b.running :=
  execute_induction (motive := fun b' => b'.running = b.running) rfl (fun _ _ _ _ same => same)
    (fun _ _ same => same) (fun _ _ _ same => same) (fun _ _ _ _ _ same => same)
    fun _ p applies => absurd applies (h p)

/-- **What accepted updates keep of the knowledge, every command keeps.** -/
theorem knowledge_induction {motive : Knowledge kn mn → Prop}
    (step : ∀ k update next, k.apply update = .ok next → motive k → motive next)
    (start : motive b.knowledge) (command : Command kn mn) :
    motive (b.execute command).value.2.knowledge :=
  execute_induction (motive := fun b => motive b.knowledge) start (fun _ _ _ _ kept => kept)
    (fun _ _ kept => kept) (fun _ _ _ kept => kept)
    (fun b update next _ accepted => step b.knowledge update next accepted) fun _ _ _ kept => kept

lemma indexed_execute (h : b.knowledge.Indexed) (command : Command kn mn) :
    (b.execute command).value.2.knowledge.Indexed :=
  knowledge_induction (motive := fun k => k.Indexed)
    (fun _ _ _ accepted indexed => (Knowledge.apply_eq_ok indexed accepted).1) h command

lemma indexed_of_build {parts : Builder kn mn} {built : Logged (Block kn mn)}
    (accepted : parts.build = .ok built) : built.value.knowledge.Indexed := by
  obtain ⟨k, _, _, _, _, known, -, -, -, -, -, same⟩ := Builder.build_eq_ok accepted
  rw [same]
  exact (Knowledge.ofPoints_eq_ok known).1

end Block

end Autotune
