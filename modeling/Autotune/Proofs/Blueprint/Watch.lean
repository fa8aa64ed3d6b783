import Autotune.Proofs.Block.Constrained
import Autotune.Proofs.Block.Wiring
import Autotune.Proofs.Blueprint.Build

/-!
# What the block of a blueprint observes

A blueprint observes the metrics that it adapts and those that its constraints are about
(`Blueprint.Observes`).  Its block has a monitor for exactly these (`Blueprint.isSome_monitor?_iff`),
each of them in the bank that was made along with the parts, and goes by the one of the adaptor where
there is one.

`Blueprint.observes_of_builder`: so no planned constraint on a metric is left without a say once
every monitor holds something.
-/

namespace Autotune

variable {kn mn : Nat} {d : Blueprint} {bank bank' : Bank}

namespace Bank

/-- The bank has a monitor with that id. -/
def Holds (bank : Bank) (id : MonitorId) : Prop := id.place < bank.monitors.length

variable {id : MonitorId} {capacity : Nat}

lemma holds_allocate : (bank.allocate capacity).2.Holds (bank.allocate capacity).1 := by
  show bank.monitors.length < (bank.monitors ++ [Monitor.ofCapacity capacity]).length
  rw [List.length_append]
  exact Nat.lt_add_one _

lemma Holds.allocate (h : bank.Holds id) : (bank.allocate capacity).2.Holds id := by
  show id.place < (bank.monitors ++ [Monitor.ofCapacity capacity]).length
  rw [List.length_append]
  exact Nat.lt_add_right _ h

variable {α : Type} {owners : List (α × Nat)}

lemma Holds.allocateEach (h : bank.Holds id) : (bank.allocateEach owners).2.Holds id := by
  induction owners generalizing bank with
  | nil => exact h
  | cons owner rest ih => exact ih h.allocate

lemma holds_of_mem_allocateEach :
    ∀ entry ∈ (bank.allocateEach owners).1, (bank.allocateEach owners).2.Holds entry.2 := by
  induction owners generalizing bank with
  | nil => exact fun _ he => (List.not_mem_nil he).elim
  | cons owner rest ih => exact List.forall_mem_cons.mpr ⟨holds_allocate.allocateEach, ih⟩

lemma isSome_lookup_allocateEach {owners : List (Nat × Nat)} {metric : Nat} :
    ((bank.allocateEach owners).1.lookup metric).isSome = true ↔
      metric ∈ owners.map Prod.fst := by
  rw [List.lookup_isSome_iff, ← map_fst_allocateEach bank, List.mem_map]
  simp only [beq_iff_eq, @eq_comm Nat metric]

end Bank

namespace Blueprint

/-! ### Metrics -/

/-- The metric is adapted, or a constraint of a planned state is about it. -/
def Observes (d : Blueprint) (metric : Nat) : Prop :=
  (∃ plan ∈ d.adaptors, d.metricIndex plan.metric = .ok metric) ∨
    ∃ plan ∈ d.states, ∃ c ∈ plan.constraints,
      c.field.segment = .metrics ∧ d.indexOf c.field = .ok metric

lemma toOption_eq_some_iff {ε α : Type} {x : Except ε α} {a : α} :
    x.toOption = some a ↔ x = .ok a := by
  cases x <;> simp [Except.toOption]

lemma mem_constrainedMetrics {metric : Nat} :
    metric ∈ d.constrainedMetrics ↔ ∃ plan ∈ d.states, ∃ c ∈ plan.constraints,
      c.field.segment = .metrics ∧ d.indexOf c.field = .ok metric := by
  unfold constrainedMetrics
  simp only [List.mem_filter, List.mem_range, List.contains_iff_mem, List.mem_filterMap,
    List.mem_map, List.mem_flatMap, toOption_eq_some_iff, decide_eq_true_eq]
  constructor
  · rintro ⟨-, _, ⟨⟨c, ⟨plan, hp, hc⟩, rfl⟩, segment⟩, found⟩
    exact ⟨plan, hp, c, hc, segment, found⟩
  · rintro ⟨plan, hp, c, hc, segment, found⟩
    have inside := lt_of_indexOf found
    rw [segment] at inside
    exact ⟨inside, _, ⟨⟨c, ⟨plan, hp, hc⟩, rfl⟩, segment⟩, found⟩

lemma mem_adaptedMetrics {plans : List AdaptorPlan} {adaptors : List Adaptor}
    (h : d.resolveAdaptors bank plans = .ok (adaptors, bank')) {metric : Nat} :
    metric ∈ adaptors.map Adaptor.metric ↔
      ∃ plan ∈ plans, d.metricIndex plan.metric = .ok metric := by
  have made := (forall₂_resolveAdaptors h).imp fun _ _ resolved => resolved.1
  rw [List.mem_map]
  constructor
  · rintro ⟨a, ha, rfl⟩
    exact exists_of_mem_forall₂ made a ha
  · rintro ⟨plan, hp, found⟩
    obtain ⟨a, ha, here⟩ := exists_of_mem_forall₂ (R := flip _) made.flip plan hp
    exact ⟨a, ha, Except.ok.inj (here.symm.trans found)⟩

lemma holds_of_resolveAdaptors {plans : List AdaptorPlan} {adaptors : List Adaptor}
    (h : d.resolveAdaptors bank plans = .ok (adaptors, bank')) :
    (∀ id, bank.Holds id → bank'.Holds id) ∧ ∀ a ∈ adaptors, bank'.Holds a.monitor := by
  induction plans generalizing bank adaptors with
  | nil =>
    cases h
    exact ⟨fun _ held => held, fun _ ha => (List.not_mem_nil ha).elim⟩
  | cons plan rest ih =>
    simp only [resolveAdaptors, bind_eq_ok, pure_eq_ok] at h
    obtain ⟨metric, -, ⟨adaptors, _⟩, later, made⟩ := h
    cases made
    obtain ⟨kept, own⟩ := ih later
    exact ⟨fun _ held => kept _ held.allocate,
      List.forall_mem_cons.mpr ⟨kept _ Bank.holds_allocate, own⟩⟩

/-! ### Blocks -/

variable {made : Builder kn mn × Bank} {points : List (OperatingPoint kn mn)} {b : Block kn mn}

/-- **A block has a monitor for exactly the metrics that its blueprint observes.** -/
theorem isSome_monitor?_iff (resolved : d.builder kn mn bank = .ok made)
    (wired : Block.Wired (made.1.addPoints points) b) (metric : Nat) :
    (b.monitor? metric).isSome = true ↔ d.Observes metric := by
  obtain ⟨-, -, states, ⟨adaptors, bank'⟩, -, adapted, rfl⟩ := builder_eq_ok.mp resolved
  have owned : d.owners.map Prod.fst = d.constrainedMetrics := by
    rw [owners, List.map_map]
    exact List.map_id _
  rw [Observes, ← mem_adaptedMetrics adapted, ← mem_constrainedMetrics]
  by_cases here : metric ∈ adaptors.map Adaptor.metric
  · obtain ⟨a, ha, rfl⟩ := List.mem_map.mp here
    rw [(wired.adapted a ha).2]
    exact iff_of_true rfl (.inl here)
  · rw [wired.watched metric here, Builder.addPoints]
    dsimp only
    rw [Bank.isSome_lookup_allocateEach, owned, or_iff_right here]

lemma holds_of_monitor? (resolved : d.builder kn mn bank = .ok made)
    (wired : Block.Wired (made.1.addPoints points) b) {metric : Nat} {monitor : MonitorId}
    (watched : b.monitor? metric = some monitor) : made.2.Holds monitor := by
  obtain ⟨-, -, states, ⟨adaptors, bank'⟩, -, adapted, rfl⟩ := builder_eq_ok.mp resolved
  obtain ⟨-, own⟩ := holds_of_resolveAdaptors adapted
  by_cases here : metric ∈ adaptors.map Adaptor.metric
  · obtain ⟨a, ha, rfl⟩ := List.mem_map.mp here
    obtain rfl : a.monitor = monitor := Option.some_inj.mp ((wired.adapted a ha).2.symm.trans watched)
    exact (own a ha).allocateEach
  · rw [wired.watched metric here] at watched
    exact Bank.holds_of_mem_allocateEach _ (mem_of_lookup watched)

lemma constrainsOnly_of_state {plan : StatePlan} (hp : plan ∈ d.states) {s : State}
    (h : d.state plan = .ok s) : s.ConstrainsOnly d.Observes := by
  intro c hc metric about
  obtain ⟨planned, hc, here⟩ := exists_plan_of_mem h hc
  obtain ⟨segment, index⟩ := Constraint.metric?_eq_some_iff.mp about
  have selects := selects_constraint here
  exact .inr ⟨plan, hp, planned, hc, selects.segment ▸ segment, index ▸ selects.index⟩

/-- Whatever constrained metric a run of the block meets is observed, or a call handed it in. -/
lemma constrainsOnly_of_builder (resolved : d.builder kn mn bank = .ok made)
    {built : Logged (Block kn mn)} (accepted : (made.1.addPoints points).build = .ok built)
    (calls : List (Call kn mn)) :
    (built.value.through calls).EveryState (State.ConstrainsOnly fun metric => d.Observes metric ∨
      ∃ call ∈ calls, ∃ c ∈ call.constraints, c.metric? = some metric) := by
  obtain ⟨-, -, states, resolved, planned, -, rfl⟩ := builder_eq_ok.mp resolved
  refine Block.constrainsOnly_through (Block.everyState_of_build accepted ?_ fun s hs => ?_) ?_
  · exact fun _ hc => (List.not_mem_nil hc).elim
  · obtain ⟨plan, hp, here⟩ := exists_of_mem_forall₂ planned s hs
    exact fun c hc metric about => .inl (constrainsOnly_of_state hp here c hc metric about)
  · exact fun call hcall c hc metric about => .inr ⟨call, hcall, c, hc, about⟩

/-- **Which monitors a block has, and who goes by them.**  In every run of a block, an adapted metric
is watched by the very monitor that its adaptor reads and another one by the monitor that was named
for it first.  A block that was described has a monitor for exactly the metrics that are adapted or
constrained in the description.  So once each of its monitors holds something, an update gives every
constraint of the active state that is about a metric a vote, but for those that were handed in
later about a metric which the description does not observe. -/
theorem observes_of_builder (kn mn : Nat) :
    (∀ (parts : Builder kn mn) (built : Logged (Block kn mn)), parts.build = .ok built →
      ∀ calls : List (Call kn mn), Block.Wired parts (built.value.through calls)) ∧
    ∀ (d : Blueprint) (bank : Bank) (made : Builder kn mn × Bank),
      d.builder kn mn bank = .ok made →
      ∀ (points : List (OperatingPoint kn mn)) (built : Logged (Block kn mn)),
        (made.1.addPoints points).build = .ok built → ∀ calls : List (Call kn mn),
          let b := built.value.through calls
          (∀ metric, (b.monitor? metric).isSome = true ↔ d.Observes metric) ∧
          (∀ metric monitor, b.monitor? metric = some monitor → made.2.Holds monitor) ∧
          ∀ (now : Bank) (p : OperatingPoint kn mn), b.running = some p →
            (∀ metric monitor, b.monitor? metric = some monitor →
              ∃ value, now.average? monitor = some value) →
            ∀ c ∈ b.activeState.constraints.items, ∀ metric, c.metric? = some metric →
              (∃ value, b.observed now metric = some value ∧
                (b.update now).value.2.activeState.constraints.get? c.priority =
                  some { c with tracker := (c.tracker.vote (c.goal.isMet value)).2 }) ∨
              ¬ d.Observes metric ∧
                ∃ call ∈ calls, ∃ e ∈ call.constraints, e.metric? = some metric := by
  refine ⟨fun parts built accepted calls => Block.monitor?_of_build accepted calls, ?_⟩
  intro d bank made resolved points built accepted calls b
  have wired : Block.Wired (made.1.addPoints points) b := Block.monitor?_of_build accepted calls
  have monitored := isSome_monitor?_iff resolved wired
  refine ⟨monitored, fun metric monitor => holds_of_monitor? resolved wired, ?_⟩
  intro now p runs held c hc metric about
  by_cases observes : d.Observes metric
  · obtain ⟨monitor, watched⟩ := Option.isSome_iff_exists.mp ((monitored metric).mpr observes)
    obtain ⟨value, held⟩ := held metric monitor watched
    have seen : b.observed now metric = some value := by
      rw [Block.observed, watched, Option.bind_some, held]
    exact .inl ⟨value, seen, Block.vote_of_update runs hc about seen⟩
  · have limited := Block.constrainsOnly_activeState (constrainsOnly_of_builder resolved accepted calls)
    exact .inr ⟨observes, (limited c hc metric about).resolve_left observes⟩

/-- A point with a latency and a power. -/
def measured (latency power : Float) : OperatingPoint 1 2 :=
  ⟨⟨#[.double (.number 1)], rfl⟩, ⟨#[.double (.number latency), .double (.number power)], rfl⟩⟩

/-- A latency and a power were observed. -/
def bothHeld : Bank := ⟨[⟨4, [20], false⟩, ⟨1, [9], false⟩]⟩

/-- The constraint on the power has its say, although the metric has no adaptor. -/
theorem observes_of_builder_sample :
    ∃ (made : Builder 1 2 × Bank) (built : Logged (Block 1 2)),
      twoMetrics.builder 1 2 .empty = .ok made ∧
      (made.1.addPoints [measured 20 5]).build = .ok built ∧
      let b := built.value.through [.ask (.apply (measured 20 5))]
      b.running = some (measured 20 5) ∧
      (∀ metric monitor, b.monitor? metric = some monitor →
        ∃ value, bothHeld.average? monitor = some value) ∧
      ∃ c ∈ b.activeState.constraints.items, c.metric? = some 1 ∧
        ∃ value, b.observed bothHeld 1 = some value ∧
          (b.update bothHeld).value.2.activeState.constraints.get? c.priority =
            some { c with tracker := (c.tracker.vote (c.goal.isMet value)).2 } := by
  let start := measured 20 5
  have tested : ((twoMetrics.builder 1 2 .empty).toOption.any fun made =>
      ((made.1.addPoints [start]).build).toOption.any fun built =>
        let b := built.value.through [.ask (.apply start)]
        b.monitors.all (fun entry => (bothHeld.average? entry.2).isSome) &&
          b.activeState.constraints.items.any fun c => c.metric? = some 1) = true := by
    decide +kernel
  obtain ⟨made, resolved, tested⟩ := exists_ok_of_any tested
  obtain ⟨built, accepted, tested⟩ := exists_ok_of_any tested
  obtain ⟨held, constrained⟩ := Bool.and_eq_true_iff.mp tested
  obtain ⟨c, hc, about⟩ := List.any_eq_true.mp constrained
  have about : c.metric? = some 1 := of_decide_eq_true about
  refine ⟨made, built, resolved, accepted, ?_⟩
  intro b
  obtain ⟨_, applied⟩ := Block.execute_apply built.value start
  have runs : b.running = some start := congrArg Block.running applied
  have held : ∀ metric monitor, b.monitor? metric = some monitor →
      ∃ value, bothHeld.average? monitor = some value := fun metric monitor watched =>
    Option.isSome_iff_exists.mp (List.all_eq_true.mp held _ (mem_of_lookup watched))
  obtain ⟨-, described⟩ := observes_of_builder 1 2
  obtain ⟨-, -, votes⟩ :=
    described twoMetrics .empty made resolved [start] built accepted [.ask (.apply start)]
  refine ⟨runs, held, c, hc, about, ?_⟩
  obtain vote | ⟨-, call, hcall, e, he, -⟩ := votes bothHeld start runs held c hc 1 about
  · exact vote
  · obtain rfl := List.mem_singleton.mp hcall
    cases he

end Blueprint

end Autotune
