import Autotune.Proofs.Block.Tally

/-!
# Which monitor watches a metric

The monitors of a block are put together once, when it is built: first those of the adaptors, then
those that were named for further metrics, of which the first one of a metric counts
(`Builder.lookup_of_watch`).  No call of a run changes them, or the monitor that an adaptor reads
(`Block.wiring_through`).

`Block.monitor?_of_build`: so in every run an adaptor and the constraints on its metric go by the
same monitor.
-/

namespace Autotune

variable {kn mn : Nat}

lemma Adaptors.lookup_link {as : List Adaptor}
    (distinct : ∀ a ∈ as, ∀ b ∈ as, a.metric = b.metric → a = b) {a : Adaptor} (ha : a ∈ as) :
    (as.map Adaptor.link).lookup a.metric = some a.monitor := by
  have listed : ((as.map Adaptor.link).lookup a.metric).isSome :=
    List.lookup_isSome_iff.mpr ⟨a.link, List.mem_map_of_mem ha, beq_self_eq_true _⟩
  obtain ⟨monitor, found⟩ := Option.isSome_iff_exists.mp listed
  obtain ⟨b, hb, same⟩ := List.mem_map.mp (mem_of_lookup found)
  obtain ⟨metric, rfl⟩ := Prod.mk.inj same
  rw [found, distinct b hb a ha metric]

/-! ### Building -/

namespace Builder

/-- **What is watched already stays, and of further entries the first one of a metric counts.** -/
lemma lookup_of_watch {monitors watched watching : List (Nat × MonitorId)}
    (h : watch mn monitors watched = .ok watching) (metric : Nat) :
    watching.lookup metric = (monitors.lookup metric).or (watched.lookup metric) := by
  induction watched generalizing monitors with
  | nil =>
    obtain rfl := pure_eq_ok.mp h
    exact Option.or_none.symm
  | cons entry rest ih =>
    obtain ⟨named, monitor⟩ := entry
    unfold watch at h
    rw [List.foldlM_cons, bind_eq_ok] at h
    obtain ⟨next, first, rest⟩ := h
    have step : next.lookup metric =
        (monitors.lookup metric).or ([(named, monitor)].lookup metric) := by
      dsimp only at first
      split at first
      case isTrue => cases first
      split at first
      case isTrue known =>
        cases first
        by_cases here : metric = named
        · obtain ⟨earlier, watched⟩ := Option.isSome_iff_exists.mp known
          rw [here, watched, Option.some_or]
        · rw [List.lookup_cons, beq_false_of_ne here, List.lookup_nil, Option.or_none]
      case isFalse =>
        cases first
        exact List.lookup_append
    rw [ih rest, step, Option.or_assoc, ← List.lookup_append, List.singleton_append]

lemma eq_of_metric_eq {adaptors : List Adaptor} {as : Adaptors}
    (h : adaptors.foldlM Adaptors.add (Roster.empty : Adaptors) = .ok as) :
    ∀ a ∈ adaptors, ∀ b ∈ adaptors, a.metric = b.metric → a = b := by
  intro a ha b hb same
  exact Roster.eq_of_key_eq ((mem_adaptors h).mpr (.inr ha)) ((mem_adaptors h).mpr (.inr hb)) same

end Builder

/-! ### Every run -/

namespace Block

/-- The monitors of a block, by the metrics that they watch and by the adaptors that read them. -/
def wiring (b : Block kn mn) : List (Nat × MonitorId) × List (Nat × MonitorId) :=
  (b.monitors, b.adaptors.links)

/-- **No command changes which monitors there are.** -/
theorem wiring_execute (b : Block kn mn) (command : Command kn mn) :
    (b.execute command).value.2.wiring = b.wiring :=
  execute_induction (motive := fun b' => b'.wiring = b.wiring) rfl (fun _ _ _ _ same => same)
    (fun _ _ same => same) (fun _ _ links same => (congrArg (Prod.mk _) links).trans same)
    (fun _ _ _ _ _ same => same) fun _ _ _ same => same

lemma wiring_perform (b : Block kn mn) (call : Call kn mn) :
    (b.perform call).after.wiring = b.wiring := by
  cases call with
  | ask command => exact wiring_execute b command
  | evaluate bank p =>
    have links := b.adaptors.links_evaluate b.telemetry.block bank p
    exact congrArg (Prod.mk b.monitors) links

lemma wiring_through (b : Block kn mn) (calls : List (Call kn mn)) :
    (b.through calls).wiring = b.wiring := by
  induction calls generalizing b with
  | nil => rfl
  | cons call rest ih => exact (ih _).trans (wiring_perform b call)

/-- A block goes by the monitors that its parts name. -/
structure Wired (parts : Builder kn mn) (b : Block kn mn) : Prop where
  /-- An adapted metric is watched by the very monitor that its adaptor reads. -/
  read : ∀ a ∈ b.adaptors.items, b.monitor? a.metric = some a.monitor
  /-- That is the one which was named for the adaptor. -/
  adapted : ∀ a ∈ parts.adaptors,
    b.adaptors.contains a.metric = true ∧ b.monitor? a.metric = some a.monitor
  /-- Another metric is watched by the monitor that was named for it first, if one was. -/
  watched : ∀ metric, metric ∉ parts.adaptors.map Adaptor.metric →
    b.monitor? metric = parts.watched.lookup metric

/-- **Which monitor watches a metric.**  In every run a block goes by the monitors that its parts
name, those of adaptors first. -/
theorem monitor?_of_build {parts : Builder kn mn} {built : Logged (Block kn mn)}
    (accepted : parts.build = .ok built) (calls : List (Call kn mn)) :
    Wired parts (built.value.through calls) := by
  set b := built.value.through calls
  obtain ⟨_, _, adaptors, monitors, _, -, -, -, added, -, watched, same⟩ :=
    Builder.build_eq_ok accepted
  have wired : b.wiring = (monitors, adaptors.links) := by rw [wiring_through, same]; rfl
  have found (metric : Nat) :
      b.monitor? metric = (parts.adapted.lookup metric).or (parts.watched.lookup metric) := by
    rw [monitor?, show b.monitors = monitors from congrArg Prod.fst wired]
    exact Builder.lookup_of_watch watched metric
  have own : ∀ a ∈ parts.adaptors, b.monitor? a.metric = some a.monitor := by
    intro a ha
    have here := Adaptors.lookup_link (Builder.eq_of_metric_eq added) ha
    rw [found, show parts.adapted.lookup a.metric = _ from here, Option.some_or]
  have linked {link : Nat × MonitorId} :
      link ∈ b.adaptors.links ↔ ∃ a ∈ parts.adaptors, a.link = link := by
    rw [show b.adaptors.links = adaptors.links from congrArg Prod.snd wired, Adaptors.links,
      List.mem_map]
    simp [Builder.mem_adaptors added, Roster.empty]
  refine ⟨fun a ha => ?_, fun a ha => ⟨?_, own a ha⟩, fun metric other => ?_⟩
  · obtain ⟨given, hg, link⟩ := linked.mp (List.mem_map_of_mem ha)
    obtain ⟨metric, monitor⟩ := Prod.mk.inj link
    rw [← metric, ← monitor, own given hg]
  · obtain ⟨running, hr, link⟩ := List.mem_map.mp (linked.mpr ⟨a, ha, rfl⟩)
    exact Roster.contains_iff.mpr ⟨running, hr, congrArg Prod.fst link⟩
  · have unadapted : parts.adapted.lookup metric = none := by
      refine List.lookup_eq_none_iff.mpr fun entry he => bne_iff_ne.mpr fun here => other ?_
      obtain ⟨a, ha, rfl⟩ := List.mem_map.mp he
      exact List.mem_map.mpr ⟨a, ha, here.symm⟩
    rw [found, unadapted, Option.none_or]

end Block

end Autotune
