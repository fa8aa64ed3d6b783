import Autotune.Proofs.Block.Refused

/-!
# Queued updates arrive once and in order

`Block.trace` lists the calls of a run with their answers, and a `Ledger` is what can be learned
from that list alone: the queues that were opened, and the updates whose sending was accepted, each
with its `Fate`.  An update waits until the block takes it or a new queue drops it.

* `Block.applyPending_eq`: taking what waits is putting one update after the other in force;
* `Ledger.Matches` relates the ledger to the queue of the block.  Every call keeps it
  (`Ledger.Matches.execute`), hence every run does (`Ledger.Matches.after`);
* `Block.delivery_of_build`: in every run the updates that wait, those that were taken and those
  that were dropped are the accepted ones, in the order in which they were sent.
-/

namespace Autotune

open Operation

variable {kn mn : Nat} {b : Block kn mn} {command : Command kn mn}

/-- The command has nothing to do with queued updates. -/
def Command.KeepsQueue : Command kn mn → Prop
  | .openQueue _ | .send .. | .applyPending => False
  | _ => True

namespace Block

/-- The calls of a run, with their answers. -/
def trace (b : Block kn mn) : List (Command kn mn) → List (Command kn mn × Response kn mn)
  | [] => []
  | command :: rest =>
    (command, (b.execute command).value.1) :: (b.execute command).value.2.trace rest

/-! ### One call -/

lemma execute_updateKnowledge_inbox (b : Block kn mn) (inbox : Inbox kn mn)
    (update : Update kn mn) :
    (execute { b with inbox := inbox } (.updateKnowledge update)).value =
      ((b.execute (.updateKnowledge update)).value.1,
        { (b.execute (.updateKnowledge update)).value.2 with inbox := inbox }) := by
  have same (points : List (OperatingPoint kn mn)) :
      validate { b with inbox := inbox } points = b.validate points := rfl
  simp only [execute, call, updateKnowledge, run, bind, andThen, Operation.read, check, same]
  cases b.knowledge.apply update with
  | error fault => rfl
  | ok next =>
    dsimp only
    cases b.validate next.points with
    | error fault => rfl
    | ok u => rfl

lemma takeUpdates_eq (b : Block kn mn) (updates : List (Update kn mn)) :
    (b.takeUpdates updates).value =
      ((b.trace (updates.map .updateKnowledge)).countP fun call => call.2.isVersion,
        b.after (updates.map .updateKnowledge)) := by
  induction updates generalizing b with
  | nil => rfl
  | cons update rest ih =>
    have first := takeUpdate_eq b update
    have later := ih (b.execute (.updateKnowledge update)).value.2
    have steps : (b.takeUpdates (update :: rest)).value =
        ((b.takeUpdate update).value.1 + ((b.takeUpdate update).value.2.takeUpdates rest).value.1,
          ((b.takeUpdate update).value.2.takeUpdates rest).value.2) := rfl
    rw [steps, first, later, List.map_cons, trace, List.countP_cons, Nat.add_comm]
    rfl

lemma after_updateKnowledge_inbox (b : Block kn mn) (inbox : Inbox kn mn)
    (updates : List (Update kn mn)) :
    trace { b with inbox := inbox } (updates.map .updateKnowledge) =
        b.trace (updates.map .updateKnowledge) ∧
      after { b with inbox := inbox } (updates.map .updateKnowledge) =
        { b.after (updates.map .updateKnowledge) with inbox := inbox } := by
  induction updates generalizing b with
  | nil => exact ⟨rfl, rfl⟩
  | cons update rest ih =>
    have first := execute_updateKnowledge_inbox b inbox update
    obtain ⟨answers, left⟩ := ih (b.execute (.updateKnowledge update)).value.2
    constructor
    · rw [List.map_cons, trace, trace, first, answers]
    · show after (execute { b with inbox := inbox } (.updateKnowledge update)).value.2 _ = _
      rw [first, left]
      rfl

/-- **Taking what waits is putting one update after the other in force, and empties the queue.**
The answer counts the accepted ones. -/
theorem applyPending_eq (b : Block kn mn) :
    (b.execute .applyPending).value =
      (.taken ((b.trace (b.inbox.pending.map .updateKnowledge)).countP fun call =>
          call.2.isVersion),
        { b.after (b.inbox.pending.map .updateKnowledge) with
          inbox := { b.inbox with pending := [] } }) := by
  obtain ⟨answers, left⟩ :=
    after_updateKnowledge_inbox b { b.inbox with pending := [] } b.inbox.pending
  have steps : (b.execute .applyPending).value =
      (.taken (takeUpdates { b with inbox := { b.inbox with pending := [] } }
          b.inbox.pending).value.1,
        (takeUpdates { b with inbox := { b.inbox with pending := [] } } b.inbox.pending).value.2) :=
    rfl
  rw [steps, takeUpdates_eq, answers, left]

lemma inbox_execute (b : Block kn mn) (h : command.KeepsQueue) :
    (b.execute command).value.2.inbox = b.inbox := by
  by_cases keeps : command.KeepsRegistry
  · cases command with
    | addState | removeState | setState | addConstraint | removeConstraint | setTarget | setRank =>
      cases keeps
    | openQueue | send | applyPending => cases h
    | updateKnowledge update =>
      obtain same | ⟨next, telemetry, -, state⟩ := execute_updateKnowledge b update
      · rw [same]
      · rw [state]
    | apply p =>
      obtain ⟨_, same⟩ := execute_apply b p
      rw [same]
    | update bank =>
      obtain ⟨_, _, _, same⟩ := execute_update b bank
      rw [same]
    | select | restore | resetAdaptation => rfl
  · obtain ⟨_, _, _, same⟩ := execute_setUp b keeps
    rw [same]

end Block

/-! ### What can be learned from calls and answers -/

/-- What has become of an update whose sending was accepted. -/
inductive Fate where
  | waiting
  | taken
  /-- It still waited when another queue was opened. -/
  | dropped
deriving DecidableEq

/-- What an observer of calls and answers knows of the queue. -/
structure Ledger (kn mn : Nat) where
  /-- The capacity that was asked for each queue, and the sender that was handed out for it. -/
  openings : List (Nat × Sender)
  /-- The updates whose sending was accepted, in the order in which they were sent. -/
  posted : List (Update kn mn × Fate)

namespace Ledger

def empty : Ledger kn mn := ⟨[], []⟩

/-- What waits comes to a fate. -/
def settle (l : Ledger kn mn) (fate : Fate) : Ledger kn mn :=
  { l with posted := l.posted.map fun (update, old) =>
      (update, if old = .waiting then fate else old) }

/-- Notes a call and its answer. -/
def record (l : Ledger kn mn) : Command kn mn × Response kn mn → Ledger kn mn
  | (.openQueue capacity, .queue sender) =>
    { l.settle .dropped with openings := l.openings ++ [(capacity, sender)] }
  | (.send _ update, .done) => { l with posted := l.posted ++ [(update, .waiting)] }
  | (.applyPending, .taken _) => l.settle .taken
  | _ => l

def ofTrace (calls : List (Command kn mn × Response kn mn)) : Ledger kn mn :=
  calls.foldl record empty

/-- The updates of a fate, in the order in which they were sent. -/
def ofFate (l : Ledger kn mn) (fate : Fate) : List (Update kn mn) :=
  (l.posted.filter fun entry => entry.2 = fate).map Prod.fst

/-- The ledger agrees with the queue of a block: the queues were numbered as they were opened, and
what waits is what was posted last and has come to no other fate. -/
structure Matches (l : Ledger kn mn) (b : Block kn mn) : Prop where
  queues : l.openings.map (fun opening => opening.2.queue) = List.range' 1 b.inbox.opened
  capacities : ∀ opening ∈ l.openings, opening.2.capacity = max opening.1 1
  waiting : ∃ settled, l.posted = settled ++ b.inbox.pending.map (·, .waiting) ∧
    ∀ entry ∈ settled, entry.2 ≠ .waiting

end Ledger

namespace Block

/-- The updates that come to a fate when a command is carried out. -/
def settledBy (fate : Fate) (b : Block kn mn) : Command kn mn → List (Update kn mn)
  | .applyPending => if fate = .taken then b.inbox.pending else []
  | .openQueue _ => if fate = .dropped then b.inbox.pending else []
  | _ => []

/-- The updates that come to a fate in a run, in order. -/
def settledIn (fate : Fate) (b : Block kn mn) : List (Command kn mn) → List (Update kn mn)
  | [] => []
  | command :: rest => b.settledBy fate command ++ (b.execute command).value.2.settledIn fate rest

end Block

namespace Ledger

variable {l : Ledger kn mn} {fate : Fate}

lemma matches_empty (h : b.inbox = .closed) : empty.Matches b where
  queues := by rw [h]; rfl
  capacities := by simp [empty]
  waiting := ⟨[], by rw [h]; rfl, by simp⟩

lemma Matches.frame (h : l.Matches b) {b' : Block kn mn} (same : b'.inbox = b.inbox) :
    l.Matches b' :=
  ⟨same ▸ h.queues, h.capacities, same ▸ h.waiting⟩

/-! ### What one call does to the ledger -/

lemma filter_sameFate (updates : List (Update kn mn)) (fate fate' : Fate) :
    ((updates.map (·, fate')).filter fun entry => entry.2 = fate).map Prod.fst =
      if fate = fate' then updates else [] := by
  by_cases same : fate = fate'
  · simp [List.filter_map, Function.comp_def, same]
  · simp [List.filter_map, Function.comp_def, same, Ne.symm same]

lemma ofFate_waiting (h : l.Matches b) : l.ofFate .waiting = b.inbox.pending := by
  obtain ⟨settled, posted, others⟩ := h.waiting
  have none : settled.filter (fun entry => entry.2 = Fate.waiting) = [] :=
    List.filter_eq_nil_iff.mpr fun entry he => by simpa using others entry he
  rw [ofFate, posted, List.filter_append, List.map_append, none, filter_sameFate, if_pos rfl]
  rfl

/-- What waits comes to the fate, and everything else keeps its own. -/
lemma posted_settle {settled : List (Update kn mn × Fate)} {pending : List (Update kn mn)}
    (posted : l.posted = settled ++ pending.map (·, .waiting))
    (others : ∀ entry ∈ settled, entry.2 ≠ .waiting) :
    (l.settle fate).posted = settled ++ pending.map (·, fate) := by
  have kept : (settled.map fun (update, old) =>
      (update, if old = Fate.waiting then fate else old)) = settled := by
    refine (List.map_congr_left fun entry he => ?_).trans (List.map_id settled)
    dsimp only
    rw [if_neg (others entry he)]
    rfl
  rw [settle, posted, List.map_append, kept, List.map_map]
  rfl

lemma Matches.settle_waiting (h : l.Matches b) (other : fate ≠ .waiting) :
    ∀ entry ∈ (l.settle fate).posted, entry.2 ≠ .waiting := by
  obtain ⟨settled, posted, others⟩ := h.waiting
  rw [posted_settle posted others]
  intro entry he
  obtain he | he := List.mem_append.mp he
  · exact others entry he
  · obtain ⟨update, -, rfl⟩ := List.mem_map.mp he
    exact other

lemma ofFate_settle (h : l.Matches b) {other : Fate} (settled : other ≠ .waiting) :
    (l.settle fate).ofFate other =
      l.ofFate other ++ if other = fate then b.inbox.pending else [] := by
  obtain ⟨before, posted, others⟩ := h.waiting
  rw [ofFate, ofFate, posted_settle posted others, posted, List.filter_append, List.filter_append,
    List.map_append, List.map_append, filter_sameFate, filter_sameFate, if_neg settled,
    List.append_nil]

/-- **Every call keeps the ledger in agreement with the queue.** -/
theorem Matches.execute (h : l.Matches b) (command : Command kn mn) :
    (l.record (command, (b.execute command).value.1)).Matches (b.execute command).value.2 := by
  cases command with
  | openQueue capacity =>
    refine ⟨?_, fun opening ho => ?_, (l.settle .dropped).posted, ?_,
      h.settle_waiting (by decide)⟩
    · show (l.openings ++ [_]).map _ = List.range' 1 (b.inbox.opened + 1)
      rw [List.map_append, h.queues, List.range'_1_concat, Nat.add_comm]
      rfl
    · obtain ho | ho := List.mem_append.mp ho
      · exact h.capacities opening ho
      · obtain rfl := List.mem_singleton.mp ho
        rfl
    · exact (List.append_nil _).symm
  | send sender update =>
    rw [Block.execute_send]
    split_ifs
    · exact h
    · exact h
    · obtain ⟨settled, posted, others⟩ := h.waiting
      refine ⟨h.queues, h.capacities, settled, ?_, others⟩
      show l.posted ++ [(update, .waiting)] =
        settled ++ (b.inbox.pending ++ [update]).map (·, .waiting)
      rw [posted, List.append_assoc, List.map_append]
      rfl
  | applyPending =>
    have answer := congrArg Prod.fst (Block.applyPending_eq b)
    have inbox := congrArg (fun r : Response kn mn × Block kn mn => r.2.inbox)
      (Block.applyPending_eq b)
    dsimp only at answer inbox
    rw [answer]
    refine ⟨?_, h.capacities, (l.settle .taken).posted, ?_, h.settle_waiting (by decide)⟩
    · rw [inbox]
      exact h.queues
    · rw [inbox]
      exact (List.append_nil _).symm
  | addState | removeState | setState | addConstraint | removeConstraint | setTarget | setRank
  | updateKnowledge | select | apply | update | restore | resetAdaptation =>
    exact h.frame (Block.inbox_execute b trivial)

lemma ofFate_record (h : l.Matches b) (command : Command kn mn) (settled : fate ≠ .waiting) :
    (l.record (command, (b.execute command).value.1)).ofFate fate =
      l.ofFate fate ++ b.settledBy fate command := by
  cases command with
  | openQueue capacity => exact ofFate_settle h settled
  | applyPending =>
    have answer := congrArg Prod.fst (Block.applyPending_eq b)
    dsimp only at answer
    rw [answer]
    exact ofFate_settle h settled
  | send sender update =>
    have none : b.settledBy fate (.send sender update) = [] := rfl
    rw [Block.execute_send, none, List.append_nil]
    split_ifs
    · rfl
    · rfl
    · have waits : [(update, Fate.waiting)].filter (fun entry => entry.2 = fate) = [] :=
        List.filter_eq_nil_iff.mpr fun entry he => by
          obtain rfl := List.mem_singleton.mp he
          simpa using settled.symm
      show ((l.posted ++ [(update, Fate.waiting)]).filter _).map Prod.fst = _
      rw [List.filter_append, waits, List.append_nil]
      rfl
  | addState | removeState | setState | addConstraint | removeConstraint | setTarget | setRank
  | updateKnowledge | select | apply | update | restore | resetAdaptation =>
    exact (List.append_nil _).symm

/-- The update whose sending a call was, if it was accepted. -/
def acceptedBy : Command kn mn × Response kn mn → List (Update kn mn)
  | (.send _ update, .done) => [update]
  | _ => []

lemma map_posted_record (l : Ledger kn mn) (call : Command kn mn × Response kn mn) :
    (l.record call).posted.map Prod.fst = l.posted.map Prod.fst ++ acceptedBy call := by
  have settled (fate : Fate) : (l.settle fate).posted.map Prod.fst = l.posted.map Prod.fst :=
    List.map_map
  unfold record
  split
  · exact (settled .dropped).trans (List.append_nil _).symm
  · exact List.map_append
  · exact (settled .taken).trans (List.append_nil _).symm
  case h_4 other other' other'' =>
    have none : acceptedBy call = [] := by
      unfold acceptedBy
      split
      case h_1 sender update => exact absurd rfl (other' sender update)
      case h_2 => rfl
    rw [none, List.append_nil]

/-! ### Every run -/

/-- **Every run keeps the ledger in agreement with the queue.** -/
theorem Matches.after (h : l.Matches b) (commands : List (Command kn mn)) :
    ((b.trace commands).foldl record l).Matches (b.after commands) := by
  induction commands generalizing l b with
  | nil => exact h
  | cons command rest ih => exact ih (h.execute command)

lemma ofFate_after (h : l.Matches b) (commands : List (Command kn mn)) (settled : fate ≠ .waiting) :
    ((b.trace commands).foldl record l).ofFate fate =
      l.ofFate fate ++ b.settledIn fate commands := by
  induction commands generalizing l b with
  | nil => exact (List.append_nil _).symm
  | cons command rest ih =>
    have later := ih (h.execute command)
    rw [ofFate_record h command settled, List.append_assoc] at later
    exact later

lemma map_posted_after (calls : List (Command kn mn × Response kn mn)) (l : Ledger kn mn) :
    (calls.foldl record l).posted.map Prod.fst =
      l.posted.map Prod.fst ++ calls.flatMap acceptedBy := by
  induction calls generalizing l with
  | nil => exact (List.append_nil _).symm
  | cons call rest ih =>
    rw [List.foldl_cons, ih, map_posted_record, List.append_assoc, List.flatMap_cons]

end Ledger

namespace Block

/-- A sender whose queue has been superseded has another number than the open queue. -/
lemma queue_of_openings {l : Ledger kn mn} (h : l.Matches b) {earlier : List (Nat × Sender)}
    {last : Nat × Sender} (openings : l.openings = earlier ++ [last]) :
    last.2.queue = b.inbox.opened ∧ ∀ opening ∈ earlier, opening.2.queue ≠ b.inbox.opened := by
  have queues := h.queues
  rw [openings, List.map_append, List.map_singleton] at queues
  have length : b.inbox.opened = earlier.length + 1 := by
    simpa using (congrArg List.length queues).symm
  rw [length, List.range'_1_concat] at queues
  obtain ⟨before, own⟩ := List.append_inj' queues rfl
  have own : last.2.queue = 1 + earlier.length := List.singleton_inj.mp own
  refine ⟨by omega, fun opening ho same => ?_⟩
  have numbered : opening.2.queue ∈ List.range' 1 earlier.length :=
    before ▸ List.mem_map_of_mem ho
  have bound := (List.mem_range'_1.mp numbered).2
  omega

lemma inbox_of_build {parts : Builder kn mn} {built : Logged (Block kn mn)}
    (accepted : parts.build = .ok built) : built.value.inbox = .closed := by
  obtain ⟨_, _, _, _, _, -, -, -, -, -, -, same⟩ := Builder.build_eq_ok accepted
  rw [same]

/-- **Queued updates arrive once and in order.**  At any moment of a run:

* an update sent to the queue that was opened last is appended if that has room, and otherwise the
  sender is told its capacity; whoever sends to an earlier queue is told that it is closed;
* taking what waits is putting one update after the other in force, of which a refused one changes
  nothing; it counts the accepted ones and empties the queue;
* the updates whose sending was accepted are, in the order in which they were sent, those that wait,
  those that were taken and those that were dropped with their queue. -/
theorem delivery_of_build {parts : Builder kn mn} {built : Logged (Block kn mn)}
    (accepted : parts.build = .ok built) (commands : List (Command kn mn)) :
    let calls := built.value.trace commands
    let b := built.value.after commands
    let ledger := Ledger.ofTrace calls
    (∀ earlier capacity sender, ledger.openings = earlier ++ [(capacity, sender)] → ∀ update,
      b.execute (.send sender update) =
        (if b.inbox.pending.length < max capacity 1 then .quiet (.done,
            { b with inbox := { b.inbox with pending := b.inbox.pending ++ [update] } })
          else .quiet (.unsent (.queueFull (max capacity 1)), b)) ∧
      ∀ opening ∈ earlier,
        b.execute (.send opening.2 update) = .quiet (.unsent .disconnected, b)) ∧
    (b.execute .applyPending).value =
      (.taken ((b.trace (b.inbox.pending.map .updateKnowledge)).countP fun call =>
          call.2.isVersion),
        { b.after (b.inbox.pending.map .updateKnowledge) with
          inbox := { b.inbox with pending := [] } }) ∧
    (∀ update fault, (b.execute (.updateKnowledge update)).value.1 = .refused fault →
      (b.execute (.updateKnowledge update)).value.2 = b) ∧
    ledger.posted.map Prod.fst = calls.flatMap Ledger.acceptedBy ∧
    ledger.ofFate .waiting = b.inbox.pending ∧
    ∀ fate, fate ≠ .waiting → ledger.ofFate fate = built.value.settledIn fate commands := by
  intro calls b ledger
  have start : Ledger.empty.Matches built.value := Ledger.matches_empty (inbox_of_build accepted)
  have agrees : ledger.Matches b := start.after commands
  refine ⟨fun earlier capacity sender openings update => ?_, applyPending_eq b,
    fun update fault refused => (execute_refused refused).1, Ledger.map_posted_after calls .empty,
    Ledger.ofFate_waiting agrees, fun fate => Ledger.ofFate_after start commands⟩
  obtain ⟨own, others⟩ := queue_of_openings agrees openings
  have room : sender.capacity = max capacity 1 :=
    agrees.capacities (capacity, sender) (by rw [openings]; simp)
  constructor
  · rw [execute_send, if_neg (not_not_intro own), room]
    by_cases full : max capacity 1 ≤ b.inbox.pending.length
    · rw [if_pos full, if_neg (Nat.not_lt.mpr full)]
    · rw [if_neg full, if_pos (Nat.not_le.mp full)]
  · intro opening ho
    rw [execute_send, if_pos (others opening ho)]

/-- The first queue has room for one update, which is dropped when the second one is opened. -/
theorem delivery_of_build_sample :
    ∃ built, sampleBuilder.build = .ok built ∧
      let commands : List (Command 1 1) :=
        [.openQueue 0, .send ⟨1, 1⟩ (.remove ["1"]), .send ⟨1, 1⟩ (.remove ["2"]), .openQueue 2,
          .send ⟨2, 2⟩ (.remove ["3"])]
      let b := built.value.after commands
      (Ledger.ofTrace (built.value.trace commands)).ofFate .dropped =
          built.value.settledIn .dropped commands ∧
        built.value.settledIn .dropped commands = [.remove ["1"]] ∧
        b.inbox.pending = [.remove ["3"]] ∧
        ∀ update, b.execute (.send ⟨1, 1⟩ update) = .quiet (.unsent .disconnected, b) := by
  obtain ⟨built, accepted⟩ := sampleBuilder_accepted
  refine ⟨built, accepted, ?_⟩
  intro commands b
  obtain ⟨sending, -, -, -, -, settled⟩ := delivery_of_build accepted commands
  obtain ⟨_, _, _, _, _, -, -, -, -, -, -, same⟩ := Builder.build_eq_ok accepted
  have openings : (Ledger.ofTrace (built.value.trace commands)).openings =
      [(0, ⟨1, 1⟩)] ++ [(2, ⟨2, 2⟩)] := by
    rw [same]
    rfl
  have dropped : built.value.settledIn .dropped commands = [.remove ["1"]] := by
    rw [same]
    rfl
  have pending : (built.value.after commands).inbox.pending = [.remove ["3"]] := by
    rw [same]
    rfl
  exact ⟨settled .dropped (by decide), dropped, pending, fun update =>
    (sending _ _ _ openings update).2 (0, ⟨1, 1⟩) (by simp)⟩

end Block

end Autotune
