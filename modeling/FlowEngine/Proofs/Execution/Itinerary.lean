import FlowEngine.Proofs.Execution.Visit
import FlowEngine.Flow.Traversal
/-!
# `FlowEngine.Proofs.Execution.Itinerary` — lists of visits that are walks

A run visits its trigger and then the nodes of the queue, each in its turn, until nothing is left or
a node fails.  `Itinerary` says which lists of visits are such walks from a given queue and context,
`Tour` which are whole runs.  Neither knows of fuel, of the store or of the clock: an identifier is
taken from the queue, its node is given the data at hand and does its work, and its successors are
queued.

What a list of visits leaves behind, and whether it ends with an error, is a function of the list.
-/

namespace FlowEngine

/-- The first of the identifiers that has a node, and what comes behind it. -/
def Canvas.firstNode? (canvas : Canvas) : List String → Option (Node × List String)
  | [] => none
  | id :: rest =>
    match canvas.find? id with
    | some node => some (node, rest)
    | none => canvas.firstNode? rest

theorem Canvas.id_of_find? {canvas : Canvas} {id : String} {node : Node}
    (h : canvas.find? id = some node) : node.id = id := by
  simpa using List.find?_some h

theorem Canvas.find?_of_firstNode?_eq_none {canvas : Canvas} {ids : List String}
    (h : canvas.firstNode? ids = none) : ∀ id ∈ ids, canvas.find? id = none := by
  induction ids with
  | nil => exact List.forall_mem_nil _
  | cons id rest ih =>
      cases hid : canvas.find? id with
      | some node => simp [firstNode?, hid] at h
      | none =>
          simp only [firstNode?, hid] at h
          exact List.forall_mem_cons.mpr ⟨hid, ih h⟩

/-- The first node stands behind identifiers without one, and is what its own leads to. -/
theorem Canvas.exists_skipped {canvas : Canvas} {ids rest : List String} {node : Node}
    (h : canvas.firstNode? ids = some (node, rest)) :
    ∃ skipped, ids = skipped ++ node.id :: rest ∧ (∀ id ∈ skipped, canvas.find? id = none) ∧
      canvas.find? node.id = some node := by
  induction ids with
  | nil => simp [firstNode?] at h
  | cons id ids ih =>
      cases hid : canvas.find? id with
      | none =>
          simp only [firstNode?, hid] at h
          obtain ⟨skipped, rfl, hskipped, hnode⟩ := ih h
          exact ⟨id :: skipped, rfl, List.forall_mem_cons.mpr ⟨hid, hskipped⟩, hnode⟩
      | some found =>
          simp only [firstNode?, hid, Option.some.injEq, Prod.mk.injEq] at h
          obtain ⟨rfl, rfl⟩ := h
          rw [id_of_find? hid]
          exact ⟨[], rfl, List.forall_mem_nil _, hid⟩

theorem Canvas.find?_of_firstNode? {canvas : Canvas} {ids rest : List String} {node : Node}
    (h : canvas.firstNode? ids = some (node, rest)) : canvas.find? node.id = some node := by
  obtain ⟨_, -, -, hnode⟩ := exists_skipped h
  exact hnode

namespace Executor

variable {executor : Executor} {run : Run} {canvas : Canvas} {flow : Flow} {input : Json}

/-! ## Lists of visits -/

/-- A node has its turn in a context: it is given the data at hand and does its work. -/
def Turn (executor : Executor) (run : Run) (context : ExecutionContext) (visit : Visit) : Prop :=
  visit.data = context.data ∧ visit.IsWork executor run

/-- From what is queued, and in the context at hand, a walk goes on through these visits. -/
inductive Itinerary (executor : Executor) (run : Run) (canvas : Canvas) :
    Traversal → ExecutionContext → List Visit → Prop where
  | done {t : Traversal} {context : ExecutionContext} :
      canvas.firstNode? t.queue = none → Itinerary executor run canvas t context []
  | failed {t : Traversal} {context : ExecutionContext} {visit : Visit} {rest : List String}
      {e : NodeError} :
      canvas.firstNode? t.queue = some (visit.node, rest) → executor.Turn run context visit →
      visit.result = .error e → Itinerary executor run canvas t context [visit]
  | passed {t : Traversal} {context : ExecutionContext} {visit : Visit} {rest : List String}
      {out : NodeOutput} {later : List Visit} :
      canvas.firstNode? t.queue = some (visit.node, rest) → executor.Turn run context visit →
      visit.result = .ok out →
      Itinerary executor run canvas
        ({ t with queue := rest }.expand visit.node.id (executor.takenBranch out))
        (visit.leave context) later →
      Itinerary executor run canvas t context (visit :: later)

/-- The context at the beginning of a run. -/
def entryContext (run : Run) (flow : Flow) (input : Json) : ExecutionContext :=
  { runId := run.id, flowId := flow.id, data := input }

/-- A whole run goes through these visits. -/
inductive Tour (executor : Executor) (run : Run) (flow : Flow) (input : Json) :
    List Visit → Prop where
  | noTrigger : flow.canvas.trigger? = none → Tour executor run flow input []
  | failed {visit : Visit} {e : NodeError} :
      flow.canvas.trigger? = some visit.node →
      executor.Turn run (entryContext run flow input) visit →
      visit.result = .error e → Tour executor run flow input [visit]
  | passed {visit : Visit} {out : NodeOutput} {later : List Visit} :
      flow.canvas.trigger? = some visit.node →
      executor.Turn run (entryContext run flow input) visit →
      visit.result = .ok out →
      executor.Itinerary run flow.canvas
        ((Traversal.start flow.canvas.edges visit.node.id).expand visit.node.id
          (executor.takenBranch out))
        (visit.leave (entryContext run flow input)) later →
      Tour executor run flow input (visit :: later)

/-- An identifier without a node makes no difference to a walk. -/
theorem Itinerary.skip {t : Traversal} {context : ExecutionContext} {visits : List Visit}
    {id : String} {rest : List String} (hq : t.queue = id :: rest) (hid : canvas.find? id = none)
    (h : executor.Itinerary run canvas { t with queue := rest } context visits) :
    executor.Itinerary run canvas t context visits := by
  have hfirst : canvas.firstNode? t.queue = canvas.firstNode? rest := by
    rw [hq, Canvas.firstNode?, hid]
  cases h with
  | done hnone => exact .done (hfirst.trans hnone)
  | failed hsome turn he => exact .failed (hfirst.trans hsome) turn he
  | passed hsome turn hok later => exact .passed (hfirst.trans hsome) turn hok later

/-- Only a run without a trigger visits nothing. -/
theorem Tour.eq_nil_iff {visits : List Visit} (h : executor.Tour run flow input visits) :
    visits = [] ↔ flow.canvas.trigger? = none := by
  cases h with
  | noTrigger hnone => simp [hnone]
  | failed hsome => simp [hsome]
  | passed hsome => simp [hsome]

/-! ### By their first visit -/

/-- Behind a visit a walk goes on through these visits, unless the node has failed. -/
def GoesOn (executor : Executor) (run : Run) (canvas : Canvas) (t : Traversal)
    (context : ExecutionContext) (visit : Visit) (later : List Visit) : Prop :=
  match visit.result with
  | .error _ => later = []
  | .ok out =>
    executor.Itinerary run canvas (t.expand visit.node.id (executor.takenBranch out))
      (visit.leave context) later

theorem Itinerary.eq_nil {t : Traversal} {context : ExecutionContext} {visits : List Visit}
    (h : executor.Itinerary run canvas t context visits)
    (hnone : canvas.firstNode? t.queue = none) : visits = [] := by
  cases h with
  | done => rfl
  | failed hsome => rw [hnone] at hsome; cases hsome
  | passed hsome => rw [hnone] at hsome; cases hsome

theorem Itinerary.exists_cons {t : Traversal} {context : ExecutionContext} {visits : List Visit}
    {node : Node} {rest : List String} (h : executor.Itinerary run canvas t context visits)
    (hsome : canvas.firstNode? t.queue = some (node, rest)) :
    ∃ visit later, visits = visit :: later ∧ visit.node = node ∧
      executor.Turn run context visit ∧
      executor.GoesOn run canvas { t with queue := rest } context visit later := by
  cases h with
  | done hnone => rw [hnone] at hsome; cases hsome
  | @failed _ _ visit _ e hfirst hturn he =>
      obtain ⟨rfl, rfl⟩ := Prod.mk.inj (Option.some.inj (hfirst.symm.trans hsome))
      exact ⟨visit, [], rfl, rfl, hturn, by rw [GoesOn, he]⟩
  | @passed _ _ visit _ out later hfirst hturn hok hlater =>
      obtain ⟨rfl, rfl⟩ := Prod.mk.inj (Option.some.inj (hfirst.symm.trans hsome))
      exact ⟨visit, later, rfl, rfl, hturn, by rw [GoesOn, hok]; exact hlater⟩

theorem Tour.exists_cons {visits : List Visit} {trigger : Node}
    (h : executor.Tour run flow input visits) (hsome : flow.canvas.trigger? = some trigger) :
    ∃ visit later, visits = visit :: later ∧ visit.node = trigger ∧
      executor.Turn run (entryContext run flow input) visit ∧
      executor.GoesOn run flow.canvas (.start flow.canvas.edges trigger.id)
        (entryContext run flow input) visit later := by
  cases h with
  | noTrigger hnone => rw [hnone] at hsome; cases hsome
  | @failed visit e htrigger hturn he =>
      obtain rfl := Option.some.inj (htrigger.symm.trans hsome)
      exact ⟨visit, [], rfl, rfl, hturn, by rw [GoesOn, he]⟩
  | @passed visit out later htrigger hturn hok hlater =>
      obtain rfl := Option.some.inj (htrigger.symm.trans hsome)
      exact ⟨visit, later, rfl, rfl, hturn, by rw [GoesOn, hok]; exact hlater⟩

end Executor

/-! ## What a list of visits amounts to -/

namespace Visit

def logs (executor : Executor) (run : Run) (visits : List Visit) : List Entry :=
  visits.flatMap (Visit.log executor run)

def leaveAll (visits : List Visit) (context : ExecutionContext) : ExecutionContext :=
  visits.foldl (fun context visit => visit.leave context) context

/-- The error of the last visit; only the last can have one. -/
def failure? (visits : List Visit) : Option NodeError :=
  visits.getLast?.bind fun visit =>
    match visit.result with
    | .error e => some e
    | .ok _ => none

/-- The error of a run with these visits: a run without visits has found no trigger. -/
def runError? : List Visit → Option String
  | [] => some FlowError.noTriggerNode.message
  | [visit] => (failure? [visit]).map fun e => "Trigger failed: " ++ e.message
  | visits => (failure? visits).map NodeError.message

variable {executor : Executor} {run : Run} {visit : Visit} {out : NodeOutput}

theorem transcripts_logs_cons (later : List Visit) :
    Entry.transcripts (logs executor run (visit :: later)) =
      Entry.transcripts (visit.log executor run) ++
        Entry.transcripts (logs executor run later) := by
  rw [logs, List.flatMap_cons, Entry.transcripts_append]
  rfl

theorem leave_of_ok (h : visit.result = .ok out) (context : ExecutionContext) :
    visit.leave context = context.advance visit.node.id out.output := by
  rw [leave, h]

theorem failure?_of_error {e : NodeError} (h : visit.result = .error e) :
    failure? [visit] = some e := by
  rw [failure?, List.getLast?_singleton, Option.bind_some, h]

theorem failure?_cons_of_ok (h : visit.result = .ok out) (later : List Visit) :
    failure? (visit :: later) = failure? later := by
  cases later with
  | nil => simp [failure?, h]
  | cons next later => simp [failure?]

theorem runError?_cons_of_ok (h : visit.result = .ok out) (later : List Visit) :
    runError? (visit :: later) = (failure? later).map NodeError.message := by
  cases later with
  | nil => simp [runError?, failure?, h]
  | cons next later => simp [runError?, failure?]

theorem failure?_of_runError? {visits : List Visit} (h : runError? visits = none) :
    failure? visits = none := by
  cases visits with
  | nil => rfl
  | cons visit later =>
      cases later with
      | nil => exact Option.map_eq_none_iff.mp h
      | cons next later => exact Option.map_eq_none_iff.mp h

end Visit

/-! ## Every visit in its place -/

namespace Executor

variable {executor : Executor} {run : Run} {canvas : Canvas} {flow : Flow} {input : Json}

/-- Every visit has its turn in the context that those before it have left. -/
def InTurn (executor : Executor) (run : Run) : ExecutionContext → List Visit → Prop
  | _, [] => True
  | context, visit :: later =>
    executor.Turn run context visit ∧ InTurn executor run (visit.leave context) later

theorem InTurn.getElem {context : ExecutionContext} {visits : List Visit}
    (h : executor.InTurn run context visits) (i : Nat) (hi : i < visits.length) :
    executor.Turn run (Visit.leaveAll (visits.take i) context) visits[i] := by
  induction visits generalizing context i with
  | nil => exact absurd hi (Nat.not_lt_zero i)
  | cons visit later ih =>
      cases i with
      | zero => exact h.1
      | succ i => exact ih h.2 i (Nat.lt_of_succ_lt_succ hi)

theorem InTurn.isWork {context : ExecutionContext} {visits : List Visit}
    (h : executor.InTurn run context visits) : ∀ visit ∈ visits, visit.IsWork executor run := by
  induction visits generalizing context with
  | nil => exact List.forall_mem_nil _
  | cons visit later ih => exact List.forall_mem_cons.mpr ⟨h.1.2, ih h.2⟩

theorem Itinerary.inTurn {t : Traversal} {context : ExecutionContext} {visits : List Visit}
    (h : executor.Itinerary run canvas t context visits) : executor.InTurn run context visits := by
  induction h with
  | done => trivial
  | failed _ hturn => exact ⟨hturn, trivial⟩
  | passed _ hturn _ _ ih => exact ⟨hturn, ih⟩

theorem Tour.inTurn {visits : List Visit} (h : executor.Tour run flow input visits) :
    executor.InTurn run (entryContext run flow input) visits := by
  cases h with
  | noTrigger => trivial
  | failed _ hturn => exact ⟨hturn, trivial⟩
  | passed _ hturn _ hlater => exact ⟨hturn, hlater.inTurn⟩

theorem Itinerary.find?_node {t : Traversal} {context : ExecutionContext} {visits : List Visit}
    (h : executor.Itinerary run canvas t context visits) :
    ∀ visit ∈ visits, canvas.find? visit.node.id = some visit.node := by
  induction h with
  | done => exact fun _ h => absurd h List.not_mem_nil
  | failed hfirst =>
      intro visit hvisit
      rw [List.mem_singleton.mp hvisit]
      exact Canvas.find?_of_firstNode? hfirst
  | passed hfirst _ _ _ ih =>
      intro visit hvisit
      rcases List.mem_cons.mp hvisit with rfl | hvisit
      · exact Canvas.find?_of_firstNode? hfirst
      · exact ih visit hvisit

/-- The first visit is at the trigger, and every other at the node that its identifier leads to. -/
theorem Tour.nodes {visits : List Visit} (h : executor.Tour run flow input visits) :
    visits.head?.map Visit.node = flow.canvas.trigger? ∧
      ∀ visit ∈ visits.tail, flow.canvas.find? visit.node.id = some visit.node := by
  cases h with
  | noTrigger hnone => exact ⟨hnone.symm, fun _ h => absurd h List.not_mem_nil⟩
  | failed hsome => exact ⟨hsome.symm, fun _ h => absurd h List.not_mem_nil⟩
  | passed hsome _ _ hlater => exact ⟨hsome.symm, hlater.find?_node⟩

end Executor

end FlowEngine
