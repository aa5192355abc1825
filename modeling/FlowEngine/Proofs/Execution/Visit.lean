import FlowEngine.Execution.Basic
import FlowEngine.Proofs.Clock
/-!
# `FlowEngine.Proofs.Execution.Visit` — all that the execution of one node can be

A handler is a program of its own, and in a transcript its actions are not told apart from those of
the executor.  A log keeps them apart: an entry is either one exchange of the executor or the whole
work of a handler, with the context it was invoked with, what it asked of the world, and its result.

A visit collects what the world answered to the executor around one node, and what the node made of
it.  Everything else about the execution of the node is a function of the visit: its step, its log,
what it leaves in the context of the run.  `leads_runNode` is the inversion of `runNode` in these
terms; no later proof opens `runNode` or the ledger.
-/

namespace FlowEngine

/-! ## Logs -/

/-- A line in the log of a run. -/
inductive Entry where
  /-- Something that the executor has asked of the world. -/
  | asked (exchange : Exchange)
  /-- The whole work of a handler. -/
  | worked (handler : Handler) (context : NodeContext) (transcript : Transcript)
      (result : Except NodeError NodeOutput)

namespace Entry

/-- The part of the transcript that an entry stands for. -/
def transcript : Entry → Transcript
  | asked exchange => [exchange]
  | worked _ _ transcript _ => transcript

def reading? : Entry → Option Timestamp
  | asked exchange => exchange.reading?
  | worked _ _ _ _ => none

end Entry

def Entry.transcripts (log : List Entry) : Transcript := log.flatMap Entry.transcript

theorem Entry.transcripts_nil : Entry.transcripts [] = [] := rfl

theorem Entry.transcripts_asked_cons (exchange : Exchange) (log : List Entry) :
    Entry.transcripts (.asked exchange :: log) = exchange :: Entry.transcripts log := rfl

theorem Entry.transcripts_append (log log' : List Entry) :
    Entry.transcripts (log ++ log') = Entry.transcripts log ++ Entry.transcripts log' :=
  List.flatMap_append

/-- The readings of the clock that the executor itself has taken, in order. -/
def Entry.readings (log : List Entry) : List Timestamp := log.filterMap Entry.reading?

/-! ## What the ledger and the executor make of an answer -/

/-- A step with the identifier of its record, or without a record. -/
def Ledger.OpenStep.ofRecord (step : RunStep) : Except StoreError String → Ledger.OpenStep
  | .ok id => ⟨{ step with id }, true⟩
  | .error _ => ⟨step, false⟩

/-- The step with the result of its node. -/
def RunStep.close (step : RunStep) (result : Except NodeError NodeOutput) (moment : Timestamp) :
    RunStep :=
  match result with
  | .ok out => step.complete (snapshot out.output) none moment
  | .error e => step.complete none (some e.message) moment

def Event.nodeEnded (runId nodeId : String) (result : Except NodeError NodeOutput) (millis : Nat)
    (moment : Timestamp) : Event :=
  match result with
  | .ok out => .nodeCompleted runId nodeId out.output millis moment
  | .error e => .nodeFailed runId nodeId e.message moment

/-! ## Visits -/

/-- What the handler of a node sees when the node is given some data. -/
def Node.seen (node : Node) (run : Run) (data : Json) : NodeContext :=
  { runId := run.id, nodeId := node.id, nodeType := node.kind
    config := Template.fillConfig node.config data, data, testMode := run.testMode }

/-- The execution of one node, once it is over. -/
structure Visit where
  node : Node
  /-- The data of the run when the node's turn came. -/
  data : Json
  begun : Timestamp
  /-- The answer to the creation of the step's record. -/
  created : Except StoreError Json
  announced : Timestamp
  /-- The stopwatch before the work, and behind it. -/
  watch : Nat
  /-- What the handler asked of the world. -/
  work : Transcript
  result : Except NodeError NodeOutput
  stopped : Nat
  ended : Timestamp
  /-- The answer to the update of the step's record, if there was one. -/
  saved : Except StoreError Json
  told : Timestamp

namespace Visit

variable (executor : Executor) (run : Run) (visit : Visit)

def context : NodeContext := visit.node.seen run visit.data

def begunStep : RunStep :=
  .begin_ run.id visit.node.id visit.node.kind (snapshot visit.data) visit.begun

def recordId : Except StoreError String :=
  visit.created.bind (Json.recordId executor.settings.ledger.steps)

def openStep : Ledger.OpenStep := .ofRecord (visit.begunStep run) (visit.recordId executor)

def step : RunStep := (visit.openStep executor run).step.close visit.result visit.ended

/-- The work of the node's handler, if there is one. -/
def workLog : List Entry :=
  match executor.registry.resolve? visit.node.kind with
  | some handler => [.worked handler (visit.context run) visit.work visit.result]
  | none => []

/-- The update of the step's record; a step without a record has none. -/
def saveLog : List Entry :=
  if (visit.openStep executor run).persisted then
    [.asked ⟨.update executor.settings.ledger.steps (visit.step executor run).id
      (visit.step executor run).toPatch, visit.saved⟩]
  else []

def log : List Entry :=
  [.asked ⟨.now, visit.begun⟩,
    .asked ⟨.create executor.settings.ledger.steps (visit.begunStep run).toRecord, visit.created⟩,
    .asked ⟨.now, visit.announced⟩,
    .asked ⟨.publish (.nodeStarted run.id visit.node.id visit.node.kind visit.announced), ()⟩,
    .asked ⟨.elapsed, visit.watch⟩] ++
  visit.workLog executor run ++
  [.asked ⟨.elapsed, visit.stopped⟩, .asked ⟨.now, visit.ended⟩] ++
  visit.saveLog executor run ++
  [.asked ⟨.now, visit.told⟩,
    .asked ⟨.publish (.nodeEnded run.id visit.node.id visit.result (visit.stopped - visit.watch)
      visit.told), ()⟩]

/-- The node did its work as its handler does it, or as the policy for unknown types says. -/
def IsWork : Prop :=
  match executor.registry.resolve? visit.node.kind with
  | some handler => (handler.execute (visit.context run)).Leads visit.work visit.result
  | none => visit.work = [] ∧ visit.result = executor.unregistered visit.node

/-- What the visit leaves for the next node. -/
def leave (context : ExecutionContext) : ExecutionContext :=
  match visit.result with
  | .ok out => context.advance visit.node.id out.output
  | .error _ => context

/-! ### The step of a visit -/

variable {executor run visit}

theorem runId_step : (visit.step executor run).runId = run.id := by
  unfold step openStep
  cases visit.recordId executor <;> cases visit.result <;> rfl

theorem nodeId_step : (visit.step executor run).nodeId = visit.node.id := by
  unfold step openStep
  cases visit.recordId executor <;> cases visit.result <;> rfl

theorem nodeType_step : (visit.step executor run).nodeType = visit.node.kind := by
  unfold step openStep
  cases visit.recordId executor <;> cases visit.result <;> rfl

theorem input_step : (visit.step executor run).input = snapshot visit.data := by
  unfold step openStep
  cases visit.recordId executor <;> cases visit.result <;> rfl

theorem step_of_ok {out : NodeOutput} (h : visit.result = .ok out) :
    (visit.step executor run).status = .success ∧
      (visit.step executor run).output = snapshot out.output := by
  unfold step openStep
  rw [h]
  cases visit.recordId executor <;> exact ⟨rfl, rfl⟩

theorem step_of_error {e : NodeError} (h : visit.result = .error e) :
    (visit.step executor run).status = .failed ∧
      (visit.step executor run).error = some e.message := by
  unfold step openStep
  rw [h]
  cases visit.recordId executor <;> exact ⟨rfl, rfl⟩

end Visit

theorem Registry.mem_of_resolve? {registry : Registry} {kind : String} {handler : Handler}
    (h : registry.resolve? kind = some handler) : handler ∈ registry.handlers := by
  unfold resolve? at h
  split at h
  · next found hfound =>
      obtain rfl := Option.some.inj h
      exact List.mem_of_find?_eq_some hfound
  · obtain ⟨wildcard, -, hfound⟩ := Option.bind_eq_some_iff.mp h
    exact List.mem_of_find?_eq_some hfound

/-! ## The inversion -/

namespace Program

variable {ledger : Ledger} {executor : Executor} {run : Run} {node : Node} {t : Transcript}

theorem leads_insertStep {step : RunStep} {id : Except StoreError String}
    (h : (ledger.insertStep step).Leads t id) :
    ∃ created, t = [⟨.create ledger.steps step.toRecord, created⟩] ∧
      id = created.bind (Json.recordId ledger.steps) := by
  obtain ⟨created, rest, rfl, hr⟩ := leads_perform_bind.mp h
  refine ⟨created, ?_⟩
  cases created with
  | error e =>
      obtain ⟨rfl, rfl⟩ := leads_pure.mp hr
      exact ⟨rfl, rfl⟩
  | ok record =>
      obtain ⟨rfl, rfl⟩ := leads_pure.mp hr
      exact ⟨rfl, rfl⟩

theorem leads_beginStep {runId nodeId kind : String} {input : Json} {opened : Ledger.OpenStep}
    (h : (ledger.beginStep runId nodeId kind input).Leads t opened) :
    ∃ begun created,
      t = [⟨.now, begun⟩, ⟨.create ledger.steps
        (RunStep.begin_ runId nodeId kind (snapshot input) begun).toRecord, created⟩] ∧
      opened = .ofRecord (.begin_ runId nodeId kind (snapshot input) begun)
        (created.bind (Json.recordId ledger.steps)) := by
  obtain ⟨begun, rest, rfl, h₁⟩ := leads_now_bind.mp h
  obtain ⟨first, last, id, rfl, hid, h₂⟩ := leads_bind.mp h₁
  obtain ⟨created, rfl, rfl⟩ := leads_insertStep hid
  refine ⟨begun, created, ?_⟩
  cases hc : created.bind (Json.recordId ledger.steps) with
  | ok id =>
      rw [hc] at h₂
      obtain ⟨rfl, rfl⟩ := leads_pure.mp h₂
      exact ⟨rfl, rfl⟩
  | error e =>
      rw [hc] at h₂
      obtain ⟨rfl, rfl⟩ := leads_pure.mp h₂
      exact ⟨rfl, rfl⟩

theorem leads_saveStep {step : RunStep} {answer : Except StoreError Unit}
    (h : (ledger.saveStep step).Leads t answer) :
    ∃ saved, t = [⟨.update ledger.steps step.id step.toPatch, saved⟩] := by
  obtain ⟨saved, rest, rfl, hr⟩ := leads_perform_bind.mp h
  refine ⟨saved, ?_⟩
  cases saved with
  | error e => rw [(leads_pure.mp hr).1]
  | ok record => rw [(leads_pure.mp hr).1]

/-- However the node has ended, its step is closed with the result, and saved if it has a record. -/
theorem finishStep_eq (opened : Ledger.OpenStep) (result : Except NodeError NodeOutput) :
    ledger.finishStep opened (result.map NodeOutput.output) = (do
      let moment ← now
      if opened.persisted then
        let _ ← ledger.saveStep (opened.step.close result moment)
      return opened.step.close result moment) := by
  cases result <;> rfl

theorem leads_finishStep {opened : Ledger.OpenStep} {result : Except NodeError NodeOutput}
    {step : RunStep}
    (h : (ledger.finishStep opened (result.map NodeOutput.output)).Leads t step) :
    ∃ ended saved, step = opened.step.close result ended ∧
      t = ⟨.now, ended⟩ ::
        if opened.persisted then [⟨.update ledger.steps step.id step.toPatch, saved⟩] else [] := by
  rw [finishStep_eq] at h
  obtain ⟨ended, rest, rfl, h₁⟩ := leads_now_bind.mp h
  cases hp : opened.persisted with
  | true =>
      rw [hp, if_pos rfl] at h₁
      obtain ⟨first, last, answer, rfl, hsave, h₂⟩ := leads_bind.mp h₁
      obtain ⟨saved, rfl⟩ := leads_saveStep hsave
      obtain ⟨rfl, rfl⟩ := leads_pure.mp h₂
      exact ⟨ended, saved, rfl, rfl⟩
  | false =>
      rw [hp] at h₁
      obtain ⟨rfl, rfl⟩ := leads_pure.mp h₁
      exact ⟨ended, .ok .null, rfl, rfl⟩

theorem leads_announce {millis : Nat} {result : Except NodeError NodeOutput} {u : Unit}
    (h : (Executor.announce run node millis result).Leads t u) :
    ∃ told, t = [⟨.now, told⟩, ⟨.publish (.nodeEnded run.id node.id result millis told), ()⟩] := by
  obtain ⟨told, rest, rfl, h₁⟩ := leads_now_bind.mp h
  refine ⟨told, ?_⟩
  cases result with
  | ok out =>
      obtain ⟨_, rest, rfl, h₂⟩ := leads_act.mp h₁
      cases h₂
      rfl
  | error e =>
      obtain ⟨_, rest, rfl, h₂⟩ := leads_act.mp h₁
      cases h₂
      rfl

theorem isWork_of_leads {visit : Visit}
    (h : (executor.invoke run visit.node visit.data).Leads visit.work visit.result) :
    visit.IsWork executor run := by
  unfold Executor.invoke at h
  unfold Visit.IsWork
  cases hr : executor.registry.resolve? visit.node.kind with
  | some handler =>
      rw [hr] at h
      exact h
  | none =>
      rw [hr] at h
      exact leads_pure.mp h

/-- A node without a handler has asked nothing of the world, so its log lacks nothing. -/
theorem transcripts_workLog {visit : Visit} (h : visit.IsWork executor run) :
    Entry.transcripts (visit.workLog executor run) = visit.work := by
  unfold Visit.IsWork at h
  unfold Visit.workLog
  cases hr : executor.registry.resolve? visit.node.kind with
  | some handler => simp [Entry.transcripts, Entry.transcript]
  | none =>
      rw [hr] at h
      rw [h.1]
      rfl

theorem leads_runNode {progress : Executor.Progress}
    {out : Except NodeError NodeOutput × Executor.Progress}
    (h : (executor.runNode run node progress).Leads t out) :
    ∃ visit : Visit, visit.node = node ∧ visit.data = progress.context.data ∧
      visit.IsWork executor run ∧ t = Entry.transcripts (visit.log executor run) ∧
      out = (visit.result,
        { progress with
          executed := progress.executed ++ [node.id]
          steps := progress.steps ++ [visit.step executor run] }) := by
  obtain ⟨t₁, t₂, opened, rfl, hbegin, h₁⟩ := leads_bind.mp h
  obtain ⟨announced, t₃, rfl, h₂⟩ := leads_now_bind.mp h₁
  obtain ⟨t₄, rfl, h₃⟩ := leads_publish_bind.mp h₂
  obtain ⟨watch, t₅, rfl, h₄⟩ := leads_elapsed_bind.mp h₃
  obtain ⟨work, t₆, result, rfl, hwork, h₅⟩ := leads_bind.mp h₄
  obtain ⟨stopped, t₇, rfl, h₆⟩ := leads_elapsed_bind.mp h₅
  obtain ⟨t₈, t₉, step, rfl, hfinish, h₇⟩ := leads_bind.mp h₆
  obtain ⟨t₁₀, t₁₁, u, rfl, htell, h₈⟩ := leads_bind.mp h₇
  obtain ⟨rfl, rfl⟩ := leads_pure.mp h₈
  obtain ⟨begun, created, rfl, rfl⟩ := leads_beginStep hbegin
  obtain ⟨ended, saved, rfl, rfl⟩ := leads_finishStep hfinish
  obtain ⟨told, rfl⟩ := leads_announce htell
  let visit : Visit :=
    { node, data := progress.context.data, begun, created, announced, watch, work, result
      stopped, ended, saved, told }
  have hvisit : visit.IsWork executor run := isWork_of_leads hwork
  refine ⟨visit, rfl, rfl, hvisit, ?_, rfl⟩
  have hsave : Entry.transcripts (visit.saveLog executor run) =
      if (visit.openStep executor run).persisted then
        [⟨.update executor.settings.ledger.steps (visit.step executor run).id
          (visit.step executor run).toPatch, saved⟩]
      else [] := by
    unfold Visit.saveLog
    split <;> rfl
  simp only [Visit.log, Entry.transcripts_append, transcripts_workLog hvisit, hsave]
  simp only [Entry.transcripts, Entry.transcript, List.flatMap_cons, List.flatMap_nil,
    List.cons_append, List.nil_append, List.append_assoc]
  rfl

end Program

end FlowEngine
