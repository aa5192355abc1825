import FlowEngine.Engine
import FlowEngine.Proofs.Execution.Visit
import FlowEngine.Proofs.Store.Served
/-!
# `FlowEngine.Proofs.Execution.Sparing` — what no run asks

What a run asks is read off the text of the executor, part by part, and nothing is said of what the
world answers.  Besides what the handlers ask it reads the clocks, tells the listeners and writes to
the ledger (`Executor.asks_execute`).  A collection that is none of the ledger's and that no handler
writes to is therefore spared by every execution (`Executor.spares_execute`).
-/

namespace FlowEngine

/-! ## Executions -/

/-- What the execution of a run may ask is of a kind: it reads the clocks, tells the listeners and
writes to the ledger, and the handlers ask what they ask. -/
structure Engine.Asks (engine : Engine) (kind : Action → Prop) : Prop where
  now : kind .now
  elapsed : kind .elapsed
  publish : ∀ event, kind (.publish event)
  createRun : ∀ data, kind (.create engine.settings.ledger.runs data)
  updateRun : ∀ id data, kind (.update engine.settings.ledger.runs id data)
  createStep : ∀ data, kind (.create engine.settings.ledger.steps data)
  updateStep : ∀ id data, kind (.update engine.settings.ledger.steps id data)
  handlers : ∀ handler ∈ engine.registry.handlers, ∀ context,
    (handler.execute context).Asks kind

open Program (Asks)

variable {engine : Engine} {kind : Action → Prop}

namespace Ledger

variable {ledger : Ledger}

theorem asks_saveRunStatus (h : ∀ id data, kind (.update ledger.runs id data)) (run : Run) :
    (ledger.saveRunStatus run).Asks kind := by
  refine (Asks.perform (h run.id run.toPatch)).bind fun reply => ?_
  cases reply <;> exact .pure _

theorem asks_insertRun (h : ∀ data, kind (.create ledger.runs data)) (run : Run) (input : Json) :
    (ledger.insertRun run input).Asks kind := by
  refine (Asks.perform (h (run.toRecord input))).bind fun reply => ?_
  cases reply with
  | error e => exact .pure _
  | ok record =>
      dsimp only
      split <;> exact .pure _

theorem asks_insertStep (h : ∀ data, kind (.create ledger.steps data)) (step : RunStep) :
    (ledger.insertStep step).Asks kind := by
  refine (Asks.perform (h step.toRecord)).bind fun reply => ?_
  cases reply <;> exact .pure _

theorem asks_saveStep (h : ∀ id data, kind (.update ledger.steps id data)) (step : RunStep) :
    (ledger.saveStep step).Asks kind := by
  refine (Asks.perform (h step.id step.toPatch)).bind fun reply => ?_
  cases reply <;> exact .pure _

theorem asks_beginStep (hnow : kind .now) (h : ∀ data, kind (.create ledger.steps data))
    (runId nodeId nodeType : String) (input : Json) :
    (ledger.beginStep runId nodeId nodeType input).Asks kind := by
  refine (Asks.perform hnow).bind fun moment => ?_
  refine (asks_insertStep h _).bind fun stored => ?_
  cases stored <;> exact .pure _

theorem asks_finishStep (hnow : kind .now) (h : ∀ id data, kind (.update ledger.steps id data))
    (opened : OpenStep) (result : Except NodeError Json) :
    (ledger.finishStep opened result).Asks kind := by
  refine (Asks.perform hnow).bind fun moment => ?_
  dsimp only
  split
  · exact (asks_saveStep h _).bind fun _ => .pure _
  · exact .pure _

end Ledger

namespace Executor

theorem asks_invoke (h : engine.Asks kind) (run : Run) (node : Node) (data : Json) :
    (engine.invoke run node data).Asks kind := by
  unfold Executor.invoke
  split
  · next handler hhandler => exact h.handlers handler (Registry.mem_of_resolve? hhandler) _
  · exact .pure _

theorem asks_announce (h : engine.Asks kind) (run : Run) (node : Node) (millis : Nat)
    (result : Except NodeError NodeOutput) : (announce run node millis result).Asks kind := by
  refine (Asks.perform h.now).bind fun moment => ?_
  cases result <;> exact Asks.perform (h.publish _)

theorem asks_runNode (h : engine.Asks kind) (run : Run) (node : Node) (progress : Progress) :
    (engine.runNode run node progress).Asks kind := by
  refine (Ledger.asks_beginStep h.now h.createStep _ _ _ _).bind fun opened => ?_
  refine (Asks.perform h.now).bind fun moment => ?_
  refine (Asks.perform (h.publish _)).bind fun _ => ?_
  refine (Asks.perform h.elapsed).bind fun before => ?_
  refine (asks_invoke h run node _).bind fun result => ?_
  refine (Asks.perform h.elapsed).bind fun after => ?_
  refine (Ledger.asks_finishStep h.now h.updateStep _ _).bind fun step => ?_
  exact (asks_announce h run node _ result).bind fun _ => .pure _

theorem asks_visitQueued (h : engine.Asks kind) (run : Run) (canvas : Canvas) (fuel : Nat)
    (traversal : Traversal) (progress : Progress) :
    (engine.visitQueued run canvas fuel traversal progress).Asks kind := by
  induction fuel generalizing traversal progress with
  | zero => exact .pure _
  | succ fuel ih =>
      unfold Executor.visitQueued
      split
      · exact .pure _
      split
      · exact ih _ _
      refine (asks_runNode h run _ progress).bind fun visited => ?_
      obtain ⟨result, progress⟩ := visited
      cases result with
      | error e => exact .pure _
      | ok out => exact ih _ _

theorem asks_walk (h : engine.Asks kind) (run : Run) (flow : Flow) (input : Json) :
    (engine.walk run flow input).Asks kind := by
  unfold Executor.walk
  dsimp only
  split
  · exact .pure _
  refine (asks_runNode h run _ _).bind fun visited => ?_
  obtain ⟨result, progress⟩ := visited
  cases result with
  | error e => exact .pure _
  | ok out => exact asks_visitQueued h run _ _ _ _

theorem asks_record (h : engine.Asks kind) (run : Run) : (engine.record run).Asks kind :=
  (Ledger.asks_saveRunStatus h.updateRun run).bind fun _ => .pure _

theorem asks_execute (h : engine.Asks kind) (run : Run) (flow : Flow) (input : Json) :
    (engine.execute run flow input).Asks kind := by
  refine (Asks.perform h.elapsed).bind fun before => ?_
  split
  · exact .pure _
  refine (asks_record h _).bind fun _ => ?_
  refine (Asks.perform h.now).bind fun moment => ?_
  refine (Asks.perform (h.publish _)).bind fun _ => ?_
  refine (asks_walk h _ flow input).bind fun walk => ?_
  refine (Asks.perform h.now).bind fun moment => ?_
  dsimp only
  split
  · exact .pure _
  refine (asks_record h _).bind fun _ => ?_
  refine (Asks.perform h.elapsed).bind fun after => ?_
  exact (Asks.perform (h.publish _)).bind fun _ => .pure _

end Executor

/-! ## Sparing a collection -/

/-- The collection is none of the engine's ledger, and no handler writes to it. -/
structure Engine.Spares (engine : Engine) (collection : String) : Prop where
  runs : engine.settings.ledger.runs ≠ collection
  steps : engine.settings.ledger.steps ≠ collection
  handlers : ∀ handler ∈ engine.registry.handlers, ∀ context,
    (handler.execute context).Spares collection

variable {collection other : String}

theorem Action.create_spares (h : other ≠ collection) (data : Json) :
    (Action.create other data).written? ≠ some collection := fun heq => h (Option.some.inj heq)

theorem Action.update_spares (h : other ≠ collection) (id : String) (data : Json) :
    (Action.update other id data).written? ≠ some collection := fun heq => h (Option.some.inj heq)

theorem Engine.Spares.asks (h : engine.Spares collection) :
    engine.Asks fun action => action.written? ≠ some collection where
  now := nofun
  elapsed := nofun
  publish := nofun
  createRun := Action.create_spares h.runs
  updateRun := Action.update_spares h.runs
  createStep := Action.create_spares h.steps
  updateStep := Action.update_spares h.steps
  handlers := h.handlers

theorem Executor.spares_execute (h : engine.Spares collection) (run : Run) (flow : Flow)
    (input : Json) : (engine.execute run flow input).Spares collection :=
  Executor.asks_execute h.asks run flow input

/-! ## The start of a run -/

namespace Engine

variable (flow : Flow) (triggerType : TriggerType) (input : Json) (testMode : Bool)

theorem asks_createRun (hnow : kind .now)
    (hcreate : ∀ data, kind (.create engine.settings.ledger.runs data)) :
    (engine.createRun flow triggerType input testMode).Asks kind := by
  unfold createRun
  split
  · exact .pure _
  refine (Asks.perform hnow).bind fun moment => ?_
  refine (Ledger.asks_insertRun hcreate _ input).bind fun stored => ?_
  cases stored <;> exact .pure _

theorem asks_startRun (hnow : kind .now)
    (hcreate : ∀ data, kind (.create engine.settings.ledger.runs data))
    (hdispatch : ∀ run, kind (.dispatch run flow input)) :
    (engine.startRun flow triggerType input testMode).Asks kind := by
  refine (asks_createRun flow triggerType input testMode hnow hcreate).bind fun created => ?_
  cases created with
  | error e => exact .pure _
  | ok run => exact (Asks.perform (hdispatch run)).bind fun _ => .pure _

theorem spares_createRun (h : engine.settings.ledger.runs ≠ collection) :
    (engine.createRun flow triggerType input testMode).Spares collection :=
  asks_createRun flow triggerType input testMode nofun (Action.create_spares h)

theorem spares_startRun (h : engine.settings.ledger.runs ≠ collection) :
    (engine.startRun flow triggerType input testMode).Spares collection :=
  asks_startRun flow triggerType input testMode nofun (Action.create_spares h) nofun

end Engine

end FlowEngine
