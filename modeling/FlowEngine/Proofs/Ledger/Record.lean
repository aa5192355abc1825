import FlowEngine.Ledger.Record
import FlowEngine.Proofs.Flow.Reading
/-!
# `FlowEngine.Proofs.Ledger.Record` — what stands in the records of runs and steps

A record is written field by field.  `field` gives what each name stands for, so that nothing else
has to be known of how a record is put together.
-/

namespace FlowEngine

theorem Run.isRecord_toRecord (run : Run) (inputEvent : Json) :
    (run.toRecord inputEvent).IsRecord := Json.isRecord_record _

theorem Run.isRecord_toPatch (run : Run) : run.toPatch.IsRecord := Json.isRecord_record _

theorem RunStep.isRecord_toRecord (step : RunStep) : step.toRecord.IsRecord :=
  Json.isRecord_record _

theorem RunStep.isRecord_toPatch (step : RunStep) : step.toPatch.IsRecord :=
  Json.isRecord_record _

namespace Run

/-- What the names stand for in the record of a run. -/
def field (run : Run) (inputEvent : Json) (name : String) : Option Json :=
  if name = "flow_id" then some (.string run.flowId)
  else if name = "status" then some (.string run.status.text)
  else if name = "trigger_type" then some (.string run.triggerType.text)
  else if name = "started_at" then some run.startedAt.toJson
  else if name = "finished_at" then run.finishedAt.map Timestamp.toJson
  else if name = "error" then run.error.map .string
  else if name = "test_mode" then some (.bool run.testMode)
  else if name = "input_event" then some inputEvent
  else none

theorem get?_toRecord (run : Run) (inputEvent : Json) (name : String) :
    (run.toRecord inputEvent).get? name = run.field inputEvent name := by
  rw [toRecord, Json.get?_record]
  simp only [List.reverse_append, Json.reverse_member?, Json.lookup_append, Json.lookup_member?,
    List.reverse_cons, List.reverse_nil, List.nil_append, Json.lookup, field]
  grind

theorem get?_toPatch (run : Run) (name : String) :
    run.toPatch.get? name =
      if name = "status" then some (.string run.status.text)
      else if name = "finished_at" then run.finishedAt.map Timestamp.toJson
      else if name = "error" then run.error.map .string
      else none := by
  rw [toPatch, Json.get?_record]
  simp only [List.reverse_append, Json.reverse_member?, Json.lookup_append, Json.lookup_member?,
    List.reverse_cons, List.reverse_nil, List.nil_append, Json.lookup]
  grind

end Run

namespace RunStep

/-- What the names stand for in the record of a step. -/
def field (step : RunStep) (name : String) : Option Json :=
  if name = "run_id" then some (.string step.runId)
  else if name = "node_id" then some (.string step.nodeId)
  else if name = "node_type" then some (.string step.nodeType)
  else if name = "status" then some (.string step.status.text)
  else if name = "started_at" then some step.startedAt.toJson
  else if name = "finished_at" then step.finishedAt.map Timestamp.toJson
  else if name = "input" then step.input
  else if name = "output" then step.output
  else if name = "error" then step.error.map .string
  else none

theorem get?_toRecord (step : RunStep) (name : String) :
    step.toRecord.get? name = step.field name := by
  rw [toRecord, Json.get?_record]
  simp only [List.reverse_append, Json.reverse_member?, Json.lookup_append, Json.lookup_member?,
    List.reverse_cons, List.reverse_nil, List.nil_append, Json.lookup, field]
  grind

theorem get?_toPatch (step : RunStep) (name : String) :
    step.toPatch.get? name =
      if name = "status" then some (.string step.status.text)
      else if name = "finished_at" then step.finishedAt.map Timestamp.toJson
      else if name = "output" then step.output
      else if name = "error" then step.error.map .string
      else none := by
  rw [toPatch, Json.get?_record]
  simp only [List.reverse_append, Json.reverse_member?, Json.lookup_append, Json.lookup_member?,
    List.reverse_cons, List.reverse_nil, List.nil_append, Json.lookup]
  grind

end RunStep

end FlowEngine
