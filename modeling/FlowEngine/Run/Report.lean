import FlowEngine.Run.Codec
/-!
# `FlowEngine.Run.Report` — the outcome of one run

A report holds the run as it ended, the data after its last successful node, the output of every
successful node under that node's identifier, and the nodes and their steps in the order of
execution.
-/

namespace FlowEngine

/-- The outcome of one run. -/
structure RunReport where
  run : Run
  /-- The data after the last successful node. -/
  data : Json
  /-- The output of every successful node. -/
  outputs : Json.Members
  /-- The nodes in the order of execution, the trigger first. -/
  executed : List String
  steps : List RunStep

namespace RunReport

def succeeded (report : RunReport) : Bool := report.run.status == .success

def toJson (report : RunReport) : Json :=
  .record [("run", report.run.toJson), ("data", report.data), ("outputs", .object report.outputs),
    ("executed", .array (report.executed.map .string)),
    ("steps", .array (report.steps.map RunStep.toJson)), ("succeeded", .bool report.succeeded)]

end RunReport

end FlowEngine
