import FlowEngine.Run.Codec
/-!
# `FlowEngine.Event.Basic` — what is told about a run while it runs

A run announces that it has started and that it has ended, and for each node that it begins, that it
has given an output or failed, and whatever the node itself has to say.  Every event names its run,
so a listener can follow a single one.
-/

namespace FlowEngine

/-- What a node has to say while it works. -/
inductive Notice where
  | info (message : String)
  | warning (message : String)
deriving DecidableEq, Repr

/-- What happens in a run. -/
inductive Event where
  | runStarted (runId flowId : String) (moment : Timestamp)
  | runCompleted (runId : String) (status : RunStatus) (error : Option String) (millis : Nat)
      (moment : Timestamp)
  | nodeStarted (runId nodeId nodeType : String) (moment : Timestamp)
  | nodeCompleted (runId nodeId : String) (output : Json) (millis : Nat) (moment : Timestamp)
  | nodeFailed (runId nodeId error : String) (moment : Timestamp)
  | nodeNotice (runId nodeId : String) (notice : Notice)

namespace Notice

def kind : Notice → String
  | info _ => "Info"
  | warning _ => "Warning"

def message : Notice → String
  | info m => m
  | warning m => m

def toJson (notice : Notice) : Json :=
  .record [("event_type", .string notice.kind), ("message", .string notice.message)]

end Notice

namespace Event

def runId : Event → String
  | runStarted runId _ _ => runId
  | runCompleted runId _ _ _ _ => runId
  | nodeStarted runId _ _ _ => runId
  | nodeCompleted runId _ _ _ _ => runId
  | nodeFailed runId _ _ _ => runId
  | nodeNotice runId _ _ => runId

def toJson : Event → Json
  | runStarted runId flowId moment =>
    .record [("type", .string "RunStarted"), ("run_id", .string runId),
      ("flow_id", .string flowId), ("timestamp", moment.toJson)]
  | runCompleted runId status error millis moment =>
    .record [("type", .string "RunCompleted"), ("run_id", .string runId),
      ("status", .string status.text), ("error", .ofText? error), ("duration_ms", .ofNat millis),
      ("timestamp", moment.toJson)]
  | nodeStarted runId nodeId nodeType moment =>
    .record [("type", .string "NodeStarted"), ("run_id", .string runId),
      ("node_id", .string nodeId), ("node_type", .string nodeType),
      ("timestamp", moment.toJson)]
  | nodeCompleted runId nodeId output millis moment =>
    .record [("type", .string "NodeCompleted"), ("run_id", .string runId),
      ("node_id", .string nodeId), ("output", output), ("duration_ms", .ofNat millis),
      ("timestamp", moment.toJson)]
  | nodeFailed runId nodeId error moment =>
    .record [("type", .string "NodeFailed"), ("run_id", .string runId),
      ("node_id", .string nodeId), ("error", .string error), ("timestamp", moment.toJson)]
  | nodeNotice runId nodeId notice =>
    .record [("type", .string "NodeEvent"), ("run_id", .string runId),
      ("node_id", .string nodeId), ("event", notice.toJson)]

end Event

end FlowEngine
