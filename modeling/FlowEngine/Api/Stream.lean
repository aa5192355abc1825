import FlowEngine.Api.Routes
import FlowEngine.Event.Bus
/-!
# `FlowEngine.Api.Stream` — the stream of events

A client that has opened the stream is sent every event published from then on, of all runs or of the
one that it names, and an answer to each of its pings.  It loses the events that it has fallen too far
behind to hear.  When the client closes, the stream is closed too.
-/

namespace FlowEngine.Api

/-- What a client sends. -/
inductive ClientFrame where
  | ping (text : String)
  | other
  | close
deriving DecidableEq, Repr

/-- What is sent to a client. -/
inductive ServerFrame where
  | pong (text : String)
  | event (event : Event)
  | close

/-- One client's stream. -/
structure Stream where
  /-- The run that the client follows, if it follows a single one. -/
  runId : Option String := none
  /-- The client's place among the events. -/
  position : Nat
  /-- What has been sent and not yet read, the latest first. -/
  sent : List ServerFrame := []
  ended : Bool := false

/-- The run that a query names, or nothing if it names several. -/
def runFilter? (query : String) : Option (Option String) :=
  match (Http.queryPairs query).filter fun pair => pair.1 == "runId" with
  | [] => some none
  | [(_, id)] => some (some id)
  | _ => none

namespace Stream

/-- The stream that a handshake opens, or the status with which it is refused. -/
def opened (request : Request) (bus : Bus) : Except Nat Stream :=
  match request.route? with
  | some .events =>
    match runFilter? request.query with
    | some runId => .ok { runId, position := bus.position }
    | none => .error 400
  | _ => .error 404

def follows (stream : Stream) (event : Event) : Bool :=
  match stream.runId with
  | some id => id == event.runId
  | none => true

/-- Answer what a client has sent; behind a close nothing more is answered. -/
def receive (stream : Stream) : List ClientFrame → Stream
  | [] => stream
  | .ping text :: rest => ({ stream with sent := .pong text :: stream.sent }).receive rest
  | .other :: rest => stream.receive rest
  | .close :: _ => { stream with sent := .close :: stream.sent, ended := true }

/-- Send the events that have been published since. -/
def drain (stream : Stream) (bus : Bus) : Stream :=
  if stream.ended then stream
  else
    let events := (bus.heardFrom stream.position).filter stream.follows
    { stream with
      sent := (events.map ServerFrame.event).reverse ++ stream.sent
      position := bus.position }

/-- What has been sent, and the stream from which it has been read. -/
def read (stream : Stream) : List ServerFrame × Stream :=
  (stream.sent.reverse, { stream with sent := [] })

end Stream

end FlowEngine.Api
