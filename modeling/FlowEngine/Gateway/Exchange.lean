import FlowEngine.Gateway.Settings
import FlowEngine.Message.Outbox
import FlowEngine.Program
import FlowEngine.Store.Memory
/-!
# `FlowEngine.Gateway.Exchange` — actions performed with providers

The actions on records, messages and mails go to the provider that is set up for them, one request
each, or else to its counterpart in memory.  A correspondence keeps those counterparts and the
requests that were sent.  Who has sent no request waits for no reply.
-/

namespace FlowEngine

/-- The counterparts in memory, and the requests that were sent, the latest first. -/
structure Correspondence where
  store : MemoryStore := {}
  outbox : Outbox := {}
  requests : List Http.Request := []
  /-- How long has been waited, in milliseconds. -/
  waited : Nat := 0

namespace Correspondence

/-- Send a request and read the reply to it; a request that cannot be made is like one without a
reply. -/
def ask {α : Type} (c : Correspondence) (request : Option Http.Request)
    (server : Http.Request → Option Http.Reply) (read : Option Http.Reply → α) :
    α × Correspondence :=
  match request with
  | some request => (read (server request), { c with requests := request :: c.requests })
  | none => (read none, c)

/-- The answer to an action, given the replies of the providers to requests. -/
def answer (client : Http.Client) (gateways : GatewaySettings)
    (server : Http.Request → Option Http.Reply) :
    (action : Action) → Correspondence → action.Reply × Correspondence
  | .list collection query, c =>
    match gateways.records? client with
    | some gateway =>
      c.ask (gateway.listRequest? collection query) server
        (RecordGateway.readPage collection query)
    | none => (c.store.list collection query, c)
  | .getOne collection id options, c =>
    match gateways.records? client with
    | some gateway =>
      c.ask (gateway.getOneRequest? collection id options) server
        (RecordGateway.readRecord collection id)
    | none => (c.store.getOne collection id options, c)
  | .create collection data, c =>
    match gateways.records? client with
    | some gateway =>
      c.ask (gateway.createRequest? collection data) server RecordGateway.readReply
    | none =>
      let (result, store) := c.store.create collection data
      (result, { c with store })
  | .update collection id data, c =>
    match gateways.records? client with
    | some gateway =>
      c.ask (gateway.updateRequest? collection id data) server
        (RecordGateway.readRecord collection id)
    | none =>
      let (result, store) := c.store.update collection id data
      (result, { c with store })
  | .sendText recipient text, c =>
    match gateways.chat? client with
    | some gateway => c.ask (gateway.textRequest? recipient text) server ChatGateway.readReply
    | none =>
      let (delivery, outbox) := c.outbox.send (.text recipient text)
      (.ok delivery, { c with outbox })
  | .sendMedia recipient media, c =>
    match gateways.chat? client with
    | some gateway => c.ask (gateway.mediaRequest? recipient media) server ChatGateway.readReply
    | none =>
      let (delivery, outbox) := c.outbox.send (.media recipient media)
      (.ok delivery, { c with outbox })
  | .sendMail mail, c =>
    match gateways.mail? client with
    | some gateway => c.ask (gateway.request? mail) server MailGateway.readReply
    | none =>
      let (delivery, outbox) := c.outbox.sendMail mail
      (.ok delivery, { c with outbox })
  | .now, c => (⟨c.waited / 1000, c.waited % 1000 * 1000000⟩, c)
  | .elapsed, c => (c.waited, c)
  | .sleep millis, c => ((), { c with waited := c.waited + millis })
  | .publish _, c => ((), c)
  | .dispatch _ _ _, c => ((0 : Nat), c)
  | .await _, c => (.error (.runNotFound ""), c)

end Correspondence

end FlowEngine
