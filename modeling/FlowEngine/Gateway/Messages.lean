import FlowEngine.Http.Exchange
import FlowEngine.Message
/-!
# `FlowEngine.Gateway.Messages` — providers of chat messages and of mails

Both providers take a message by one request and answer with some data, in which they may name it.
-/

namespace FlowEngine

/-- Where the messaging provider is. -/
structure ChatGateway where
  client : Http.Client
  /-- The whole URL of the provider, without slashes at its end. -/
  base : String
  /-- Which of the provider's numbers sends. -/
  sender : String
  key : Option String := none

namespace ChatGateway

def provider : String := "whatsapp"

def request? (gateway : ChatGateway) (action : String) (body : Json) : Option Http.Request := do
  let target ← Http.Target.ofUrl? gateway.client
    (gateway.base ++ "/message/" ++ action ++ "/" ++ gateway.sender)
  if gateway.key.all Http.isHeaderValue then
    some { method := "POST", target, apiKey := gateway.key.map Http.received, body := some body }
  else none

def textRequest? (gateway : ChatGateway) (recipient text : String) : Option Http.Request :=
  gateway.request? "sendText" (.record [("number", .string recipient), ("text", .string text)])

def mediaRequest? (gateway : ChatGateway) (recipient : String) (media : MediaMessage) :
    Option Http.Request :=
  gateway.request? "sendMedia" (.record [("number", .string recipient),
    ("mediatype", .string media.mediaType), ("media", .string media.url),
    ("caption", .string (media.caption.getD ""))])

def messageId? (response : Json) : Option String :=
  ((response.get? "key").bind (Json.get? "id")).bind Json.text?

def readReply (reply : Option Http.Reply) : Except TransportError Delivery :=
  match Http.received? provider reply with
  | .ok response => .ok (.accepted (messageId? response) response)
  | .error e => .error e

end ChatGateway

/-- Where the mail provider is. -/
structure MailGateway where
  client : Http.Client
  /-- The whole URL of the provider, without slashes at its end. -/
  base : String

namespace MailGateway

def provider : String := "email"

def request? (gateway : MailGateway) (mail : Mail) : Option Http.Request := do
  let target ← Http.Target.ofUrl? gateway.client (gateway.base ++ "/send")
  some { method := "POST", target, body := some mail.toJson }

def messageId? (response : Json) : Option String :=
  ((response.get? "id").bind Json.text?).or ((response.get? "messageId").bind Json.text?)

def readReply (reply : Option Http.Reply) : Except TransportError Delivery :=
  match Http.received? provider reply with
  | .ok response => .ok (.accepted (messageId? response) response)
  | .error e => .error e

end MailGateway

end FlowEngine
