import FlowEngine.Flow.Codec
/-!
# `FlowEngine.Message` — chat messages, mails and their delivery

What nodes hand to the messaging and mail providers, and what the providers answer.
-/

namespace FlowEngine

/-- A picture, a sound or another file sent in a chat. -/
structure MediaMessage where
  mediaType : String
  url : String
  caption : Option String := none
deriving DecidableEq, Repr

/-- A mail. -/
structure Mail where
  recipient : String
  subject : String
  html : String
deriving DecidableEq, Repr

/-- A provider's answer to a message. -/
structure Delivery where
  success : Bool
  providerMessageId : Option String := none
  response : Json := .null

def Delivery.accepted (providerMessageId : Option String) (response : Json) : Delivery :=
  { success := true, providerMessageId, response }

def Delivery.toJson (delivery : Delivery) : Json :=
  .record ([("success", .bool delivery.success)] ++
    Json.member? "providerMessageId" (delivery.providerMessageId.map .string) ++
    [("response", delivery.response)])

def MediaMessage.toJson (media : MediaMessage) : Json :=
  .record ([("mediaType", .string media.mediaType), ("url", .string media.url)] ++
    Json.member? "caption" (media.caption.map .string))

def Mail.toJson (mail : Mail) : Json :=
  .record [("to", .string mail.recipient), ("subject", .string mail.subject),
    ("html", .string mail.html)]

end FlowEngine
