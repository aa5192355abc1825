import FlowEngine.Message
/-!
# `FlowEngine.Message.Outbox` — messages and mails kept in memory

Where no provider is set up, messages and mails are kept instead of sent, and taken all the same.  An
outbox may also play a provider that takes nothing.
-/

namespace FlowEngine

/-- A chat message that was sent. -/
inductive SentMessage where
  | text (recipient text : String)
  | media (recipient : String) (media : MediaMessage)
deriving DecidableEq, Repr

def SentMessage.toJson : SentMessage → Json
  | text recipient s => .record [("recipient", .string recipient), ("text", .string s)]
  | media recipient file => .record [("recipient", .string recipient), ("media", file.toJson)]

/-- The messages and mails that were sent, the latest first. -/
structure Outbox where
  /-- No message is taken. -/
  rejecting : Bool := false
  messages : List SentMessage := []
  mails : List Mail := []

namespace Outbox

/-- The answer to the n-th message. -/
def answer (rejecting : Bool) (n : Nat) : Delivery :=
  if rejecting then
    { success := false, response := .object [("error", .string "rejected")] }
  else
    let id := "msg-" ++ toString n
    .accepted (some id) (.object [("key", .object [("id", .string id)])])

def send (outbox : Outbox) (message : SentMessage) : Delivery × Outbox :=
  let messages := message :: outbox.messages
  (answer outbox.rejecting messages.length, { outbox with messages })

def sendMail (outbox : Outbox) (mail : Mail) : Delivery × Outbox :=
  let mails := mail :: outbox.mails
  (.accepted (some ("mail-" ++ toString mails.length)) (.object [("queued", .bool true)]),
    { outbox with mails })

end Outbox

end FlowEngine
