import FlowEngine.Node.Registry
import FlowEngine.Template
/-!
# `FlowEngine.Node.Send` — nodes that send messages and mails

One handler serves every messaging channel, `whatsapp.send`, `sms.send` and so on; the channel is
what stands in front of the first point of the node's type and appears in messages only.  Mails have
a handler of their own.  A provider that takes a message but does not deliver it fails the node.
-/

namespace FlowEngine.Send

/-- A path of digits alone is no path but a number to be dialled. -/
def isDialled (path : String) : Bool := path.toList.all Char.isDigit

/-- Who receives a message: the value at `toPath` if that is given, and `to` otherwise. -/
def recipient? (ctx : NodeContext) : Option String :=
  match ctx.text? "toPath" with
  | some path =>
    if isDialled path then some path
    else
      match Template.lookup? ctx.data path with
      | some value => if value.isNull then none else Text.nonBlank? value.render
      | none => none
  | none => ctx.text? "to"

def channel (nodeType : String) : String :=
  match Text.cutFirst? '.' nodeType with
  | some (channel, _) => channel
  | none => "messaging"

/-- What a node makes of a provider's answer. -/
def delivered (provider : String) : Except TransportError Delivery → Except NodeError NodeOutput
  | .error e => .error (.transport e)
  | .ok delivery =>
    if delivery.success then
      .ok { output := .record [("sent", .bool true),
        ("providerMessageId", .ofText? delivery.providerMessageId),
        ("response", delivery.response)] }
    else .error (.transport (.rejected provider delivery.response.render))

def media (ctx : NodeContext) : MediaMessage :=
  { mediaType := (ctx.text? "mediaType").getD "image"
    url := (ctx.text? "mediaUrl").getD ""
    caption := ctx.text? "mediaCaption" }

def executeMessage (ctx : NodeContext) : Program (Except NodeError NodeOutput) := do
  match recipient? ctx with
  | none => return .error .missingRecipient
  | some recipient =>
    let channel := channel ctx.nodeType
    if (ctx.text? "messageType").getD "text" = "text" then
      ctx.notify (.info ("Sending " ++ channel ++ " text to " ++ recipient))
      return delivered channel (← Program.sendText recipient ((ctx.text? "template").getD ""))
    else
      let media := media ctx
      ctx.notify (.info ("Sending " ++ channel ++ " " ++ media.mediaType ++ " to " ++
        recipient))
      return delivered channel (← Program.sendMedia recipient media)

def executeMail (ctx : NodeContext) : Program (Except NodeError NodeOutput) := do
  match ctx.requireText "to" with
  | .error e => return .error e
  | .ok recipient =>
    let mail : Mail :=
      { recipient, subject := (ctx.text? "subject").getD ""
        html := (ctx.text? "html").getD "" }
    ctx.notify (.info ("Sending email to " ++ recipient))
    return delivered "email" (← Program.sendMail mail)

/-- Messages on any channel. -/
def message : Handler :=
  { kind := "*.send"
    metadata := { description := "Send a text or media message", category := "messaging" }
    execute := executeMessage }

def mail : Handler :=
  { kind := "email.send"
    metadata := { description := "Send an HTML email", category := "messaging" }
    execute := executeMail }

end FlowEngine.Send
