import FlowEngine.Node.Standard
import FlowEngine.Proofs.Transcript
/-!
# `FlowEngine.Proofs.Node.Notices` — nodes that keep to their work

Nothing in the type of a handler keeps it from publishing whatever it likes, the events of other
runs included.  A discreet handler publishes through its context alone: notices, in the name of the
node and the run that it works for.  It is a matter of the program's tree, so it can be read off the
handler's text.  The handlers that an engine has from the start do even less: they read no clock, and
start no run and wait for none (`works_standardHandlers`).
-/

namespace FlowEngine

def Action.event? : Action → Option Event
  | publish event => some event
  | _ => none

def Transcript.events (t : Transcript) : List Event :=
  t.filterMap fun exchange => exchange.action.event?

theorem Transcript.events_append (t t' : Transcript) :
    Transcript.events (t ++ t') = t.events ++ t'.events := List.filterMap_append

namespace Program

variable {α β : Type} {runId nodeId : String}

/-- Whatever it is answered, the program publishes nothing but notices of one node. -/
def SpeaksFor (runId nodeId : String) (p : Program α) : Prop :=
  p.Asks fun action =>
    ∀ event, action.event? = some event → ∃ notice, event = .nodeNotice runId nodeId notice

theorem SpeaksFor.events {p : Program α} {t : Transcript} {a : α} (hp : p.SpeaksFor runId nodeId)
    (h : p.Leads t a) : ∃ notices : List Notice, t.events = notices.map (.nodeNotice runId nodeId) := by
  induction h with
  | done => exact ⟨[], rfl⟩
  | @act action next reply rest a _ ih =>
      obtain ⟨haction, hnext⟩ := Asks.act_inv hp
      obtain ⟨notices, hnotices⟩ := ih (hnext reply)
      cases action with
      | publish event =>
          obtain ⟨notice, rfl⟩ := haction event rfl
          exact ⟨notice :: notices, congrArg (_ :: ·) hnotices⟩
      | _ => exact ⟨notices, hnotices⟩

end Program

/-! ## Discreet handlers -/

/-- The handler speaks for the node that it works for, and for no other. -/
def Handler.Discreet (handler : Handler) : Prop :=
  ∀ context, (handler.execute context).SpeaksFor context.runId context.nodeId

def Registry.Discreet (registry : Registry) : Prop :=
  ∀ handler ∈ registry.handlers, handler.Discreet

theorem Registry.mem_of_mem_ofHandlers {handlers : List Handler} {handler : Handler}
    (h : handler ∈ (ofHandlers handlers).handlers) : handler ∈ handlers := by
  have hfold : ∀ registry : Registry,
      handler ∈ (handlers.foldl Registry.register registry).handlers →
        handler ∈ registry.handlers ∨ handler ∈ handlers := by
    clear h
    induction handlers with
    | nil => exact fun _ hmem => Or.inl hmem
    | cons first later ih =>
        intro registry hmem
        rcases ih _ hmem with hregistered | hlater
        · rcases List.mem_cons.mp hregistered with rfl | hkept
          · exact Or.inr List.mem_cons_self
          · exact Or.inl (List.mem_filter.mp hkept).1
        · exact Or.inr (List.mem_cons_of_mem first hlater)
  exact (hfold {} h).resolve_left List.not_mem_nil

/-! ## Handlers that keep to their work -/

/-- What a node may ask in the course of its work: it calls the store and the providers, pauses, and
says something in its own name. -/
def Action.IsWorkOf (context : NodeContext) : Action → Prop
  | publish event => ∃ notice, event = .nodeNotice context.runId context.nodeId notice
  | now => False
  | elapsed => False
  | dispatch _ _ _ => False
  | await _ => False
  | _ => True

/-- The handler does nothing but the work of its node. -/
def Handler.Works (handler : Handler) : Prop :=
  ∀ context, (handler.execute context).Asks (Action.IsWorkOf context)

theorem Handler.Works.discreet {handler : Handler} (h : handler.Works) : handler.Discreet := by
  refine fun context => (h context).mono fun action haction event hevent => ?_
  cases action with
  | publish event' =>
      obtain rfl := Option.some.inj hevent
      exact haction
  | _ => cases hevent

open Program (Asks)

theorem NodeContext.works_notify (context : NodeContext) (notice : Notice) :
    (context.notify notice).Asks (Action.IsWorkOf context) := Asks.perform ⟨notice, rfl⟩

theorem Trigger.works_handler (kind description : String) :
    (Trigger.handler kind description).Works := by
  intro context
  show (Trigger.execute context).Asks (Action.IsWorkOf context)
  unfold Trigger.execute
  split
  · exact .pure _
  · exact (context.works_notify _).bind fun _ => .pure _
  · exact .pure _

theorem Send.works_message : Send.message.Works := by
  intro context
  show (Send.executeMessage context).Asks (Action.IsWorkOf context)
  unfold Send.executeMessage
  split
  · exact .pure _
  · split
    · exact (context.works_notify _).bind fun _ => (Asks.perform trivial).bind fun _ => .pure _
    · exact (context.works_notify _).bind fun _ => (Asks.perform trivial).bind fun _ => .pure _

theorem Send.works_mail : Send.mail.Works := by
  intro context
  show (Send.executeMail context).Asks (Action.IsWorkOf context)
  unfold Send.executeMail
  split
  · exact .pure _
  · exact (context.works_notify _).bind fun _ => (Asks.perform trivial).bind fun _ => .pure _

theorem RecordNode.works_find : RecordNode.find.Works := by
  intro context
  show (RecordNode.executeFind context).Asks (Action.IsWorkOf context)
  unfold RecordNode.executeFind
  split
  · exact .pure _
  · refine (Asks.perform trivial).bind fun page => ?_
    cases page with
    | error e => exact .pure _
    | ok page => exact (context.works_notify _).bind fun _ => .pure _

theorem RecordNode.works_getOne : RecordNode.getOne.Works := by
  intro context
  show (RecordNode.executeGetOne context).Asks (Action.IsWorkOf context)
  unfold RecordNode.executeGetOne
  split
  · exact .pure _
  · split
    · refine (Asks.perform trivial).bind fun record => ?_
      cases record <;> exact .pure _
    · exact .pure _
    · refine (Asks.perform trivial).bind fun page => ?_
      cases page <;> exact .pure _

theorem RecordNode.works_create : RecordNode.create.Works := by
  intro context
  show (RecordNode.executeCreate context).Asks (Action.IsWorkOf context)
  unfold RecordNode.executeCreate
  split
  · exact .pure _
  · exact .pure _
  · exact (Asks.perform trivial).bind fun _ => .pure _

theorem RecordNode.works_update : RecordNode.update.Works := by
  intro context
  show (RecordNode.executeUpdate context).Asks (Action.IsWorkOf context)
  unfold RecordNode.executeUpdate
  split
  · exact .pure _
  · exact .pure _
  · exact .pure _
  · exact (Asks.perform trivial).bind fun _ => .pure _

theorem Branch.works_handler : Branch.handler.Works := by
  intro context
  show (Branch.execute context).Asks (Action.IsWorkOf context)
  unfold Branch.execute
  split
  · exact .pure _
  · split
    · exact .pure _
    · exact (context.works_notify _).bind fun _ => .pure _

theorem Reshape.works_handler : Reshape.handler.Works := by
  intro context
  show (Reshape.execute context).Asks (Action.IsWorkOf context)
  unfold Reshape.execute
  split <;> exact .pure _

theorem Wait.works_handler : Wait.handler.Works := by
  intro context
  show (Wait.execute context).Asks (Action.IsWorkOf context)
  unfold Wait.execute
  split
  · exact .pure _
  · dsimp only
    split
    · exact .pure _
    · exact (context.works_notify _).bind fun _ => (Asks.perform trivial).bind fun _ => .pure _

/-- The handlers that every engine has keep to the work of their nodes. -/
theorem works_standardHandlers : ∀ handler ∈ standardHandlers, handler.Works := by
  simp only [standardHandlers, List.forall_mem_cons]
  exact ⟨Trigger.works_handler _ _, Trigger.works_handler _ _, Trigger.works_handler _ _,
    Send.works_message, Send.works_mail, RecordNode.works_find, RecordNode.works_getOne,
    RecordNode.works_create, RecordNode.works_update, Branch.works_handler, Reshape.works_handler,
    Wait.works_handler, List.forall_mem_nil _⟩

theorem Registry.discreet_standard : Registry.standard.Discreet := fun handler hmem =>
  (works_standardHandlers handler (mem_of_mem_ofHandlers hmem)).discreet

end FlowEngine
