import FlowEngine.Program
/-!
# `FlowEngine.Proofs.Transcript` — what a program can do, told by what the world answers

A program is a tree, and the world chooses a way through it by its answers.  A transcript is such a
way: the actions in order, each with its answer.  `Leads p t a` says that `p` ends with the result
`a` when it is answered as `t` says.

Nothing is assumed about the answers.  A statement about every transcript is therefore one about
every world: a store that fails at any of its calls, a clock that jumps, other programs that act
between any two actions.

Two facts carry what follows.  A transcript of two programs in sequence is a transcript of the first
followed by one of the second (`leads_bind`), and whoever answers, there is a transcript to the end
(`leads_runWith`), so a statement about transcripts is never empty.
-/

namespace FlowEngine

/-- The action is a call on the store. -/
def Action.isStoreCall : Action → Bool
  | list _ _ => true
  | getOne _ _ _ => true
  | create _ _ => true
  | update _ _ _ => true
  | _ => false

/-- An action and what it was answered with. -/
structure Exchange where
  action : Action
  reply : action.Reply

/-- Actions with their answers, in order. -/
abbrev Transcript := List Exchange

namespace Program

variable {α β σ : Type}

/-- The program ends with a result when it is answered as the transcript says. -/
inductive Leads : Program α → Transcript → α → Prop where
  | done (a : α) : Leads (.done a) [] a
  | act {action : Action} {next : action.Reply → Program α} {reply : action.Reply}
      {rest : Transcript} {a : α} :
      Leads (next reply) rest a → Leads (.act action next) (⟨action, reply⟩ :: rest) a

theorem leads_pure {a b : α} {t : Transcript} :
    Leads (pure a : Program α) t b ↔ t = [] ∧ b = a := by
  constructor
  · intro h
    cases h with
    | done => exact ⟨rfl, rfl⟩
  · rintro ⟨rfl, rfl⟩
    exact .done _

theorem leads_act {action : Action} {next : action.Reply → Program α} {t : Transcript} {a : α} :
    Leads (.act action next) t a ↔
      ∃ reply rest, t = ⟨action, reply⟩ :: rest ∧ Leads (next reply) rest a := by
  constructor
  · intro h
    cases h with
    | act h => exact ⟨_, _, rfl, h⟩
  · rintro ⟨reply, rest, rfl, h⟩
    exact .act h

theorem leads_bind {p : Program α} {f : α → Program β} {t : Transcript} {b : β} :
    Leads (p >>= f) t b ↔ ∃ first rest a, t = first ++ rest ∧ Leads p first a ∧
      Leads (f a) rest b := by
  constructor
  · intro h
    induction p generalizing t with
    | done a => exact ⟨[], t, a, rfl, .done a, h⟩
    | act action next ih =>
        obtain ⟨reply, later, rfl, hnext⟩ := leads_act.mp h
        obtain ⟨first, rest, a, rfl, hp, hf⟩ := ih reply hnext
        exact ⟨⟨action, reply⟩ :: first, rest, a, rfl, .act hp, hf⟩
  · rintro ⟨first, rest, a, rfl, hp, hf⟩
    induction hp with
    | done => exact hf
    | act _ ih => exact .act (ih hf)

/-- A single action comes first in the transcript of what begins with it. -/
theorem leads_perform_bind {action : Action} {f : action.Reply → Program β} {t : Transcript}
    {b : β} : Leads (perform action >>= f) t b ↔
      ∃ reply rest, t = ⟨action, reply⟩ :: rest ∧ Leads (f reply) rest b :=
  leads_act

theorem leads_now_bind {f : Timestamp → Program β} {t : Transcript} {b : β} :
    Leads (now >>= f) t b ↔
      ∃ (moment : Timestamp) (rest : Transcript), t = ⟨.now, moment⟩ :: rest ∧
        Leads (f moment) rest b :=
  leads_act

theorem leads_elapsed_bind {f : Nat → Program β} {t : Transcript} {b : β} :
    Leads (elapsed >>= f) t b ↔
      ∃ (millis : Nat) (rest : Transcript), t = ⟨.elapsed, millis⟩ :: rest ∧
        Leads (f millis) rest b :=
  leads_act

theorem leads_publish_bind {event : Event} {f : Unit → Program β} {t : Transcript} {b : β} :
    Leads (publish event >>= f) t b ↔
      ∃ rest, t = ⟨.publish event, ()⟩ :: rest ∧ Leads (f ()) rest b := by
  constructor
  · intro h
    obtain ⟨_, rest, rfl, hf⟩ := leads_act.mp h
    exact ⟨rest, rfl, hf⟩
  · rintro ⟨rest, rfl, hf⟩
    exact .act hf

/-- Whoever answers, the program comes to its end. -/
theorem leads_runWith (answer : (action : Action) → σ → action.Reply × σ) (p : Program α) (s : σ) :
    ∃ t, Leads p t (p.runWith answer s).1 := by
  induction p generalizing s with
  | done a => exact ⟨[], .done a⟩
  | act action next ih =>
      obtain ⟨t, h⟩ := ih (answer action s).1 (answer action s).2
      exact ⟨⟨action, (answer action s).1⟩ :: t, .act h⟩

/-! ## Kinds of actions -/

/-- Whatever it is answered, the program asks nothing but actions of a kind. -/
inductive Asks (kind : Action → Prop) : Program α → Prop where
  | done (a : α) : Asks kind (.done a)
  | act {action : Action} {next : action.Reply → Program α} :
      kind action → (∀ reply, Asks kind (next reply)) → Asks kind (.act action next)

namespace Asks

variable {kind kind' : Action → Prop} {p : Program α}

theorem pure (a : α) : (Pure.pure a : Program α).Asks kind := .done a

theorem bind {f : α → Program β} (hp : p.Asks kind) (hf : ∀ a, (f a).Asks kind) :
    (p >>= f).Asks kind := by
  induction hp with
  | done a => exact hf a
  | act haction _ ih => exact .act haction ih

theorem perform {action : Action} (h : kind action) : (Program.perform action).Asks kind :=
  .act h .done

theorem act_inv {action : Action} {next : action.Reply → Program α}
    (h : (Program.act action next).Asks kind) :
    kind action ∧ ∀ reply, (next reply).Asks kind := by
  cases h with
  | act haction hnext => exact ⟨haction, hnext⟩

theorem mono (hp : p.Asks kind) (h : ∀ action, kind action → kind' action) : p.Asks kind' := by
  induction hp with
  | done a => exact .done a
  | act haction _ ih => exact .act (h _ haction) ih

theorem forall_mem {t : Transcript} {a : α} (hp : p.Asks kind) (h : p.Leads t a) :
    ∀ exchange ∈ t, kind exchange.action := by
  induction h with
  | done => exact List.forall_mem_nil _
  | act _ ih =>
      obtain ⟨haction, hnext⟩ := hp.act_inv
      exact List.forall_mem_cons.mpr ⟨haction, ih (hnext _)⟩

end Asks

end Program

/-! ## Worlds to try things in -/

/-- The answer of a world in which every request is refused and the clocks stand still. -/
def Action.refusal : (action : Action) → action.Reply
  | .list _ _ => .error (.transport (.request "store" "connection refused"))
  | .getOne _ _ _ => .error (.transport (.request "store" "connection refused"))
  | .create _ _ => .error (.transport (.request "store" "connection refused"))
  | .update _ _ _ => .error (.transport (.request "store" "connection refused"))
  | .sendText _ _ => .error (.request "chat" "connection refused")
  | .sendMedia _ _ => .error (.request "chat" "connection refused")
  | .sendMail _ => .error (.request "mail" "connection refused")
  | .now => (⟨0, 0⟩ : Timestamp)
  | .elapsed => (0 : Nat)
  | .sleep _ => ()
  | .publish _ => ()
  | .dispatch _ _ _ => (0 : Nat)
  | .await _ => .error (.runNotFound "")

/-- The world in which every request is refused. -/
def outage (action : Action) (_ : Unit) : action.Reply × Unit := (action.refusal, ())

theorem Program.leads_refused {α : Type} (p : Program α) : ∃ (t : Transcript) (a : α),
    p.Leads t a ∧ ∀ exchange ∈ t, exchange.reply = exchange.action.refusal := by
  induction p with
  | done a => exact ⟨[], a, .done a, List.forall_mem_nil _⟩
  | act action next ih =>
      obtain ⟨t, a, h, hrefused⟩ := ih action.refusal
      exact ⟨_, a, .act h, List.forall_mem_cons.mpr ⟨rfl, hrefused⟩⟩

/-- The world in which every record is taken, and every other request is refused. -/
def recording : (action : Action) → Unit → action.Reply × Unit
  | .create _ _, _ => (.ok (.object [("id", .string "r")]), ())
  | .update _ _ _, _ => (.ok .null, ())
  | action, _ => (action.refusal, ())

end FlowEngine
