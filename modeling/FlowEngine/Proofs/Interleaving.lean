import FlowEngine.Proofs.Store.Served
import Mathlib.Logic.Function.Basic
/-!
# `FlowEngine.Proofs.Interleaving` — several programs in one world

Programs that are performed at the same time take turns: each action is one step, and between two
actions of one program there may be any number of the others'.  What has been asked is kept as one
list, in the order in which it was asked, with each exchange marked with the program that has had
it, or with none if it belongs to something else.  The share of a program is what it has asked
itself.

`Interleaved` says how far programs can have come that share a store in memory.  Every order of
turns is admitted, and so is every answer to what is no call on the store.  Two things are true of
any such history: the store is the one that its calls lead to (`Interleaved.keeps`), and the share
of a program is the beginning of one of its transcripts, or the whole of one if the program has
ended (`Interleaved.leads`).
-/

namespace FlowEngine

/-! ## Shares -/

namespace Transcript

variable {ι : Type} [DecidableEq ι] {history : List (Option ι × Exchange)} {i : ι}

/-- What one of several has asked of the world, out of all that has been asked. -/
def share (history : List (Option ι × Exchange)) (i : ι) : Transcript :=
  (history.filter fun asked => asked.1 = some i).map Prod.snd

theorem share_append (history later : List (Option ι × Exchange)) (i : ι) :
    share (history ++ later) i = share history i ++ share later i := by
  rw [share, List.filter_append, List.map_append]
  rfl

theorem share_self (t : Transcript) (i : ι) :
    share (t.map fun exchange => (some i, exchange)) i = t := by
  induction t with
  | nil => rfl
  | cons exchange later ih =>
      rw [← List.singleton_append, List.map_append, share_append, ih]
      simp [share]

theorem share_other {owner : Option ι} (h : owner ≠ some i) (t : Transcript) :
    share (t.map fun exchange => (owner, exchange)) i = [] := by
  induction t with
  | nil => rfl
  | cons exchange later ih =>
      rw [← List.singleton_append, List.map_append, share_append, ih]
      simp [share, h]

theorem mem_share {asked : Option ι × Exchange} (h : asked ∈ history)
    (howner : asked.1 = some i) : asked.2 ∈ share history i :=
  List.mem_map_of_mem (List.mem_filter.mpr ⟨h, decide_eq_true howner⟩)

theorem share_concat_self (history : List (Option ι × Exchange)) (i : ι) (exchange : Exchange) :
    share (history ++ [(some i, exchange)]) i = share history i ++ [exchange] := by
  rw [share_append]
  exact congrArg (share history i ++ ·) (share_self [exchange] i)

theorem share_concat_other (history : List (Option ι × Exchange)) {owner : Option ι}
    (h : owner ≠ some i) (exchange : Exchange) :
    share (history ++ [(owner, exchange)]) i = share history i := by
  rw [share_append]
  exact (congrArg (share history i ++ ·) (share_other h [exchange])).trans (List.append_nil _)

omit [DecidableEq ι] in
/-- Where everything is asked by one of several, it is still so when one of them has asked more. -/
theorem owned_append (h : ∀ asked ∈ history, asked.1 ≠ none) (i : ι) (t : Transcript) :
    ∀ asked ∈ history ++ t.map fun exchange => (some i, exchange), asked.1 ≠ none :=
  List.forall_mem_append.mpr
    ⟨h, List.forall_mem_map.mpr fun _ _ => Option.some_ne_none i⟩

end Transcript

/-! ## Turns -/

/-- The exchange is answered by the store as it is, if it is a call on the store. -/
def Exchange.Answered (exchange : Exchange) (store : MemoryStore) : Prop :=
  exchange.action.isStoreCall = true →
    exchange.reply = (MemoryStore.answer exchange.action store).1

def MemoryStore.after (store : MemoryStore) (exchange : Exchange) : MemoryStore :=
  (MemoryStore.answer exchange.action store).2

/-- Programs that began at one store have come so far: what is left of each, the store as it is now,
and all that has been asked. -/
inductive Interleaved {ι α : Type} [DecidableEq ι] (programs : ι → Program α)
    (store : MemoryStore) :
    (ι → Program α) → MemoryStore → List (Option ι × Exchange) → Prop where
  | start : Interleaved programs store programs store []
  /-- One of the programs takes its next action. -/
  | turn {left : ι → Program α} {current : MemoryStore} {history : List (Option ι × Exchange)}
      (i : ι) {action : Action} {next : action.Reply → Program α} {reply : action.Reply} :
      Interleaved programs store left current history → left i = .act action next →
      Exchange.Answered ⟨action, reply⟩ current →
      Interleaved programs store (Function.update left i (next reply))
        (current.after ⟨action, reply⟩) (history ++ [(some i, ⟨action, reply⟩)])
  /-- Something else is asked in between. -/
  | aside {left : ι → Program α} {current : MemoryStore} {history : List (Option ι × Exchange)}
      {exchange : Exchange} :
      Interleaved programs store left current history → exchange.Answered current →
      Interleaved programs store left (current.after exchange) (history ++ [(none, exchange)])

namespace Interleaved

variable {ι α : Type} [DecidableEq ι] {programs left left' : ι → Program α}
  {store current current' : MemoryStore} {history later : List (Option ι × Exchange)}

theorem trans (h : Interleaved programs store left current history)
    (h' : Interleaved left current left' current' later) :
    Interleaved programs store left' current' (history ++ later) := by
  induction h' with
  | start =>
      rw [List.append_nil]
      exact h
  | turn i _ hleft hanswered ih =>
      rw [← List.append_assoc]
      exact ih.turn i hleft hanswered
  | aside _ hanswered ih =>
      rw [← List.append_assoc]
      exact ih.aside hanswered

theorem keeps (h : Interleaved programs store left current history) :
    Transcript.Keeps (history.map Prod.snd) store current := by
  induction h with
  | start => rfl
  | turn i _ _ hanswered ih =>
      rw [List.map_append, Transcript.keeps_append]
      exact ⟨_, ih, hanswered, rfl⟩
  | aside _ hanswered ih =>
      rw [List.map_append, Transcript.keeps_append]
      exact ⟨_, ih, hanswered, rfl⟩

/-- Whatever may come of what is left of a program comes of the program with what it has asked
before. -/
theorem leads (h : Interleaved programs store left current history) (i : ι) {rest : Transcript}
    {a : α} (hleft : (left i).Leads rest a) :
    (programs i).Leads (Transcript.share history i ++ rest) a := by
  induction h generalizing rest with
  | start => exact hleft
  | @turn left current history j action next reply _ hnext _ ih =>
      by_cases hj : j = i
      · subst hj
        rw [Function.update_self] at hleft
        rw [Transcript.share_concat_self, List.append_assoc]
        refine ih ?_
        rw [hnext]
        exact .act hleft
      · rw [Function.update_of_ne (Ne.symm hj)] at hleft
        rw [Transcript.share_concat_other _ fun heq => hj (Option.some.inj heq)]
        exact ih hleft
  | aside _ _ ih =>
      rw [Transcript.share_concat_other _ (Option.some_ne_none i).symm]
      exact ih hleft

/-- What a program has asked is the beginning of one of its transcripts, in which everything else is
refused. -/
theorem begun_refused (h : Interleaved programs store left current history) (i : ι) :
    ∃ rest a, (programs i).Leads (Transcript.share history i ++ rest) a ∧
      ∀ exchange ∈ rest, exchange.reply = exchange.action.refusal := by
  obtain ⟨rest, a, hrest, hrefused⟩ := Program.leads_refused (left i)
  exact ⟨rest, a, h.leads i hrest, hrefused⟩

/-- What a program has asked is the beginning of one of its transcripts. -/
theorem begun (h : Interleaved programs store left current history) (i : ι) :
    ∃ rest a, (programs i).Leads (Transcript.share history i ++ rest) a := by
  obtain ⟨rest, a, hleads, -⟩ := h.begun_refused i
  exact ⟨rest, a, hleads⟩

/-- What a program that has ended has asked is the whole of its transcript. -/
theorem ended (h : Interleaved programs store left current history) {i : ι} {a : α}
    (hleft : left i = .done a) : (programs i).Leads (Transcript.share history i) a := by
  have hdone : (left i).Leads [] a := by
    rw [hleft]
    exact .done a
  rw [← List.append_nil (Transcript.share history i)]
  exact h.leads i hdone

/-- One of the programs takes its next action, and is answered by the store as it is. -/
theorem next (h : Interleaved programs store left current history) (i : ι) {action : Action}
    {next : action.Reply → Program α} (hleft : left i = .act action next) :
    Interleaved programs store
      (Function.update left i (next (MemoryStore.answer action current).1))
      (MemoryStore.answer action current).2
      (history ++ [(some i, ⟨action, (MemoryStore.answer action current).1⟩)]) :=
  h.turn i hleft fun _ => rfl

theorem finish (h : Interleaved programs store left current history) {i : ι} {p : Program α}
    (hleft : left i = p) : ∃ t : Transcript,
      p.Leads t (p.runWith MemoryStore.answer current).1 ∧ Interleaved programs store
        (Function.update left i (.done (p.runWith MemoryStore.answer current).1))
        (p.runWith MemoryStore.answer current).2
        (history ++ t.map fun exchange => (some i, exchange)) := by
  induction p generalizing left current history with
  | done a =>
      refine ⟨[], .done a, ?_⟩
      have hsame : Function.update left i (.done a) = left := by
        rw [← hleft, Function.update_eq_self]
      rw [Program.runWith, hsame, List.map_nil, List.append_nil]
      exact h
  | act action next ih =>
      obtain ⟨t, ht, hlater⟩ := ih _ (h.next i hleft) (Function.update_self i _ left)
      rw [Function.update_idem, List.append_assoc] at hlater
      exact ⟨_, .act ht, hlater⟩

/-- A program that has the store for itself. -/
theorem alone {p : Program α} {t : Transcript} {a : α} (h : p.Leads t a)
    (hkeeps : t.Keeps store current) :
    Interleaved (fun _ : Unit => p) store (fun _ => .done a) current
      (t.map fun exchange => (some (), exchange)) := by
  have hconst : ∀ p q : Program α, Function.update (fun _ : Unit => p) () q = fun _ => q := by
    intro p q
    funext
    rfl
  induction h generalizing store with
  | done a =>
      obtain rfl : current = store := hkeeps
      exact .start
  | @act action next reply rest a _ ih =>
      have hstart : Interleaved (fun _ : Unit => .act action next) store
          (fun _ => .act action next) store [] := .start
      have hturn := hstart.turn () rfl hkeeps.1
      rw [hconst] at hturn
      exact hturn.trans (ih hkeeps.2)

end Interleaved

end FlowEngine
