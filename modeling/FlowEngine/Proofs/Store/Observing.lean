import FlowEngine.Proofs.Interleaving
/-!
# `FlowEngine.Proofs.Store.Observing` — programs that change nothing

A program observes if all that it ever asks is to read the store or a clock, or to wait for a run.
Such a program leaves every collection as it is, and sends no run on its way.
-/

namespace FlowEngine

namespace Action

def observes : Action → Bool
  | list _ _ => true
  | getOne _ _ _ => true
  | now => true
  | elapsed => true
  | await _ => true
  | _ => false

variable {action : Action}

theorem written?_of_observes (h : action.observes = true) : action.written? = none := by
  cases action <;> first | rfl | cases h

theorem after_of_observes (h : action.observes = true) (reply : action.Reply)
    (store : MemoryStore) : store.after ⟨action, reply⟩ = store := by
  cases action <;> first | rfl | cases h

end Action

/-- All that the program ever asks is an observation. -/
def Program.Observes {α : Type} (p : Program α) : Prop :=
  p.Asks fun action => action.observes = true

theorem Program.Observes.perform {action : Action} (h : action.observes = true) :
    (Program.perform action).Observes := Asks.perform h

end FlowEngine
