import FlowEngine.Proofs.Store.Observing
/-!
# `FlowEngine.Proofs.Store.Beside` — a store on which others work

Whoever shares a store with others is answered by a store that changes between any two of its calls.
If the others leave a collection alone, this makes no difference to what is read of it and to what
one's own writes make of it.  `Transcript.Beside` says that the calls of a transcript are answered by
such a store; nothing else is said of the others.
-/

namespace FlowEngine

namespace Transcript

variable {collection : String} {t t' : Transcript} {store store' store₀ : MemoryStore}

/-- The calls on the store in the transcript are answered by a store in memory, on which others work
in between without writing to the collection. -/
def Beside (collection : String) : Transcript → MemoryStore → MemoryStore → Prop
  | [], store, store' => store'.records collection = store.records collection
  | exchange :: rest, store, store' =>
    ∃ met : MemoryStore, met.records collection = store.records collection ∧
      exchange.Answered met ∧ Beside collection rest (met.after exchange) store'

theorem Beside.shift (h : t.Beside collection store₀ store')
    (hrecords : store₀.records collection = store.records collection) :
    t.Beside collection store store' := by
  cases t with
  | nil => exact h.trans hrecords
  | cons exchange rest =>
      obtain ⟨met, hmet, hanswered, hrest⟩ := h
      exact ⟨met, hmet.trans hrecords, hanswered, hrest⟩

theorem beside_append : (t ++ t').Beside collection store store' ↔
    ∃ between, t.Beside collection store between ∧ t'.Beside collection between store' := by
  induction t generalizing store with
  | nil =>
      constructor
      · exact fun h => ⟨store, rfl, h⟩
      · rintro ⟨between, hrecords, h⟩
        exact h.shift hrecords
  | cons exchange rest ih =>
      constructor
      · rintro ⟨met, hmet, hanswered, hrest⟩
        obtain ⟨between, hfirst, hlater⟩ := ih.mp hrest
        exact ⟨between, ⟨met, hmet, hanswered, hfirst⟩, hlater⟩
      · rintro ⟨between, ⟨met, hmet, hanswered, hfirst⟩, hlater⟩
        exact ⟨met, hmet, hanswered, ih.mpr ⟨between, hfirst, hlater⟩⟩

theorem records_after (store : MemoryStore) {exchange : Exchange}
    (h : exchange.action.written? ≠ some collection) :
    (store.after exchange).records collection = store.records collection :=
  (MemoryStore.answer_frame exchange.action store).2.2 collection h

/-- Where the foreground does not write to the collection either, nobody does. -/
theorem Beside.frame (h : t.Beside collection store store')
    (hspares : ∀ exchange ∈ t, exchange.action.written? ≠ some collection) :
    store'.records collection = store.records collection := by
  induction t generalizing store with
  | nil => exact h
  | cons exchange rest ih =>
      obtain ⟨met, hmet, -, hrest⟩ := h
      obtain ⟨hfirst, hlater⟩ := List.forall_mem_cons.mp hspares
      exact (ih hrest hlater).trans ((records_after met hfirst).trans hmet)

theorem Beside.observed (h : t.Beside collection store store')
    (hobserves : ∀ exchange ∈ t, exchange.action.observes = true) :
    store'.records collection = store.records collection := by
  refine h.frame ?_
  intro exchange hmem
  rw [Action.written?_of_observes (hobserves exchange hmem)]
  exact (Option.some_ne_none collection).symm

theorem Keeps.beside (h : t.Keeps store store') : t.Beside collection store store' := by
  induction t generalizing store with
  | nil => exact congrArg (fun s => s.records collection) h
  | cons exchange rest ih => exact ⟨store, rfl, h.1, ih h.2⟩

end Transcript

end FlowEngine
