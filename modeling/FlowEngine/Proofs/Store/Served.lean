import FlowEngine.Proofs.Clock
import FlowEngine.Proofs.Store.Memory
/-!
# `FlowEngine.Proofs.Store.Served` — executions whose records are in memory

`Keeps` says of a transcript that the calls on the store in it are answered by a store in memory,
which goes from one state to another in the course of it.  It says nothing about the rest: clocks,
providers and listeners answer as they like, and leave the store alone.

Of such a store a program can count on two things.  A collection that it does not write to stays as
it is, and an identifier that has been given out is not given out again, since the supply only moves
forward.
-/

namespace FlowEngine

/-- The answer of a store in memory to a call on it; whatever else is asked is refused. -/
def MemoryStore.answer : (action : Action) → MemoryStore → action.Reply × MemoryStore
  | .list collection query, store => (store.list collection query, store)
  | .getOne collection id options, store => (store.getOne collection id options, store)
  | .create collection data, store => store.create collection data
  | .update collection id data, store => store.update collection id data
  | action, store => (action.refusal, store)

namespace MemoryStore

variable {β : Type} (store : MemoryStore) (collection id : String)

theorem runWith_list_bind (query : ListQuery) (f : Except StoreError RecordPage → Program β) :
    (Program.list collection query >>= f).runWith answer store =
      (f (store.list collection query)).runWith answer store := rfl

theorem runWith_getOne_bind (options : FetchOptions) (f : Except StoreError Json → Program β) :
    (Program.getOne collection id options >>= f).runWith answer store =
      (f (store.getOne collection id options)).runWith answer store := rfl

theorem runWith_create_bind (data : Json) (f : Except StoreError Json → Program β) :
    (Program.create collection data >>= f).runWith answer store =
      (f (store.create collection data).1).runWith answer (store.create collection data).2 := rfl

theorem runWith_update_bind (data : Json) (f : Except StoreError Json → Program β) :
    (Program.update collection id data >>= f).runWith answer store =
      (f (store.update collection id data).1).runWith answer
        (store.update collection id data).2 := rfl

end MemoryStore

/-- The calls on the store in the transcript are answered by a store in memory, which is changed by
them and by nothing else. -/
def Transcript.Keeps : Transcript → MemoryStore → MemoryStore → Prop
  | [], store, store' => store' = store
  | exchange :: rest, store, store' =>
    (exchange.action.isStoreCall = true →
      exchange.reply = (MemoryStore.answer exchange.action store).1) ∧
    Transcript.Keeps rest (MemoryStore.answer exchange.action store).2 store'

namespace Transcript

section Calls

variable {rest : Transcript} {store store' : MemoryStore}

@[simp] theorem keeps_nil : Keeps [] store store' ↔ store' = store := Iff.rfl

theorem keeps_cons_of_eq {action : Action} {reply : action.Reply}
    (hcall : action.isStoreCall = false) (hstore : (MemoryStore.answer action store).2 = store) :
    Keeps (⟨action, reply⟩ :: rest) store store' ↔ Keeps rest store store' := by
  rw [Keeps, hstore, hcall]
  exact and_iff_right Bool.noConfusion

@[simp] theorem keeps_now {moment : Timestamp} :
    Keeps (⟨.now, moment⟩ :: rest) store store' ↔ Keeps rest store store' :=
  keeps_cons_of_eq rfl rfl

@[simp] theorem keeps_elapsed {millis : Nat} :
    Keeps (⟨.elapsed, millis⟩ :: rest) store store' ↔ Keeps rest store store' :=
  keeps_cons_of_eq rfl rfl

@[simp] theorem keeps_publish {event : Event} :
    Keeps (⟨.publish event, ()⟩ :: rest) store store' ↔ Keeps rest store store' :=
  keeps_cons_of_eq rfl rfl

@[simp] theorem keeps_create {collection : String} {data : Json}
    {reply : Except StoreError Json} :
    Keeps (⟨.create collection data, reply⟩ :: rest) store store' ↔
      reply = (store.create collection data).1 ∧
        Keeps rest (store.create collection data).2 store' :=
  and_congr_left' (forall_prop_of_true rfl)

@[simp] theorem keeps_update {collection id : String} {data : Json}
    {reply : Except StoreError Json} :
    Keeps (⟨.update collection id data, reply⟩ :: rest) store store' ↔
      reply = (store.update collection id data).1 ∧
        Keeps rest (store.update collection id data).2 store' :=
  and_congr_left' (forall_prop_of_true rfl)

end Calls

theorem keeps_append {t t' : Transcript} {store store' : MemoryStore} :
    Keeps (t ++ t') store store' ↔ ∃ between, t.Keeps store between ∧ t'.Keeps between store' := by
  induction t generalizing store with
  | nil => simp [Keeps]
  | cons exchange rest ih =>
      rw [List.cons_append, Keeps, ih]
      constructor
      · rintro ⟨hreply, between, hrest, hlater⟩
        exact ⟨between, ⟨hreply, hrest⟩, hlater⟩
      · rintro ⟨between, ⟨hreply, hrest⟩, hlater⟩
        exact ⟨hreply, between, hrest, hlater⟩

end Transcript

namespace Program

variable {α : Type}

theorem runWith_bind {β σ : Type} (answer : (action : Action) → σ → action.Reply × σ)
    (p : Program α) (f : α → Program β) (s : σ) :
    (p >>= f).runWith answer s =
      (f (p.runWith answer s).1).runWith answer (p.runWith answer s).2 := by
  induction p generalizing s with
  | done a => rfl
  | act action next ih => exact ih (answer action s).1 (answer action s).2

/-- In a world with a clock and a store in memory, the transcript of a program has the readings of
the clock in it and keeps the store. -/
theorem leads_answer (clock : Clock) (p : Program α) (n : Nat) (store : MemoryStore) :
    ∃ t : Transcript, Leads p t (p.runWith (withClock clock MemoryStore.answer) (n, store)).1 ∧
      clock.Follows n t.readings ∧
      t.Keeps store (p.runWith (withClock clock MemoryStore.answer) (n, store)).2.2 := by
  induction p generalizing n store with
  | done a => exact ⟨[], .done a, trivial, rfl⟩
  | act action next ih =>
      cases action with
      | now =>
          obtain ⟨t, h, hread, hkeeps⟩ := ih (clock n) (n + 1) store
          refine ⟨⟨.now, clock n⟩ :: t, .act h, ⟨rfl, hread⟩, ?_, hkeeps⟩
          exact Bool.noConfusion
      | _ =>
          obtain ⟨t, h, hread, hkeeps⟩ := ih (MemoryStore.answer _ store).1 n
            (MemoryStore.answer _ store).2
          exact ⟨⟨_, (MemoryStore.answer _ store).1⟩ :: t, .act h, hread, fun _ => rfl, hkeeps⟩

end Program

/-! ## What is left alone -/

/-- The collection that the action writes to. -/
def Action.written? : Action → Option String
  | create collection _ => some collection
  | update collection _ _ => some collection
  | _ => none

namespace MemoryStore

variable {store : MemoryStore} {collection : String}

/-- A creation may take an identifier from the supply, and touches one collection. -/
theorem create_frame (store : MemoryStore) (collection : String) (data : Json) :
    (store.create collection data).2.supply = store.supply ∧
      store.issued ≤ (store.create collection data).2.issued ∧
      ∀ other, collection ≠ other →
        (store.create collection data).2.records other = store.records other := by
  have hset : ∀ (next : MemoryStore) (records : List Json),
      next.supply = store.supply → store.issued ≤ next.issued →
      (∀ other, next.records other = store.records other) →
      (next.setRecords collection records).supply = store.supply ∧
        store.issued ≤ (next.setRecords collection records).issued ∧
        ∀ other, collection ≠ other →
          (next.setRecords collection records).records other = store.records other := by
    intro next records hsupply hissued hrecords
    refine ⟨hsupply, hissued, ?_⟩
    intro other hother
    rw [records_setRecords, if_neg hother, hrecords]
  cases data with
  | object members =>
      rw [create]
      cases requestedId? members with
      | some id =>
          simp only
          split
          · exact ⟨rfl, Nat.le_refl _, fun _ _ => rfl⟩
          · exact hset store _ rfl (Nat.le_refl _) fun _ => rfl
      | none =>
          simp only
          split
          · exact ⟨rfl, Nat.le_succ _, fun _ _ => rfl⟩
          · exact hset store.issue.2 _ rfl (Nat.le_succ _) fun _ => rfl
  | _ => exact ⟨rfl, Nat.le_refl _, fun _ _ => rfl⟩

theorem update_frame (store : MemoryStore) (collection id : String) (data : Json) :
    (store.update collection id data).2.supply = store.supply ∧
      store.issued ≤ (store.update collection id data).2.issued ∧
      ∀ other, collection ≠ other →
        (store.update collection id data).2.records other = store.records other := by
  cases data with
  | object members =>
      rw [update]
      cases (store.records collection).find? (hasId id) with
      | none => exact ⟨rfl, Nat.le_refl _, fun _ _ => rfl⟩
      | some record =>
          refine ⟨rfl, Nat.le_refl _, ?_⟩
          intro other hother
          refine (records_setRecords store collection other _).trans ?_
          rw [if_neg hother]
  | _ => exact ⟨rfl, Nat.le_refl _, fun _ _ => rfl⟩

/-- Whatever is asked, the supply of identifiers moves forward, and a collection that is not written
to stays as it is. -/
theorem answer_frame (action : Action) (store : MemoryStore) :
    (answer action store).2.supply = store.supply ∧
      store.issued ≤ (answer action store).2.issued ∧
      ∀ other, action.written? ≠ some other →
        (answer action store).2.records other = store.records other := by
  cases action with
  | create collection data =>
      obtain ⟨hsupply, hissued, hrecords⟩ := create_frame store collection data
      exact ⟨hsupply, hissued, fun other hother => hrecords other fun h => hother (h ▸ rfl)⟩
  | update collection id data =>
      obtain ⟨hsupply, hissued, hrecords⟩ := update_frame store collection id data
      exact ⟨hsupply, hissued, fun other hother => hrecords other fun h => hother (h ▸ rfl)⟩
  | _ => exact ⟨rfl, Nat.le_refl _, fun _ _ => rfl⟩

end MemoryStore

theorem Transcript.Keeps.frame {t : Transcript} {store store' : MemoryStore}
    (h : t.Keeps store store') : store'.supply = store.supply ∧ store.issued ≤ store'.issued ∧
      ∀ other, (∀ exchange ∈ t, exchange.action.written? ≠ some other) →
        store'.records other = store.records other := by
  induction t generalizing store with
  | nil =>
      obtain rfl : store' = store := h
      exact ⟨rfl, Nat.le_refl _, fun _ _ => rfl⟩
  | cons exchange rest ih =>
      obtain ⟨hsupply, hissued, hrecords⟩ := ih h.2
      obtain ⟨hsupply', hissued', hrecords'⟩ := MemoryStore.answer_frame exchange.action store
      refine ⟨hsupply.trans hsupply', Nat.le_trans hissued' hissued, ?_⟩
      intro other hother
      obtain ⟨hfirst, hlater⟩ := List.forall_mem_cons.mp hother
      exact (hrecords other hlater).trans (hrecords' other hfirst)

/-! ## Programs that leave collections alone -/

namespace Program

variable {α : Type}

/-- The program does not write to the collection, whatever it is answered. -/
def Spares (collection : String) (p : Program α) : Prop :=
  p.Asks fun action => action.written? ≠ some collection

end Program

end FlowEngine
