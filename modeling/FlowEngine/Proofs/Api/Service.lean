import FlowEngine.Api.Routes
import FlowEngine.Proofs.Execution.Sparing
import FlowEngine.Proofs.Store.Beside
import FlowEngine.Schedule.Timetable
/-!
# `FlowEngine.Proofs.Api.Service` — the engine at work, request after request

A service answers requests, reloads its timetable and lets jobs fire, one after the other; a run
that one of them starts goes on in the background as a task.  Between any two actions of whatever is
in the foreground there may be any number of the tasks' actions, in any order, and so there may be
between one occasion and the next.  Jobs are not tied to a timetable here: any entry may fire at any
time, be it of flows long changed.

All of them share a store in memory.  Of a collection that the tasks spare, the foreground sees only
its own writes (`Passes.beside`).
-/

namespace FlowEngine

/-! ## Services -/

/-- The store of a service, and what is left of the runs in the background. -/
structure Service where
  store : MemoryStore
  tasks : List (Program (Except FlowError RunReport)) := []

namespace Service

/-- The task that an action starts. -/
def task? (engine : Engine) : Action → Option (Program (Except FlowError RunReport))
  | .dispatch run flow input => some (engine.execute run flow input)
  | _ => none

/-- The service behind an exchange in the foreground. -/
def after (engine : Engine) (service : Service) (exchange : Exchange) : Service :=
  { store := service.store.after exchange
    tasks := service.tasks ++ (task? engine exchange.action).toList }

/-- One of the tasks takes its next action. -/
inductive Works : Service → Service → Prop where
  | turn {store : MemoryStore} {earlier later : List (Program (Except FlowError RunReport))}
      {action : Action} {next : action.Reply → Program (Except FlowError RunReport)}
      {reply : action.Reply} : Exchange.Answered ⟨action, reply⟩ store →
      Works ⟨store, earlier ++ .act action next :: later⟩
        ⟨store.after ⟨action, reply⟩, earlier ++ next reply :: later⟩

/-- The foreground has these exchanges while the tasks go on. -/
inductive Passes (engine : Engine) : Service → Transcript → Service → Prop where
  | done {service : Service} : Passes engine service [] service
  | asked {service service' : Service} {exchange : Exchange} {t : Transcript} :
      exchange.Answered service.store → Passes engine (service.after engine exchange) t service' →
      Passes engine service (exchange :: t) service'
  | aside {service between service' : Service} {t : Transcript} : Works service between →
      Passes engine between t service' → Passes engine service t service'

/-- Something that the service has to do, and what comes of it. -/
inductive Occasion where
  | request (asked : Api.Request) (response : Api.Response)
  | reload (reader : Schedule.Reader) (table : Schedule.Timetable)
      (loaded : Except StoreError Schedule.Timetable)
  | firing (entry : Schedule.Entry) (started : Except FlowError (Option Run))

/-- The exchanges that an occasion has, from its beginning to its end. -/
def Occasion.Leads (engine : Engine) (t : Transcript) : Occasion → Prop
  | .request asked response => (Api.answer engine asked).Leads t response
  | .reload reader table loaded =>
    (Schedule.reload reader engine.settings.library table).Leads t loaded
  | .firing entry started => (Schedule.startEntry engine entry).Leads t started

/-- The service has had these occasions, one after the other, while the tasks went on. -/
inductive History (engine : Engine) (first : Service) :
    List (Occasion × Transcript) → Service → Prop where
  | start : History engine first [] first
  | works {past : List (Occasion × Transcript)} {service service' : Service} :
      History engine first past service → Works service service' →
      History engine first past service'
  | next {past : List (Occasion × Transcript)} {service service' : Service} {occasion : Occasion}
      {t : Transcript} : History engine first past service → occasion.Leads engine t →
      Passes engine service t service' →
      History engine first (past ++ [(occasion, t)]) service'

/-! ## Tasks that spare a collection -/

variable {engine : Engine} {service service' : Service} {collection : String} {t : Transcript}

/-- No task of the service will write to the collection. -/
def Spares (service : Service) (collection : String) : Prop :=
  ∀ task ∈ service.tasks, task.Spares collection

theorem Works.spares (h : Works service service') (hspares : service.Spares collection) :
    service'.store.records collection = service.store.records collection ∧
      service'.Spares collection := by
  cases h with
  | @turn store earlier later action next reply hanswered =>
      obtain ⟨hearlier, hnext, hlater⟩ : (∀ task ∈ earlier, task.Spares collection) ∧
          (Program.act action next).Spares collection ∧
          ∀ task ∈ later, task.Spares collection := by
        unfold Spares at hspares
        rwa [List.forall_mem_append, List.forall_mem_cons] at hspares
      obtain ⟨hwritten, hreply⟩ := Program.Asks.act_inv hnext
      refine ⟨Transcript.records_after store hwritten, ?_⟩
      exact List.forall_mem_append.mpr
        ⟨hearlier, List.forall_mem_cons.mpr ⟨hreply reply, hlater⟩⟩

/-- An engine that spares the collection sends only such runs on their way. -/
theorem spares_of_mem_task? (hengine : engine.Spares collection) {action : Action}
    {task : Program (Except FlowError RunReport)} (h : task ∈ task? engine action) :
    task.Spares collection := by
  cases action with
  | dispatch run flow input =>
      obtain rfl := Option.some.inj h
      exact Executor.spares_execute hengine run flow input
  | _ => cases h

theorem task?_of_observes {action : Action} (h : action.observes = true) :
    task? engine action = none := by
  cases action <;> first | rfl | cases h

/-- Of a collection that the tasks spare, those under way and those sent on their way, the foreground
sees only its own writes. -/
theorem Passes.beside_of_tasks (h : Passes engine service t service')
    (hspares : service.Spares collection)
    (htasks : ∀ exchange ∈ t, ∀ task ∈ task? engine exchange.action, task.Spares collection) :
    t.Beside collection service.store service'.store ∧ service'.Spares collection := by
  induction h with
  | done => exact ⟨rfl, hspares⟩
  | asked hanswered _ ih =>
      obtain ⟨hfirst, hlater⟩ := List.forall_mem_cons.mp htasks
      have hsent : ∀ task ∈ (task? engine _).toList, task.Spares collection :=
        fun task htask => hfirst task (Option.mem_toList.mp htask)
      obtain ⟨hrest, hspares'⟩ := ih (List.forall_mem_append.mpr ⟨hspares, hsent⟩) hlater
      exact ⟨⟨_, rfl, hanswered, hrest⟩, hspares'⟩
  | aside hworks _ ih =>
      obtain ⟨hrecords, hbetween⟩ := hworks.spares hspares
      obtain ⟨hrest, hspares'⟩ := ih hbetween htasks
      exact ⟨hrest.shift hrecords, hspares'⟩

/-- Of a collection that the tasks spare, the foreground sees only its own writes. -/
theorem Passes.beside (h : Passes engine service t service') (hengine : engine.Spares collection)
    (hspares : service.Spares collection) :
    t.Beside collection service.store service'.store ∧ service'.Spares collection :=
  h.beside_of_tasks hspares fun _ _ _ htask => spares_of_mem_task? hengine htask

theorem Passes.beside_of_observes (h : Passes engine service t service')
    (hspares : service.Spares collection)
    (hobserves : ∀ exchange ∈ t, exchange.action.observes = true) :
    t.Beside collection service.store service'.store ∧ service'.Spares collection := by
  refine h.beside_of_tasks hspares ?_
  intro exchange hmem task htask
  rw [task?_of_observes (hobserves exchange hmem)] at htask
  cases htask

/-- Where nothing goes on in the background, and nothing is sent there, the foreground has the store
for itself. -/
theorem Passes.keeps_of_idle (h : Passes engine service t service') (hidle : service.tasks = [])
    (hquiet : ∀ exchange ∈ t, task? engine exchange.action = none) :
    t.Keeps service.store service'.store ∧ service'.tasks = [] := by
  induction h with
  | done => exact ⟨rfl, hidle⟩
  | asked hanswered _ ih =>
      obtain ⟨hfirst, hlater⟩ := List.forall_mem_cons.mp hquiet
      obtain ⟨hkeeps, hidle'⟩ := ih (by rw [after, hfirst, hidle]; rfl) hlater
      exact ⟨⟨hanswered, hkeeps⟩, hidle'⟩
  | aside hworks =>
      cases hworks with
      | turn => cases (List.append_eq_nil_iff.mp hidle).2

/-- Between two parts of what is asked, the service is somewhere in between. -/
theorem passes_append {t' : Transcript} : Passes engine service (t ++ t') service' ↔
    ∃ between, Passes engine service t between ∧ Passes engine between t' service' := by
  constructor
  · intro h
    generalize hall : t ++ t' = all at h
    induction h generalizing t with
    | done =>
        obtain ⟨rfl, rfl⟩ := List.append_eq_nil_iff.mp hall
        exact ⟨_, .done, .done⟩
    | asked hanswered hrest ih =>
        cases t with
        | nil =>
            obtain rfl : t' = _ := hall
            exact ⟨_, .done, .asked hanswered hrest⟩
        | cons head t =>
            obtain ⟨rfl, hall'⟩ := List.cons.inj hall
            obtain ⟨between, hbefore, hlater⟩ := ih hall'
            exact ⟨between, .asked hanswered hbefore, hlater⟩
    | aside hworks _ ih =>
        obtain ⟨between, hbefore, hlater⟩ := ih hall
        exact ⟨between, .aside hworks hbefore, hlater⟩
  · rintro ⟨between, hbefore, hlater⟩
    induction hbefore with
    | done => exact hlater
    | asked hanswered _ ih => exact .asked hanswered (ih hlater)
    | aside hworks _ ih => exact .aside hworks (ih hlater)

/-- The foreground has its next exchange with the service as it is at that time. -/
theorem Passes.cons_inv {exchange : Exchange} (h : Passes engine service (exchange :: t) service') :
    ∃ met : Service, Passes engine service [] met ∧ exchange.Answered met.store ∧
      Passes engine (met.after engine exchange) t service' := by
  generalize hall : exchange :: t = all at h
  induction h with
  | done => cases hall
  | asked hanswered hrest =>
      obtain ⟨rfl, rfl⟩ := List.cons.inj hall
      exact ⟨_, .done, hanswered, hrest⟩
  | aside hworks _ ih =>
      obtain ⟨met, hbefore, hmet, hlater⟩ := ih hall
      exact ⟨met, .aside hworks hbefore, hmet, hlater⟩

/-- The foreground has each of its exchanges with the service as it is at that time. -/
theorem Passes.split {before later : Transcript} {exchange : Exchange}
    (h : Passes engine service (before ++ exchange :: later) service') :
    ∃ met : Service, Passes engine service before met ∧ exchange.Answered met.store ∧
      Passes engine (met.after engine exchange) later service' := by
  obtain ⟨between, hbefore, hrest⟩ := passes_append.mp h
  obtain ⟨met, haside, hanswered, hlater⟩ := hrest.cons_inv
  have hmet := passes_append.mpr ⟨between, hbefore, haside⟩
  rw [List.append_nil] at hmet
  exact ⟨met, hmet, hanswered, hlater⟩

/-- Each occasion of a history comes upon the service as those before it have left it. -/
theorem History.split {first : Service} {past : List (Occasion × Transcript)} {occasion : Occasion}
    (h : History engine first past service) (hmem : (occasion, t) ∈ past) :
    ∃ (earlier : List (Occasion × Transcript)) (before behind : Service),
      History engine first earlier before ∧ earlier <+: past ∧ occasion.Leads engine t ∧
      Passes engine before t behind := by
  induction h with
  | start => cases hmem
  | works _ _ ih => exact ih hmem
  | @next past between behind other t' hhistory hleads hpasses ih =>
      rcases List.mem_append.mp hmem with hearlier | hlast
      · obtain ⟨earlier, before, after, hbefore, hprefix, hrest⟩ := ih hearlier
        exact ⟨earlier, before, after, hbefore, hprefix.trans (List.prefix_append _ _), hrest⟩
      · obtain ⟨rfl, rfl⟩ := Prod.mk.inj (List.mem_singleton.mp hlast)
        exact ⟨past, between, behind, hhistory, List.prefix_append _ _, hleads, hpasses⟩

/-- What has the store for itself passes. -/
theorem passes_of_keeps {store store' : MemoryStore}
    {tasks : List (Program (Except FlowError RunReport))} (h : t.Keeps store store') :
    ∃ tasks', Passes engine ⟨store, tasks⟩ t ⟨store', tasks'⟩ := by
  induction t generalizing store tasks with
  | nil =>
      obtain rfl : store' = store := h
      exact ⟨tasks, .done⟩
  | cons exchange rest ih =>
      obtain ⟨hanswered, hkeeps⟩ := h
      obtain ⟨tasks', hrest⟩ : ∃ tasks', Passes engine
          (Service.after engine ⟨store, tasks⟩ exchange) rest ⟨store', tasks'⟩ := ih hkeeps
      exact ⟨tasks', .asked hanswered hrest⟩

/-- A program comes to its end in the foreground; the tasks may do nothing meanwhile. -/
theorem exists_passes {α : Type} (engine : Engine) (store : MemoryStore)
    (tasks : List (Program (Except FlowError RunReport))) (p : Program α) (clock : Clock) (n : Nat) :
    ∃ (t : Transcript) (tasks' : List (Program (Except FlowError RunReport))),
      p.Leads t (p.runWith (withClock clock MemoryStore.answer) (n, store)).1 ∧
      Passes engine ⟨store, tasks⟩ t
        ⟨(p.runWith (withClock clock MemoryStore.answer) (n, store)).2.2, tasks'⟩ := by
  obtain ⟨t, hleads, -, hkeeps⟩ := Program.leads_answer clock p n store
  obtain ⟨tasks', hpasses⟩ := passes_of_keeps hkeeps
  exact ⟨t, tasks', hleads, hpasses⟩

/-! ## A service to try things on -/

def bare : Engine := { registry := {} }

theorem bare_spares : bare.Spares bare.settings.library.collection :=
  ⟨by decide, by decide, List.forall_mem_nil _⟩

def plain (method path : String) : Api.Request := { method, path }

def posting (path text : String) : Api.Request :=
  { method := "POST", path, body := some ⟨text, some "application/json"⟩ }

/-- The answer to a request where nothing goes on in the background, and the store behind it. -/
def served (store : MemoryStore) (asked : Api.Request) : Api.Response × Nat × MemoryStore :=
  (Api.answer bare asked).runWith (withClock (fun _ => ⟨0, 0⟩) MemoryStore.answer) (0, store)

theorem exists_served (store : MemoryStore)
    (tasks : List (Program (Except FlowError RunReport))) (asked : Api.Request) :
    ∃ (t : Transcript) (tasks' : List (Program (Except FlowError RunReport))),
      (Api.answer bare asked).Leads t (served store asked).1 ∧
      Passes bare ⟨store, tasks⟩ t ⟨(served store asked).2.2, tasks'⟩ := by
  unfold served
  exact exists_passes bare store tasks _ _ 0

end Service

end FlowEngine
