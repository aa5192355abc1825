import FlowEngine.Proofs.Api.Requests
import FlowEngine.Proofs.Node.Notices
import FlowEngine.Workbench.Passing
/-!
# `FlowEngine.Proofs.Workbench.World` — a world is a service at work

A world has a store and tasks, and so has a service; everything else in it decides only how actions
are answered and whose turn it is.  While the store does not fail, whatever happens in a world is
therefore something that may happen to its service: a program in the foreground passes
(`exists_goes_advance`), a task takes its turns (`goes_advanceTask`), and when time passes, what
becomes of the service is a history in which jobs fire and the schedule loads the flows anew
(`exists_elapses_passUntil`).

It is needed that no task sends another run on its way; the handlers at hand see to that.
-/

namespace FlowEngine

open Program (Asks)

namespace Action

def IsOwn : Action → Prop
  | dispatch _ _ _ => False
  | _ => True

/-- The action is one for which nobody has to wait. -/
def IsPrompt : Action → Prop
  | sleep _ => False
  | await _ => False
  | _ => True

variable {action : Action}

theorem task?_of_isOwn (engine : Engine) (h : action.IsOwn) :
    Service.task? engine action = none := by
  cases action <;> first | rfl | cases h

theorem IsWorkOf.isOwn {context : NodeContext} (h : action.IsWorkOf context) : action.IsOwn := by
  cases action <;> trivial

end Action

/-- Runs of handlers that keep to their work send no others on their way. -/
theorem Engine.asks_isOwn {engine : Engine}
    (h : ∀ handler ∈ engine.registry.handlers, handler.Works) : engine.Asks Action.IsOwn where
  now := trivial
  elapsed := trivial
  publish _ := trivial
  createRun _ := trivial
  updateRun _ _ := trivial
  createStep _ := trivial
  updateStep _ _ := trivial
  handlers handler hmem context := (h handler hmem context).mono fun _ => Action.IsWorkOf.isOwn

/-- A job that fires reads the flow, and may store a run of it and send it on its way. -/
theorem Schedule.asks_startEntry (kind : Action → Prop) (hnow : kind .now) (engine : Engine)
    (hget : ∀ id, kind (.getOne engine.settings.library.collection id {}))
    (hcreate : ∀ data, kind (.create engine.settings.ledger.runs data))
    (hdispatch : ∀ run flow input, kind (.dispatch run flow input)) (entry : Entry) :
    (startEntry engine entry).Asks kind := by
  refine (Library.asks_get? _ (hget entry.flowId)).bind fun got => ?_
  rcases got with e | found
  · exact .pure _
  cases found with
  | none => exact .pure _
  | some flow =>
      have hstart : ∀ input, (engine.startRun flow .cron input false).Asks kind := fun input =>
        Engine.asks_startRun flow .cron input false hnow hcreate fun run => hdispatch run flow input
      dsimp only
      split
      · exact .pure _
      split
      · refine (hstart _).bind fun started => ?_
        cases started <;> exact .pure _
      · refine Asks.bind ((Asks.perform hnow).bind fun _ => .pure _) fun input => ?_
        refine (hstart input).bind fun started => ?_
        cases started <;> exact .pure _

namespace Service

variable {engine : Engine} {first between service service' : Service} {t : Transcript}
  {past past' : List (Occasion × Transcript)}

/-- What happens of itself as time passes: jobs fire, and the schedule loads the flows anew. -/
def Occasion.isScheduled : Occasion → Bool
  | .request _ _ => false
  | _ => true

theorem History.aside (h : History engine first past service)
    (hpasses : Passes engine service [] service') : History engine first past service' := by
  generalize hnone : ([] : Transcript) = none at hpasses
  induction hpasses with
  | done => exact h
  | asked => cases hnone
  | aside hworks _ ih => exact ih (h.works hworks) hnone

theorem History.trans (h : History engine first past between)
    (h' : History engine between past' service) : History engine first (past ++ past') service := by
  induction h' with
  | start => rwa [List.append_nil]
  | works _ hworks ih => exact ih.works hworks
  | next _ hoccasion hpasses ih =>
      rw [← List.append_assoc]
      exact ih.next hoccasion hpasses

/-- Where there were no occasions only the tasks have gone on. -/
theorem History.passes_of_nil (h : History engine first [] service) :
    Passes engine first [] service := by
  generalize hnone : ([] : List (Occasion × Transcript)) = none at h
  induction h with
  | start => exact .done
  | works _ hworks ih => exact passes_append.mpr ⟨_, ih hnone, .aside hworks .done⟩
  | next => cases (List.append_eq_nil_iff.mp hnone.symm).2

end Service

namespace Workbench

open Service (Passes Works History Occasion)

def Standing.rest {α : Type} : Standing α → Program α
  | .finished a => .done a
  | .ready program => program
  | .waiting _ action next => .act action next

namespace World

variable {α : Type} {w w' w'' : World} {action : Action} {t t' : Transcript}

/-- The store of the world, and what is left of its tasks. -/
def service (w : World) : Service := ⟨w.store, w.tasks.map fun task => task.standing.rest⟩

/-- The store does not fail, the tasks are numbered as they were begun, and none of them sends another
run on its way. -/
structure InOrder (w : World) : Prop where
  faultless : w.faults = []
  numbered : w.tasks.map Task.number = List.range w.tasks.length
  handlers : ∀ handler ∈ w.engine.registry.handlers, handler.Works
  own : ∀ task ∈ w.tasks, task.standing.rest.Asks Action.IsOwn

/-! ## Answers -/

section Answers

variable {collection id : String}

theorem list_eq (h : w.faults = []) (query : ListQuery) :
    w.list collection query = w.store.list collection query := by
  rw [list, h]
  rfl

theorem getOne_eq (h : w.faults = []) (options : FetchOptions) :
    w.getOne collection id options = w.store.getOne collection id options := by
  rw [getOne, h]
  rfl

theorem map_givenBack_nil (result : Except StoreError Json) :
    result.map (givenBack [] collection) = result := by
  cases result <;> rfl

theorem create_eq (h : w.faults = []) (data : Json) : w.create collection data =
    ((w.store.create collection data).1,
      { w with store := (w.store.create collection data).2 }) := by
  rw [create, h]
  exact Prod.ext (map_givenBack_nil _) rfl

theorem update_eq (h : w.faults = []) (data : Json) : w.update collection id data =
    ((w.store.update collection id data).1,
      { w with store := (w.store.update collection id data).2 }) := by
  rw [update, h]
  rfl

end Answers

theorem answered_answer (h : w.faults = []) (action : Action) :
    Exchange.Answered ⟨action, (answer action w).1⟩ w.store := by
  cases action with
  | list collection query => exact fun _ => list_eq h query
  | getOne collection id options => exact fun _ => getOne_eq h options
  | create collection data => exact fun _ => congrArg Prod.fst (create_eq h data)
  | update collection id data => exact fun _ => congrArg Prod.fst (update_eq h data)
  | _ => exact fun hcall => absurd hcall Bool.false_ne_true

/-- An answer does to the store what the exchange does. -/
theorem store_answer (h : w.faults = []) (action : Action) :
    (answer action w).2.store = w.store.after ⟨action, (answer action w).1⟩ := by
  cases action with
  | create collection data => exact congrArg (fun answered => answered.2.store) (create_eq h data)
  | update collection id data => exact congrArg (fun answered => answered.2.store) (update_eq h data)
  | _ => rfl

/-- An answer leaves the tasks as they are, but for the one that it may begin. -/
theorem tasks_answer (h : w.faults = []) (action : Action) :
    (answer action w).2.tasks = w.tasks ++ ((Service.task? w.engine action).map fun program =>
      ⟨w.tasks.length, .ready program⟩).toList := by
  cases action with
  | create collection data =>
      exact (congrArg (fun answered => answered.2.tasks) (create_eq h data)).trans
        (List.append_nil _).symm
  | update collection id data =>
      exact (congrArg (fun answered => answered.2.tasks) (update_eq h data)).trans
        (List.append_nil _).symm
  | dispatch run flow input => rfl
  | _ => exact (List.append_nil _).symm

theorem answer_frame (h : w.faults = []) (action : Action) :
    (answer action w).2.engine = w.engine ∧ (answer action w).2.ticker = w.ticker ∧
      (answer action w).2.faults = [] := by
  cases action with
  | create collection data =>
      have heq : (answer (.create collection data) w).2 = _ := congrArg Prod.snd (create_eq h data)
      rw [heq]
      exact ⟨rfl, rfl, h⟩
  | update collection id data =>
      have heq : (answer (.update collection id data) w).2 = _ :=
        congrArg Prod.snd (update_eq h data)
      rw [heq]
      exact ⟨rfl, rfl, h⟩
  | _ => exact ⟨rfl, rfl, h⟩

/-! ## Programs in the foreground -/

/-- The second world comes of the first while the foreground has these exchanges. -/
structure Goes (w : World) (t : Transcript) (w' : World) : Prop where
  inOrder : w'.InOrder
  engine : w'.engine = w.engine
  ticker : w'.ticker = w.ticker
  passes : Passes w.engine w.service t w'.service

theorem Goes.refl (h : w.InOrder) : Goes w [] w := ⟨h, rfl, rfl, .done⟩

theorem Goes.trans (h : Goes w t w') (h' : Goes w' t' w'') : Goes w (t ++ t') w'' where
  inOrder := h'.inOrder
  engine := h'.engine.trans h.engine
  ticker := h'.ticker.trans h.ticker
  passes := Service.passes_append.mpr ⟨_, h.passes, h.engine ▸ h'.passes⟩

theorem InOrder.answer (h : w.InOrder) (action : Action) : (answer action w).2.InOrder := by
  obtain ⟨hengine, -, hfaults⟩ := answer_frame h.faultless action
  refine ⟨hfaults, ?_, by rw [hengine]; exact h.handlers, ?_⟩
  · rw [tasks_answer h.faultless]
    cases Service.task? w.engine action with
    | none => simpa using h.numbered
    | some program => simp [h.numbered, List.range_succ]
  · rw [tasks_answer h.faultless]
    refine List.forall_mem_append.mpr ⟨h.own, ?_⟩
    cases action with
    | dispatch run flow input =>
        exact List.forall_mem_singleton.mpr
          (Executor.asks_execute (Engine.asks_isOwn h.handlers) run flow input)
    | _ => exact List.forall_mem_nil _

theorem service_answer (h : w.faults = []) (action : Action) :
    (answer action w).2.service = w.service.after w.engine ⟨action, (answer action w).1⟩ := by
  rw [service, store_answer h, tasks_answer h, List.map_append, Service.after, service]
  cases Service.task? w.engine action <;> rfl

theorem goes_answer (h : w.InOrder) (action : Action) :
    Goes w [⟨action, (answer action w).1⟩] (answer action w).2 := by
  obtain ⟨hengine, hticker, -⟩ := answer_frame h.faultless action
  refine ⟨h.answer action, hengine, hticker, ?_⟩
  refine .asked (answered_answer h.faultless action) ?_
  rw [← service_answer h.faultless action]
  exact .done

/-- A program in the foreground passes, as far as it comes. -/
theorem exists_goes_advance (h : w.InOrder) (p : Program α) :
    ∃ t, Goes w t (advance p w).2 ∧ ∀ {rest a}, (advance p w).1.rest.Leads rest a →
      p.Leads (t ++ rest) a := by
  induction p generalizing w with
  | done a => exact ⟨[], .refl h, fun hrest => hrest⟩
  | act action next ih =>
      rw [advance]
      split
      · have hfirst := goes_answer h action
        obtain ⟨t, hgoes, hleads⟩ := ih (answer action w).1 hfirst.inOrder
        exact ⟨_, hfirst.trans hgoes, fun hrest => .act (hleads hrest)⟩
      · exact ⟨[], .refl h, fun hrest => hrest⟩

theorem isReady_of_isPrompt (h : action.IsPrompt) (since : Nat) : w.isReady since action = true := by
  cases action <;> first | rfl | cases h

theorem exists_finished_of_isPrompt {p : Program α} (hp : p.Asks Action.IsPrompt) (w : World) :
    ∃ a, (advance p w).1 = .finished a := by
  induction hp generalizing w with
  | done a => exact ⟨a, rfl⟩
  | act haction _ ih =>
      rw [advance, if_pos (isReady_of_isPrompt haction _)]
      exact ih _ _

/-- A program that never waits passes to its end. -/
theorem exists_goes_of_isPrompt (h : w.InOrder) {p : Program α} (hp : p.Asks Action.IsPrompt) :
    ∃ t a, (advance p w).1 = .finished a ∧ p.Leads t a ∧ Goes w t (advance p w).2 := by
  obtain ⟨t, hgoes, hleads⟩ := exists_goes_advance h p
  obtain ⟨a, hfinished⟩ := exists_finished_of_isPrompt hp w
  have hrest : (advance p w).1.rest.Leads [] a := by
    rw [hfinished]
    exact .done a
  have hall := hleads hrest
  rw [List.append_nil] at hall
  exact ⟨t, a, hfinished, hall, hgoes⟩

/-! ## Tasks -/

/-- While one task goes on, the others stay where they are. -/
structure Turns (w : World) (p p' : Program (Except FlowError RunReport)) (w' : World) : Prop where
  inOrder : w'.InOrder
  engine : w'.engine = w.engine
  ticker : w'.ticker = w.ticker
  tasks : w'.tasks = w.tasks
  own : p'.Asks Action.IsOwn
  passes : ∀ earlier later, Passes w.engine ⟨w.store, earlier ++ p :: later⟩ []
    ⟨w'.store, earlier ++ p' :: later⟩

variable {p p' p'' : Program (Except FlowError RunReport)}

theorem Turns.refl (h : w.InOrder) (hp : p.Asks Action.IsOwn) : Turns w p p w :=
  ⟨h, rfl, rfl, rfl, hp, fun _ _ => .done⟩

theorem Turns.trans (h : Turns w p p' w') (h' : Turns w' p' p'' w'') : Turns w p p'' w'' where
  inOrder := h'.inOrder
  engine := h'.engine.trans h.engine
  ticker := h'.ticker.trans h.ticker
  tasks := h'.tasks.trans h.tasks
  own := h'.own
  passes earlier later := by
    have hlater := h'.passes earlier later
    rw [h.engine] at hlater
    exact Service.passes_append.mpr ⟨_, h.passes earlier later, hlater⟩

theorem turns_answer (h : w.InOrder) {next : action.Reply → Program (Except FlowError RunReport)}
    (hp : (Program.act action next).Asks Action.IsOwn) :
    Turns w (.act action next) (next (answer action w).1) (answer action w).2 := by
  obtain ⟨haction, hnext⟩ := hp.act_inv
  have hgoes := goes_answer h action
  have htasks := tasks_answer h.faultless action
  rw [Action.task?_of_isOwn _ haction] at htasks
  refine ⟨hgoes.inOrder, hgoes.engine, hgoes.ticker, htasks.trans (List.append_nil _),
    hnext _, fun earlier later => ?_⟩
  rw [store_answer h.faultless]
  exact .aside (.turn (answered_answer h.faultless action)) .done

theorem turns_advance (h : w.InOrder) (hp : p.Asks Action.IsOwn) :
    Turns w p (advance p w).1.rest (advance p w).2 := by
  induction p generalizing w with
  | done a => exact .refl h hp
  | act action next ih =>
      rw [advance]
      split
      · have hfirst := turns_answer h hp
        exact hfirst.trans (ih _ hfirst.inOrder hfirst.own)
      · exact .refl h hp

theorem turns_resume {standing standing' : Standing (Except FlowError RunReport)} (h : w.InOrder)
    (hown : standing.rest.Asks Action.IsOwn) (hresume : w.resume? standing = some (standing', w')) :
    Turns w standing.rest standing'.rest w' := by
  cases standing with
  | finished result => cases hresume
  | ready program =>
      have hadvance : advance program w = (standing', w') := Option.some.inj hresume
      have hturns : Turns w program (advance program w).1.rest (advance program w).2 :=
        turns_advance h hown
      rw [hadvance] at hturns
      exact hturns
  | waiting since action next =>
      obtain ⟨-, hready⟩ := Option.ite_none_right_eq_some.mp hresume
      have hadvance : advance (next (answer action w).1) (answer action w).2 = (standing', w') :=
        Option.some.inj hready
      have hfirst := turns_answer h hown
      have hturns := hfirst.trans (turns_advance hfirst.inOrder hfirst.own)
      rw [hadvance] at hturns
      exact hturns

theorem tasks_setStanding {earlier later : List Task} {task : Task}
    (hnumbered : w.tasks.map Task.number = List.range w.tasks.length)
    (htasks : w.tasks = earlier ++ task :: later)
    (standing : Standing (Except FlowError RunReport)) :
    (w.setStanding task.number standing).tasks = earlier ++ { task with standing } :: later := by
  have hnodup : (w.tasks.map Task.number).Nodup := by
    rw [hnumbered]
    exact List.nodup_range
  rw [htasks, List.map_append, List.map_cons, List.nodup_append, List.nodup_cons] at hnodup
  obtain ⟨-, ⟨hlater, -⟩, hearlier⟩ := hnodup
  have hothers : ∀ tasks : List Task, (∀ other ∈ tasks, other.number ≠ task.number) →
      tasks.map (fun other => if other.number = task.number then { other with standing } else other) =
        tasks := by
    intro tasks hne
    rw [List.map_congr_left fun other hmem => if_neg (hne other hmem), List.map_id']
  rw [setStanding, htasks, List.map_append, List.map_cons, if_pos rfl, hothers earlier, hothers later]
  · exact fun other hmem heq => hlater (heq ▸ List.mem_map_of_mem hmem)
  · exact fun other hmem => hearlier _ (List.mem_map_of_mem hmem) _ List.mem_cons_self

/-- A task that goes on takes its turns, and nothing else happens. -/
theorem goes_advanceTask (h : w.InOrder) {task : Task} (hmem : task ∈ w.tasks)
    (hadvance : w.advanceTask task = some w') : Goes w [] w' := by
  obtain ⟨⟨standing, w₁⟩, hresume, rfl⟩ := Option.map_eq_some_iff.mp hadvance
  have hturns := turns_resume h (h.own task hmem) hresume
  obtain ⟨earlier, later, htasks⟩ := List.append_of_mem hmem
  have hset : (w₁.setStanding task.number standing).tasks = _ :=
    tasks_setStanding hturns.inOrder.numbered (hturns.tasks.trans htasks) standing
  have hown := h.own
  rw [htasks, List.forall_mem_append, List.forall_mem_cons] at hown
  refine ⟨⟨hturns.inOrder.faultless, ?_, hturns.inOrder.handlers, ?_⟩, hturns.engine,
    hturns.ticker, ?_⟩
  · have hnumbered := h.numbered
    rw [htasks] at hnumbered
    rw [hset]
    simpa using hnumbered
  · rw [hset]
    exact List.forall_mem_append.mpr
      ⟨hown.1, List.forall_mem_cons.mpr ⟨hturns.own, hown.2.2⟩⟩
  · have hpasses := hturns.passes (earlier.map fun task => task.standing.rest)
      (later.map fun task => task.standing.rest)
    rw [service, service, hset, htasks, List.map_append, List.map_append]
    exact hpasses

theorem goes_settle (h : w.InOrder) (fuel : Nat) : Goes w [] (settle fuel w) := by
  induction fuel generalizing w with
  | zero => exact .refl h
  | succ fuel ih =>
      rw [settle]
      split
      · next w₁ hsome =>
          obtain ⟨task, hmem, hadvance⟩ := List.exists_of_findSome?_eq_some hsome
          have hgoes := goes_advanceTask h hmem hadvance
          exact hgoes.trans (ih hgoes.inOrder)
      · exact .refl h

theorem goes_serve (h : w.InOrder) : Goes w [] w.serve := ⟨⟨h.1, h.2, h.3, h.4⟩, rfl, rfl, .done⟩

/-! ## Time -/

/-- In the second world there have been these occasions since the first. -/
structure Occurs (w : World) (past : List (Occasion × Transcript)) (w' : World) : Prop where
  inOrder : w'.InOrder
  engine : w'.engine = w.engine
  history : History w.engine w.service past w'.service

variable {past past' : List (Occasion × Transcript)} {occasion : Occasion}

theorem Occurs.trans (h : Occurs w past w') (h' : Occurs w' past' w'') :
    Occurs w (past ++ past') w'' where
  inOrder := h'.inOrder
  engine := h'.engine.trans h.engine
  history := h.history.trans (h.engine ▸ h'.history)

theorem Goes.occurs (h : Goes w [] w') : Occurs w [] w' :=
  ⟨h.inOrder, h.engine, Service.History.start.aside h.passes⟩

theorem Goes.single (h : Goes w t w') (hoccasion : occasion.Leads w.engine t) :
    Occurs w [(occasion, t)] w' :=
  ⟨h.inOrder, h.engine, .next .start hoccasion h.passes⟩

/-- Of itself there happens what is due, and nothing if no schedule is at work. -/
structure Elapses (w : World) (past : List (Occasion × Transcript)) (w' : World) : Prop extends
    Occurs w past w' where
  scheduled : ∀ pair ∈ past, pair.1.isScheduled = true
  idle : w.ticker = none → past = [] ∧ w'.ticker = none

theorem Elapses.trans (h : Elapses w past w') (h' : Elapses w' past' w'') :
    Elapses w (past ++ past') w'' where
  toOccurs := h.toOccurs.trans h'.toOccurs
  scheduled := List.forall_mem_append.mpr ⟨h.scheduled, h'.scheduled⟩
  idle hidle := by
    obtain ⟨rfl, hidle'⟩ := h.idle hidle
    exact h'.idle hidle'

theorem Goes.elapses (h : Goes w [] w') : Elapses w [] w' :=
  ⟨h.occurs, List.forall_mem_nil _, fun hidle => ⟨rfl, h.ticker.trans hidle⟩⟩

theorem goes_clock (h : w.InOrder) (clock : Nat) : Goes w [] { w with clock } :=
  ⟨⟨h.1, h.2, h.3, h.4⟩, rfl, rfl, .done⟩

theorem occurs_ticker (h : w.InOrder) (ticker : Option Ticker) : Occurs w [] { w with ticker } :=
  ⟨⟨h.1, h.2, h.3, h.4⟩, rfl, .start⟩

/-- The flows are loaded anew in one go, whatever schedule is at work behind it. -/
theorem exists_occurs_reloadTable (h : w.InOrder) (table : Schedule.Timetable) :
    ∃ t, ∀ ticker, Occurs w [(.reload .plain table (w.reloadTable table).1, t)]
      { (w.reloadTable table).2 with ticker } := by
  have hprompt := Schedule.asks_reload Action.IsPrompt trivial .plain w.engine.settings.library
    (fun _ => trivial) table
  obtain ⟨t, result, hfinished, hleads, hgoes⟩ := exists_goes_of_isPrompt h hprompt
  have hadvance : advance (Schedule.reload .plain w.engine.settings.library table) w =
      (.finished result, (advance (Schedule.reload .plain w.engine.settings.library table) w).2) :=
    Prod.ext hfinished rfl
  have hreload : Occasion.Leads w.engine t (.reload .plain table result) := hleads
  rw [reloadTable, hadvance]
  exact ⟨t, fun ticker => (hgoes.single hreload).trans (occurs_ticker hgoes.inOrder ticker)⟩

theorem exists_occurs_startEntries (h : w.InOrder) (entries : List Schedule.Entry) :
    ∃ past, Occurs w past (startEntries w entries) ∧ ∀ pair ∈ past, pair.1.isScheduled = true := by
  induction entries generalizing w with
  | nil => exact ⟨[], (Goes.refl h).occurs, List.forall_mem_nil _⟩
  | cons entry later ih =>
      have hprompt := Schedule.asks_startEntry Action.IsPrompt trivial w.engine
        (fun _ => trivial) (fun _ => trivial) (fun _ _ _ => trivial) entry
      obtain ⟨t, result, -, hleads, hgoes⟩ := exists_goes_of_isPrompt h hprompt
      have hfiring : Occasion.Leads w.engine t (.firing entry result) := hleads
      obtain ⟨past, hpast, hscheduled⟩ := ih hgoes.inOrder
      exact ⟨_, (hgoes.single hfiring).trans hpast, List.forall_mem_cons.mpr ⟨rfl, hscheduled⟩⟩

theorem exists_occurs_reloadNow (h : w.InOrder) (ticker : Ticker) :
    ∃ loaded t, Occurs w [(.reload .plain ticker.table loaded, t)] (w.reloadNow ticker) := by
  obtain ⟨t, hoccurs⟩ := exists_occurs_reloadTable h ticker.table
  exact ⟨_, t, hoccurs _⟩

theorem exists_elapses_look (h : w.InOrder) : ∃ past, Elapses w past w.look := by
  unfold look
  split
  · exact ⟨[], (Goes.refl h).elapses⟩
  · next ticker hticker =>
      have hbusy : ∀ {past : List (Occasion × Transcript)} {w' : World}, w.ticker = none →
          past = [] ∧ w'.ticker = none := fun hidle => nomatch hticker.symm.trans hidle
      have hset := occurs_ticker h (some { ticker with table := (ticker.table.fire w.time).2 })
      obtain ⟨past, hpast, hscheduled⟩ :=
        exists_occurs_startEntries hset.inOrder (ticker.table.fire w.time).1
      have hfired := hset.trans hpast
      dsimp only
      split
      · obtain ⟨loaded, t, hloaded⟩ := exists_occurs_reloadNow hfired.inOrder
          { ticker with table := (ticker.table.fire w.time).2 }
        refine ⟨_, hfired.trans hloaded, ?_, hbusy⟩
        exact List.forall_mem_append.mpr ⟨hscheduled, List.forall_mem_singleton.mpr rfl⟩
      · exact ⟨_, hfired, hscheduled, hbusy⟩

theorem exists_elapses_jump (h : w.InOrder) (next : Nat) : ∃ past, Elapses w past (w.jump next) := by
  have hclock := goes_clock h (max w.clock next)
  unfold jump
  dsimp only
  split
  · obtain ⟨past, hpast⟩ := exists_elapses_look hclock.inOrder
    exact ⟨past, hclock.elapses.trans hpast⟩
  · exact ⟨[], hclock.elapses⟩

/-- Whatever is waited for, what happens meanwhile is a history in which only the schedule acts. -/
theorem exists_elapses_passUntil (h : w.InOrder) (happened : World → Bool) (limit : Option Nat)
    (fuel : Nat) : ∃ past, Elapses w past (passUntil happened limit fuel w) := by
  induction fuel generalizing w with
  | zero => exact ⟨[], (Goes.refl h).elapses⟩
  | succ fuel ih =>
      have hsettled := goes_settle h maxTurns
      have hserved := hsettled.trans (goes_serve hsettled.inOrder)
      have hclock : ∀ clock, ∃ past, Elapses w past { (settle maxTurns w).serve with clock } :=
        fun clock => ⟨[], (hserved.trans (goes_clock hserved.inOrder clock)).elapses⟩
      have hjump : ∀ next, ∃ past,
          Elapses w past (passUntil happened limit fuel ((settle maxTurns w).serve.jump next)) := by
        intro next
        obtain ⟨before, hbefore⟩ := exists_elapses_jump hserved.inOrder next
        obtain ⟨later, hlater⟩ := ih hbefore.inOrder
        exact ⟨_, hserved.elapses.trans (hbefore.trans hlater)⟩
      unfold passUntil
      dsimp only
      split
      · exact ⟨[], hserved.elapses⟩
      split
      · exact ⟨[], hserved.elapses⟩
      · exact hclock _
      · exact hjump _
      · split
        · exact hjump _
        · exact hclock _

theorem exists_elapses_passTo (h : w.InOrder) (clock : Nat) :
    ∃ past, Elapses w past (w.passTo clock) := exists_elapses_passUntil h _ _ _

theorem exists_elapses_passUntilIdle (h : w.InOrder) :
    ∃ past, Elapses w past w.passUntilIdle := exists_elapses_passUntil h _ _ _

/-! ## Programs that wait -/

theorem exists_elapses_awaitTurn (h : w.InOrder) (action : Action) :
    ∃ past, Elapses w past (w.awaitTurn action) := by
  cases action with
  | sleep millis =>
      rw [awaitTurn]
      split
      · exact ⟨[], (Goes.refl h).elapses⟩
      · exact exists_elapses_passTo h _
  | await task => exact exists_elapses_passUntil h _ _ _
  | _ => exact ⟨[], (Goes.refl h).elapses⟩

/-- A program is performed to its end in the foreground, while the tasks go on, if no schedule is at
work or nobody has to wait. -/
theorem exists_goes_perform (h : w.InOrder) {p : Program α}
    (halone : w.ticker = none ∨ p.Asks Action.IsPrompt) :
    ∃ t, p.Leads t (w.perform p).1 ∧ Goes w t (w.perform p).2 := by
  induction p generalizing w with
  | done a => exact ⟨[], .done a, .refl h⟩
  | act action next ih =>
      have hturn : Goes w [] (w.awaitTurn action) := by
        rcases halone with hidle | hprompt
        · obtain ⟨past, hpast⟩ := exists_elapses_awaitTurn h action
          obtain ⟨rfl, hidle'⟩ := hpast.idle hidle
          exact ⟨hpast.inOrder, hpast.engine, hidle'.trans hidle.symm, hpast.history.passes_of_nil⟩
        · obtain ⟨haction, -⟩ := hprompt.act_inv
          cases action <;> first | exact .refl h | cases haction
      have hfirst := hturn.trans (goes_answer hturn.inOrder action)
      have halone' : (answer action (w.awaitTurn action)).2.ticker = none ∨
          (next (answer action (w.awaitTurn action)).1).Asks Action.IsPrompt :=
        halone.imp (fun hidle => hfirst.ticker.trans hidle) fun hprompt => hprompt.act_inv.2 _
      obtain ⟨t, hleads, hgoes⟩ := ih _ hfirst.inOrder halone'
      exact ⟨_, .act hleads, hfirst.trans hgoes⟩

end World

end Workbench

end FlowEngine
