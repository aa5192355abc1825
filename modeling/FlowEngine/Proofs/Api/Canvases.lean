import FlowEngine.Proofs.Api.Requests
import FlowEngine.Proofs.Execution.Straight
/-!
# `FlowEngine.Proofs.Api.Canvases` — only valid canvases are kept and run

The library is filled by requests to save, and such a request looks at the canvas before anything
else.  So every canvas in the library is one that validation accepts, however often its flow has been
replaced or archived since.  The executor is handed such canvases only, and two of its ways out are
never taken: the one for a flow without a trigger, and the one for an edge to nowhere.
-/

namespace FlowEngine

namespace Service

open Api (Response)

variable {engine : Engine} {first service : Service} {past : List (Occasion × Transcript)}
  {occasion : Occasion} {t : Transcript} {flows flows' : List Flow} {store : MemoryStore}

/-- Validation accepts the canvas of each of the flows. -/
def Valid (flows : List Flow) : Prop := ∀ flow ∈ flows, flow.canvas.validate = .ok ()

theorem Occasion.Alters.valid (h : occasion.Alters flows flows') (hvalid : Valid flows) :
    Valid flows' := by
  cases h with
  | kept => exact hvalid
  | refused => exact hvalid
  | @saved asked flow saved old status _ _ _ _ hflow hsaved hfiled _ =>
      obtain ⟨earlier, later, rfl, rfl, -⟩ := hfiled.split
      have hplaced : (saved.inPlaceOf old).canvas.validate = .ok () := by
        rw [hsaved]
        exact hflow
      simp only [Valid, List.forall_mem_append, List.forall_mem_cons] at hvalid ⊢
      exact ⟨hvalid.1.1, hplaced, hvalid.2⟩
  | archived =>
      intro flow hflow
      obtain ⟨kept, hkept, rfl⟩ := List.mem_map.mp hflow
      split <;> exact hvalid kept hkept

/-- In the course of a history from an empty library, only valid canvases are held. -/
theorem History.valid (h : History engine first past service)
    (hengine : engine.Spares engine.settings.library.collection)
    (hempty : first.store.records engine.settings.library.collection = [])
    (hidle : first.tasks = []) :
    service.Spares engine.settings.library.collection ∧
      ∃ flows, engine.settings.library.Holds service.store flows ∧ Valid flows := by
  have hspares : first.Spares engine.settings.library.collection := by
    rw [Spares, hidle]
    exact List.forall_mem_nil _
  have hholds : engine.settings.library.Holds first.store [] :=
    ⟨hempty, List.forall_mem_nil _, List.nodup_nil⟩
  exact h.invariant hengine hspares hholds (List.forall_mem_nil _)
    fun _ _ _ _ hvalid halters => halters.valid hvalid

/-- A request to save a canvas that validation rejects is answered before anything is asked. -/
theorem leads_saveFlow_of_invalid {asked : Api.Request} {response : Response} {flow : Flow}
    {e : CanvasError} (hroute : asked.route? = some .saveFlow)
    (hflow : asked.document?.bind Api.decodeFlow? = some flow)
    (hinvalid : flow.canvas.validate = .error e)
    (h : (Api.answer engine asked).Leads t response) :
    t = [] ∧ response = .error 400 (FlowError.canvas e).message := by
  rw [Api.answer_saveFlow hroute, Api.saveFlow, hflow] at h
  dsimp only at h
  rw [hinvalid] at h
  exact Program.leads_pure.mp h

/-- A run that an occasion sends on its way is a new one of a flow that is held at the time. -/
theorem Occasion.dispatched (hoccasion : occasion.Leads engine t)
    (hholds : engine.settings.library.Holds store flows) {store' : MemoryStore}
    (hbeside : t.Beside engine.settings.library.collection store store') {run : Run} {flow : Flow}
    {input : Json} {task : Nat} (hmem : ⟨.dispatch run flow input, task⟩ ∈ t) :
    flow ∈ flows ∧ run.Begins flow := by
  rcases occasion.deeds hoccasion hholds hbeside _ hmem with hstarts | hwritten
  · exact hstarts
  · cases hwritten

/-- Whatever requests are answered, one at a time, from an empty library on: every record of the
library reads as a flow with a canvas that validation accepts; a request to save any other canvas is
turned down with nothing asked of the world; and every run that is sent on its way, however it is
answered, passes nothing over and does not end for want of a trigger. -/
theorem canvases_valid (hengine : engine.Spares engine.settings.library.collection)
    (hempty : first.store.records engine.settings.library.collection = [])
    (hidle : first.tasks = []) (h : History engine first past service) :
    (∀ record ∈ service.store.records engine.settings.library.collection,
      ∃ flow, Flow.ofRecord? record = some flow ∧ flow.canvas.validate = .ok ()) ∧
    (∀ asked flow e t response, asked.route? = some .saveFlow →
      asked.document?.bind Api.decodeFlow? = some flow → flow.canvas.validate = .error e →
      (Api.answer engine asked).Leads t response →
      t = [] ∧ response = .error 400 (FlowError.canvas e).message) ∧
    ∀ occasion t, (occasion, t) ∈ past → ∀ run flow input task,
      ⟨.dispatch run flow input, task⟩ ∈ t → ∀ told outcome,
      (engine.execute run flow input).Leads told outcome →
      ∃ chronicle : Chronicle, chronicle.Tells engine run flow input told outcome ∧
        engine.GoesStraight flow.canvas chronicle.visits ∧
        (chronicle.final run).error ≠ some FlowError.noTriggerNode.message := by
  refine ⟨?_, ?_, ?_⟩
  · intro record hrecord
    obtain ⟨-, flows, hholds, hvalid⟩ := h.valid hengine hempty hidle
    rw [hholds.lists] at hrecord
    obtain ⟨flow, hflow, rfl⟩ := List.mem_map.mp hrecord
    exact ⟨flow, Flow.ofRecord?_stored (hholds.exact flow hflow), hvalid flow hflow⟩
  · exact fun asked flow e t response => leads_saveFlow_of_invalid
  · intro occasion t hmem run flow input task hdispatch told outcome htold
    obtain ⟨earlier, before, behind, hbefore, -, hoccasion, hpasses⟩ := h.split hmem
    obtain ⟨hspares, flows, hholds, hvalid⟩ := hbefore.valid hengine hempty hidle
    obtain ⟨hbeside, -⟩ := hpasses.beside hengine hspares
    obtain ⟨hflow, hbegins⟩ := occasion.dispatched hoccasion hholds hbeside hdispatch
    have hqueued : run.status = .queued ∧ run.error = none := by
      rw [hbegins.queued]
      exact ⟨rfl, rfl⟩
    obtain ⟨chronicle, htells⟩ := Program.leads_execute hqueued.1 htold
    exact ⟨chronicle, htells, htells.goesStraight (hvalid flow hflow) hqueued.2⟩

/-! ## A flow that is saved and run -/

theorem failure_status_ne_accepted (e : FlowError) : (Api.failure e).status ≠ 202 := by
  cases e <;> exact Nat.ne_of_beq_eq_false rfl

theorem exists_dispatch_of_accepted {asked : Api.Request} {response : Response} {id : String}
    (hroute : asked.route? = some (.startRun id))
    (h : (Api.answer engine asked).Leads t response) (haccepted : response.status = 202) :
    ∃ run flow input task, ⟨.dispatch run flow input, task⟩ ∈ t := by
  rw [Api.answer_startRun hroute] at h
  obtain ⟨first, got, rest, rfl, -, hrest⟩ := Api.leads_startRun h
  rcases got with e | found
  · rw [hrest.2] at haccepted
    exact absurd haccepted (failure_status_ne_accepted _)
  cases found with
  | none =>
      rw [hrest.2] at haccepted
      cases haccepted
  | some flow =>
      obtain ⟨wanted, begun, last, started, -, rfl, hstart, hlast⟩ := hrest
      cases hlast with
      | refused => exact absurd haccepted (failure_status_ne_accepted _)
      | @awaited _ _ report _ =>
          cases report with
          | error e => exact absurd haccepted (failure_status_ne_accepted e)
          | ok report => cases haccepted
      | @underway run task _ =>
          cases Program.leads_startRun hstart with
          | @named queued _ id _ _ _ _ _ hlater =>
              obtain ⟨task, rfl, -⟩ := hlater
              exact ⟨{ queued with id }, flow, wanted.input.getD (.object []), task, by simp⟩

def lone : String :=
  "\x7b\"id\":\"f1\",\"name\":\"Lone\",\"canvas\":" ++
    "\x7b\"nodes\":[\x7b\"id\":\"t\",\"type\":\"trigger.manual\"\x7d],\"edges\":[]\x7d\x7d"

theorem exists_saving_and_starting : ∃ saving starting : Api.Request,
    starting.route? = some (.startRun "f1") ∧
    (served (served {} saving).2.2 starting).1.status = 202 ∧
    0 < ((served (served {} saving).2.2 starting).2.2.records
      bare.settings.library.collection).length := by
  refine ⟨posting "/api/flows" lone, plain "POST" "/api/flows/f1/runs", ?_⟩
  decide +kernel

/-- The flow is saved, and a run of it is sent on its way. -/
theorem canvases_valid_lone : ∃ (past : List (Occasion × Transcript)) (service : Service)
    (record : Json) (saved flow : Flow) (t told : Transcript) (run : Run) (input : Json)
    (task : Nat) (outcome : Except FlowError RunReport) (chronicle : Chronicle),
      History bare ⟨{}, []⟩ past service ∧
      record ∈ service.store.records bare.settings.library.collection ∧
      Flow.ofRecord? record = some saved ∧ saved.canvas.validate = .ok () ∧
      ⟨.dispatch run flow input, task⟩ ∈ t ∧ (bare.execute run flow input).Leads told outcome ∧
      chronicle.Tells bare run flow input told outcome ∧
      bare.GoesStraight flow.canvas chronicle.visits := by
  obtain ⟨saving, starting, hroute, haccepted, hlength⟩ := exists_saving_and_starting
  obtain ⟨t₁, tasks, hsave, hpasses⟩ := exists_served {} [] saving
  obtain ⟨t₂, tasks', hstart, hpasses'⟩ := exists_served (served {} saving).2.2 tasks starting
  generalize (served (served {} saving).2.2 starting).2.2 = store at hlength hpasses'
  obtain ⟨record, hrecord⟩ := List.exists_mem_of_length_pos hlength
  have hhistory : History bare ⟨{}, []⟩ ([] ++ [(Occasion.request saving _, t₁)] ++
      [(Occasion.request starting _, t₂)]) ⟨store, tasks'⟩ :=
    .next (.next .start hsave hpasses) hstart hpasses'
  obtain ⟨hvalid, -, hstraight⟩ := canvases_valid bare_spares rfl rfl hhistory
  obtain ⟨saved, hread, hsaved⟩ := hvalid record hrecord
  obtain ⟨run, flow, input, task, hdispatch⟩ :=
    exists_dispatch_of_accepted hroute hstart haccepted
  obtain ⟨told, htold⟩ := Program.leads_runWith outage (bare.execute run flow input) ()
  obtain ⟨chronicle, htells, hgoes, -⟩ := hstraight _ _
    (List.mem_append_right _ List.mem_cons_self) run flow input task hdispatch told _ htold
  exact ⟨_, _, record, saved, flow, t₂, told, run, input, task, _, chronicle, hhistory, hrecord,
    hread, hsaved, hdispatch, htold, htells, hgoes⟩

end Service

end FlowEngine
