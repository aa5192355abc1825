import FlowEngine.Proofs.Api.Service
import FlowEngine.Proofs.Execution.Starting
import FlowEngine.Proofs.Flow.Decoding
import FlowEngine.Proofs.Library.Shared
/-!
# `FlowEngine.Proofs.Api.Requests` — what each occasion does to the flows, and which runs it starts

Two requests write to the library: one saves a flow, and one archives it.  Three occasions start
runs: a request for one, a hook, and a job that fires.  Each of them reads the flows and starts what
it has read, so a run that is started is one of a flow that is held at the time and does not refuse
it (`Occasion.starts`).  All the others only look.

Together this says what each occasion makes of the flows that are held (`Occasion.alters`).
-/

namespace FlowEngine

open Program (Asks Observes)

/-! ## Looking things up -/

namespace Ledger

theorem observes_getRun (ledger : Ledger) (id : String) : (ledger.getRun id).Observes := by
  refine (Observes.perform rfl).bind fun reply => ?_
  rcases reply with e | record
  · cases e <;> exact .pure _
  · cases hread : Json.readRecord Run.ofRecord? ledger.runs record <;>
      simp only [hread] <;> exact .pure _

theorem observes_listRuns (ledger : Ledger) (flowId : String) :
    (ledger.listRuns flowId).Observes := by
  refine (Observes.perform rfl).bind fun reply => ?_
  cases reply <;> exact .pure _

theorem observes_listSteps (ledger : Ledger) (runId : String) :
    (ledger.listSteps runId).Observes := by
  refine (Observes.perform rfl).bind fun reply => ?_
  cases reply <;> exact .pure _

end Ledger

theorem Schedule.asks_reload (kind : Action → Prop) (hnow : kind .now) (reader : Reader)
    (library : Library) (hlist : ∀ query, kind (.list library.collection query))
    (table : Timetable) : (reload reader library table).Asks kind := by
  refine (library.asks_listFrom _ hlist _ _ _).bind fun listed => ?_
  cases listed with
  | error e => exact .pure _
  | ok flows => exact (Asks.perform hnow).bind fun moment => .pure _

theorem Schedule.observes_reload (reader : Reader) (library : Library) (table : Timetable) :
    (reload reader library table).Observes :=
  asks_reload (fun action => action.observes = true) rfl reader library (fun _ => rfl) table

namespace Api

/-- What the route is for is to look something up. -/
def Route.isLookup : Route → Bool
  | .saveFlow => false
  | .archiveFlow _ => false
  | .startRun _ => false
  | .hook _ => false
  | _ => true

/-- What the route is for is to write to the library. -/
def Route.edits : Route → Bool
  | .saveFlow => true
  | .archiveFlow _ => true
  | _ => false

section Answer

variable {engine : Engine} {request : Request} {id path : String}

theorem answer_saveFlow (h : request.route? = some .saveFlow) :
    answer engine request = saveFlow engine request := by
  rw [answer, h]

theorem answer_archiveFlow (h : request.route? = some (.archiveFlow id)) :
    answer engine request = archiveFlow engine id := by
  rw [answer, h]

theorem answer_getFlow (h : request.route? = some (.getFlow id)) :
    answer engine request = getFlow engine id := by
  rw [answer, h]

theorem answer_startRun (h : request.route? = some (.startRun id)) :
    answer engine request = startRun engine id request := by
  rw [answer, h]

theorem answer_hook (h : request.route? = some (.hook path)) :
    answer engine request = receiveHook engine path request := by
  rw [answer, h]

end Answer

theorem observes_answer (engine : Engine) {request : Request}
    (h : ∀ route ∈ request.route?, route.isLookup = true) : (answer engine request).Observes := by
  unfold answer
  cases hroute : request.route? with
  | none => exact .pure _
  | some route =>
      have hlookup := h route hroute
      cases route with
      | saveFlow => cases hlookup
      | archiveFlow id => cases hlookup
      | startRun flowId => cases hlookup
      | hook path => cases hlookup
      | health => exact .pure _
      | events => exact .pure _
      | nodeTypes => exact .pure _
      | listFlows =>
          refine (Library.observes_listFrom _ _ _ _ _).bind fun listed => ?_
          cases listed <;> exact .pure _
      | getFlow id =>
          refine (Library.observes_get? _ id).bind fun got => ?_
          rcases got with e | found
          · exact .pure _
          · cases found <;> exact .pure _
      | listRuns flowId =>
          refine Asks.bind (Asks.bind (Ledger.observes_listRuns _ flowId) fun runs => ?_)
            fun listed => ?_
          · cases runs <;> exact .pure _
          · cases listed <;> exact .pure _
      | getRun id =>
          refine (Ledger.observes_getRun _ id).bind fun run => ?_
          cases run <;> exact .pure _
      | listRunSteps runId =>
          refine Asks.bind (Asks.bind (Ledger.observes_listSteps _ runId) fun steps => ?_)
            fun listed => ?_
          · cases steps <;> exact .pure _
          · cases listed <;> exact .pure _

end Api

/-! ## Starting runs -/

/-- The run is a queued one of the flow, and one that the flow does not refuse. -/
structure Run.Begins (run : Run) (flow : Flow) : Prop where
  queued : run = { Run.queued flow.id run.triggerType run.testMode run.startedAt with id := run.id }
  allowed : ¬ flow.Refuses run.testMode

/-- The action looks something up, or it has to do with a run of one of the flows that begins. -/
def Action.Starts (engine : Engine) (flows : List Flow) : Action → Prop
  | .create collection data => collection = engine.settings.ledger.runs ∧
      ∃ flow ∈ flows, ∃ (run : Run) (input : Json), run.Begins flow ∧ data = run.toRecord input
  | .dispatch run flow _ => flow ∈ flows ∧ run.Begins flow
  | action => action.observes = true

section Starting

variable {engine : Engine} {flows : List Flow} {flow : Flow} {t : Transcript}
  {store store' : MemoryStore}

theorem Action.starts_of_observes {action : Action} (h : action.observes = true) :
    action.Starts engine flows := by
  cases action <;> first | exact h | cases h

theorem Action.Starts.spares {action : Action} (h : action.Starts engine flows)
    {collection : String} (hruns : engine.settings.ledger.runs ≠ collection) :
    action.written? ≠ some collection := by
  cases action with
  | create other data =>
      rintro ⟨⟩
      exact hruns h.1.symm
  | dispatch run flow input => exact (Option.some_ne_none collection).symm
  | update other id data => cases h
  | _ =>
      rw [written?_of_observes h]
      exact (Option.some_ne_none collection).symm

theorem Program.Observes.starts {α : Type} {p : Program α} {a : α} (hp : p.Observes)
    (h : p.Leads t a) : ∀ exchange ∈ t, exchange.action.Starts engine flows :=
  fun exchange hmem => Action.starts_of_observes (hp.forall_mem h exchange hmem)

theorem Engine.starts_startRun {triggerType : TriggerType} {input : Json} {testMode : Bool}
    {started : Except FlowError (Run × Nat)} (hflow : flow ∈ flows)
    (h : (engine.startRun flow triggerType input testMode).Leads t started) :
    ∀ exchange ∈ t, exchange.action.Starts engine flows := by
  have hbegins : ∀ {run : Run}, ¬ flow.Refuses testMode →
      run = .queued flow.id triggerType testMode run.startedAt → ∀ id,
        { run with id }.Begins flow := by
    intro run hallowed hrun id
    rw [hrun]
    exact ⟨rfl, hallowed⟩
  cases Program.leads_startRun h with
  | refused => exact List.forall_mem_nil _
  | @unnamed run _ _ hallowed hrun _ =>
      exact List.forall_mem_cons.mpr ⟨rfl, List.forall_mem_singleton.mpr
        ⟨rfl, flow, hflow, run, input, hbegins hallowed hrun run.id, rfl⟩⟩
  | @named run _ id _ _ hallowed hrun _ hrest =>
      obtain ⟨task, rfl, -⟩ := hrest
      refine List.forall_mem_cons.mpr ⟨rfl, List.forall_mem_cons.mpr
        ⟨⟨rfl, flow, hflow, run, input, hbegins hallowed hrun run.id, rfl⟩, ?_⟩⟩
      exact List.forall_mem_singleton.mpr ⟨hflow, hbegins hallowed hrun id⟩

theorem Library.deeds_save {result : Except StoreError Flow}
    (h : (engine.settings.library.save flow).Leads t result) :
    ∀ exchange ∈ t, exchange.action.Starts engine flows ∨
      exchange.action.written? = some engine.settings.library.collection := by
  obtain ⟨first, existing, hfirst, hwrite⟩ := Library.leads_save h
  have hlookup : ∀ exchange ∈ first, exchange.action.Starts engine flows ∨
      exchange.action.written? = some engine.settings.library.collection := fun exchange hmem =>
    Or.inl ((Library.observes_existing? _ flow).starts hfirst exchange hmem)
  rcases existing with e | old
  · rwa [hwrite.1]
  · cases old <;> obtain ⟨saved, reply, -, rfl, -⟩ := hwrite <;>
      exact List.forall_mem_append.mpr ⟨hlookup, List.forall_mem_singleton.mpr (Or.inr rfl)⟩

namespace Api

theorem Request.le_status_refusal (request : Request) : 400 ≤ request.refusal.status := by
  unfold Request.refusal
  split <;> decide

theorem starts_startAll {input : Json} {listeners : List Flow} {ids : List String}
    (hlisteners : ∀ flow ∈ listeners, flow ∈ flows)
    (h : (startAll engine input listeners).Leads t ids) :
    ∀ exchange ∈ t, exchange.action.Starts engine flows := by
  induction listeners generalizing t ids with
  | nil =>
      obtain ⟨rfl, -⟩ := Program.leads_pure.mp h
      exact List.forall_mem_nil _
  | cons flow rest ih =>
      obtain ⟨hflow, hrest⟩ := List.forall_mem_cons.mp hlisteners
      obtain ⟨first, others, started, rfl, hstart, h₁⟩ := Program.leads_bind.mp h
      obtain ⟨later, last, ids', rfl, hlater, h₂⟩ := Program.leads_bind.mp h₁
      have hlast : last = [] := by
        cases started <;> exact (Program.leads_pure.mp h₂).1
      rw [hlast, List.append_nil]
      exact List.forall_mem_append.mpr ⟨Engine.starts_startRun hflow hstart, ih hrest hlater⟩

theorem starts_receiveHook {path : String} {request : Request} {response : Response}
    (hholds : engine.settings.library.Holds store flows)
    (h : (receiveHook engine path request).Leads t response)
    (hbeside : t.Beside engine.settings.library.collection store store') :
    ∀ exchange ∈ t, exchange.action.Starts engine flows := by
  unfold receiveHook at h
  dsimp only at h
  split at h
  · rw [(Program.leads_pure.mp h).1]
    exact List.forall_mem_nil _
  cases hinput : hookInput? request with
  | none =>
      rw [hinput] at h
      rw [(Program.leads_pure.mp h).1]
      exact List.forall_mem_nil _
  | some input =>
      rw [hinput] at h
      obtain ⟨first, rest, listed, rfl, hlist, h₁⟩ := Program.leads_bind.mp h
      obtain ⟨between, hbefore, -⟩ := Transcript.beside_append.mp hbeside
      refine List.forall_mem_append.mpr ⟨(Library.observes_listFrom _ _ _ _ _).starts hlist, ?_⟩
      cases listed with
      | error e =>
          rw [(Program.leads_pure.mp h₁).1]
          exact List.forall_mem_nil _
      | ok active =>
          have hactive := hholds.active_of_listFrom Library.condition_active
            (List.forall_mem_nil _) hlist hbefore
          dsimp only at h₁
          split at h₁
          · rw [(Program.leads_pure.mp h₁).1]
            exact List.forall_mem_nil _
          · obtain ⟨started, last, ids, rfl, hstarted, h₂⟩ := Program.leads_bind.mp h₁
            rw [(Program.leads_pure.mp h₂).1, List.append_nil]
            refine starts_startAll ?_ hstarted
            intro flow hflow
            exact (hactive flow (List.mem_of_mem_filter hflow)).1

/-- What is asked and answered behind the start of a run that a request wants. -/
inductive Started (wanted : StartRequest) :
    Except FlowError (Run × Nat) → Transcript → Response → Prop where
  | refused {e : FlowError} : Started wanted (.error e) [] (failure e)
  | awaited {run : Run} {task : Nat} {report : Except FlowError RunReport} : wanted.wait = true →
      Started wanted (.ok (run, task)) [⟨.await task, report⟩] (outcome report)
  | underway {run : Run} {task : Nat} : wanted.wait = false →
      Started wanted (.ok (run, task)) [] (.ok 202 run.toJson)

theorem Started.observes {wanted : StartRequest} {rest : Transcript} {response : Response}
    {started : Except FlowError (Run × Nat)} (h : Started wanted started rest response) :
    ∀ exchange ∈ rest, exchange.action.observes = true := by
  cases h with
  | awaited => exact List.forall_mem_singleton.mpr rfl
  | _ => exact List.forall_mem_nil _

theorem leads_startRun {id : String} {request : Request} {response : Response}
    (h : (startRun engine id request).Leads t response) :
    ∃ first got rest, t = first ++ rest ∧ (engine.settings.library.get? id).Leads first got ∧
      match got with
      | .error e => rest = [] ∧ response = failure (.store e)
      | .ok none => rest = [] ∧ response = flowNotFound id
      | .ok (some flow) => ∃ (wanted : StartRequest) (begun last : Transcript)
          (started : Except FlowError (Run × Nat)),
        wanted = StartRequest.ofRequest request ∧ rest = begun ++ last ∧
        (engine.startRun flow (wanted.triggerType.getD .manual) (wanted.input.getD (.object []))
          wanted.testMode).Leads begun started ∧
        Started wanted started last response := by
  obtain ⟨first, rest, got, rfl, hget, h₁⟩ := Program.leads_bind.mp h
  refine ⟨first, got, rest, rfl, hget, ?_⟩
  rcases got with e | found
  · exact Program.leads_pure.mp h₁
  cases found with
  | none => exact Program.leads_pure.mp h₁
  | some flow =>
      obtain ⟨begun, last, started, rfl, hstart, h₂⟩ := Program.leads_bind.mp h₁
      refine ⟨_, begun, last, started, rfl, rfl, hstart, ?_⟩
      rcases started with e | ⟨run, task⟩
      · obtain ⟨rfl, rfl⟩ := Program.leads_pure.mp h₂
        exact .refused
      · dsimp only at h₂
        split at h₂
        · next hwait =>
            obtain ⟨report, last', rfl, h₃⟩ := Program.leads_perform_bind.mp h₂
            obtain ⟨rfl, rfl⟩ := Program.leads_pure.mp h₃
            exact .awaited hwait
        · next hwait =>
            obtain ⟨rfl, rfl⟩ := Program.leads_pure.mp h₂
            exact .underway (Bool.eq_false_iff.mpr hwait)

theorem starts_startRun {id : String} {request : Request} {response : Response}
    (hholds : engine.settings.library.Holds store flows)
    (h : (startRun engine id request).Leads t response)
    (hbeside : t.Beside engine.settings.library.collection store store') :
    ∀ exchange ∈ t, exchange.action.Starts engine flows := by
  obtain ⟨first, got, rest, rfl, hget, hrest⟩ := leads_startRun h
  obtain ⟨between, hbefore, -⟩ := Transcript.beside_append.mp hbeside
  refine List.forall_mem_append.mpr ⟨(Library.observes_get? _ id).starts hget, ?_⟩
  rcases got with e | found
  · rw [hrest.1]
    exact List.forall_mem_nil _
  cases found with
  | none =>
      rw [hrest.1]
      exact List.forall_mem_nil _
  | some flow =>
      obtain ⟨wanted, begun, last, started, -, rfl, hstart, hlast⟩ := hrest
      have hfound := (Except.ok.inj (hholds.got hget hbefore)).symm
      exact List.forall_mem_append.mpr
        ⟨Engine.starts_startRun (List.mem_of_find?_eq_some hfound) hstart,
          fun exchange hmem => Action.starts_of_observes (hlast.observes exchange hmem)⟩

end Api

namespace Schedule

theorem leads_startEntry {entry : Entry} {result : Except FlowError (Option Run)}
    (h : (startEntry engine entry).Leads t result) :
    ∃ first got rest, t = first ++ rest ∧
      (engine.settings.library.get? entry.flowId).Leads first got ∧
      (rest = [] ∨ ∃ flow input asked begun started, got = .ok (some flow) ∧
        flow.isActive = true ∧ rest = asked ++ begun ∧
        (∀ exchange ∈ asked, exchange.action.observes = true) ∧
        (engine.startRun flow .cron input false).Leads begun started) := by
  obtain ⟨first, rest, got, rfl, hget, h₁⟩ := Program.leads_bind.mp h
  refine ⟨first, got, rest, rfl, hget, ?_⟩
  rcases got with e | found
  · exact Or.inl (Program.leads_pure.mp h₁).1
  cases found with
  | none => exact Or.inl (Program.leads_pure.mp h₁).1
  | some flow =>
      -- What is done behind the start of the run asks nothing.
      have hbegun : ∀ {input : Json} {rest : Transcript}
          {next : Except FlowError (Run × Nat) → Program (Except FlowError (Option Run))},
          (∀ started, ∃ done, next started = pure done) →
          (Engine.startRun engine flow .cron input false >>= next).Leads rest result →
          ∃ started, (engine.startRun flow .cron input false).Leads rest started := by
        intro input rest next hnext hstart
        obtain ⟨begun, last, started, rfl, hbegun, hlast⟩ := Program.leads_bind.mp hstart
        obtain ⟨done, hdone⟩ := hnext started
        rw [hdone] at hlast
        rw [(Program.leads_pure.mp hlast).1, List.append_nil]
        exact ⟨started, hbegun⟩
      dsimp only at h₁
      split at h₁
      · exact Or.inl (Program.leads_pure.mp h₁).1
      · next hactive =>
          have hactive' : flow.isActive = true := by simpa using hactive
          right
          split at h₁
          · next payload _ =>
              obtain ⟨started, hstarted⟩ := hbegun (by rintro (e | ⟨run, _⟩) <;> exact ⟨_, rfl⟩) h₁
              exact ⟨flow, payload, [], rest, started, rfl, hactive', rfl, List.forall_mem_nil _,
                hstarted⟩
          · obtain ⟨asked, begun, input, rfl, hnow, h₂⟩ := Program.leads_bind.mp h₁
            obtain ⟨started, hstarted⟩ := hbegun (by rintro (e | ⟨run, _⟩) <;> exact ⟨_, rfl⟩) h₂
            have hobserves : (defaultInput <$> Program.now).Observes :=
              (Observes.perform rfl).bind fun _ => .pure _
            exact ⟨flow, input, asked, begun, started, rfl, hactive', rfl,
              hobserves.forall_mem hnow, hstarted⟩

theorem starts_startEntry {entry : Entry} {result : Except FlowError (Option Run)}
    (hholds : engine.settings.library.Holds store flows)
    (h : (startEntry engine entry).Leads t result)
    (hbeside : t.Beside engine.settings.library.collection store store') :
    ∀ exchange ∈ t, exchange.action.Starts engine flows := by
  obtain ⟨first, got, rest, rfl, hget, hrest⟩ := leads_startEntry h
  obtain ⟨between, hbefore, -⟩ := Transcript.beside_append.mp hbeside
  refine List.forall_mem_append.mpr ⟨(Library.observes_get? _ _).starts hget, ?_⟩
  rcases hrest with rfl | ⟨flow, input, asked, begun, started, rfl, -, rfl, hasked, hbegun⟩
  · exact List.forall_mem_nil _
  · have hfound := (Except.ok.inj (hholds.got hget hbefore)).symm
    exact List.forall_mem_append.mpr
      ⟨fun exchange hmem => Action.starts_of_observes (hasked exchange hmem),
        Engine.starts_startRun (List.mem_of_find?_eq_some hfound) hbegun⟩

end Schedule

end Starting

/-! ## What becomes of the flows -/

namespace Service

open Api (Route)
open Library (Filed archiving nextVersion)

/-- The occasion is a request that writes to the library. -/
def Occasion.edits : Occasion → Bool
  | .request asked _ => asked.route?.any Route.edits
  | _ => false

/-- What an occasion may make of the flows that are held. -/
inductive Occasion.Alters : Occasion → List Flow → List Flow → Prop where
  /-- Whatever does not write to the library leaves them as they are. -/
  | kept {occasion : Occasion} {flows : List Flow} :
      occasion.edits = false → Alters occasion flows flows
  /-- A request to save that is refused leaves them as they are. -/
  | refused {asked : Api.Request} {response : Api.Response} {flows : List Flow} :
      asked.route? = some .saveFlow → 400 ≤ response.status →
      Alters (.request asked response) flows flows
  /-- A canvas that passes is filed under the identifier that is answered. -/
  | saved {asked : Api.Request} {flow saved : Flow} {old : Option Flow} {status : Nat}
      {flows flows' : List Flow} :
      asked.route? = some .saveFlow → asked.document?.bind Api.decodeFlow? = some flow →
      flow.canvas.validate = .ok () →
      saved = { flow with id := saved.id, version := nextVersion old } →
      Filed saved old flows flows' → status = 200 ∨ status = 201 →
      Alters (.request asked (.ok status (.record
        [("id", .string saved.id), ("version", .ofNat saved.version.toNat)]))) flows flows'
  /-- A flow is archived, and the answer tells whether there was one. -/
  | archived {asked : Api.Request} {response : Api.Response} {id : String} {flows : List Flow} :
      asked.route? = some (.archiveFlow id) →
      (response.status = 200 ↔ ∃ flow ∈ flows, flow.id = id) →
      Alters (.request asked response) flows (archiving id flows)

variable {engine : Engine} {flows : List Flow} {t : Transcript} {store store' : MemoryStore}
  {occasion : Occasion}

/-- An occasion that does not write to the library looks things up, or starts runs of flows that are
held. -/
theorem Occasion.starts (hoccasion : occasion.Leads engine t) (hkept : occasion.edits = false)
    (hholds : engine.settings.library.Holds store flows)
    (hbeside : t.Beside engine.settings.library.collection store store') :
    ∀ exchange ∈ t, exchange.action.Starts engine flows := by
  cases occasion with
  | reload reader table loaded =>
      have hreload : (Schedule.reload reader engine.settings.library table).Leads t loaded :=
        hoccasion
      exact (Schedule.observes_reload reader _ table).starts hreload
  | firing entry started =>
      have hfiring : (Schedule.startEntry engine entry).Leads t started := hoccasion
      exact Schedule.starts_startEntry hholds hfiring hbeside
  | request asked response =>
      have hanswer : (Api.answer engine asked).Leads t response := hoccasion
      have hlookup : (∀ route ∈ asked.route?, route.isLookup = true) →
          ∀ exchange ∈ t, exchange.action.Starts engine flows := by
        intro hroutes
        exact (Api.observes_answer engine hroutes).starts hanswer
      unfold Api.answer at hanswer
      cases hroute : asked.route? with
      | none => exact hlookup (by simp [hroute])
      | some route =>
          rw [edits, hroute, Option.any_some] at hkept
          rw [hroute] at hanswer
          cases route with
          | saveFlow => cases hkept
          | archiveFlow id => cases hkept
          | startRun id => exact Api.starts_startRun hholds hanswer hbeside
          | hook path => exact Api.starts_receiveHook hholds hanswer hbeside
          | _ => exact hlookup (by simp [hroute, Route.isLookup])

/-- A request to save is refused before anything is asked, or the library is asked to save. -/
theorem leads_saveFlow {asked : Api.Request} {response : Api.Response}
    (h : (Api.saveFlow engine asked).Leads t response) :
    t = [] ∧ 400 ≤ response.status ∨
      ∃ flow result, asked.document?.bind Api.decodeFlow? = some flow ∧
        flow.canvas.validate = .ok () ∧ (engine.settings.library.save flow).Leads t result ∧
        match result with
        | .error e => response = Api.failure (.store e)
        | .ok saved => response = .ok (if saved.version = 1 then 201 else 200)
            (.record [("id", .string saved.id), ("version", .ofNat saved.version.toNat)]) := by
  unfold Api.saveFlow at h
  cases hflow : asked.document?.bind Api.decodeFlow? with
  | none =>
      rw [hflow] at h
      obtain ⟨rfl, rfl⟩ := Program.leads_pure.mp h
      exact Or.inl ⟨rfl, asked.le_status_refusal⟩
  | some flow =>
      rw [hflow] at h
      dsimp only at h
      cases hvalid : flow.canvas.validate with
      | error e =>
          rw [hvalid] at h
          obtain ⟨rfl, rfl⟩ := Program.leads_pure.mp h
          exact Or.inl ⟨rfl, Nat.le_refl 400⟩
      | ok u =>
          rw [hvalid] at h
          obtain ⟨first, rest, result, rfl, hsave, h₁⟩ := Program.leads_bind.mp h
          cases result with
          | error e =>
              obtain ⟨rfl, rfl⟩ := Program.leads_pure.mp h₁
              exact Or.inr ⟨flow, .error e, rfl, hvalid, by rwa [List.append_nil], rfl⟩
          | ok saved =>
              obtain ⟨rfl, rfl⟩ := Program.leads_pure.mp h₁
              exact Or.inr ⟨flow, .ok saved, rfl, hvalid, by rwa [List.append_nil], rfl⟩

theorem tidy_of_saving {asked : Api.Request} {flow : Flow}
    (h : asked.document?.bind Api.decodeFlow? = some flow) : flow.canvas.Tidy := by
  obtain ⟨d, hd, hdecode⟩ := Option.bind_eq_some_iff.mp h
  exact Api.tidy_of_decodeFlow? (Api.Request.tidy_of_document? hd) hdecode

def archived (id : String) : Except StoreError Bool → Api.Response
  | .error e => Api.failure (.store e)
  | .ok false => Api.flowNotFound id
  | .ok true => .ok 200 (.object [("message", .string "Flow archived")])

theorem leads_archiveFlow {id : String} {response : Api.Response}
    (h : (Api.archiveFlow engine id).Leads t response) :
    ∃ result, (engine.settings.library.archive id).Leads t result ∧
      response = archived id result := by
  obtain ⟨first, rest, result, rfl, harchive, h₁⟩ := Program.leads_bind.mp h
  refine ⟨result, ?_⟩
  rcases result with e | found
  · obtain ⟨rfl, rfl⟩ := Program.leads_pure.mp h₁
    exact ⟨by rwa [List.append_nil], rfl⟩
  · cases found <;> obtain ⟨rfl, rfl⟩ := Program.leads_pure.mp h₁ <;>
      exact ⟨by rwa [List.append_nil], rfl⟩

theorem archived_status_eq_ok {id : String} :
    (archived id (.ok (flows.any fun flow => flow.id == id))).status = 200 ↔
      ∃ flow ∈ flows, flow.id = id := by
  have hany : (flows.any fun flow => flow.id == id) = true ↔ ∃ flow ∈ flows, flow.id = id := by
    simp only [List.any_eq_true, beq_iff_eq]
  rw [← hany]
  cases flows.any fun flow => flow.id == id with
  | false => exact iff_of_false (show ¬ 404 = 200 by decide) Bool.false_ne_true
  | true => exact iff_of_true rfl rfl

/-- An occasion that writes to the library is a request to save a flow, or to archive one. -/
theorem Occasion.eq_request_of_edits (hoccasion : occasion.Leads engine t)
    (hedits : occasion.edits = true) :
    ∃ asked response, occasion = .request asked response ∧
      (asked.route? = some .saveFlow ∧ (Api.saveFlow engine asked).Leads t response ∨
        ∃ id, asked.route? = some (.archiveFlow id) ∧
          (Api.archiveFlow engine id).Leads t response) := by
  cases occasion with
  | reload table loaded => cases hedits
  | firing entry started => cases hedits
  | request asked response =>
      have hanswer : (Api.answer engine asked).Leads t response := hoccasion
      unfold Api.answer at hanswer
      refine ⟨asked, response, rfl, ?_⟩
      cases hroute : asked.route? with
      | none =>
          rw [edits, hroute] at hedits
          cases hedits
      | some route =>
          rw [edits, hroute, Option.any_some] at hedits
          rw [hroute] at hanswer
          cases route with
          | saveFlow => exact Or.inl ⟨rfl, hanswer⟩
          | archiveFlow id => exact Or.inr ⟨id, rfl, hanswer⟩
          | _ => cases hedits

/-- All that is done on an occasion: runs of flows that are held begin, or the library is written
to. -/
theorem Occasion.deeds (hoccasion : occasion.Leads engine t)
    (hholds : engine.settings.library.Holds store flows)
    (hbeside : t.Beside engine.settings.library.collection store store') :
    ∀ exchange ∈ t, exchange.action.Starts engine flows ∨
      exchange.action.written? = some engine.settings.library.collection := by
  cases hedits : occasion.edits with
  | false =>
      have hstarts := occasion.starts hoccasion hedits hholds hbeside
      exact fun exchange hmem => Or.inl (hstarts exchange hmem)
  | true =>
      obtain ⟨asked, response, rfl, ⟨-, hsaving⟩ | ⟨id, -, harchiving⟩⟩ :=
        occasion.eq_request_of_edits hoccasion hedits
      · rcases leads_saveFlow hsaving with ⟨rfl, -⟩ | ⟨flow, result, -, -, hsave, -⟩
        · exact List.forall_mem_nil _
        · exact Library.deeds_save hsave
      · obtain ⟨result, harchive, -⟩ := leads_archiveFlow harchiving
        rw [Library.archive_eq] at harchive
        obtain ⟨reply, rest, rfl, hrest⟩ := Program.leads_act.mp harchive
        rw [(Program.leads_pure.mp hrest).1]
        exact List.forall_mem_singleton.mpr (Or.inr rfl)

/-- What a request that writes to the library does to the flows that are held. -/
theorem Occasion.alters_of_edits (hoccasion : occasion.Leads engine t)
    (hedits : occasion.edits = true) (hholds : engine.settings.library.Holds store flows)
    (hbeside : t.Beside engine.settings.library.collection store store') :
    ∃ flows', occasion.Alters flows flows' ∧
      engine.settings.library.Holds store' flows' := by
  obtain ⟨asked, response, rfl, ⟨hroute, hsaving⟩ | ⟨id, hroute, harchiving⟩⟩ :=
    occasion.eq_request_of_edits hoccasion hedits
  · rcases leads_saveFlow hsaving with
      ⟨rfl, hstatus⟩ | ⟨flow, result, hflow, hvalid, hsave, hresponse⟩
    · exact ⟨flows, .refused hroute hstatus, hholds.of_records hbeside⟩
    rcases hholds.saved (tidy_of_saving hflow) hsave hbeside with
      ⟨⟨e, rfl⟩, hkept⟩ | ⟨old, saved, flows', rfl, hsaved, -, hfiled, hholds'⟩
    · refine ⟨flows, .refused hroute ?_, hkept⟩
      rw [hresponse]
      exact Nat.le_of_ble_eq_true rfl
    · have hstatus : ∀ p : Prop, [Decidable p] →
          (if p then 201 else 200) = 200 ∨ (if p then 201 else 200) = 201 := by
        intro p _
        split <;> simp
      refine ⟨flows', ?_, hholds'⟩
      rw [hresponse]
      exact .saved hroute hflow hvalid hsaved hfiled (hstatus _)
  · obtain ⟨result, harchive, hresponse⟩ := leads_archiveFlow harchiving
    obtain ⟨rfl, hholds'⟩ := hholds.archivedBeside harchive hbeside
    rw [hresponse]
    exact ⟨archiving id flows, .archived hroute archived_status_eq_ok, hholds'⟩

theorem Occasion.alters (hoccasion : occasion.Leads engine t)
    (hruns : engine.settings.ledger.runs ≠ engine.settings.library.collection)
    (hholds : engine.settings.library.Holds store flows)
    (hbeside : t.Beside engine.settings.library.collection store store') :
    ∃ flows', occasion.Alters flows flows' ∧
      engine.settings.library.Holds store' flows' := by
  cases hedits : occasion.edits with
  | false =>
      have hstarts := occasion.starts hoccasion hedits hholds hbeside
      have hrecords := hbeside.frame fun exchange hmem => (hstarts exchange hmem).spares hruns
      exact ⟨flows, .kept hedits, hholds.of_records hrecords⟩
  | true => exact occasion.alters_of_edits hoccasion hedits hholds hbeside

/-- What each occasion keeps of the flows that are held is kept in the course of a history. -/
theorem History.invariant {first service : Service} {past : List (Occasion × Transcript)}
    (h : History engine first past service)
    (hengine : engine.Spares engine.settings.library.collection)
    (hspares : first.Spares engine.settings.library.collection)
    (hholds : engine.settings.library.Holds first.store flows) {P : List Flow → Prop}
    (hfirst : P flows)
    (hstep : ∀ pair ∈ past, ∀ flows flows', P flows → pair.1.Alters flows flows' → P flows') :
    service.Spares engine.settings.library.collection ∧
      ∃ flows', engine.settings.library.Holds service.store flows' ∧ P flows' := by
  induction h with
  | start => exact ⟨hspares, flows, hholds, hfirst⟩
  | works _ hworks ih =>
      obtain ⟨hspared, flows', hheld, hkept⟩ := ih hstep
      obtain ⟨hrecords, hspared'⟩ := hworks.spares hspared
      exact ⟨hspared', flows', hheld.of_records hrecords, hkept⟩
  | @next past service service' occasion t _ hoccasion hpasses ih =>
      rw [List.forall_mem_append, List.forall_mem_singleton] at hstep
      obtain ⟨hspared, flows', hheld, hkept⟩ := ih hstep.1
      obtain ⟨hbeside, hspared'⟩ := hpasses.beside hengine hspared
      obtain ⟨flows'', halters, hheld'⟩ := occasion.alters hoccasion hengine.runs hheld hbeside
      exact ⟨hspared', flows'', hheld', hstep.2 flows' flows'' hkept halters⟩

end Service

end FlowEngine
