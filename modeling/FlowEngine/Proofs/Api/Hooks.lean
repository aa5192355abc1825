import FlowEngine.Proofs.Api.Archived
import FlowEngine.Proofs.Execution.Calls
import FlowEngine.Proofs.Library.Catalogue
/-!
# `FlowEngine.Proofs.Api.Hooks` — a hook starts the flows that listen on its path, and no others

A call of a hook lists the active flows and starts a run of each that listens on the path, in the
order of the listing.  Runs that go on in the background may get between any two of its calls on the
store; as long as they leave the flows alone, the listing is the one that an undisturbed library
gives (`Holds.leads_listActive`).  Once the first run has been sent on its way, nothing more is read.

An active flow refuses no run, and a store in memory turns no run away unless the identifier that it
gives out is in use.  So every listener gets its run: `Passes.starts` says it of one flow,
`Passes.startsAll` of a list of them, by induction on the list.
-/

namespace FlowEngine

open Program (Leads)

/-! ## Listing while others are at work -/

namespace Transcript

variable {collection : String} {t : Transcript} {store store' : MemoryStore}

theorem writes_of_observes (hobserves : ∀ exchange ∈ t, exchange.action.observes = true)
    (collection : String) : writes collection t = [] := by
  refine writes_eq_nil ?_
  intro exchange hmem
  rw [Action.written?_of_observes (hobserves exchange hmem)]
  exact (Option.some_ne_none collection).symm

/-- Who has the store for itself and only looks finds it unchanged. -/
theorem Keeps.observed (h : t.Keeps store store')
    (hobserves : ∀ exchange ∈ t, exchange.action.observes = true) : store' = store := by
  induction t generalizing store with
  | nil => exact h
  | cons exchange rest ih =>
      obtain ⟨hfirst, hlater⟩ := List.forall_mem_cons.mp hobserves
      exact (ih h.2 hlater).trans (Action.after_of_observes hfirst exchange.reply store)

/-- Pages of a collection that is left alone meanwhile are pages of what is in the store, if what is
listed can be sorted: however the store goes about it, there is one order of it. -/
theorem Beside.listed (h : t.Beside collection store store')
    (hobserves : ∀ exchange ∈ t, exchange.action.observes = true) {query : ListQuery}
    {reply : Except StoreError RecordPage}
    (hmem : (⟨.list collection query, reply⟩ : Exchange) ∈ t)
    {condition : Option Condition.Expr}
    (hfilter : MemoryStore.condition query.filter = .ok condition)
    (hsortable : ∀ text ∈ query.sort,
      Store.Sortable (Store.sortKeys text) (store.select collection condition none)) :
    reply = store.list collection query := by
  induction t generalizing store with
  | nil => cases hmem
  | cons exchange rest ih =>
      obtain ⟨met, hmet, hanswered, hrest⟩ := h
      obtain ⟨hfirst, hlater⟩ := List.forall_mem_cons.mp hobserves
      have hsame : ∀ condition, met.select collection condition none =
          store.select collection condition none := by
        intro condition
        simp only [MemoryStore.select, hmet]
      have hselect : met.select collection condition query.sort =
          store.select collection condition query.sort := by
        cases hsort : query.sort with
        | none => exact hsame condition
        | some text =>
            show met.sorting.sort _ (met.select collection condition none) = _
            rw [hsame condition]
            exact met.sorting.sort_congr store.sorting (hsortable text hsort)
      have hlist : met.list collection query = store.list collection query := by
        simp only [MemoryStore.list, hfilter, hselect]
      rcases List.mem_cons.mp hmem with rfl | hmem
      · exact (hanswered rfl).trans hlist
      · rw [show met.after exchange = met from Action.after_of_observes hfirst exchange.reply met]
          at hrest
        exact ih (hrest.shift hmet) hlater hmem hsortable

end Transcript

namespace Library

variable {library : Library} {store store' : MemoryStore} {flows : List Flow} {t : Transcript}

/-- Nobody who lists the active flows notices what is done meanwhile elsewhere. -/
theorem Holds.leads_listActive (h : library.Holds store flows)
    (hlistable : Listable (flows.filter Flow.isActive))
    {result : Except StoreError (List Flow)} (hleads : Leads library.listActive t result)
    (hbeside : t.Beside library.collection store store') (clock : Clock) (n : Nat) :
    ∃ listed : List Flow, listed.Perm (flows.filter Flow.isActive) ∧
      library.listActive.runWith (withClock clock MemoryStore.answer) (n, store) =
        (.ok listed, (n, store)) ∧
      result = .ok listed := by
  obtain ⟨listed, hperm, hstored, hruns⟩ := h.listActive hlistable.numbered clock n
  have hsortable : ∀ text ∈ some "+name", Store.Sortable (Store.sortKeys text)
      (store.select library.collection
        (some (.compare .eq (.path ["status"]) (.text "active"))) none) := by
    intro text htext
    obtain rfl := Option.some.inj htext
    rw [h.select_active]
    exact hlistable.sortable
  refine ⟨listed, hperm, hruns, ?_⟩
  have hobserves : ∀ exchange ∈ t, exchange.action.observes = true :=
    (observes_listFrom _ _ _ _ _).forall_mem hleads
  have hcut : Cut library (some "status = \"active\"") 200 (listed.map Flow.stored) t := by
    intro k reply hk hmem
    rw [hbeside.listed hobserves hmem condition_active hsortable, hstored,
      ← h.select_active_sorted]
    exact list_pageQuery condition_active (UInt32.toNat_ofNat_of_lt' hk)
  have hexact : ∀ flow ∈ listed, flow.Exact := by
    intro flow hflow
    exact h.exact flow (List.mem_filter.mp (hperm.mem_iff.mp hflow)).1
  have hroom : (listed.map Flow.stored).length ≤ 200 * (maxPages - 1) := by
    rw [List.length_map, hperm.length_eq]
    exact hlistable.numbered
  have hread : ([] : List Flow).length = min (0 * 200) (listed.map Flow.stored).length := by simp
  obtain ⟨-, -, -, hresult⟩ := leads_listFrom (by decide) hroom (by decide)
    (Nat.le_add_right _ _) hread hleads hcut
  exact hresult listed (ofRecord?_map_stored hexact) (by simp)

end Library

/-! ## Who listens, and to what -/

/-- The run begins at a hook node of the flow that has this path, slashes at the ends apart. -/
def Flow.ListensOn (flow : Flow) (path : String) : Prop :=
  ∃ node text, flow.canvas.trigger? = some node ∧ node.kind = Trigger.webhookKind ∧
    Json.lookup "path" node.config = some (.string text) ∧
    Text.trimChar '/' text = Text.trimChar '/' path

namespace Api

variable {request : Request} {input : Json}

theorem hookPath?_beq_iff {flow : Flow} {path : String} :
    (hookPath? flow == some (Text.trimChar '/' path)) = true ↔ flow.ListensOn path := by
  rw [beq_iff_eq, hookPath?, Flow.ListensOn]
  cases flow.canvas.trigger? with
  | none => simp
  | some node =>
      by_cases hkind : node.kind = Trigger.webhookKind
      · simp [hkind, Option.bind_eq_some_iff, Json.text?_eq_some_iff]
      · simp [hkind]

/-- The request has a body that is not empty, of this text. -/
def Request.Says (request : Request) (text : String) : Prop :=
  text ≠ "" ∧ ∃ body, request.body = some body ∧ body.text = text

/-- The data that a hook is called with: what the body says, or an empty object without a body. -/
inductive Request.CallsWith (request : Request) : Json → Prop where
  | empty : (∀ text, ¬ request.Says text) → CallsWith request (.object [])
  | said {text : String} {input : Json} :
      request.Says text → Json.parse? text = some input → CallsWith request input

theorem hookInput?_of_body {text : String} (h : request.Says text) :
    hookInput? request = Json.parse? text := by
  obtain ⟨hne, body, hbody, rfl⟩ := h
  simp [hookInput?, hbody, hne]

theorem hookInput?_of_no_body (h : ∀ text, ¬ request.Says text) :
    hookInput? request = some (.object []) := by
  cases hbody : request.body with
  | none => simp [hookInput?, hbody]
  | some body =>
      have hempty : body.text = "" := by
        by_contra hne
        exact h body.text ⟨hne, body, hbody, rfl⟩
      simp [hookInput?, hbody, hempty]

theorem Request.CallsWith.hookInput? (h : request.CallsWith input) :
    Api.hookInput? request = some input := by
  cases h with
  | empty hsilent => exact hookInput?_of_no_body hsilent
  | said hsays hread => exact (hookInput?_of_body hsays).trans hread

end Api

/-! ## Starting the listeners -/

theorem Flow.not_refuses {flow : Flow} (h : flow.isActive = true) (testMode : Bool) :
    ¬ flow.Refuses testMode := by
  rintro ⟨harchived, -⟩
  rw [isActive, harchived] at h
  cases h

namespace Run

/-- The run is a queued one that a hook has begun, and no test run. -/
def CalledOf (run : Run) (flow : Flow) : Prop :=
  run = { Run.queued flow.id .webhook false run.startedAt with id := run.id }

/-- The record of a run is created under the identifier of the run. -/
def creation (collection : String) (input : Json) (run : Run) : Exchange :=
  ⟨.create collection (run.toRecord input), .ok (run.stored input)⟩

variable {collection : String} {input : Json} {runs : List Run}

theorem amend_creation (run : Run) (records : List Json) :
    (run.creation collection input).amend collection records = records ++ [run.stored input] := by
  have hid : (Except.ok (run.stored input) : Except StoreError Json).bind
      (Json.recordId collection) = .ok run.id := Service.recordId_stored collection run input
  obtain ⟨members, hmembers, hcreated⟩ :=
    Exchange.created?_of_recordId (run.isRecord_toRecord input) hid
  rw [creation, Exchange.amend_of_created hcreated, Run.stored, hmembers]

theorem replay_creations (records : List Json) :
    Transcript.replay collection (runs.map (creation collection input)) records =
      records ++ runs.map fun run => run.stored input := by
  induction runs generalizing records with
  | nil => exact (List.append_nil records).symm
  | cons run rest ih =>
      have hstep : Transcript.replay collection
          ((run :: rest).map (creation collection input)) records =
          Transcript.replay collection (rest.map (creation collection input))
            ((run.creation collection input).amend collection records) := rfl
      rw [hstep, amend_creation, ih, List.append_assoc]
      rfl

/-- All that is written in the course of these exchanges are records of these runs. -/
def WritesOf (collection : String) (input : Json) (runs : List Run) (t : Transcript) : Prop :=
  ∀ name, Transcript.writes name t =
    if collection = name then runs.map (creation collection input) else []

/-- If nobody else is at work, the records of the runs are there afterwards, and all others are as
they were. -/
theorem WritesOf.records {t : Transcript} {store store' : MemoryStore}
    (h : WritesOf collection input runs t) (hkeeps : t.Keeps store store') (name : String) :
    store'.records name = store.records name ++
      if collection = name then runs.map fun run => run.stored input else [] := by
  rw [hkeeps.replay, ← Transcript.replay_writes, h name]
  split
  · next hname => rw [← hname, replay_creations]
  · exact (List.append_nil _).symm

end Run

namespace Service

open Api (Response startAll)

variable {engine : Engine} {service between service' : Service} {t t' : Transcript} {flow : Flow}
  {flows listeners : List Flow} {collection path : String} {input : Json} {request : Api.Request}
  {response : Response}

/-- Whenever a record is about to be created in the collection, the identifier that the store gives
out next is not in use there. -/
def SuppliesNew (engine : Engine) (service : Service) (t : Transcript) (collection : String) :
    Prop :=
  ∀ earlier data created later met, t = earlier ++ ⟨.create collection data, created⟩ :: later →
    Passes engine service earlier met →
    (met.store.records collection).any (MemoryStore.hasId met.store.issue.1) = false

theorem SuppliesNew.left (h : SuppliesNew engine service (t ++ t') collection) :
    SuppliesNew engine service t collection := by
  rintro earlier data created later met rfl hpasses
  exact h earlier data created (later ++ t') met (by simp) hpasses

theorem SuppliesNew.right (h : SuppliesNew engine service (t ++ t') collection)
    (hpasses : Passes engine service t between) :
    SuppliesNew engine between t' collection := by
  rintro earlier data created later met rfl hpasses'
  exact h (t ++ earlier) data created later met (by simp)
    (passes_append.mpr ⟨between, hpasses, hpasses'⟩)

/-- A run that is not refused is stored under a new identifier and sent on its way. -/
theorem Passes.starts {triggerType : TriggerType} {testMode : Bool}
    {started : Except FlowError (Run × Nat)}
    (hpasses : Passes engine service t service') (hallowed : ¬ flow.Refuses testMode)
    (hstart : (engine.startRun flow triggerType input testMode).Leads t started)
    (hnew : SuppliesNew engine service t engine.settings.ledger.runs) :
    ∃ (run : Run) (task : Nat),
      run = { Run.queued flow.id triggerType testMode run.startedAt with id := run.id } ∧
      started = .ok (run, task) ∧
      t = [⟨.now, run.startedAt⟩, run.creation engine.settings.ledger.runs input,
        ⟨.dispatch run flow input, task⟩] := by
  obtain ⟨run, created, rest, hrun, rfl, hnamed⟩ :=
    (Program.leads_startRun hstart).created hallowed
  have hasked : Passes engine service ([⟨.now, run.startedAt⟩] ++
      ⟨.create engine.settings.ledger.runs (run.toRecord input), created⟩ :: rest) service' := hpasses
  obtain ⟨met, hbefore, hanswered, -⟩ := hasked.split
  have hfree := hnew [⟨.now, run.startedAt⟩] _ created rest met rfl hbefore
  obtain rfl := created_of_free hanswered hfree
  obtain ⟨task, rfl, rfl⟩ := hnamed met.store.issue.1 (recordId_stored ..)
  exact ⟨{ run with id := met.store.issue.1 }, task, by rw [hrun]; rfl, rfl, rfl⟩

/-- Each listener gets one run, in their order, and nothing else is written. -/
theorem Passes.startsAll {ids : List String} (hpasses : Passes engine service t service')
    (hallowed : ∀ flow ∈ listeners, ¬ flow.Refuses false)
    (hstart : (startAll engine input listeners).Leads t ids)
    (hnew : SuppliesNew engine service t engine.settings.ledger.runs) :
    ∃ runs : List Run, List.Forall₂ Run.CalledOf runs listeners ∧ ids = runs.map Run.id ∧
      Run.WritesOf engine.settings.ledger.runs input runs t := by
  induction listeners generalizing t service ids with
  | nil =>
      obtain ⟨rfl, rfl⟩ := Program.leads_pure.mp hstart
      refine ⟨[], .nil, rfl, ?_⟩
      intro name
      split <;> rfl
  | cons flow rest ih =>
      obtain ⟨hflow, hrest⟩ := List.forall_mem_cons.mp hallowed
      obtain ⟨first, others, started, rfl, hfirst, h₁⟩ := Program.leads_bind.mp hstart
      obtain ⟨later, last, ids', rfl, hlater, h₂⟩ := Program.leads_bind.mp h₁
      obtain ⟨between, hbefore, hbehind⟩ := passes_append.mp hpasses
      obtain ⟨run, task, hrun, rfl, rfl⟩ := hbefore.starts hflow hfirst hnew.left
      obtain ⟨rfl, rfl⟩ := Program.leads_pure.mp h₂
      rw [List.append_nil] at hbehind hnew ⊢
      obtain ⟨runs, hruns, rfl, hwrites⟩ := ih hbehind hrest hlater (hnew.right hbefore)
      refine ⟨run :: runs, .cons hrun hruns, rfl, ?_⟩
      intro name
      rw [Transcript.writes_append, hwrites name, Transcript.writes_now_cons]
      by_cases hname : engine.settings.ledger.runs = name
      · subst hname
        rw [if_pos rfl, if_pos rfl, Transcript.writes_cons_of_eq rfl]
        rfl
      · rw [if_neg hname, if_neg hname, Run.creation, Transcript.writes_create_cons_of_ne hname]
        rfl

/-! ## A call of a hook -/

/-- What a call of a hook asks for: the active flows, and a run of each that listens. -/
theorem leads_receiveHook (hfits : request.fits Api.bodyLimit = true)
    (hcalls : request.CallsWith input)
    (h : (Api.receiveHook engine path request).Leads t response) :
    ∃ first listed rest, t = first ++ rest ∧
      engine.settings.library.listActive.Leads first listed ∧
      match listed with
      | .error e => rest = [] ∧ response = Api.failure (.store e)
      | .ok flows => ∃ listeners : List Flow, listeners.Sublist flows ∧
          (∀ flow ∈ flows, flow ∈ listeners ↔ flow.ListensOn path) ∧
          (listeners = [] ∧ rest = [] ∧ response.status = 404 ∨
            listeners ≠ [] ∧ ∃ ids, (startAll engine input listeners).Leads rest ids ∧
              response = .ok 202 (.object [("runs", .array (ids.map .string))])) := by
  simp only [Api.receiveHook, hfits, Bool.not_true, Bool.false_eq_true, if_false,
    hcalls.hookInput?] at h
  obtain ⟨first, rest, listed, rfl, hlist, h₁⟩ := Program.leads_bind.mp h
  refine ⟨first, listed, rest, rfl, hlist, ?_⟩
  cases listed with
  | error e => exact Program.leads_pure.mp h₁
  | ok flows =>
      refine ⟨flows.filter fun flow => Api.hookPath? flow == some (Text.trimChar '/' path),
        List.filter_sublist, ?_, ?_⟩
      · intro flow hflow
        rw [List.mem_filter, Api.hookPath?_beq_iff]
        exact and_iff_right hflow
      · dsimp only at h₁
        split at h₁
        · next hnone =>
            obtain ⟨rfl, rfl⟩ := Program.leads_pure.mp h₁
            exact Or.inl ⟨List.isEmpty_iff.mp hnone, rfl, rfl⟩
        · next hsome =>
            obtain ⟨started, last, ids, rfl, hstart, h₂⟩ := Program.leads_bind.mp h₁
            obtain ⟨rfl, rfl⟩ := Program.leads_pure.mp h₂
            refine Or.inr ⟨fun hnone => hsome (List.isEmpty_iff.mpr hnone), ids, ?_, rfl⟩
            rwa [List.append_nil]

/-- These of the listed flows are to be started at a call of the hook: they are the active ones, in
the order in which an undisturbed library lists them, that listen on the path. -/
structure Listeners (engine : Engine) (store : MemoryStore) (path : String) (clock : Clock) (n : Nat)
    (listed listeners : List Flow) : Prop where
  lists : engine.settings.library.listActive.runWith (withClock clock MemoryStore.answer)
    (n, store) = (.ok listed, (n, store))
  active : listed.Perm ((engine.settings.library.flowsIn store).filter Flow.isActive)
  distinct : (listed.map Flow.id).Nodup
  ordered : listeners.Sublist listed
  listen : ∀ flow ∈ listed, flow ∈ listeners ↔ flow.ListensOn path

/-- However the tasks go on, a call of a hook looks for its listeners first, and then starts them. -/
theorem Passes.hooked (hholds : engine.settings.library.Holds service.store flows)
    (hlistable : Library.Listable (flows.filter Flow.isActive))
    (hspares : service.Spares engine.settings.library.collection)
    (hfits : request.fits Api.bodyLimit = true) (hcalls : request.CallsWith input)
    (hleads : (Api.receiveHook engine path request).Leads t response)
    (hpasses : Passes engine service t service') (clock : Clock) (n : Nat) :
    ∃ (first rest : Transcript) (between : Service) (listed listeners : List Flow),
      t = first ++ rest ∧ (∀ exchange ∈ first, exchange.action.observes = true) ∧
      Passes engine service first between ∧ Passes engine between rest service' ∧
      Listeners engine service.store path clock n listed listeners ∧
      (listeners = [] ∧ rest = [] ∧ response.status = 404 ∨
        listeners ≠ [] ∧ ∃ ids, (startAll engine input listeners).Leads rest ids ∧
          response = .ok 202 (.object [("runs", .array (ids.map .string))])) := by
  obtain ⟨first, result, rest, rfl, hlist, hrest⟩ := leads_receiveHook hfits hcalls hleads
  obtain ⟨between, hbefore, hbehind⟩ := passes_append.mp hpasses
  have hobserves : ∀ exchange ∈ first, exchange.action.observes = true :=
    (Library.observes_listFrom _ _ _ _ _).forall_mem hlist
  -- A listing sends nothing on its way, so it is undisturbed whatever the handlers do.
  obtain ⟨hbeside, -⟩ := hbefore.beside_of_observes hspares hobserves
  obtain ⟨listed, hperm, hruns, rfl⟩ := hholds.leads_listActive hlistable hlist hbeside clock n
  obtain ⟨listeners, hsublist, hlisteners, hanswer⟩ := hrest
  have hdistinct : ((flows.filter Flow.isActive).map Flow.id).Nodup :=
    hholds.distinct.sublist (List.filter_sublist.map Flow.id)
  refine ⟨first, rest, between, listed, listeners, rfl, hobserves, hbefore, hbehind, ?_, hanswer⟩
  rw [← hholds.flowsIn_eq] at hperm hdistinct
  exact ⟨hruns, hperm, ((hperm.map Flow.id).nodup_iff).mpr hdistinct, hsublist, hlisteners⟩

/-- Whatever is sent to a hook is read first.  A body that is too large, or is no data, starts nothing
and writes nothing. -/
theorem receiveHook_unread (hleads : (Api.receiveHook engine path request).Leads t response) :
    (request.fits Api.bodyLimit = false → response.status = 413 ∧ t = []) ∧
    (request.fits Api.bodyLimit = true → ∀ text, request.Says text → Json.parse? text = none →
      response.status = 400 ∧ t = []) := by
  constructor
  · intro hlarge
    simp only [Api.receiveHook, hlarge, Bool.not_false, if_true] at hleads
    obtain ⟨rfl, rfl⟩ := Program.leads_pure.mp hleads
    exact ⟨rfl, rfl⟩
  · intro hfits text hsays hread
    simp only [Api.receiveHook, hfits, Bool.not_true, Bool.false_eq_true, if_false,
      Api.hookInput?_of_body hsays, hread] at hleads
    obtain ⟨rfl, rfl⟩ := Program.leads_pure.mp hleads
    exact ⟨rfl, rfl⟩

/-- A call of a hook with a body that is read to its end starts one run of each active flow that
listens on its path, in the order in which the active flows are listed, and writes nothing else.  If
no flow listens, or the body is no data, nothing is written at all, and neither is it if the body is
too large. -/
theorem hook_starts_listeners (hbuilt : engine.settings.library.Built service.store)
    (hlistable : Library.Listable
      ((engine.settings.library.flowsIn service.store).filter Flow.isActive))
    (hspares : service.Spares engine.settings.library.collection)
    (hnew : SuppliesNew engine service t engine.settings.ledger.runs)
    (hroute : request.route? = some (.hook path))
    (hleads : (Api.answer engine request).Leads t response)
    (hpasses : Passes engine service t service') (clock : Clock) (n : Nat) :
    (request.fits Api.bodyLimit = false →
      response.status = 413 ∧ ∀ name, Transcript.writes name t = []) ∧
    (request.fits Api.bodyLimit = true →
      (∀ text, request.Says text → Json.parse? text = none →
        response.status = 400 ∧ ∀ name, Transcript.writes name t = []) ∧
      ∀ input, request.CallsWith input → ∃ listed listeners : List Flow,
        Listeners engine service.store path clock n listed listeners ∧
        (listeners = [] → response.status = 404 ∧ ∀ name, Transcript.writes name t = []) ∧
        (listeners ≠ [] → ∃ runs : List Run, List.Forall₂ Run.CalledOf runs listeners ∧
          response = .ok 202 (.object [("runs", .array ((runs.map Run.id).map .string))]) ∧
          Run.WritesOf engine.settings.ledger.runs input runs t ∧
          ∀ store', t.Keeps service.store store' → ∀ name,
            store'.records name = service.store.records name ++
              if engine.settings.ledger.runs = name then runs.map fun run => run.stored input
              else [])) := by
  rw [Api.answer_hook hroute] at hleads
  obtain ⟨hlarge, hunread⟩ := receiveHook_unread hleads
  refine ⟨?_, fun hfits => ⟨?_, ?_⟩⟩
  · intro htoo
    obtain ⟨hstatus, rfl⟩ := hlarge htoo
    exact ⟨hstatus, fun _ => rfl⟩
  · intro text hsays hread
    obtain ⟨hstatus, rfl⟩ := hunread hfits text hsays hread
    exact ⟨hstatus, fun _ => rfl⟩
  · intro input hcalls
    obtain ⟨flows, hholds⟩ := hbuilt.holds
    rw [hholds.flowsIn_eq] at hlistable
    obtain ⟨first, rest, between, listed, listeners, rfl, hobserves, hbefore, hbehind, hlisteners,
      hanswer⟩ := hpasses.hooked hholds hlistable hspares hfits hcalls hleads clock n
    have hquiet := Transcript.writes_of_observes hobserves
    refine ⟨listed, listeners, hlisteners, ?_, ?_⟩
    · intro hnone
      rcases hanswer with ⟨-, rfl, hstatus⟩ | ⟨hsome, -⟩
      · rw [List.append_nil]
        exact ⟨hstatus, hquiet⟩
      · exact absurd hnone hsome
    · intro hsome
      rcases hanswer with ⟨hnone, -⟩ | ⟨-, ids, hstart, rfl⟩
      · exact absurd hnone hsome
      have hallowed : ∀ flow ∈ listeners, ¬ flow.Refuses false := by
        intro flow hflow
        have hactive := hlisteners.active.mem_iff.mp (hlisteners.ordered.subset hflow)
        exact Flow.not_refuses (List.mem_filter.mp hactive).2 false
      obtain ⟨runs, hcalled, rfl, hwrites⟩ :=
        hbehind.startsAll hallowed hstart (hnew.right hbefore)
      have hall : Run.WritesOf engine.settings.ledger.runs input runs (first ++ rest) := by
        intro name
        rw [Transcript.writes_append, hquiet, List.nil_append, hwrites name]
      exact ⟨runs, hcalled, rfl, hall, fun store' hkeeps => hall.records hkeeps⟩

/-- Where nothing goes on in the background, a single creation takes what the store gives out next. -/
theorem suppliesNew_of_single {store : MemoryStore} {before later : Transcript} {exchange : Exchange}
    (hfree : (store.records collection).any (MemoryStore.hasId store.issue.1) = false)
    (hbefore : ∀ exchange ∈ before, exchange.action.observes = true)
    (hlater : ∀ exchange ∈ later, exchange.action.written? = none) :
    SuppliesNew engine ⟨store, []⟩ (before ++ exchange :: later) collection := by
  intro earlier data created rest met ht hpasses
  have hobserves : ∀ exchange ∈ earlier, exchange.action.observes = true := by
    rcases List.append_eq_append_iff.mp ht.symm with ⟨more, rfl, -⟩ | ⟨more, rfl, hmore⟩
    · exact (List.forall_mem_append.mp hbefore).1
    · cases more with
      | nil =>
          rw [List.append_nil]
          exact hbefore
      | cons head more =>
          obtain ⟨-, rfl⟩ := List.cons.inj hmore
          have hcreation := hlater _ (List.mem_append_right more List.mem_cons_self)
          cases hcreation
  obtain ⟨hkeeps, -⟩ := hpasses.keeps_of_idle rfl fun exchange hmem =>
    task?_of_observes (hobserves exchange hmem)
  rw [hkeeps.observed hobserves]
  exact hfree

theorem suppliesNew_of_lone {store : MemoryStore} {first : Transcript} {ids : List String}
    (hfree : (store.records engine.settings.ledger.runs).any (MemoryStore.hasId store.issue.1) =
      false)
    (hobserves : ∀ exchange ∈ first, exchange.action.observes = true) (hactive : flow.isActive = true)
    (h : (startAll engine input [flow]).Leads t ids) :
    SuppliesNew engine ⟨store, []⟩ (first ++ t) engine.settings.ledger.runs := by
  obtain ⟨begun, others, started, rfl, hbegun, h₁⟩ := Program.leads_bind.mp h
  obtain ⟨later, last, ids', rfl, hlater, h₂⟩ := Program.leads_bind.mp h₁
  obtain ⟨rfl, -⟩ := Program.leads_pure.mp hlater
  have hlast : last = [] := by
    cases started <;> exact (Program.leads_pure.mp h₂).1
  have hlooks : ∀ moment : Timestamp, ∀ exchange ∈ first ++ [⟨.now, moment⟩],
      exchange.action.observes = true := fun moment =>
    List.forall_mem_append.mpr ⟨hobserves, List.forall_mem_singleton.mpr rfl⟩
  rw [hlast, List.nil_append, List.append_nil]
  cases Program.leads_startRun hbegun with
  | refused hrefuses => exact absurd hrefuses (Flow.not_refuses hactive false)
  | @unnamed run =>
      rw [← List.singleton_append, ← List.append_assoc]
      exact suppliesNew_of_single hfree (hlooks run.startedAt) (List.forall_mem_nil _)
  | @named run _ _ _ _ _ _ _ hrest =>
      obtain ⟨task, rfl, -⟩ := hrest
      rw [← List.singleton_append, ← List.append_assoc]
      exact suppliesNew_of_single hfree (hlooks run.startedAt) (List.forall_mem_singleton.mpr rfl)

/-- A flow that begins at a hook. -/
def hooked (id path : String) (status : FlowStatus) : Flow :=
  { id, name := id, status,
    canvas := { nodes := [⟨"t", Trigger.webhookKind, [("path", .string path)]⟩] } }

theorem tidy_hooked (id path : String) (status : FlowStatus) :
    (hooked id path status).canvas.Tidy :=
  List.forall_mem_singleton.mpr ⟨List.pairwise_singleton _ _, trivial, trivial⟩

/-- A library with an active flow and a draft that both begin at a hook of this path. -/
def ofHooks : MemoryStore :=
  ((Library.save {} (hooked "f2" "orders" .draft)).runWith MemoryStore.answer
    ((Library.save {} (hooked "f1" "/orders/" .active)).runWith MemoryStore.answer {}).2).2

theorem built_ofHooks : Library.Built {} ofHooks :=
  .save (.save (.empty rfl) (tidy_hooked _ _ _)) (tidy_hooked _ _ _)

/-- The active flow is started, and the draft is not. -/
theorem hook_starts_listeners_orders : ∃ (request : Api.Request) (t : Transcript)
    (service' : Service) (response : Response),
    Library.Built {} ofHooks ∧
    Library.Listable ((Library.flowsIn {} ofHooks).filter Flow.isActive) ∧
    Service.Spares ⟨ofHooks, []⟩ "flows" ∧ SuppliesNew bare ⟨ofHooks, []⟩ t "runs" ∧
    request.route? = some (.hook "orders/") ∧ request.fits Api.bodyLimit = true ∧
    request.CallsWith (.array [.bool true]) ∧ (Api.answer bare request).Leads t response ∧
    Passes bare ⟨ofHooks, []⟩ t service' ∧
    ∃ run : Run, run = { Run.queued "f1" .webhook false run.startedAt with id := run.id } ∧
      response = .ok 202 (.object [("runs", .array [.string run.id])]) ∧
      Transcript.writes "runs" t = [run.creation "runs" (.array [.bool true])] := by
  obtain ⟨request, hroute, hfits, hcalls⟩ : ∃ request : Api.Request,
      request.route? = some (.hook "orders/") ∧ request.fits Api.bodyLimit = true ∧
        request.CallsWith (.array [.bool true]) := by
    refine ⟨posting "/api/hooks/orders/" "[true]", by decide +kernel, by decide +kernel, ?_⟩
    exact .said ⟨by decide, _, rfl, rfl⟩ rfl
  obtain ⟨flows, hholds⟩ := built_ofHooks.holds
  have hids : ((Library.flowsIn {} ofHooks).filter Flow.isActive).map Flow.id = ["f1"] := by
    decide +kernel
  have hpaths : ((Library.flowsIn {} ofHooks).filter Flow.isActive).map Api.hookPath? =
      [some (Text.trimChar '/' "orders/")] := by decide +kernel
  obtain ⟨flow, hflows, hid⟩ := List.map_eq_singleton_iff.mp hids
  have hlistens : flow.ListensOn "orders/" := by
    rw [hflows] at hpaths
    exact Api.hookPath?_beq_iff.mp (beq_iff_eq.mpr (List.cons.inj hpaths).1)
  have hlistable : Library.Listable ((Library.flowsIn {} ofHooks).filter Flow.isActive) := by
    refine .of_unread ?_ (by decide +kernel)
    rw [hflows]
    exact Nat.le_of_ble_eq_true rfl
  have hactive : flow.isActive = true := by
    have hmem : flow ∈ (Library.flowsIn {} ofHooks).filter Flow.isActive := by
      rw [hflows]
      exact List.mem_cons_self
    exact (List.mem_filter.mp hmem).2
  have hspares : Service.Spares ⟨ofHooks, []⟩ "flows" := List.forall_mem_nil _
  have hlone : ∀ {listed listeners : List Flow},
      Listeners bare ofHooks "orders/" (fun _ => ⟨0, 0⟩) 0 listed listeners →
      listeners = [flow] := by
    intro listed listeners h
    obtain rfl : listed = [flow] := List.perm_singleton.mp (h.active.trans (.of_eq hflows))
    have hmem := (h.listen flow List.mem_cons_self).mpr hlistens
    rcases List.sublist_singleton.mp h.ordered with rfl | rfl
    · cases hmem
    · rfl
  obtain ⟨t, tasks', hleads, hpasses⟩ := exists_served ofHooks [] request
  have hnew : SuppliesNew bare ⟨ofHooks, []⟩ t "runs" := by
    have hfree : (ofHooks.records "runs").any (MemoryStore.hasId ofHooks.issue.1) = false := by
      decide +kernel
    have hreceive := hleads
    rw [Api.answer_hook hroute] at hreceive
    have hlistable' := hlistable
    rw [hholds.flowsIn_eq] at hlistable'
    obtain ⟨first, rest, between, listed, listeners, rfl, hobserves, -, -, hlisteners, hanswer⟩ :=
      hpasses.hooked hholds hlistable' hspares hfits hcalls hreceive (fun _ => ⟨0, 0⟩) 0
    obtain rfl := hlone hlisteners
    rcases hanswer with ⟨hnone, -⟩ | ⟨-, ids, hstart, -⟩
    · cases hnone
    · exact suppliesNew_of_lone hfree hobserves hactive hstart
  obtain ⟨listed, listeners, hlisteners, -, hstarts⟩ := (hook_starts_listeners built_ofHooks
    hlistable hspares hnew hroute hleads hpasses (fun _ => ⟨0, 0⟩) 0).2 hfits |>.2 _ hcalls
  obtain rfl := hlone hlisteners
  obtain ⟨runs, hcalled, hresponse, hwrites, -⟩ := hstarts (List.cons_ne_nil _ _)
  obtain ⟨run, rest, hrun, hrest, rfl⟩ := List.forall₂_cons_right_iff.mp hcalled
  obtain rfl := List.forall₂_nil_right_iff.mp hrest
  rw [Run.CalledOf, hid] at hrun
  exact ⟨request, t, _, _, built_ofHooks, hlistable, hspares, hnew, hroute, hfits, hcalls, hleads,
    hpasses, run, hrun, hresponse, hwrites "runs"⟩

end Service

end FlowEngine
