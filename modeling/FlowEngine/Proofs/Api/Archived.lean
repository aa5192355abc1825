import FlowEngine.Proofs.Api.Requests
import FlowEngine.Proofs.Ledger.Stored
/-!
# `FlowEngine.Proofs.Api.Archived` — an archived flow is not run

A run is started in three ways, and each of them reads the flow first: so it does not matter what an
older copy of the flow said, or that a job for it is still in a timetable.  From the answer that a
flow has been archived on, until it is saved again, it is held as an archived one
(`Occasion.Alters.archived`), and an archived flow begins test runs only.
-/

namespace FlowEngine

namespace Service

open Api (Response StartRequest)
open Library (archiving)
open MemoryStore (hasId)

variable {engine : Engine} {first before behind service service' : Service}
  {past since : List (Occasion × Transcript)} {occasion : Occasion} {t t' : Transcript}
  {flows flows' : List Flow} {flow : Flow} {id : String} {store store' : MemoryStore}

/-- A request that saves a flow under the identifier. -/
def Occasion.Saves (id : String) : Occasion → Prop
  | .request asked response => asked.route? = some .saveFlow ∧
      (response.status = 200 ∨ response.status = 201) ∧
      ∃ body, response.body = some body ∧ body.get? "id" = some (.string id)
  | _ => False

/-! ## An archived flow stays archived -/

/-- One of the flows has the identifier, and it is archived. -/
def IsArchived (id : String) (flows : List Flow) : Prop :=
  ∃ flow ∈ flows, flow.id = id ∧ flow.status = .archived

theorem isArchived_archiving (h : ∃ flow ∈ flows, flow.id = id) :
    IsArchived id (archiving id flows) := by
  obtain ⟨flow, hflow, hid⟩ := h
  refine ⟨{ flow with status := .archived }, List.mem_map.mpr ⟨flow, hflow, if_pos hid⟩, hid, rfl⟩

/-- Only a save under its identifier brings an archived flow back. -/
theorem Occasion.Alters.archived_of_not_saves (h : occasion.Alters flows flows')
    (hunsaved : ¬ occasion.Saves id) (harchived : IsArchived id flows) :
    IsArchived id flows' := by
  cases h with
  | kept => exact harchived
  | refused => exact harchived
  | @saved asked flow saved old status _ _ hroute _ _ _ hfiled hstatus =>
      have hother : saved.id ≠ id := by
        rintro rfl
        refine hunsaved ⟨hroute, hstatus, _, rfl, ?_⟩
        rw [Json.get?_record]
        rfl
      obtain ⟨kept, hkept, hid, hstatus⟩ := harchived
      obtain ⟨earlier, later, rfl, rfl, hold⟩ := hfiled.split
      rcases List.mem_append.mp hkept with hkept | hkept
      · rcases List.mem_append.mp hkept with hkept | hkept
        · exact ⟨kept, List.mem_append_left _ hkept, hid, hstatus⟩
        · exact absurd ((hold kept (Option.mem_toList.mp hkept)).symm.trans hid) hother
      · exact ⟨kept, List.mem_append_right _ (List.mem_cons_of_mem _ hkept), hid, hstatus⟩
  | @archived asked response id' _ =>
      obtain ⟨kept, hkept, hid, hstatus⟩ := harchived
      refine ⟨_, List.mem_map.mpr ⟨kept, hkept, rfl⟩, ?_⟩
      split
      · exact ⟨hid, rfl⟩
      · exact ⟨hid, hstatus⟩

theorem IsArchived.status (h : IsArchived id flows) (hdistinct : (flows.map Flow.id).Nodup)
    (hflow : flow ∈ flows) (hid : flow.id = id) : flow.status = .archived := by
  obtain ⟨kept, hkept, hid', hstatus⟩ := h
  obtain rfl : flow = kept :=
    List.inj_on_of_nodup_map hdistinct hflow hkept (hid.trans hid'.symm)
  exact hstatus

theorem IsArchived.find? (h : IsArchived id flows) (hdistinct : (flows.map Flow.id).Nodup) :
    ∃ flow, flows.find? (fun x => x.id == id) = some flow ∧ flow.id = id ∧
      flow.status = .archived := by
  have hsome : (flows.find? fun x => x.id == id).isSome := by
    obtain ⟨kept, hkept, hid, -⟩ := h
    rw [List.find?_isSome]
    exact ⟨kept, hkept, beq_iff_eq.mpr hid⟩
  obtain ⟨flow, hflow⟩ := Option.isSome_iff_exists.mp hsome
  have hid : flow.id = id := by simpa using List.find?_some hflow
  exact ⟨flow, hflow, hid, h.status hdistinct (List.mem_of_find?_eq_some hflow) hid⟩

theorem IsArchived.testMode (h : IsArchived id flows) (hdistinct : (flows.map Flow.id).Nodup)
    (hflow : flow ∈ flows) {run : Run} (hbegins : run.Begins flow) (hid : run.flowId = id) :
    run.testMode = true := by
  have hflowId : flow.id = id := by
    rw [← hid, hbegins.queued]
    rfl
  by_contra hreal
  exact hbegins.allowed ⟨h.status hdistinct hflow hflowId, Bool.eq_false_iff.mpr hreal⟩

/-! ## Requests for a run of an archived flow -/

/-- A request for a run of an archived flow asks the library for the flow and the engine for a run of
it. -/
theorem IsArchived.leads_startRun (h : IsArchived id flows) {asked : Api.Request}
    {response : Response} (hholds : engine.settings.library.Holds store flows)
    (hbeside : t.Beside engine.settings.library.collection store store')
    (hleads : (Api.startRun engine id asked).Leads t response) :
    ∃ (flow : Flow) (triggerType : TriggerType) (input : Json) (lookup begun last : Transcript)
        (started : Except FlowError (Run × Nat)),
      flow.id = id ∧ flow.status = .archived ∧ t = lookup ++ (begun ++ last) ∧
      (∀ exchange ∈ lookup, exchange.action.observes = true) ∧
      (engine.startRun flow triggerType input (StartRequest.ofRequest asked).testMode).Leads begun
        started ∧
      Api.Started (StartRequest.ofRequest asked) started last response := by
  obtain ⟨lookup, got, rest, rfl, hget, hrest⟩ := Api.leads_startRun hleads
  obtain ⟨between, hbefore, -⟩ := Transcript.beside_append.mp hbeside
  obtain ⟨flow, hfind, hid, hstatus⟩ := h.find? hholds.distinct
  obtain rfl : got = .ok (some flow) := by rw [hholds.got hget hbefore, hfind]
  obtain ⟨wanted, begun, last, started, rfl, rfl, hstart, hlast⟩ := hrest
  exact ⟨flow, _, _, lookup, begun, last, started, hid, hstatus, rfl,
    (Library.observes_get? _ id).forall_mem hget, hstart, hlast⟩

theorem IsArchived.refuses (h : IsArchived id flows) {asked : Api.Request} {response : Response}
    (hholds : engine.settings.library.Holds store flows)
    (hbeside : t.Beside engine.settings.library.collection store store')
    (hleads : (Api.startRun engine id asked).Leads t response)
    (hreal : (StartRequest.ofRequest asked).testMode = false) :
    response = Api.failure (.flowArchived id) ∧
      ∀ exchange ∈ t, exchange.action.observes = true := by
  obtain ⟨flow, triggerType, input, lookup, begun, last, started, rfl, hstatus, rfl, hlookup,
    hstart, hlast⟩ := h.leads_startRun hholds hbeside hleads
  obtain ⟨rfl, rfl⟩ := (Program.leads_startRun hstart).refusal ⟨hstatus, hreal⟩
  cases hlast with
  | refused =>
      refine ⟨rfl, ?_⟩
      rwa [List.append_nil, List.append_nil]

/-- Under an identifier that is not in use, the record of a run is created. -/
theorem create_free {collection : String} (run : Run) (input : Json) (hid : run.id = store.issue.1)
    (hfree : (store.records collection).any (hasId run.id) = false) :
    store.create collection (run.toRecord input) =
      (.ok (run.stored input), store.issue.2.setRecords collection
        (store.records collection ++ [run.stored input])) := by
  have hanonymous : (run.toRecord input).get? "id" = none := run.get?_toRecord input "id"
  rw [MemoryStore.create_anonymous (run.isRecord_toRecord input) hanonymous, ← hid,
    if_neg (Bool.eq_false_iff.mp hfree)]
  rfl

/-- The answer to such a creation is the record of the run under that identifier. -/
theorem created_of_free {collection : String} {run : Run} {input : Json}
    {created : Except StoreError Json}
    (hanswered : Exchange.Answered ⟨.create collection (run.toRecord input), created⟩ store)
    (hfree : (store.records collection).any (hasId store.issue.1) = false) :
    created = .ok ({ run with id := store.issue.1 }.stored input) := by
  have hcreate := create_free { run with id := store.issue.1 } input rfl hfree
  have hcreated : (store.create collection (run.toRecord input)).1 =
      .ok ({ run with id := store.issue.1 }.stored input) := congrArg Prod.fst hcreate
  exact (hanswered rfl).trans hcreated

theorem recordId_stored (collection : String) (run : Run) (input : Json) :
    Json.recordId collection (run.stored input) = .ok run.id := by
  rw [Json.recordId, Run.get?_stored]
  rfl

/-- In the course of these exchanges the store is asked to create a test run of the flow.  Under an
identifier that is not in use it does so, and the run is answered, or its outcome if that is
wanted. -/
def CreatesTestRun (engine : Engine) (id : String) (asked : Api.Request) (service : Service)
    (t : Transcript) (response : Response) : Prop :=
  ∃ (run : Run) (input : Json) (created : Except StoreError Json) (lookup later : Transcript)
      (met : Service),
    run = { Run.queued id run.triggerType true run.startedAt with id := met.store.issue.1 } ∧
    t = lookup ++ ⟨.create engine.settings.ledger.runs (run.toRecord input), created⟩ :: later ∧
    Passes engine service lookup met ∧
    ((met.store.records engine.settings.ledger.runs).any (hasId run.id) = false →
      created = .ok (run.stored input) ∧
      (met.store.create engine.settings.ledger.runs (run.toRecord input)).2.records
          engine.settings.ledger.runs =
        met.store.records engine.settings.ledger.runs ++ [run.stored input] ∧
      if (StartRequest.ofRequest asked).wait then ∃ report, response = Api.outcome report
      else response = .ok 202 run.toJson)

theorem IsArchived.creates (h : IsArchived id flows) {asked : Api.Request} {response : Response}
    (hholds : engine.settings.library.Holds service.store flows)
    (hpasses : Passes engine service t service')
    (hbeside : t.Beside engine.settings.library.collection service.store service'.store)
    (hleads : (Api.startRun engine id asked).Leads t response)
    (htest : (StartRequest.ofRequest asked).testMode = true) :
    CreatesTestRun engine id asked service t response := by
  obtain ⟨flow, triggerType, input, lookup, begun, last, started, rfl, hstatus, rfl, hlookup,
    hstart, hlast⟩ := h.leads_startRun hholds hbeside hleads
  rw [htest] at hstart
  have haccepts : ¬ flow.Refuses true := by
    rintro ⟨-, hreal⟩
    cases hreal
  obtain ⟨run, created, rest, hrun, rfl, hnamed⟩ :=
    (Program.leads_startRun hstart).created haccepts
  have ht : lookup ++ (⟨.now, run.startedAt⟩ ::
        ⟨.create engine.settings.ledger.runs (run.toRecord input), created⟩ :: rest ++ last) =
      (lookup ++ [⟨.now, run.startedAt⟩]) ++
        ⟨.create engine.settings.ledger.runs (run.toRecord input), created⟩ :: (rest ++ last) := by
    simp
  rw [ht] at hpasses ⊢
  obtain ⟨met, hbefore, hanswered, -⟩ := hpasses.split
  refine ⟨{ run with id := met.store.issue.1 }, input, _, _, _, met, ?_, rfl, hbefore, ?_⟩
  · rw [hrun]
    rfl
  intro hfree
  have hcreate := create_free { run with id := met.store.issue.1 } input rfl hfree
  obtain rfl := created_of_free hanswered hfree
  obtain ⟨task, -, rfl⟩ := hnamed met.store.issue.1 (recordId_stored ..)
  refine ⟨rfl, ?_, ?_⟩
  · rw [congrArg Prod.snd hcreate]
    exact (MemoryStore.records_setRecords ..).trans (if_pos rfl)
  · cases hlast with
    | awaited hwait =>
        rw [if_pos hwait]
        exact ⟨_, rfl⟩
    | underway hwait =>
        rw [if_neg (Bool.eq_false_iff.mp hwait)]

/-! ## From the archiving on -/

/-- From the answer that a flow is archived on, it is held as an archived one until it is saved. -/
theorem isArchived_since (hengine : engine.Spares engine.settings.library.collection)
    (hspares : first.Spares engine.settings.library.collection)
    (hholds : engine.settings.library.Holds first.store flows)
    (hpast : History engine first past before) {deletion : Api.Request} {response : Response}
    (hdeletion : deletion.route? = some (.archiveFlow id))
    (hleads : (Api.answer engine deletion).Leads t response)
    (hpasses : Passes engine before t behind) (hok : response.status = 200)
    (hsince : History engine behind since service)
    (hunsaved : ∀ pair ∈ since, ¬ pair.1.Saves id) :
    service.Spares engine.settings.library.collection ∧
      ∃ flows', engine.settings.library.Holds service.store flows' ∧ IsArchived id flows' := by
  obtain ⟨hspared, held, hheld, -⟩ := hpast.invariant hengine hspares hholds
    (P := fun _ => True) trivial fun _ _ _ _ _ _ => trivial
  obtain ⟨hbeside, hspared'⟩ := hpasses.beside hengine hspared
  have hoccasion : (Occasion.request deletion response).Leads engine t := hleads
  obtain ⟨archived, halters, hheld'⟩ :=
    Occasion.alters hoccasion hengine.runs hheld hbeside
  have harchived : IsArchived id archived := by
    cases halters with
    | kept hedits =>
        rw [Occasion.edits, hdeletion] at hedits
        cases hedits
    | refused hroute => exact absurd (hdeletion.symm.trans hroute) (by simp)
    | saved hroute => exact absurd (hdeletion.symm.trans hroute) (by simp)
    | archived hroute hanswer =>
        obtain rfl := Api.Route.archiveFlow.inj (Option.some.inj (hdeletion.symm.trans hroute))
        exact isArchived_archiving (hanswer.mp hok)
  exact hsince.invariant hengine hspared' hheld' harchived fun pair hmem flows flows' h halters =>
    halters.archived_of_not_saves (hunsaved pair hmem) h

/-- From the answer that a flow is archived on, until it is saved again, no occasion creates a run of
it that is no test run, or sends one on its way.  A request for such a run is turned down, and
changes nothing; a test run is created all the same. -/
theorem archived_until_saved (hengine : engine.Spares engine.settings.library.collection)
    (hspares : first.Spares engine.settings.library.collection)
    (hholds : engine.settings.library.Holds first.store flows)
    (hpast : History engine first past before) {deletion : Api.Request} {response : Response}
    (hdeletion : deletion.route? = some (.archiveFlow id))
    (hleads : (Api.answer engine deletion).Leads t response)
    (hpasses : Passes engine before t behind) (hok : response.status = 200)
    (hsince : History engine behind since service)
    (hunsaved : ∀ pair ∈ since, ¬ pair.1.Saves id) {t' : Transcript}
    (hoccasion : occasion.Leads engine t') (hpasses' : Passes engine service t' service') :
    (∀ data created, ⟨.create engine.settings.ledger.runs data, created⟩ ∈ t' →
      data.get? "flow_id" = some (.string id) → data.get? "test_mode" = some (.bool true)) ∧
    (∀ run flow input task, ⟨.dispatch run flow input, task⟩ ∈ t' → run.flowId = id →
      run.testMode = true) ∧
    ∀ asked response, occasion = .request asked response →
      asked.route? = some (.startRun id) →
      ((StartRequest.ofRequest asked).testMode = false →
        response = .error 409 (FlowError.flowArchived id).message ∧
          ∀ exchange ∈ t', ∀ store : MemoryStore, store.after exchange = store) ∧
      ((StartRequest.ofRequest asked).testMode = true →
        CreatesTestRun engine id asked service t' response) := by
  obtain ⟨hspared, held, hheld, harchived⟩ := isArchived_since hengine hspares hholds hpast
    hdeletion hleads hpasses hok hsince hunsaved
  obtain ⟨hbeside, -⟩ := hpasses'.beside hengine hspared
  have hdeeds := Occasion.deeds hoccasion hheld hbeside
  refine ⟨?_, ?_, ?_⟩
  · intro data created hmem hid
    rcases hdeeds _ hmem with hstarts | hwritten
    · obtain ⟨-, flow, hflow, run, input, hbegins, rfl⟩ := hstarts
      have hrun : run.flowId = id := by
        rw [Run.get?_toRecord] at hid
        exact Json.string.inj (Option.some.inj hid)
      rw [Run.get?_toRecord, ← harchived.testMode hheld.distinct hflow hbegins hrun]
      rfl
    · exact absurd (Option.some.inj hwritten) hengine.runs
  · intro run flow input task hmem hid
    rcases hdeeds _ hmem with ⟨hflow, hbegins⟩ | hwritten
    · exact harchived.testMode hheld.distinct hflow hbegins hid
    · cases hwritten
  · rintro asked response rfl hroute
    have hstart : (Api.answer engine asked).Leads t' response := hoccasion
    rw [Api.answer_startRun hroute] at hstart
    refine ⟨?_, harchived.creates hheld hpasses' hbeside hstart⟩
    intro hreal
    obtain ⟨hresponse, hobserves⟩ := harchived.refuses hheld hbeside hstart hreal
    exact ⟨hresponse, fun exchange hmem store =>
      Action.after_of_observes (hobserves exchange hmem) exchange.reply store⟩

/-- The flow is archived; then a run of it is refused, or a test run is created. -/
theorem archived_until_saved_orders :
    ∃ (deletion refusal test : Api.Request) (t t₁ t₂ : Transcript)
        (behind refused tested : Service) (response response₁ response₂ : Response),
      Passes bare ⟨Library.ofOrders, []⟩ t behind ∧
      (Api.answer bare deletion).Leads t response ∧ response.status = 200 ∧
      Passes bare behind t₁ refused ∧ (Api.answer bare refusal).Leads t₁ response₁ ∧
      response₁ = .error 409 (FlowError.flowArchived "f1").message ∧
      Passes bare behind t₂ tested ∧ (Api.answer bare test).Leads t₂ response₂ ∧
      CreatesTestRun bare "f1" test behind t₂ response₂ := by
  -- What is asked is kept out of sight, so that nothing is computed but what is stated here.
  obtain ⟨deletion, refusal, test, hdeletion, hroute, hroute', hok, hreal, htest⟩ :
      ∃ deletion refusal test : Api.Request, deletion.route? = some (.archiveFlow "f1") ∧
        refusal.route? = some (.startRun "f1") ∧ test.route? = some (.startRun "f1") ∧
        (served Library.ofOrders deletion).1.status = 200 ∧
        (StartRequest.ofRequest refusal).testMode = false ∧
        (StartRequest.ofRequest test).testMode = true := by
    refine ⟨plain "DELETE" "/api/flows/f1", plain "POST" "/api/flows/f1/runs",
      posting "/api/flows/f1/runs" "\x7b\"testMode\":true\x7d", ?_⟩
    decide +kernel
  obtain ⟨flows, hholds⟩ := Library.built_ofOrders.holds
  have hspares : Service.Spares ⟨Library.ofOrders, []⟩ bare.settings.library.collection :=
    List.forall_mem_nil _
  obtain ⟨t, tasks, hleads, hpasses⟩ := exists_served Library.ofOrders [] deletion
  obtain ⟨t₁, tasks₁, hrefused, hpasses₁⟩ :=
    exists_served (served Library.ofOrders deletion).2.2 tasks refusal
  obtain ⟨t₂, tasks₂, htested, hpasses₂⟩ :=
    exists_served (served Library.ofOrders deletion).2.2 tasks test
  have hfirst : (Occasion.request refusal _).Leads bare t₁ := hrefused
  have hsecond : (Occasion.request test _).Leads bare t₂ := htested
  have hplain := archived_until_saved bare_spares hspares hholds .start hdeletion hleads hpasses
    hok .start (List.forall_mem_nil _) hfirst hpasses₁
  have htesting := archived_until_saved bare_spares hspares hholds .start hdeletion hleads hpasses
    hok .start (List.forall_mem_nil _) hsecond hpasses₂
  exact ⟨deletion, refusal, test, t, t₁, t₂, _, _, _, _, _, _, hpasses, hleads, hok, hpasses₁,
    hrefused, ((hplain.2.2 _ _ rfl hroute).1 hreal).1, hpasses₂, htested,
    (htesting.2.2 _ _ rfl hroute').2 htest⟩

end Service

end FlowEngine
