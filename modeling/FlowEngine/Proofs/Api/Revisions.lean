import FlowEngine.Proofs.Api.Requests
import FlowEngine.Proofs.Flow.Shapes
/-!
# `FlowEngine.Proofs.Api.Revisions` — what has become of a flow, told by the requests about it

A flow has no history of its own: its record holds a version and a status, each save reads the
version back and writes the next one, and the answer to a save goes by the version alone.  Yet from
an empty library on, all of it can be told by the requests that have been answered.  The version of
a flow is how often it has been saved, and it is archived if the last save has said so or if
somebody has archived it since.

`Stands` says this of one flow, `Recorded` of all that are held, and one request keeps it
(`Recorded.next`), whatever it does to other flows.  None of these requests starts a run, so nothing
goes on in the background and the requests have the store for themselves.
-/

namespace FlowEngine

namespace Service

open Api (Response Route)
open Library (Filed archiving nextVersion)

variable {engine : Engine} {first service service' : Service} {occasion : Occasion}
  {past since : List (Occasion × Transcript)} {pair : Occasion × Transcript} {t : Transcript}
  {flow saved : Flow} {old : Option Flow} {flows flows' : List Flow} {id : String}
  {asked posted : Api.Request} {response answer : Response} {store store' : MemoryStore}

/-! ## Saves and archivings -/

def Occasion.savedId? : Occasion → Option String
  | .request asked response =>
    if asked.route? = some .saveFlow ∧ (response.status = 200 ∨ response.status = 201) then
      response.body.bind fun body => (body.get? "id").bind Json.text?
    else none
  | _ => none

def Occasion.Archives (id : String) : Occasion → Prop
  | .request asked _ => asked.route? = some (.archiveFlow id)
  | _ => False

theorem Occasion.route?_of_saves (h : (Occasion.request asked response).savedId? = some id) :
    asked.route? = some .saveFlow := by
  rw [savedId?] at h
  split at h
  · next hsaves => exact hsaves.1
  · cases h

theorem Occasion.not_archives_of_saves {id : String} (h : occasion.savedId? = some id)
    (other : String) : ¬ occasion.Archives other := by
  cases occasion with
  | request asked response =>
      intro harchives
      cases (route?_of_saves h).symm.trans harchives
  | reload table loaded => exact not_false
  | firing entry started => exact not_false

def saves (id : String) (past : List (Occasion × Transcript)) : Nat :=
  past.countP fun pair => pair.1.savedId? == some id

theorem saves_concat (id : String) : saves id (past ++ [(occasion, t)]) =
    saves id past + if occasion.savedId? = some id then 1 else 0 := by
  rw [saves, List.countP_append, List.countP_singleton]
  simp only [beq_iff_eq]
  rfl

theorem saves_le_concat (id : String) : saves id past ≤ saves id (past ++ [(occasion, t)]) := by
  rw [saves_concat]
  exact Nat.le_add_right _ _

/-- The last request that has saved the flow, its answer, and what has been asked since. -/
def LastSaved (id : String) (past : List (Occasion × Transcript)) (posted : Api.Request)
    (answer : Response) (since : List (Occasion × Transcript)) : Prop :=
  ∃ earlier t, past = earlier ++ (.request posted answer, t) :: since ∧
    (Occasion.request posted answer).savedId? = some id ∧
    ∀ pair ∈ since, pair.1.savedId? ≠ some id

/-- The last save was one of an archived flow, or the flow has been archived since. -/
def ArchivedSince (id : String) (posted : Api.Request) (since : List (Occasion × Transcript)) :
    Prop :=
  (∃ draft, posted.document?.bind Api.decodeFlow? = some draft ∧ draft.status = .archived) ∨
    ∃ pair ∈ since, pair.1.Archives id

theorem archivedSince_concat :
    ArchivedSince id posted (since ++ [(occasion, t)]) ↔
      ArchivedSince id posted since ∨ occasion.Archives id := by
  simp only [ArchivedSince, List.mem_append, List.mem_singleton, or_and_right, exists_or,
    exists_eq_left, or_assoc]

/-- One request more: it is the last save itself, or it comes behind the last save. -/
theorem LastSaved.of_concat (h : LastSaved id (past ++ [(occasion, t)]) posted answer since) :
    since = [] ∧ occasion = .request posted answer ∨
      occasion.savedId? ≠ some id ∧
        ∃ since', since = since' ++ [(occasion, t)] ∧ LastSaved id past posted answer since' := by
  obtain ⟨earlier, t', hpast, hsaved, hsince⟩ := h
  rcases List.eq_nil_or_concat since with rfl | ⟨since', last, rfl⟩
  · obtain ⟨-, hpair⟩ := List.append_inj' hpast rfl
    exact Or.inl ⟨rfl, (Prod.mk.inj (List.cons.inj hpair).1).1⟩
  · rw [List.concat_eq_append] at hpast hsince ⊢
    rw [← List.cons_append, ← List.append_assoc] at hpast
    obtain ⟨rfl, hpair⟩ := List.append_inj' hpast rfl
    obtain rfl := (List.cons.inj hpair).1
    rw [List.forall_mem_append, List.forall_mem_singleton] at hsince
    exact Or.inr ⟨hsince.2, since', rfl, earlier, t', rfl, hsaved, hsince.1⟩

/-! ## How a flow stands -/

/-- The version of the flow is how often it has been saved, and as the last save was answered; and
it is archived if the last save or somebody since has archived it. -/
structure Stands (past : List (Occasion × Transcript)) (flow : Flow) : Prop where
  counted : flow.version.toNat = saves flow.id past
  answered : ∀ posted answer since, LastSaved flow.id past posted answer since →
    (answer.body.bind fun body => body.get? "version") = some (.ofNat flow.version.toNat)
  archived : ∀ posted answer since, LastSaved flow.id past posted answer since →
    (flow.status = .archived ↔ ArchivedSince flow.id posted since)

/-- Flows are held under the identifiers under which one has been saved, and each stands as it has
been left. -/
structure Recorded (past : List (Occasion × Transcript)) (flows : List Flow) : Prop where
  held : ∀ id, 0 < saves id past ↔ ∃ flow ∈ flows, flow.id = id
  stands : ∀ flow ∈ flows, Stands past flow

/-- Whatever does not save the flow can archive it at most. -/
theorem Stands.later (h : Stands past flow) (hunsaved : occasion.savedId? ≠ some flow.id)
    {kept : Flow} (hid : kept.id = flow.id) (hversion : kept.version = flow.version)
    (hstatus : kept.status = .archived ↔ flow.status = .archived ∨ occasion.Archives flow.id) :
    Stands (past ++ [(occasion, t)]) kept := by
  have hlast : ∀ {posted answer since},
      LastSaved kept.id (past ++ [(occasion, t)]) posted answer since →
      ∃ since', since = since' ++ [(occasion, t)] ∧
        LastSaved flow.id past posted answer since' := by
    intro posted answer since hlast
    rw [hid] at hlast
    rcases hlast.of_concat with ⟨rfl, rfl⟩ | ⟨-, hbefore⟩
    · obtain ⟨-, -, -, hsaved, -⟩ := hlast
      exact absurd hsaved hunsaved
    · exact hbefore
  constructor
  · rw [hversion, hid, saves_concat, if_neg hunsaved]
    exact h.counted
  · intro posted answer since hsince
    obtain ⟨since', -, hbefore⟩ := hlast hsince
    rw [hversion]
    exact h.answered posted answer since' hbefore
  · intro posted answer since hsince
    obtain ⟨since', rfl, hbefore⟩ := hlast hsince
    rw [hstatus, hid, archivedSince_concat, h.archived posted answer since' hbefore]

theorem Stands.of_saved (hsaved : (Occasion.request asked response).savedId? = some flow.id)
    (hcounted : flow.version.toNat = saves flow.id past + 1)
    (hanswered : (response.body.bind fun body => body.get? "version") =
      some (.ofNat flow.version.toNat))
    (hstatus : flow.status = .archived ↔ ∃ draft,
      asked.document?.bind Api.decodeFlow? = some draft ∧ draft.status = .archived) :
    Stands (past ++ [(.request asked response, t)]) flow := by
  have hlast : ∀ {posted answer since},
      LastSaved flow.id (past ++ [(.request asked response, t)]) posted answer since →
      since = [] ∧ posted = asked ∧ answer = response := by
    intro posted answer since hlast
    rcases hlast.of_concat with ⟨hnil, hpair⟩ | ⟨hunsaved, -⟩
    · obtain ⟨rfl, rfl⟩ := Occasion.request.inj hpair
      exact ⟨hnil, rfl, rfl⟩
    · exact absurd hsaved hunsaved
  constructor
  · rw [saves_concat, if_pos hsaved]
    exact hcounted
  · intro posted answer since hsince
    obtain ⟨-, -, rfl⟩ := hlast hsince
    exact hanswered
  · intro posted answer since hsince
    obtain ⟨rfl, rfl, -⟩ := hlast hsince
    rw [hstatus, ArchivedSince]
    exact (or_iff_left (fun ⟨_, hmem, _⟩ => nomatch hmem)).symm

/-! ## One request more -/

/-- The next version of a flow is the number of this save. -/
theorem Recorded.nextVersion (h : Recorded past flows) (hfiled : Filed saved old flows flows')
    (hfew : saves saved.id past + 1 < 4294967296) :
    (nextVersion old).toNat = saves saved.id past + 1 := by
  cases hfiled with
  | @replaced before after old hid =>
      have hcounted := (h.stands old (by simp)).counted
      rw [hid] at hcounted
      rw [Library.nextVersion, UInt32.toNat_add, hcounted]
      exact Nat.mod_eq_of_lt hfew
  | added hfree =>
      have hnone : ¬ 0 < saves saved.id past := by
        rw [h.held]
        rintro ⟨flow, hflow, hid⟩
        exact hfree flow hflow hid
      rw [Nat.eq_zero_of_not_pos hnone]
      rfl

/-- Whatever saves nothing leaves all flows held, and archives those that it archives. -/
theorem Recorded.unsaved (h : Recorded past flows) (hunsaved : occasion.savedId? = none)
    (change : Flow → Flow) (hid : ∀ flow ∈ flows, (change flow).id = flow.id)
    (hversion : ∀ flow ∈ flows, (change flow).version = flow.version)
    (hstatus : ∀ flow ∈ flows, (change flow).status = .archived ↔
      flow.status = .archived ∨ occasion.Archives flow.id) :
    Recorded (past ++ [(occasion, t)]) (flows.map change) := by
  have hother : ∀ id, occasion.savedId? ≠ some id := by
    intro id
    rw [hunsaved]
    exact (Option.some_ne_none id).symm
  constructor
  · intro id
    rw [saves_concat, if_neg (hother id), Nat.add_zero, h.held]
    constructor
    · rintro ⟨flow, hflow, rfl⟩
      exact ⟨change flow, List.mem_map_of_mem hflow, hid flow hflow⟩
    · rintro ⟨kept, hkept, rfl⟩
      obtain ⟨flow, hflow, rfl⟩ := List.mem_map.mp hkept
      exact ⟨flow, hflow, (hid flow hflow).symm⟩
  · intro kept hkept
    obtain ⟨flow, hflow, rfl⟩ := List.mem_map.mp hkept
    exact (h.stands flow hflow).later (hother flow.id) (hid flow hflow) (hversion flow hflow)
      (hstatus flow hflow)

/-- A save files the flow as the next revision of itself, and leaves all others as they stand. -/
theorem Recorded.filed (h : Recorded past flows) (hdistinct : (flows.map Flow.id).Nodup)
    (hfiled : Filed saved old flows flows')
    (hsaved : (Occasion.request asked response).savedId? = some saved.id)
    (hversion : saved.version = Library.nextVersion old)
    (hanswered : (response.body.bind fun body => body.get? "version") =
      some (.ofNat saved.version.toNat))
    (hstatus : saved.status = .archived ↔ ∃ draft,
      asked.document?.bind Api.decodeFlow? = some draft ∧ draft.status = .archived)
    (hfew : saves saved.id past + 1 < 4294967296) :
    Recorded (past ++ [(.request asked response, t)]) flows' := by
  have hcounted : saved.version.toNat = saves saved.id past + 1 := by
    rw [hversion, h.nextVersion hfiled hfew]
  have hdistinct' := hfiled.distinct hdistinct
  obtain ⟨earlier, later, rfl, rfl, hold⟩ := hfiled.split
  have hothers : ∀ flow, flow.id ≠ saved.id →
      (flow ∈ earlier ++ saved.inPlaceOf old :: later ↔ flow ∈ earlier ++ old.toList ++ later) := by
    intro flow hother
    have hnew : flow ≠ saved.inPlaceOf old := by
      rintro rfl
      exact hother rfl
    have hgone : flow ∉ old.toList := by
      intro hmem
      exact hother (hold flow (Option.mem_toList.mp hmem))
    simp [hnew, hgone]
  constructor
  · intro id
    by_cases hid : saved.id = id
    · subst hid
      rw [saves_concat, if_pos hsaved]
      exact iff_of_true (Nat.succ_pos _)
        ⟨saved.inPlaceOf old, List.mem_append_right _ List.mem_cons_self, rfl⟩
    · have hunsaved : (Occasion.request asked response).savedId? ≠ some id := by
        rw [hsaved]
        exact fun heq => hid (Option.some.inj heq)
      rw [saves_concat, if_neg hunsaved, Nat.add_zero, h.held]
      refine exists_congr fun flow => and_congr_left ?_
      rintro rfl
      exact (hothers flow (Ne.symm hid)).symm
  · intro flow hflow
    by_cases hid : flow.id = saved.id
    · obtain rfl : flow = saved.inPlaceOf old :=
        List.inj_on_of_nodup_map hdistinct' hflow
          (List.mem_append_right _ List.mem_cons_self) hid
      exact .of_saved hsaved hcounted hanswered hstatus
    · have hunsaved : (Occasion.request asked response).savedId? ≠ some flow.id := by
        rw [hsaved]
        exact fun heq => hid (Option.some.inj heq).symm
      refine (h.stands flow ((hothers flow hid).mp hflow)).later hunsaved rfl rfl ?_
      exact (or_iff_left (Occasion.not_archives_of_saves hsaved flow.id)).symm

theorem savedId?_saved (saved : Flow) {status : Nat} (hroute : asked.route? = some .saveFlow)
    (hstatus : status = 200 ∨ status = 201) :
    (Occasion.request asked (.ok status (.record [("id", .string saved.id),
      ("version", .ofNat saved.version.toNat)]))).savedId? = some saved.id := by
  rw [Occasion.savedId?, if_pos ⟨hroute, hstatus⟩, Response.ok, Option.bind_some, Json.get?_record]
  rfl

theorem answered_saved {status : Nat} :
    ((Response.ok status (.record [("id", .string saved.id),
      ("version", .ofNat saved.version.toNat)])).body.bind fun body => body.get? "version") =
        some (.ofNat saved.version.toNat) := by
  rw [Response.ok, Option.bind_some, Json.get?_record]
  rfl

theorem Occasion.savedId?_of_route (hroute : asked.route? ≠ some .saveFlow) :
    (Occasion.request asked response).savedId? = none := by
  rw [Occasion.savedId?, if_neg]
  exact fun h => hroute h.1

theorem Occasion.savedId?_of_refused (hstatus : 400 ≤ response.status) :
    (Occasion.request asked response).savedId? = none := by
  rw [Occasion.savedId?, if_neg]
  rintro ⟨-, hok | hok⟩ <;> omega

/-- The flows that are held stand as the requests have left them, one request later too. -/
theorem Recorded.next (h : Recorded past flows) (hdistinct : (flows.map Flow.id).Nodup)
    (halters : occasion.Alters flows flows')
    (hfew : ∀ id, saves id (past ++ [(occasion, t)]) < 4294967296) :
    Recorded (past ++ [(occasion, t)]) flows' := by
  have hsame : ∀ {occasion : Occasion}, occasion.savedId? = none → (∀ id, ¬ occasion.Archives id) →
      Recorded (past ++ [(occasion, t)]) flows := by
    intro occasion hunsaved hunarchived
    have hrecorded : Recorded (past ++ [(occasion, t)]) (flows.map id) :=
      h.unsaved hunsaved id (fun _ _ => rfl) (fun _ _ => rfl)
        fun flow _ => (or_iff_left (hunarchived flow.id)).symm
    rwa [List.map_id] at hrecorded
  cases halters with
  | kept hedits =>
      cases occasion with
      | request asked response =>
          have hroutes : ∀ route, route.edits = true → asked.route? ≠ some route := by
            intro route hroute heq
            rw [Occasion.edits, heq, Option.any_some, hroute] at hedits
            cases hedits
          exact hsame (Occasion.savedId?_of_route (hroutes _ rfl)) fun id => hroutes _ rfl
      | reload table loaded => exact hsame rfl fun _ => not_false
      | firing entry started => exact hsame rfl fun _ => not_false
  | refused hroute hstatus =>
      refine hsame (Occasion.savedId?_of_refused hstatus) ?_
      intro id harchives
      cases hroute.symm.trans harchives
  | @saved asked draft saved old status _ _ hroute hdraft _ hsaved hfiled hstatus =>
      have hid := savedId?_saved saved hroute hstatus
      have hfew' := hfew saved.id
      rw [saves_concat, if_pos hid] at hfew'
      refine h.filed hdistinct hfiled hid (by rw [hsaved]) answered_saved ?_ hfew'
      rw [hsaved]
      constructor
      · intro harchived
        exact ⟨draft, hdraft, harchived⟩
      · rintro ⟨draft', hdraft', harchived⟩
        obtain rfl := Option.some.inj (hdraft.symm.trans hdraft')
        exact harchived
  | @archived asked response id _ hroute =>
      have hunsaved : (Occasion.request asked response).savedId? = none := by
        refine Occasion.savedId?_of_route ?_
        rw [hroute]
        intro heq
        cases Option.some.inj heq
      refine h.unsaved hunsaved _ ?_ ?_ ?_
      · intro flow _
        split <;> rfl
      · intro flow _
        split <;> rfl
      · intro flow _
        have hthis : (Occasion.request asked response).Archives flow.id ↔ flow.id = id := by
          rw [Occasion.Archives, hroute]
          simp [eq_comm]
        rw [hthis]
        split
        · next heq => exact iff_of_true rfl (Or.inr heq)
        · next hne => exact (or_iff_left hne).symm

/-! ## From an empty library on -/

/-- The occasion is a look at the flows, or a request that saves or archives one or looks something
up; it starts no run. -/
def Occasion.StartsNone : Occasion → Prop
  | .request asked _ => ∀ route ∈ asked.route?, route.edits = true ∨ route.isLookup = true
  | .reload _ _ _ => True
  | .firing _ _ => False

/-- Whoever starts no run only looks, or writes to the library. -/
theorem Occasion.StartsNone.observes (h : occasion.StartsNone) (hkept : occasion.edits = false)
    (hoccasion : occasion.Leads engine t) : ∀ exchange ∈ t, exchange.action.observes = true := by
  cases occasion with
  | request asked response =>
      have hlookup : ∀ route ∈ asked.route?, route.isLookup = true := by
        intro route hroute
        rw [edits, Option.mem_def.mp hroute, Option.any_some] at hkept
        exact (h route hroute).resolve_left (Bool.eq_false_iff.mp hkept)
      exact (Api.observes_answer engine hlookup).forall_mem hoccasion
  | reload reader table loaded => exact (Schedule.observes_reload reader _ table).forall_mem hoccasion
  | firing entry started => exact h.elim

theorem Occasion.quiet_of_edits (hedits : occasion.edits = true)
    (hoccasion : occasion.Leads engine t) :
    ∀ exchange ∈ t, task? engine exchange.action = none := by
  obtain ⟨asked, response, rfl, ⟨-, hsaving⟩ | ⟨id, -, harchiving⟩⟩ :=
    occasion.eq_request_of_edits hoccasion hedits
  · rcases leads_saveFlow hsaving with ⟨rfl, -⟩ | ⟨flow, result, -, -, hsave, -⟩
    · exact List.forall_mem_nil _
    · obtain ⟨first, existing, hfirst, hwrite⟩ := Library.leads_save hsave
      have hlookup : ∀ exchange ∈ first, task? engine exchange.action = none := by
        intro exchange hmem
        exact task?_of_observes
          ((Library.observes_existing? _ flow).forall_mem hfirst exchange hmem)
      rcases existing with e | old
      · rwa [hwrite.1]
      · cases old <;> obtain ⟨saved, reply, -, rfl, -⟩ := hwrite <;>
          exact List.forall_mem_append.mpr ⟨hlookup, List.forall_mem_singleton.mpr rfl⟩
  · obtain ⟨result, harchive, -⟩ := leads_archiveFlow harchiving
    rw [Library.archive_eq] at harchive
    obtain ⟨reply, rest, rfl, hrest⟩ := Program.leads_act.mp harchive
    rw [(Program.leads_pure.mp hrest).1]
    exact List.forall_mem_singleton.mpr rfl

/-- A service without tasks has the store for itself as long as no run is started, and has none
afterwards. -/
theorem Passes.alone (h : Passes engine service t service') (hidle : service.tasks = [])
    (hoccasion : occasion.Leads engine t) (hnone : occasion.StartsNone) :
    t.Keeps service.store service'.store ∧ service'.tasks = [] := by
  refine h.keeps_of_idle hidle ?_
  cases hedits : occasion.edits with
  | false =>
      intro exchange hmem
      exact task?_of_observes (hnone.observes hedits hoccasion exchange hmem)
  | true => exact Occasion.quiet_of_edits hedits hoccasion

/-- Requests that start no run leave the flows held as they are told by these requests. -/
theorem History.recorded (h : History engine first past service)
    (hempty : first.store.records engine.settings.library.collection = [])
    (hidle : first.tasks = []) (hnone : ∀ pair ∈ past, pair.1.StartsNone)
    (hfew : ∀ id, saves id past < 4294967296) :
    service.tasks = [] ∧
      ∃ flows, engine.settings.library.Holds service.store flows ∧ Recorded past flows := by
  induction h with
  | start =>
      refine ⟨hidle, [], ⟨hempty, List.forall_mem_nil _, List.nodup_nil⟩, ?_, List.forall_mem_nil _⟩
      intro id
      exact iff_of_false (Nat.lt_irrefl 0) fun ⟨_, hmem, _⟩ => nomatch hmem
  | works _ hworks ih =>
      obtain ⟨hidle', -⟩ := ih hnone hfew
      cases hworks with
      | turn => cases (List.append_eq_nil_iff.mp hidle').2
  | @next past service service' occasion t _ hoccasion hpasses ih =>
      rw [List.forall_mem_append, List.forall_mem_singleton] at hnone
      have hfewer : ∀ id, saves id past < 4294967296 := by
        intro id
        exact Nat.lt_of_le_of_lt (saves_le_concat id) (hfew id)
      obtain ⟨hidle', flows, hholds, hrecorded⟩ := ih hnone.1 hfewer
      obtain ⟨hkeeps, hidle''⟩ := hpasses.alone hidle' hoccasion hnone.2
      refine ⟨hidle'', ?_⟩
      cases hedits : occasion.edits with
      | false =>
          have hobserves := hnone.2.observes hedits hoccasion
          exact ⟨flows, hholds.of_records (hkeeps.beside.observed hobserves),
            hrecorded.next hholds.distinct (.kept hedits) hfew⟩
      | true =>
          obtain ⟨flows', halters, hholds'⟩ :=
            Occasion.alters_of_edits hoccasion hedits hholds hkeeps.beside
          exact ⟨flows', hholds', hrecorded.next hholds.distinct halters hfew⟩

/-! ## The answers -/

/-- A save is answered with the number of the revision, and a first revision as a new flow. -/
theorem Recorded.answers_save (h : Recorded past flows)
    (hholds : engine.settings.library.Holds store flows)
    (hbeside : t.Beside engine.settings.library.collection store store')
    (hleads : (Api.saveFlow engine asked).Leads t response)
    (hsaved : (Occasion.request asked response).savedId? = some id)
    (hfew : saves id past + 1 < 4294967296) :
    response = .ok (if saves id past = 0 then 201 else 200)
      (.record [("id", .string id), ("version", .ofNat (saves id past + 1))]) := by
  rcases leads_saveFlow hleads with
    ⟨-, hstatus⟩ | ⟨flow, result, hflow, -, hsave, hresponse⟩
  · rw [Occasion.savedId?_of_refused hstatus] at hsaved
    cases hsaved
  rcases hholds.saved (tidy_of_saving hflow) hsave hbeside with
    ⟨⟨e, rfl⟩, -⟩ | ⟨old, saved, flows', rfl, hnew, -, hfiled, -⟩
  · have hrefused : 400 ≤ response.status := by
      rw [hresponse]
      exact Nat.le_of_ble_eq_true rfl
    rw [Occasion.savedId?_of_refused hrefused] at hsaved
    cases hsaved
  have hstatus : ∀ p : Prop, [Decidable p] →
      (if p then 201 else 200) = 200 ∨ (if p then 201 else 200) = 201 := by
    intro p _
    split <;> simp
  have hroute := Occasion.route?_of_saves hsaved
  rw [hresponse, savedId?_saved saved hroute (hstatus _)] at hsaved
  obtain rfl := Option.some.inj hsaved
  have hcounted : saved.version.toNat = saves saved.id past + 1 := by
    rw [← h.nextVersion hfiled hfew, hnew]
  have hfirst : saved.version = 1 ↔ saves saved.id past = 0 := by
    rw [← UInt32.toNat_inj, hcounted]
    exact Nat.succ_inj
  rw [hresponse, hcounted]
  simp only [hfirst]

/-- An archiving is answered according to whether the flow has been saved, and changes its
status. -/
theorem Recorded.answers_archiving (h : Recorded past flows)
    (hholds : engine.settings.library.Holds store flows) (hkeeps : t.Keeps store store')
    (hleads : (Api.archiveFlow engine id).Leads t response) :
    (response.status = 200 ↔ 0 < saves id past) ∧
      (saves id past = 0 → response.status = 404 ∧ store' = store) ∧
      engine.settings.library.Holds store' (archiving id flows) ∧
      ∀ name, name ≠ engine.settings.library.collection →
        store'.records name = store.records name := by
  obtain ⟨result, harchive, rfl⟩ := leads_archiveFlow hleads
  obtain ⟨rfl, hholds'⟩ := hholds.archivedBeside harchive hkeeps.beside
  rw [Library.archive_eq] at harchive
  obtain ⟨reply, rest, rfl, hrest⟩ := Program.leads_act.mp harchive
  rw [(Program.leads_pure.mp hrest).1] at hkeeps
  obtain ⟨-, hafter⟩ := Transcript.keeps_update.mp hkeeps
  refine ⟨archived_status_eq_ok.trans (h.held id).symm, ?_, hholds', ?_⟩
  · intro hnever
    have hnone : ∀ flow ∈ flows, flow.id ≠ id := by
      intro flow hflow heq
      exact absurd ((h.held id).mpr ⟨flow, hflow, heq⟩) (Nat.not_lt.mpr (Nat.le_of_eq hnever))
    have hany : (flows.any fun flow => flow.id == id) = false := by
      simpa using hnone
    refine ⟨?_, ?_⟩
    · rw [hany]
      rfl
    · rw [show store' = _ from hafter]
      exact hholds.lists.update_absent hnone _
  · intro name hname
    refine hkeeps.frame.2.2 name ?_
    refine List.forall_mem_singleton.mpr ?_
    exact fun heq => hname (Option.some.inj heq).symm

theorem Recorded.answers_get (h : Recorded past flows)
    (hholds : engine.settings.library.Holds store flows)
    (hbeside : t.Beside engine.settings.library.collection store store')
    (hleads : (Api.getFlow engine id).Leads t response) :
    saves id past = 0 ∧ response = Api.flowNotFound id ∨
      0 < saves id past ∧ ∃ flow, flow.id = id ∧ Stands past flow ∧
        response = .ok 200 flow.toJson := by
  obtain ⟨first, rest, got, rfl, hget, hrest⟩ := Program.leads_bind.mp hleads
  obtain ⟨between, hbefore, -⟩ := Transcript.beside_append.mp hbeside
  obtain rfl := hholds.got hget hbefore
  cases hfind : flows.find? fun x => x.id == id with
  | none =>
      rw [hfind] at hrest
      refine Or.inl ⟨Nat.eq_zero_of_not_pos ?_, (Program.leads_pure.mp hrest).2⟩
      rw [h.held]
      rintro ⟨flow, hflow, hid⟩
      exact absurd (beq_iff_eq.mpr hid) (List.find?_eq_none.mp hfind flow hflow)
  | some flow =>
      rw [hfind] at hrest
      have hflow := List.mem_of_find?_eq_some hfind
      have hid : flow.id = id := by simpa using List.find?_some hfind
      exact Or.inr ⟨(h.held id).mpr ⟨flow, hflow, hid⟩, flow, hid, h.stands flow hflow,
        (Program.leads_pure.mp hrest).2⟩

/-- The version of a flow and whether it is archived are read off its data. -/
theorem shown_version (flow : Flow) :
    flow.toJson.get? "version" = some (.ofNat flow.version.toNat) := by
  rw [show flow.toJson = flow.drawn "canvas" flow.canvas.toJson from rfl, Flow.get?_drawn]
  rfl

theorem shown_archived_iff (flow : Flow) :
    flow.toJson.get? "status" = some (.string "archived") ↔ flow.status = .archived := by
  have hstatus : flow.toJson.get? "status" = some (.string flow.status.text) := by
    rw [show flow.toJson = flow.drawn "canvas" flow.canvas.toJson from rfl, Flow.get?_drawn]
    rfl
  rw [hstatus]
  cases flow.status <;> simp [FlowStatus.text]

/-- Requests that save, archive and look up flows are answered one at a time, from an empty library
on.  Then the k-th save of a flow is answered with version k, as that of a new flow if it is the
first one.  An archiving finds the flow if it has ever been saved, and else changes nothing; what it
changes is the status of that flow.  And a flow is shown with the version of its last save, as an
archived one if that save or an archiving since has made it one. -/
theorem revisions_answered (hempty : first.store.records engine.settings.library.collection = [])
    (hidle : first.tasks = []) (hpast : History engine first past service)
    (hnone : ∀ pair ∈ past, pair.1.StartsNone)
    (hleads : (Api.answer engine asked).Leads t response)
    (hpasses : Passes engine service t service')
    (hfew : ∀ id, saves id (past ++ [(.request asked response, t)]) < 4294967296) :
    (∀ id, (Occasion.request asked response).savedId? = some id →
      response = .ok (if saves id past = 0 then 201 else 200)
        (.record [("id", .string id), ("version", .ofNat (saves id past + 1))])) ∧
    (∀ id, asked.route? = some (.archiveFlow id) →
      (response.status = 200 ↔ 0 < saves id past) ∧
      (saves id past = 0 → response.status = 404 ∧ service'.store = service.store) ∧
      (∃ flows : List Flow,
        service.store.records engine.settings.library.collection = flows.map Flow.stored ∧
        service'.store.records engine.settings.library.collection =
          (archiving id flows).map Flow.stored) ∧
      ∀ name, name ≠ engine.settings.library.collection →
        service'.store.records name = service.store.records name) ∧
    ∀ id, asked.route? = some (.getFlow id) →
      (saves id past = 0 → response.status = 404) ∧
      ∀ posted answer since, LastSaved id past posted answer since →
        ∃ flow : Flow, flow.id = id ∧ response = .ok 200 flow.toJson ∧
          flow.toJson.get? "version" = (answer.body.bind fun body => body.get? "version") ∧
          (flow.toJson.get? "status" = some (.string "archived") ↔
            ArchivedSince id posted since) := by
  have hfewer : ∀ id, saves id past < 4294967296 := by
    intro id
    exact Nat.lt_of_le_of_lt (saves_le_concat id) (hfew id)
  obtain ⟨hidle', flows, hholds, hrecorded⟩ := hpast.recorded hempty hidle hnone hfewer
  have halone : ∀ {route : Route}, asked.route? = some route →
      route.edits = true ∨ route.isLookup = true → t.Keeps service.store service'.store := by
    intro route hroute hquiet
    have hoccasion : (Occasion.request asked response).Leads engine t := hleads
    refine (hpasses.alone hidle' hoccasion ?_).1
    intro other hother
    obtain rfl := Option.some.inj (hroute.symm.trans hother)
    exact hquiet
  refine ⟨?_, ?_, ?_⟩
  · intro id hsaved
    have hroute := Occasion.route?_of_saves hsaved
    have hfew' := hfew id
    rw [saves_concat, if_pos hsaved] at hfew'
    rw [Api.answer_saveFlow hroute] at hleads
    exact hrecorded.answers_save hholds (halone hroute (Or.inl rfl)).beside hleads hsaved hfew'
  · intro id hroute
    have hkeeps := halone hroute (Or.inl rfl)
    rw [Api.answer_archiveFlow hroute] at hleads
    obtain ⟨hfound, hlost, hholds', hothers⟩ := hrecorded.answers_archiving hholds hkeeps hleads
    exact ⟨hfound, hlost, ⟨flows, hholds.lists, hholds'.lists⟩, hothers⟩
  · intro id hroute
    have hkeeps := halone hroute (Or.inr rfl)
    rw [Api.answer_getFlow hroute] at hleads
    have hanswer := hrecorded.answers_get hholds hkeeps.beside hleads
    refine ⟨?_, ?_⟩
    · intro hnever
      rcases hanswer with ⟨-, rfl⟩ | ⟨hsome, -⟩
      · rfl
      · omega
    · intro posted answer since hlast
      rcases hanswer with ⟨hnever, -⟩ | ⟨-, flow, rfl, hstands, hresponse⟩
      · obtain ⟨earlier, t', rfl, hsaved, -⟩ := hlast
        have hcounted : 0 < saves id (earlier ++ (.request posted answer, t') :: since) :=
          List.countP_pos_iff.mpr ⟨_, List.mem_append_right _ List.mem_cons_self,
            beq_iff_eq.mpr hsaved⟩
        omega
      · refine ⟨flow, rfl, hresponse, ?_, ?_⟩
        · rw [shown_version, hstands.answered posted answer since hlast]
        · rw [shown_archived_iff, hstands.archived posted answer since hlast]

def ordersText : String :=
  "\x7b\"id\":\"f1\",\"name\":\"Orders\",\"canvas\":\x7b\"nodes\":" ++
    "[\x7b\"id\":\"t\",\"type\":\"trigger.manual\"\x7d],\"edges\":[]\x7d\x7d"

/-- A flow is saved and archived; then it is shown, saved again, and another one is not found. -/
theorem revisions_answered_orders :
    ∃ (saving deletion getting stray : Api.Request) (past : List (Occasion × Transcript))
        (service shown again missed : Service) (t₁ t₂ t₃ : Transcript)
        (response₁ response₂ response₃ : Response),
      History bare ⟨{}, []⟩ past service ∧ saves "f1" past = 1 ∧
      (∀ pair ∈ past, pair.1.StartsNone) ∧
      (Api.answer bare getting).Leads t₁ response₁ ∧ Passes bare service t₁ shown ∧
      (∃ flow : Flow, flow.id = "f1" ∧ response₁ = .ok 200 flow.toJson ∧
        flow.toJson.get? "status" = some (.string "archived")) ∧
      (Api.answer bare saving).Leads t₂ response₂ ∧ Passes bare service t₂ again ∧
      response₂ = .ok 200 (.record [("id", .string "f1"), ("version", .ofNat 2)]) ∧
      stray.route? = some (.archiveFlow "f2") ∧ deletion.route? = some (.archiveFlow "f1") ∧
      (Api.answer bare stray).Leads t₃ response₃ ∧ Passes bare service t₃ missed ∧
      response₃.status = 404 ∧ missed.store = service.store := by
  -- What is asked is kept out of sight, so that nothing is computed but what is stated here.
  obtain ⟨saving, deletion, getting, stray, hsaving, hdeletion, hgetting, hstray, hfirst, hsecond⟩ :
      ∃ saving deletion getting stray : Api.Request, saving.route? = some .saveFlow ∧
        deletion.route? = some (.archiveFlow "f1") ∧ getting.route? = some (.getFlow "f1") ∧
        stray.route? = some (.archiveFlow "f2") ∧
        (Occasion.request saving (served {} saving).1).savedId? = some "f1" ∧
        (Occasion.request saving
          (served (served (served {} saving).2.2 deletion).2.2 saving).1).savedId? = some "f1" := by
    refine ⟨posting "/api/flows" ordersText, plain "DELETE" "/api/flows/f1",
      plain "GET" "/api/flows/f1", plain "DELETE" "/api/flows/f2", ?_⟩
    decide +kernel
  generalize hanswer : (served {} saving).1 = answer at hfirst
  generalize hstore : (served (served {} saving).2.2 deletion).2.2 = store at hsecond
  obtain ⟨t, tasks, hsaves, hsaved⟩ := exists_served {} [] saving
  obtain ⟨t', tasks', harchives, harchived⟩ := exists_served (served {} saving).2.2 tasks deletion
  generalize (served (served {} saving).2.2 deletion).1 = done at harchives
  rw [hanswer] at hsaves
  rw [hstore] at harchived
  obtain ⟨t₁, tasks₁, hshows, hshown⟩ := exists_served store tasks' getting
  obtain ⟨t₂, tasks₂, hresaves, hresaved⟩ := exists_served store tasks' saving
  obtain ⟨t₃, tasks₃, hstrays, hstrayed⟩ := exists_served store tasks' stray
  have hposted : (Occasion.request saving answer).Leads bare t := hsaves
  have hdeleted : (Occasion.request deletion done).Leads bare t' := harchives
  have hpast : History bare ⟨{}, []⟩
      ([(.request saving answer, t)] ++ [(.request deletion done, t')]) ⟨store, tasks'⟩ :=
    .next (.next .start hposted hsaved) hdeleted harchived
  have hunsaved : ∀ id, (Occasion.request deletion done).savedId? ≠ some id := by
    intro id h
    cases hdeletion.symm.trans (Occasion.route?_of_saves h)
  have hcounted : ∀ id, saves id ([(.request saving answer, t)] ++ [(.request deletion done, t')]) =
      if "f1" = id then 1 else 0 := by
    intro id
    rw [saves_concat, if_neg (hunsaved id),
      ← List.nil_append [(Occasion.request saving answer, t)], saves_concat, hfirst]
    simp [saves]
  have hnone : ∀ pair ∈ [(Occasion.request saving answer, t)] ++
      [(Occasion.request deletion done, t')], pair.1.StartsNone := by
    rw [List.singleton_append, List.forall_mem_cons, List.forall_mem_singleton]
    constructor
    · intro route hroute
      obtain rfl := Option.some.inj (hsaving.symm.trans hroute)
      exact Or.inl rfl
    · intro route hroute
      obtain rfl := Option.some.inj (hdeletion.symm.trans hroute)
      exact Or.inl rfl
  have hfew : ∀ pair id, saves id ([(Occasion.request saving answer, t)] ++
      [(Occasion.request deletion done, t')] ++ [pair]) < 4294967296 := by
    intro pair id
    exact Nat.lt_of_le_of_lt List.countP_le_length (by simp)
  obtain ⟨-, -, hget⟩ := revisions_answered rfl rfl hpast hnone hshows hshown (hfew _)
  obtain ⟨hsave, -, -⟩ := revisions_answered rfl rfl hpast hnone hresaves hresaved (hfew _)
  obtain ⟨-, harchive, -⟩ := revisions_answered rfl rfl hpast hnone hstrays hstrayed (hfew _)
  have hlast : LastSaved "f1" ([(.request saving answer, t)] ++ [(.request deletion done, t')])
      saving answer [(.request deletion done, t')] :=
    ⟨[], t, rfl, hfirst, List.forall_mem_singleton.mpr (hunsaved "f1")⟩
  obtain ⟨flow, hid, hanswered, -, hstatus⟩ := (hget "f1" hgetting).2 _ _ _ hlast
  have harchived' : ArchivedSince "f1" saving [(.request deletion done, t')] :=
    Or.inr ⟨_, List.mem_singleton_self _, hdeletion⟩
  obtain ⟨hmissed, hunchanged⟩ := (harchive "f2" hstray).2.1 (hcounted "f2")
  have htwice := hsave "f1" hsecond
  rw [hcounted] at htwice
  exact ⟨saving, deletion, getting, stray, _, _, _, _, _, t₁, t₂, t₃, _, _, _, hpast, hcounted "f1",
    hnone, hshows, hshown, ⟨flow, hid, hanswered, hstatus.mpr harchived'⟩, hresaves, hresaved,
    htwice, hstray, hdeletion, hstrays, hstrayed, hmissed, hunchanged⟩

end Service

end FlowEngine
