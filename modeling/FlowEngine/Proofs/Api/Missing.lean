import FlowEngine.Proofs.Api.Requests
import FlowEngine.Proofs.Gateway.Replies
import FlowEngine.Proofs.Library.Shared
/-!
# `FlowEngine.Proofs.Api.Missing` — a missing record and a broken store, told apart to the end

Between the reply of a hosted store and the answer to a request stand three callers, each of which
gives the errors that it is given other names: the gateway, the library or the ledger, and the web
interface.  None of them confuses what is missing with what is broken.  What is missing is answered
with 404, and only that; every other failure is answered with 500 (`missing_told_from_broken`).
-/

namespace FlowEngine

open Http (IsMissing IsBroken Answers missing_broken_or_answers)
open RecordGateway (Tells)

variable {client : Http.Client} {settings : GatewaySettings} {gateway : RecordGateway}
  {server : Http.Request → Option Http.Reply} {c : Correspondence} {id : String}

/-- The result is what is read from the value, or says that the value is malformed. -/
def IsDecoded {ε α β : Type} (read : Json → Option β) (give : β → α) (malformed : String → ε)
    (value : Json) (result : Except ε α) : Prop :=
  (∃ found, read value = some found ∧ result = .ok (give found)) ∨
    read value = none ∧ ∃ reason, result = .error (malformed reason)

/-! ## The library and the ledger -/

def Library.reading? (library : Library) (gateway : RecordGateway) (id : String) :
    Option Http.Request :=
  gateway.getOneRequest? library.collection id {}

def Library.archiving? (library : Library) (gateway : RecordGateway) (id : String) :
    Option Http.Request :=
  gateway.updateRequest? library.collection id
    (.object [("status", .string FlowStatus.archived.text)])

def Ledger.reading? (ledger : Ledger) (gateway : RecordGateway) (id : String) :
    Option Http.Request :=
  gateway.getOneRequest? ledger.runs id {}

namespace Library

theorem isDecoded_gotten (library : Library) (value : Json) :
    IsDecoded Flow.ofRecord? some (StoreError.malformed library.collection) value
      (library.gotten (.ok value)) := by
  rw [gotten, Json.readRecord]
  cases hread : Flow.ofRecord? value with
  | some flow => exact Or.inl ⟨flow, hread, rfl⟩
  | none => exact Or.inr ⟨hread, _, rfl⟩

theorem tells_get? (h : settings.records? client = some gateway) (library : Library) :
    Tells (library.reading? gateway id) server c (.ok none) StoreError.transport
      (IsDecoded Flow.ofRecord? some (StoreError.malformed library.collection))
      ((library.get? id).runWith (Correspondence.answer client settings server) c) := by
  have hended := Correspondence.runWith_act
    (Correspondence.answer_getOne h server c library.collection id {}) library.gotten
  rw [get?_eq, hended]
  refine Tells.of_reads rfl rfl (fun _ => rfl) library.isDecoded_gotten (fun e heq => by cases heq) ?_
  rintro value (⟨flow, -, heq⟩ | ⟨-, reason, heq⟩) <;> cases heq

theorem tells_archive (h : settings.records? client = some gateway) (library : Library) :
    Tells (library.archiving? gateway id) server c (.ok false) StoreError.transport
      (fun _ result => result = .ok true)
      ((library.archive id).runWith (Correspondence.answer client settings server) c) := by
  have hended := Correspondence.runWith_act
    (Correspondence.answer_update h server c library.collection id
      (.object [("status", .string FlowStatus.archived.text)])) told
  rw [archive_eq, hended]
  exact Tells.of_reads rfl rfl (fun _ => rfl) (fun _ => rfl) (fun e heq => by cases heq)
    fun _ heq => by cases heq

end Library

namespace Ledger

/-- What the ledger makes of the record that it is given. -/
def gotten (ledger : Ledger) (id : String) : Except StoreError Json → Except FlowError Run
  | .ok record => (Json.readRecord Run.ofRecord? ledger.runs record).mapError .store
  | .error (.notFound _ _) => .error (.runNotFound id)
  | .error e => .error (.store e)

theorem getRun_eq (ledger : Ledger) (id : String) :
    ledger.getRun id = .act (.getOne ledger.runs id {}) fun reply =>
      .done (ledger.gotten id reply) := by
  refine congrArg (Program.act _) (funext fun reply => ?_)
  rcases reply with e | record
  · cases e <;> rfl
  · show Program.andThen _ _ = _
    unfold gotten
    cases h : Json.readRecord Run.ofRecord? ledger.runs record <;>
      simp only [Program.andThen, h] <;> rfl

theorem isDecoded_gotten (ledger : Ledger) (id : String) (value : Json) :
    IsDecoded Run.ofRecord? (fun run => run)
      (fun reason => FlowError.store (.malformed ledger.runs reason)) value
      (ledger.gotten id (.ok value)) := by
  rw [gotten, Json.readRecord]
  cases hread : Run.ofRecord? value with
  | some run => exact Or.inl ⟨run, hread, rfl⟩
  | none => exact Or.inr ⟨hread, _, rfl⟩

theorem tells_getRun (h : settings.records? client = some gateway) (ledger : Ledger) :
    Tells (ledger.reading? gateway id) server c (.error (.runNotFound id))
      (fun e => FlowError.store (.transport e))
      (IsDecoded Run.ofRecord? (fun run => run)
        fun reason => FlowError.store (.malformed ledger.runs reason))
      ((ledger.getRun id).runWith (Correspondence.answer client settings server) c) := by
  have hended := Correspondence.runWith_act
    (Correspondence.answer_getOne h server c ledger.runs id {}) (ledger.gotten id)
  rw [getRun_eq, hended]
  refine Tells.of_reads rfl rfl (fun _ => rfl) (ledger.isDecoded_gotten id)
    (fun e heq => by cases heq) ?_
  rintro value (⟨run, -, heq⟩ | ⟨-, reason, heq⟩) <;> cases heq

end Ledger

/-! ## The web interface -/

namespace Api

/-- The answer is 404 exactly if the record is missing, 200 exactly if the store answers with a value
that can be read, and 500 in every other case. -/
structure Served (reply : Option Http.Reply) (IsLegible : Json → Prop) (response : Response) :
    Prop where
  notFound_iff : response.status = 404 ↔ IsMissing reply
  ok_iff : response.status = 200 ↔ ∃ value, Answers reply value ∧ IsLegible value
  failed : response.status ≠ 404 → response.status ≠ 200 → response.status = 500

theorem Served.of_tells {ε α : Type} {made : Option Http.Request} {absent : Except ε α}
    {fault : TransportError → ε} {IsResult : Json → Except ε α → Prop}
    {ended : Except ε α × Correspondence} {IsLegible : Json → Prop}
    (respond : Except ε α → Response)
    (h : Tells made server c absent fault IsResult ended)
    (habsent : (respond absent).status = 404)
    (hfault : ∀ e, (respond (.error (fault e))).status = 500)
    (hresult : ∀ {value result}, IsResult value result →
      IsLegible value ∧ (respond result).status = 200 ∨
        ¬ IsLegible value ∧ (respond result).status = 500) :
    Served (made.bind server) IsLegible (respond ended.1) := by
  have hmissing : IsMissing (made.bind server) → (respond ended.1).status = 404 := by
    intro hcase
    rw [h.absent_iff.mpr hcase, habsent]
  have hbroken : IsBroken (made.bind server) → (respond ended.1).status = 500 := by
    intro hcase
    obtain ⟨e, hended⟩ := h.fault_of_broken hcase
    rw [hended, hfault]
  have hcases : ∀ {code : Nat}, (respond ended.1).status = code →
      code = 404 ∧ IsMissing (made.bind server) ∨ code = 500 ∨
        code = 200 ∧ ∃ value, Answers (made.bind server) value ∧ IsLegible value := by
    rintro _ rfl
    obtain hcase | hcase | ⟨value, hcase⟩ := missing_broken_or_answers (made.bind server)
    · exact Or.inl ⟨hmissing hcase, hcase⟩
    · exact Or.inr (Or.inl (hbroken hcase))
    · obtain ⟨hlegible, hok⟩ | ⟨-, hfailed⟩ := hresult (h.result_of_answers hcase)
      · exact Or.inr (Or.inr ⟨hok, value, hcase, hlegible⟩)
      · exact Or.inr (Or.inl hfailed)
  refine ⟨⟨fun hstatus => ?_, hmissing⟩, ⟨fun hstatus => ?_, ?_⟩, fun hnotMissing hnotOk => ?_⟩
  · obtain ⟨-, hcase⟩ | hcode | ⟨hcode, -⟩ := hcases hstatus
    · exact hcase
    · cases hcode
    · cases hcode
  · obtain ⟨hcode, -⟩ | hcode | ⟨-, hcase⟩ := hcases hstatus
    · cases hcode
    · cases hcode
    · exact hcase
  · rintro ⟨value, hcase, hlegible⟩
    obtain ⟨-, hok⟩ | ⟨hnot, -⟩ := hresult (h.result_of_answers hcase)
    · exact hok
    · exact absurd hlegible hnot
  · obtain ⟨hcode, -⟩ | hcode | ⟨hcode, -⟩ := hcases rfl
    · exact absurd hcode hnotMissing
    · exact hcode
    · exact absurd hcode hnotOk

def flowAnswer (id : String) : Except StoreError (Option Flow) → Response
  | .error e => failure (.store e)
  | .ok none => flowNotFound id
  | .ok (some flow) => .ok 200 flow.toJson

theorem getFlow_eq (engine : Engine) (id : String) :
    getFlow engine id =
      engine.settings.library.get? id >>= fun got => pure (flowAnswer id got) := by
  refine congrArg (engine.settings.library.get? id >>= ·) (funext fun got => ?_)
  rcases got with e | found
  · rfl
  · cases found <;> rfl

def archiveAnswer (id : String) : Except StoreError Bool → Response
  | .error e => failure (.store e)
  | .ok false => flowNotFound id
  | .ok true => .ok 200 (.object [("message", .string "Flow archived")])

theorem archiveFlow_eq (engine : Engine) (id : String) :
    archiveFlow engine id =
      engine.settings.library.archive id >>= fun told => pure (archiveAnswer id told) := by
  refine congrArg (engine.settings.library.archive id >>= ·) (funext fun told => ?_)
  rcases told with e | found
  · rfl
  · cases found <;> rfl

def runAnswer : Except FlowError Run → Response
  | .error e => failure e
  | .ok run => .ok 200 run.toJson

theorem getRun_eq (engine : Engine) (id : String) :
    getRun engine id = engine.settings.ledger.getRun id >>= fun got => pure (runAnswer got) := by
  refine congrArg (engine.settings.ledger.getRun id >>= ·) (funext fun got => ?_)
  cases got <;> rfl

variable {engine : Engine} {request : Request}

theorem answer_getRun (h : request.route? = some (.getRun id)) :
    answer engine request = getRun engine id := by
  rw [answer, h]

theorem served_getFlow (h : settings.records? client = some gateway)
    (hroute : request.route? = some (.getFlow id)) :
    Served ((engine.settings.library.reading? gateway id).bind server)
      (fun value => (Flow.ofRecord? value).isSome = true)
      ((answer engine request).runWith (Correspondence.answer client settings server) c).1 := by
  rw [answer_getFlow hroute, getFlow_eq, Program.runWith_bind]
  refine Served.of_tells (flowAnswer id) (Library.tells_get? h engine.settings.library) rfl
    (fun _ => rfl) ?_
  rintro value result (⟨flow, hread, rfl⟩ | ⟨hread, reason, rfl⟩)
  · exact Or.inl ⟨by rw [hread]; rfl, rfl⟩
  · exact Or.inr ⟨by rw [hread]; exact Bool.false_ne_true, rfl⟩

theorem served_archiveFlow (h : settings.records? client = some gateway)
    (hroute : request.route? = some (.archiveFlow id)) :
    Served ((engine.settings.library.archiving? gateway id).bind server) (fun _ => True)
      ((answer engine request).runWith (Correspondence.answer client settings server) c).1 := by
  rw [answer_archiveFlow hroute, archiveFlow_eq, Program.runWith_bind]
  refine Served.of_tells (archiveAnswer id) (Library.tells_archive h engine.settings.library) rfl
    (fun _ => rfl) ?_
  rintro value result rfl
  exact Or.inl ⟨trivial, rfl⟩

theorem served_getRun (h : settings.records? client = some gateway)
    (hroute : request.route? = some (.getRun id)) :
    Served ((engine.settings.ledger.reading? gateway id).bind server)
      (fun value => (Run.ofRecord? value).isSome = true)
      ((answer engine request).runWith (Correspondence.answer client settings server) c).1 := by
  rw [answer_getRun hroute, getRun_eq, Program.runWith_bind]
  refine Served.of_tells runAnswer (Ledger.tells_getRun h engine.settings.ledger) rfl
    (fun _ => rfl) ?_
  rintro value result (⟨run, hread, rfl⟩ | ⟨hread, reason, rfl⟩)
  · exact Or.inl ⟨by rw [hread]; rfl, rfl⟩
  · exact Or.inr ⟨by rw [hread]; exact Bool.false_ne_true, rfl⟩

end Api

/-! ## From end to end -/

/-- With the records in a hosted store, whatever it replies to the one request that each of these
makes: looking for a flow, archiving it and looking for a run find nothing exactly if the reply has
the status 404, end with an error of the provider if the store is broken, and otherwise with what is
read from the reply or the error that it is malformed.  The requests to the web interface that do so
are answered with 404, 500 and 200 accordingly. -/
theorem missing_told_from_broken (h : settings.records? client = some gateway)
    (server : Http.Request → Option Http.Reply) (c : Correspondence) (engine : Engine)
    (id : String) :
    Tells (engine.settings.library.reading? gateway id) server c (.ok none) StoreError.transport
        (IsDecoded Flow.ofRecord? some (StoreError.malformed engine.settings.library.collection))
        ((engine.settings.library.get? id).runWith (Correspondence.answer client settings server) c) ∧
      Tells (engine.settings.library.archiving? gateway id) server c (.ok false)
        StoreError.transport (fun _ result => result = .ok true)
        ((engine.settings.library.archive id).runWith (Correspondence.answer client settings server) c) ∧
      Tells (engine.settings.ledger.reading? gateway id) server c (.error (.runNotFound id))
        (fun e => FlowError.store (.transport e))
        (IsDecoded Run.ofRecord? (fun run => run)
          fun reason => FlowError.store (.malformed engine.settings.ledger.runs reason))
        ((Engine.getRun engine id).runWith (Correspondence.answer client settings server) c) ∧
      (∀ request : Api.Request, request.route? = some (.getFlow id) →
        Api.Served ((engine.settings.library.reading? gateway id).bind server)
          (fun value => (Flow.ofRecord? value).isSome = true)
          ((Api.answer engine request).runWith (Correspondence.answer client settings server) c).1) ∧
      (∀ request : Api.Request, request.route? = some (.archiveFlow id) →
        Api.Served ((engine.settings.library.archiving? gateway id).bind server) (fun _ => True)
          ((Api.answer engine request).runWith (Correspondence.answer client settings server) c).1) ∧
      ∀ request : Api.Request, request.route? = some (.getRun id) →
        Api.Served ((engine.settings.ledger.reading? gateway id).bind server)
          (fun value => (Run.ofRecord? value).isSome = true)
          ((Api.answer engine request).runWith (Correspondence.answer client settings server) c).1 :=
  ⟨Library.tells_get? h engine.settings.library, Library.tells_archive h engine.settings.library,
    Ledger.tells_getRun h engine.settings.ledger, fun _ hroute => Api.served_getFlow h hroute,
    fun _ hroute => Api.served_archiveFlow h hroute, fun _ hroute => Api.served_getRun h hroute⟩

/-- One request, to a store that has no such record and to one that is out of order. -/
theorem missing_told_from_broken_hosted :
    ∃ (settings : GatewaySettings) (request : Api.Request),
      settings.pocketbaseUrl = some "http://127.0.0.1:8090/pb/" ∧
        settings.records? .plain = some { client := .plain, base := "http://127.0.0.1:8090/pb" } ∧
        request.route? = some (.getFlow "f1") ∧
        ((Api.answer Service.bare request).runWith
          (Correspondence.answer .plain settings fun _ => some ⟨404, "down"⟩) {}).1.status = 404 ∧
        ((Api.answer Service.bare request).runWith
          (Correspondence.answer .plain settings fun _ => some ⟨503, "404"⟩) {}).1.status = 500 := by
  have hbase : GatewaySettings.base "http://127.0.0.1:8090/pb/" = "http://127.0.0.1:8090/pb" := by
    decide +kernel
  obtain ⟨settings, hurl, h⟩ : ∃ settings : GatewaySettings,
      settings.pocketbaseUrl = some "http://127.0.0.1:8090/pb/" ∧
        settings.records? .plain =
          some { client := .plain, base := "http://127.0.0.1:8090/pb" } :=
    ⟨{ pocketbaseUrl := some "http://127.0.0.1:8090/pb/" }, rfl, by rw [← hbase]; rfl⟩
  have hmade : (Service.bare.settings.library.reading?
      { client := .plain, base := "http://127.0.0.1:8090/pb" } "f1").isSome = true := by
    decide +kernel
  obtain ⟨made, hmade⟩ := Option.isSome_iff_exists.mp hmade
  obtain ⟨request, hroute⟩ : ∃ request : Api.Request, request.route? = some (.getFlow "f1") :=
    ⟨{ method := "GET", path := "/api/flows/f1" }, by decide +kernel⟩
  obtain ⟨-, -, -, hmissing, -⟩ :=
    missing_told_from_broken h (fun _ => some ⟨404, "down"⟩) {} Service.bare "f1"
  obtain ⟨-, -, -, hbroken, -⟩ :=
    missing_told_from_broken h (fun _ => some ⟨503, "404"⟩) {} Service.bare "f1"
  refine ⟨settings, request, hurl, h, hroute, (hmissing request hroute).notFound_iff.mpr ?_,
    (hbroken request hroute).failed (fun hstatus => ?_) fun hstatus => ?_⟩
  · rw [hmade]
    exact ⟨_, rfl, rfl⟩
  · obtain ⟨reply, hreply, hcode⟩ := (hbroken request hroute).notFound_iff.mp hstatus
    rw [hmade] at hreply
    obtain rfl := Option.some.inj hreply
    cases hcode
  · obtain ⟨value, hanswers, -⟩ := (hbroken request hroute).ok_iff.mp hstatus
    rw [hmade] at hanswers
    cases hanswers with
    | blank hsuccess => cases hsuccess
    | data hsuccess => cases hsuccess

end FlowEngine
