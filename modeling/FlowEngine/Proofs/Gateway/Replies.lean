import FlowEngine.Gateway.Exchange
/-!
# `FlowEngine.Proofs.Gateway.Replies` — what the reply about a record amounts to

A request for one record ends in one of three ways.  The record is missing, which is what the status
404 means and nothing else; the store is broken; or the store answers, with data or with nothing
(`missing_broken_or_answers`).  Whoever asks sees which of them it was (`readRecord_of_missing` and
the two lemmas behind it), so that a caller that tells the errors of the store apart tells the three
apart as well (`Tells.of_reads`).
-/

namespace FlowEngine

namespace Http

/-- The request was answered with the status for what does not exist. -/
def IsMissing (reply : Option Reply) : Prop := ∃ r ∈ reply, r.status = 404

/-- The store is of no use: there is no connection, or it answers with another status than those of
success, or with a text that is no data. -/
inductive IsBroken : Option Reply → Prop where
  | unconnected : IsBroken none
  | refused {reply : Reply} : reply.isSuccess = false → reply.status ≠ 404 → IsBroken (some reply)
  | unreadable {reply : Reply} : reply.isSuccess = true → Text.nonBlank? reply.text ≠ none →
      Json.parse? reply.text = none → IsBroken (some reply)

/-- The store answers with a value; a blank text is null. -/
inductive Answers : Option Reply → Json → Prop where
  | blank {reply : Reply} : reply.isSuccess = true → Text.nonBlank? reply.text = none →
      Answers (some reply) .null
  | data {reply : Reply} {value : Json} : reply.isSuccess = true →
      Text.nonBlank? reply.text ≠ none → Json.parse? reply.text = some value →
      Answers (some reply) value

variable {reply : Option Reply} {value : Json}

theorem missing_broken_or_answers (reply : Option Reply) :
    IsMissing reply ∨ IsBroken reply ∨ ∃ value, Answers reply value := by
  cases reply with
  | none => exact Or.inr (Or.inl .unconnected)
  | some r =>
      cases hsuccess : r.isSuccess with
      | false =>
          by_cases hmissing : r.status = 404
          · exact Or.inl ⟨r, rfl, hmissing⟩
          · exact Or.inr (Or.inl (.refused hsuccess hmissing))
      | true =>
          by_cases hblank : Text.nonBlank? r.text = none
          · exact Or.inr (Or.inr ⟨_, .blank hsuccess hblank⟩)
          · cases hparse : Json.parse? r.text with
            | none => exact Or.inr (Or.inl (.unreadable hsuccess hblank hparse))
            | some value => exact Or.inr (Or.inr ⟨value, .data hsuccess hblank hparse⟩)

/-! ## Errors of the provider -/

variable {provider : String}

theorem received?_of_not_isSuccess {reply : Reply} (h : reply.isSuccess = false) :
    received? provider (some reply) = .error (.status provider reply.status reply.text) := by
  rw [received?, Reply.json, h]
  rfl

/-- A broken store gives an error that is no status, or another status than the one for what does not
exist. -/
theorem received?_of_broken (provider : String) (h : IsBroken reply) :
    ∃ e, received? provider reply = .error e ∧
      ∀ sender code body, e = .status sender code body → code ≠ 404 := by
  cases h with
  | unconnected => exact ⟨_, rfl, fun _ _ _ h => by cases h⟩
  | refused hsuccess hstatus =>
      refine ⟨_, received?_of_not_isSuccess hsuccess, fun sender code body h => ?_⟩
      injection h with _ hcode
      exact hcode ▸ hstatus
  | unreadable hsuccess hblank hparse =>
      refine ⟨.decode provider unreadableText, ?_, fun _ _ _ h => by cases h⟩
      simp [received?, Reply.json, hsuccess, hblank, hparse]

theorem received?_of_answers (h : Answers reply value) : received? provider reply = .ok value := by
  cases h with
  | blank hsuccess hblank => simp [received?, Reply.json, hsuccess, hblank]
  | data hsuccess hblank hparse => simp [received?, Reply.json, hsuccess, hblank, hparse]

end Http

namespace RecordGateway

open Http (IsMissing IsBroken Answers missing_broken_or_answers)

/-! ## Errors of the store -/

variable {collection id : String} {reply : Option Http.Reply} {value : Json}

theorem readRecord_of_missing (h : IsMissing reply) :
    readRecord collection id reply = .error (.notFound collection id) := by
  obtain ⟨r, rfl, hstatus⟩ := h
  have hsuccess : r.isSuccess = false := by
    rw [Http.Reply.isSuccess, hstatus]
    rfl
  rw [readRecord, Http.received?_of_not_isSuccess hsuccess, hstatus]
  rfl

theorem readRecord_of_broken (h : IsBroken reply) :
    ∃ e, readRecord collection id reply = .error (.transport e) := by
  obtain ⟨e, hreceived, hcode⟩ := Http.received?_of_broken provider h
  refine ⟨e, ?_⟩
  rw [readRecord, hreceived]
  split
  · next heq => cases heq
  · next heq => exact absurd rfl (hcode _ _ _ (Except.error.inj heq))
  · next heq => rw [Except.error.inj heq]

theorem readRecord_of_answers (h : Answers reply value) :
    readRecord collection id reply = .ok value := by
  rw [readRecord, Http.received?_of_answers h]

/-! ## Callers that tell the errors of the store apart -/

/-- Who asks with the request gets, from one request at most, a result of its own (`absent`) exactly
if the record is missing, an error of the provider if the store is broken, and what it makes of the
value if the store answers. -/
structure Tells {ε α : Type} (made : Option Http.Request)
    (server : Http.Request → Option Http.Reply) (c : Correspondence) (absent : Except ε α)
    (fault : TransportError → ε) (IsResult : Json → Except ε α → Prop)
    (ended : Except ε α × Correspondence) : Prop where
  requests : ended.2.requests = made.toList ++ c.requests
  absent_iff : ended.1 = absent ↔ IsMissing (made.bind server)
  fault_of_broken : IsBroken (made.bind server) → ∃ e, ended.1 = .error (fault e)
  result_of_answers : ∀ {value}, Answers (made.bind server) value → IsResult value ended.1

section Tells

variable {ε α : Type} {made : Option Http.Request} {server : Http.Request → Option Http.Reply}
  {c c' : Correspondence} {absent : Except ε α} {fault : TransportError → ε}
  {IsResult : Json → Except ε α → Prop} {result : Except StoreError Json → Except ε α}

/-- It is enough to give each answer of the store a result of its own kind. -/
theorem Tells.of_reads (hrequests : c'.requests = made.toList ++ c.requests)
    (hmissing : result (.error (.notFound collection id)) = absent)
    (hfault : ∀ e, result (.error (.transport e)) = .error (fault e))
    (hresult : ∀ value, IsResult value (result (.ok value)))
    (hfaultNe : ∀ e, .error (fault e) ≠ absent) (hresultNe : ∀ value, ¬ IsResult value absent) :
    Tells made server c absent fault IsResult
      (result (readRecord collection id (made.bind server)), c') where
  requests := hrequests
  absent_iff := by
    constructor
    · intro habsent
      obtain hcase | hcase | ⟨value, hcase⟩ := missing_broken_or_answers (made.bind server)
      · exact hcase
      · obtain ⟨e, hread⟩ := readRecord_of_broken hcase
        rw [hread, hfault] at habsent
        exact absurd habsent (hfaultNe e)
      · rw [readRecord_of_answers hcase] at habsent
        exact absurd (habsent ▸ hresult value) (hresultNe value)
    · intro hcase
      rw [readRecord_of_missing hcase, hmissing]
  fault_of_broken := fun hcase => by
    obtain ⟨e, hread⟩ := readRecord_of_broken hcase
    exact ⟨e, by rw [hread, hfault]⟩
  result_of_answers := fun hcase => by
    rw [readRecord_of_answers hcase]
    exact hresult _

end Tells

end RecordGateway

/-! ## Programs that ask for one record -/

namespace Correspondence

variable {β : Type} {client : Http.Client} {settings : GatewaySettings} {gateway : RecordGateway}

/-- A request is sent if it can be made, and the reply to it is read; nothing else changes. -/
theorem ask_eq {α : Type} (c : Correspondence) (made : Option Http.Request)
    (server : Http.Request → Option Http.Reply) (read : Option Http.Reply → α) :
    c.ask made server read =
      (read (made.bind server), { c with requests := made.toList ++ c.requests }) := by
  cases made <;> rfl

theorem answer_getOne (h : settings.records? client = some gateway)
    (server : Http.Request → Option Http.Reply) (c : Correspondence) (collection id : String)
    (options : FetchOptions) :
    answer client settings server (.getOne collection id options) c =
      (RecordGateway.readRecord collection id
        ((gateway.getOneRequest? collection id options).bind server),
        { c with
          requests := (gateway.getOneRequest? collection id options).toList ++ c.requests }) := by
  simp only [answer, h]
  exact ask_eq c _ server _

theorem answer_update (h : settings.records? client = some gateway)
    (server : Http.Request → Option Http.Reply) (c : Correspondence) (collection id : String)
    (data : Json) :
    answer client settings server (.update collection id data) c =
      (RecordGateway.readRecord collection id
        ((gateway.updateRequest? collection id data).bind server),
        { c with
          requests := (gateway.updateRequest? collection id data).toList ++ c.requests }) := by
  simp only [answer, h]
  exact ask_eq c _ server _

theorem runWith_act {server : Http.Request → Option Http.Reply} {c c' : Correspondence}
    {action : Action} {reply : action.Reply}
    (h : answer client settings server action c = (reply, c')) (result : action.Reply → β) :
    (Program.act action fun reply => .done (result reply)).runWith (answer client settings server) c =
      (result reply, c') := by
  rw [Program.runWith, h]
  rfl

end Correspondence

end FlowEngine
