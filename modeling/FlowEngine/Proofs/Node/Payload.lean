import FlowEngine.Node.Standard
import FlowEngine.Proofs.Execution.Visit
import FlowEngine.Proofs.Json.Filling
/-!
# `FlowEngine.Proofs.Node.Payload` — what a node writes to the store

A node that writes a record may be given the data of it as a text, and placeholders are filled in
this text before it is read.  Nothing is escaped on the way: whether the record has the shape of the
text depends on what is put in.  As long as that may stand between quotes as it is, names, nesting
and every value but the texts are those of the document, and each text is the text of the document
with its placeholders replaced.  A quote in the data of an event is enough to add a field.
-/

namespace FlowEngine

namespace Document

variable {cs rest : List Char} {room : Nat} {draft : Draft} {fields : Json.Members} {s : String}

theorem Reads.brace (h : Reads room (.value draft) cs rest)
    (hobject : draft.value = .object fields) : ∃ body, skipGaps cs = '\x7b' :: body := by
  cases h with
  | number _ hread =>
      obtain ⟨n, hliteral⟩ := literal_of_readNumber? hread
      obtain ⟨number, -, rfl⟩ := Option.map_eq_some_iff.mp (Document.literal.inj hliteral).symm
      cases hobject
  | word hword =>
      simp only [words, List.mem_cons, Prod.mk.injEq, List.not_mem_nil, or_false] at hword
      rcases hword with ⟨-, rfl⟩ | ⟨-, rfl⟩ | ⟨-, rfl⟩ <;> cases hobject
  | text => cases hobject
  | emptyArray => cases hobject
  | array => cases hobject
  | emptyObject hcs => exact ⟨_, hcs⟩
  | object hcs => exact ⟨_, hcs⟩

theorem Draft.Writes.isSome_nonBlank? (h : draft.Writes s)
    (hobject : draft.value = .object fields) : (Text.nonBlank? s).isSome = true := by
  obtain ⟨rest, hreads, -⟩ := h
  obtain ⟨body, hskip⟩ := hreads.brace hobject
  obtain ⟨gaps, hs, -⟩ := skipGaps_eq_cons_iff.mp hskip
  have hbrace : '\x7b' ∈ s.toList := by
    rw [hs]
    exact List.mem_append_right _ List.mem_cons_self
  exact Text.isSome_nonBlank? hbrace (by decide)

end Document

open Document Template

def Template.fillMember (data : Json) : Json → Json
  | .string s => .string (fill s data)
  | other => other

/-- The members of a configuration are filled, each where it is. -/
theorem Template.lookup_fillConfig_eq (config : Json.Members) (data : Json) (name : String) :
    Json.lookup name (fillConfig config data) =
      (Json.lookup name config).map (fillMember data) := by
  induction config with
  | nil => rfl
  | cons member rest ih =>
      obtain ⟨key, value⟩ := member
      unfold fillConfig at ih ⊢
      rw [List.map_cons]
      by_cases hkey : key = name
      · cases value <;> simp [Json.lookup, hkey, fillMember]
      · cases value <;> simpa [Json.lookup, hkey] using ih

theorem Template.lookup_fillConfig {config : Json.Members} {data : Json} {name s : String}
    (h : Json.lookup name config = some (.string s)) :
    Json.lookup name (fillConfig config data) = some (.string (fill s data)) := by
  rw [lookup_fillConfig_eq, h]
  rfl

theorem NodeContext.document?_eq_of_parse? {ctx : NodeContext} {name s : String}
    {fields : Json.Members} (hs : Json.lookup name ctx.config = some (.string s))
    (hparse : Json.parse? s = some (.object fields)) :
    ctx.document? name = .ok (some (.object fields)) := by
  obtain ⟨draft, hdraft, hobject⟩ := Json.parse?_eq_some_iff.mp hparse
  obtain ⟨text, htext⟩ := Option.isSome_iff_exists.mp (hdraft.isSome_nonBlank? hobject)
  rw [document?, hs]
  simp only [htext, hparse]

namespace RecordNode

variable {draft : Draft} {fields : Json.Members} {s : String}

/-- The data of a record that is given as the text of an object. -/
theorem recordData_eq_of_text {ctx : NodeContext}
    (hs : Json.lookup "data" ctx.config = some (.string s)) (hdraft : draft.Writes s)
    (hobject : draft.value = .object fields) :
    recordData ctx = .ok (.object fields) := by
  have hparse : Json.parse? s = some (.object fields) :=
    Json.parse?_eq_some_iff.mpr ⟨draft, hdraft, hobject⟩
  rw [recordData, NodeContext.document?_eq_of_parse? hs hparse]

/-- Data that may stand between quotes as it is leaves a document as it is but for its texts: the
document with its texts filled is what a node takes for the record and hands to the store. -/
theorem payload_eq (executor : Executor) (run : Run) (node : Node) (data : Json)
    (hs : Json.lookup "data" node.config = some (.string s))
    (hdraft : draft.Writes s) (hobject : draft.value = .object fields)
    (hencloses : draft.Encloses s)
    (hplain : ∀ path, Occurs path s.toList → ∀ v,
      resolve? data (Text.trim (String.ofList path)) = some v →
        ∀ c ∈ (Json.render v).toList, Plain c) :
    Json.parse? s = some (.object fields) ∧
    recordData (node.seen run data) = .ok (draft.fill data).value ∧
    (draft.fill data).value.outline = (Json.object fields).outline ∧
    (∀ body ∈ draft.texts, Fills data body (spelled (filled data body)).toList) ∧
    (∀ collection, executor.registry.resolve? node.kind = some create →
      (node.seen run data).requireText "collection" = .ok collection →
      executor.invoke run node data =
        (Program.create collection (draft.fill data).value >>= fun reply => pure (written reply))) ∧
    (∀ collection id, executor.registry.resolve? node.kind = some update →
      (node.seen run data).requireText "collection" = .ok collection →
      (node.seen run data).requireText "id" = .ok id →
      executor.invoke run node data =
        (Program.update collection id (draft.fill data).value >>=
          fun reply => pure (written reply))) := by
  obtain ⟨hfilled, htexts⟩ := hdraft.fill hencloses hplain
  have houtline : (draft.fill data).value.outline = (Json.object fields).outline := by
    rw [Draft.outline_value_fill, hobject]
  obtain ⟨fields', hobject'⟩ : ∃ fields', (draft.fill data).value = .object fields' := by
    cases hvalue : (draft.fill data).value with
    | object fields' => exact ⟨fields', rfl⟩
    | _ => rw [hvalue] at houtline; cases houtline
  have hpayload : recordData (node.seen run data) = .ok (draft.fill data).value := by
    rw [hobject']
    exact recordData_eq_of_text (lookup_fillConfig hs) hfilled hobject'
  refine ⟨Json.parse?_eq_some_iff.mpr ⟨draft, hdraft, hobject⟩, hpayload, houtline, htexts, ?_, ?_⟩
  · intro collection hhandler hcollection
    have hinvoke : executor.invoke run node data = executeCreate (node.seen run data) := by
      rw [Executor.invoke, hhandler]
      rfl
    rw [hinvoke, executeCreate, hcollection, hpayload]
  · intro collection id hhandler hcollection hid
    have hinvoke : executor.invoke run node data = executeUpdate (node.seen run data) := by
      rw [Executor.invoke, hhandler]
      rfl
    rw [hinvoke, executeUpdate, hcollection, hid, hpayload]

/-! ## A form with one field -/

/-- The text of an object with a placeholder in its only field. -/
def addressForm : String := "\x7b\"email\": \"\x7b\x7binput.email\x7d\x7d\"\x7d"

def addressDraft : Draft := .object [("email".toList, .text (marked "input.email".toList))]

def addressNode : Node :=
  { id := "s", kind := "pb.create"
    config := [("collection", .string "contacts"), ("data", .string addressForm)] }

theorem toList_addressForm : addressForm.toList = '\x7b' :: ("\"email\": \"".toList ++
    (marked "input.email".toList ++ "\"\x7d".toList)) := by
  decide

theorem writes_addressForm : addressDraft.Writes addressForm := by
  have hname : Spells "email".toList "email".toList := .of_all (by decide)
  have hpath : Spells "input.email".toList "input.email".toList := .of_all (by decide)
  have hvalue : Reads 126 (.value (.text (marked "input.email".toList)))
      (' ' :: '"' :: (marked "input.email".toList ++ ['"', '\x7d'])) ['\x7d'] :=
    .text rfl (spells_marked hpath)
  have hcolon : skipGaps (':' :: ' ' :: '"' :: (marked "input.email".toList ++ ['"', '\x7d'])) =
      ':' :: ' ' :: '"' :: (marked "input.email".toList ++ ['"', '\x7d']) := rfl
  have hmembers : Reads 126 (.members [("email".toList, .text (marked "input.email".toList))])
      ("\"email\": \"".toList ++ (marked "input.email".toList ++ "\"\x7d".toList)) [] :=
    .lastMember rfl hname hcolon hvalue rfl
  refine ⟨[], .object ?_ hmembers, rfl⟩
  rw [toList_addressForm]
  rfl

theorem value_addressDraft :
    addressDraft.value = .object [("email", .string "\x7b\x7binput.email\x7d\x7d")] := by
  have htext : spelled (marked "input.email".toList) = "\x7b\x7binput.email\x7d\x7d" :=
    @spelled_of_all "\x7b\x7binput.email\x7d\x7d" (by decide)
  rw [addressDraft, Draft.value, Draft.memberValues, Draft.value, spelled_of_all (by decide), htext]
  rfl

theorem occurs_addressForm {path : List Char} (h : Occurs path addressForm.toList) :
    path = "input.email".toList := by
  rw [toList_addressForm, occurs_cons_iff rfl, occurs_append_iff (by decide),
    occurs_marked_append_iff (by decide) (by decide)] at h
  refine h.resolve_right fun hback => not_occurs_nil path ?_
  rwa [← List.append_nil "\"\x7d".toList, occurs_append_iff (by decide)] at hback

theorem encloses_addressForm : addressDraft.Encloses addressForm where
  names := by
    intro name hname path hpath
    obtain rfl : name = "email".toList := List.mem_singleton.mp hname
    rw [← List.append_nil "email".toList, occurs_append_iff (by decide)] at hpath
    exact not_occurs_nil path hpath
  spelled := by
    intro path hpath
    rw [occurs_addressForm hpath]
    exact ⟨_, .of_all (by decide)⟩

/-- An address is put into the field. -/
theorem payload_addressForm :
    recordData (addressNode.seen (.queued "f" .manual false ⟨0, 0⟩)
        (.object [("email", .string "ada@example.org")])) =
      .ok (.object [("email", .string "ada@example.org")]) := by
  have hplain : ∀ path, Occurs path addressForm.toList → ∀ v,
      resolve? (.object [("email", .string "ada@example.org")])
          (Text.trim (String.ofList path)) = some v →
        ∀ c ∈ (Json.render v).toList, Plain c := by
    intro path hpath v hv
    rw [occurs_addressForm hpath] at hv
    obtain rfl : Json.string "ada@example.org" = v := Option.some.inj hv
    have hall : ("ada@example.org".toList.all fun c => decide (Plain c)) = true := by decide
    exact fun c hc => of_decide_eq_true (List.all_eq_true.mp hall c hc)
  obtain ⟨-, hpayload, -⟩ := payload_eq { registry := .standard }
    (.queued "f" .manual false ⟨0, 0⟩) addressNode (.object [("email", .string "ada@example.org")])
    rfl writes_addressForm value_addressDraft encloses_addressForm hplain
  have hfilled : filled (.object [("email", .string "ada@example.org")])
      (marked "input.email".toList) = "ada@example.org".toList := by
    decide +kernel
  rw [hpayload, addressDraft, Draft.fill, Draft.fillMembers, Draft.fill, hfilled, Draft.value,
    Draft.memberValues, Draft.value, spelled_of_all (by decide), spelled_of_all (by decide)]
  rfl

/-- What becomes of the form when the address ends the text that it is put into. -/
def attackedForm : String := "\x7b\"email\": \"x\", \"admin\": \"yes\"\x7d"

def attackedDraft : Draft :=
  .object [("email".toList, .text "x".toList), ("admin".toList, .text "yes".toList)]

theorem value_attackedDraft :
    attackedDraft.value = .object [("admin", .string "yes"), ("email", .string "x")] := by
  simp only [attackedDraft, Draft.value, Draft.memberValues]
  rw [spelled_of_all (by decide), spelled_of_all (by decide), spelled_of_all (by decide),
    spelled_of_all (by decide)]
  rfl

theorem writes_attackedForm : attackedDraft.Writes attackedForm := by
  have hspells : ∀ s : String, (s.toList.all fun c => decide (Plain c)) = true →
      Spells s.toList s.toList := fun s h => .of_all h
  have hyes : Reads 126 (.value (.text "yes".toList)) " \"yes\"\x7d".toList ['\x7d'] :=
    .text rfl (hspells "yes" (by decide))
  have hadmin : skipGaps ": \"yes\"\x7d".toList = ':' :: " \"yes\"\x7d".toList := rfl
  have hlast : Reads 126 (.members [("admin".toList, .text "yes".toList)])
      " \"admin\": \"yes\"\x7d".toList [] :=
    .lastMember rfl (hspells "admin" (by decide)) hadmin hyes rfl
  have hx : Reads 126 (.value (.text "x".toList)) " \"x\", \"admin\": \"yes\"\x7d".toList
      ", \"admin\": \"yes\"\x7d".toList :=
    .text rfl (hspells "x" (by decide))
  have hemail : skipGaps ": \"x\", \"admin\": \"yes\"\x7d".toList =
      ':' :: " \"x\", \"admin\": \"yes\"\x7d".toList := rfl
  have hmembers : Reads 126
      (.members [("email".toList, .text "x".toList), ("admin".toList, .text "yes".toList)])
      "\"email\": \"x\", \"admin\": \"yes\"\x7d".toList [] :=
    .member rfl (hspells "email" (by decide)) hemail hx rfl hlast
  exact ⟨[], .object rfl hmembers, rfl⟩

/-- An address with a quote in it ends the text that it is put into, and what follows is a field of
its own. -/
theorem outline_ne_of_quoted :
    addressDraft.Writes addressForm ∧ addressDraft.Encloses addressForm ∧
    addressDraft.value = .object [("email", .string "\x7b\x7binput.email\x7d\x7d")] ∧
    recordData (addressNode.seen (.queued "f" .manual false ⟨0, 0⟩)
        (.object [("email", .string "x\", \"admin\": \"yes")])) =
      .ok (.object [("admin", .string "yes"), ("email", .string "x")]) ∧
    (Json.object [("admin", .string "yes"), ("email", .string "x")]).outline ≠
      addressDraft.value.outline := by
  have hfilled : fill addressForm (.object [("email", .string "x\", \"admin\": \"yes")]) =
      attackedForm := by
    decide +kernel
  have hconfig : Json.lookup "data" (fillConfig addressNode.config
      (.object [("email", .string "x\", \"admin\": \"yes")])) = some (.string attackedForm) := by
    rw [← hfilled]
    exact lookup_fillConfig rfl
  refine ⟨writes_addressForm, encloses_addressForm, value_addressDraft,
    recordData_eq_of_text hconfig writes_attackedForm value_attackedDraft, ?_⟩
  rw [value_addressDraft]
  simp [Json.outline, Json.outlineMembers]

end RecordNode

end FlowEngine
