import FlowEngine.Proofs.Json.Splicing
import FlowEngine.Proofs.Node.Payload
/-!
# `FlowEngine.Proofs.Node.Reshaping` — a template given as data and as text

A node that builds new data is given its template as an object or as the text of one.  The object
is filled once, text by text.  The text is filled before it is read, with the rest of the
configuration, and what is read from it is filled again.  Both give the same as long as data fits
between the quotes that it is put between and makes no placeholder there (`forms_agree`).  Nothing
sees to that: data may end the text that it is put into, it may hold a placeholder, and it may be put
into a name (`forms_differ`).
-/

namespace FlowEngine

open Document Json Template

namespace Reshape

variable {executor : Executor} {node : Node} {members : Json.Members}

theorem invoke_eq (run : Run) (data : Json)
    (hkind : executor.registry.resolve? node.kind = some handler)
    (hdocument : (node.seen run data).document? "template" = .ok (some (.object members))) :
    executor.invoke run node data = pure (.ok { output := fillValue data (.object members) }) := by
  have hinvoke : executor.invoke run node data = execute (node.seen run data) := by
    rw [Executor.invoke, hkind]
    rfl
  rw [hinvoke, execute, hdocument]
  rfl

theorem invoke_of_object (run : Run) (data : Json)
    (hkind : executor.registry.resolve? node.kind = some handler)
    (hobject : Json.lookup "template" node.config = some (.object members)) :
    executor.invoke run node data = pure (.ok { output := fillValue data (.object members) }) := by
  refine invoke_eq run data hkind ?_
  have hlookup : Json.lookup "template" (node.seen run data).config = some (.object members) := by
    rw [Node.seen, lookup_fillConfig_eq, hobject]
    rfl
  rw [NodeContext.document?, hlookup]

theorem invoke_of_text {s : String} (run : Run) (data : Json)
    (hkind : executor.registry.resolve? node.kind = some handler)
    (htext : Json.lookup "template" node.config = some (.string s))
    (hparse : Json.parse? (fill s data) = some (.object members)) :
    executor.invoke run node data = pure (.ok { output := fillValue data (.object members) }) :=
  invoke_eq run data hkind (NodeContext.document?_eq_of_parse? (lookup_fillConfig htext) hparse)

/-- A template that is given as an object is filled once, and one that is given as the compact text
of this object comes to the same, if the reader gives the object back, no name has a placeholder
that leads to a value, what is put in means the same between quotes, as does the path that leads to
it, and it does not matter which placeholders of a text are filled first. -/
theorem forms_agree (executor : Executor) (run : Run) (given written : Node) (data : Json)
    (hgiven : executor.registry.resolve? given.kind = some handler)
    (hwritten : executor.registry.resolve? written.kind = some handler)
    (hobject : Json.lookup "template" given.config = some (.object members))
    (htext : Json.lookup "template" written.config = some (.string (compact (.object members)))) :
    executor.invoke run given data = pure (.ok { output := fillValue data (.object members) }) ∧
    ((Json.object members).Legible maxDepth →
      (∀ inner, .object inner ∈ (Json.object members).parts → ∀ member ∈ inner, ∀ path,
        Occurs path (escaped member.1.toList) →
          resolve? data (Text.trim (String.ofList path)) = none) →
      Verbatim data (compact (.object members)).toList →
      (∀ s, .string s ∈ (Json.object members).parts → Settled data s.toList) →
      executor.invoke run written data =
        pure (.ok { output := fillValue data (.object members) })) := by
  refine ⟨invoke_of_object run data hgiven hobject, ?_⟩
  intro hlegible hnames hverbatim htexts
  obtain ⟨v, hfilled, hv⟩ := exists_fill_compact hverbatim ⟨hnames, htexts, hlegible.exact⟩
  obtain ⟨members', rfl⟩ : ∃ members', v = .object members' := by
    have houtline := hv.outline
    cases v with
    | object members' => exact ⟨members', rfl⟩
    | _ => cases houtline
  have hparse : Json.parse? (fill (compact (.object members)) data) = some (.object members') := by
    rw [hfilled]
    exact parse?_compact (hlegible.of_outline_eq hv.outline)
  rw [invoke_of_text run data hwritten htext hparse, hv.filled]

/-! ## Small templates -/

def shapeNode (template : Json) : Node :=
  { id := "s", kind := "map.transform", config := [("template", template)] }

def shaped (template data : Json) : Program (Except NodeError NodeOutput) :=
  ({ registry := .standard } : Executor).invoke (.queued "f" .manual false ⟨0, 0⟩)
    (shapeNode template) data

def orderForm : Json.Members :=
  [("count", .number (.integer 1)), ("name", .string "\x7b\x7binput.name\x7d\x7d")]

def ada : Json := .object [("name", .string "Ada")]

def adaOrder : Json.Members := [("count", .number (.integer 1)), ("name", .string "Ada")]

theorem parts_orderForm : (Json.object orderForm).parts =
    [.object orderForm, .number (.integer 1), .string "\x7b\x7binput.name\x7d\x7d"] := rfl

theorem legible_orderForm : (Json.object orderForm).Legible maxDepth where
  shallow := by decide
  sorted := by
    intro members hmem
    rw [parts_orderForm] at hmem
    obtain rfl : members = orderForm := by simpa using hmem
    decide
  exact := by
    intro n hmem
    rw [parts_orderForm] at hmem
    obtain rfl : n = .integer 1 := by simpa using hmem
    rfl

theorem occurs_orderForm {path : List Char}
    (h : Occurs path (compact (.object orderForm)).toList) : path = "input.name".toList := by
  have htext : (compact (.object orderForm)).toList = '\x7b' :: ("\"count\":1,\"name\":\"".toList ++
      (marked "input.name".toList ++ ("\"\x7d".toList ++ []))) := by
    decide +kernel
  rw [htext, occurs_cons_iff rfl, occurs_append_iff (by decide),
    occurs_marked_append_iff (by decide) (by decide)] at h
  refine h.resolve_right fun hback => not_occurs_nil path ?_
  rwa [occurs_append_iff (by decide)] at hback

/-- A name is put into the form that is given as its text. -/
theorem forms_agree_orderForm :
    shaped (.string (compact (.object orderForm))) ada =
      pure (.ok { output := .object adaOrder }) := by
  have hnames : ∀ inner, .object inner ∈ (Json.object orderForm).parts → ∀ member ∈ inner, ∀ path,
      Occurs path (escaped member.1.toList) →
        resolve? ada (Text.trim (String.ofList path)) = none := by
    intro inner hinner member hmember path hpath
    rw [parts_orderForm] at hinner
    obtain rfl : inner = orderForm := by simpa using hinner
    refine absurd ?_ (not_occurs_nil path)
    have hbraces : '\x7b' ∉ escaped member.1.toList := by
      rcases List.mem_cons.mp hmember with rfl | hmember
      · decide
      · rw [List.mem_singleton.mp hmember]
        decide
    rwa [← List.append_nil (escaped member.1.toList), occurs_append_iff hbraces] at hpath
  have hvalue : ∀ path, path = "input.name".toList → ∀ v,
      resolve? ada (Text.trim (String.ofList path)) = some v → v = .string "Ada" := by
    rintro path rfl v hv
    exact (Option.some.inj hv).symm
  have hverbatim : Verbatim ada (compact (.object orderForm)).toList := by
    intro path hpath v hv
    obtain rfl := occurs_orderForm hpath
    obtain rfl := hvalue _ rfl v hv
    have hpath : ("input.name".toList.all fun c => decide (Plain c)) = true := by decide
    have hname : ("Ada".toList.all fun c => decide (Plain c)) = true := by decide
    exact ⟨fun c hc => of_decide_eq_true (List.all_eq_true.mp hpath c hc),
      fun c hc => of_decide_eq_true (List.all_eq_true.mp hname c hc)⟩
  have htexts : ∀ s, .string s ∈ (Json.object orderForm).parts → Settled ada s.toList := by
    intro s hs
    rw [parts_orderForm] at hs
    obtain rfl : s = "\x7b\x7binput.name\x7d\x7d" := by simpa using hs
    refine settled_of_forall fun path hpath v hv => ?_
    have hmarked :
        "\x7b\x7binput.name\x7d\x7d".toList = marked "input.name".toList ++ [] := by
      decide
    rw [hmarked, occurs_marked_append_iff (by decide) (by decide)] at hpath
    obtain rfl := hvalue path (hpath.resolve_right (not_occurs_nil path)) v hv
    exact ⟨by decide, by decide, by decide⟩
  obtain ⟨-, htext⟩ := forms_agree { registry := .standard } (.queued "f" .manual false ⟨0, 0⟩)
    (shapeNode (.object orderForm)) (shapeNode (.string (compact (.object orderForm))))
    ada rfl rfl rfl rfl
  have hfilled : fillValue ada (.object orderForm) = .object adaOrder := rfl
  rw [shaped, htext legible_orderForm hnames hverbatim htexts, hfilled]

def textual (members : List (String × String)) : Json :=
  .object (members.map fun member => (member.1, .string member.2))

theorem legible_textual {members : List (String × String)}
    (h : (members.map Prod.fst).Pairwise (· < ·)) : (textual members).Legible maxDepth := by
  have hdepth : ∀ members : List (String × String),
      depthMembers (members.map fun member => (member.1, .string member.2)) = 0 := by
    intro members
    induction members with
    | nil => rfl
    | cons member rest ih =>
        rw [List.map_cons, depthMembers, depth, ih]
        rfl
  have hparts : ∀ members : List (String × String), ∀ x ∈
      partsMembers (members.map fun member => (member.1, .string member.2)),
        ∃ s, x = .string s := by
    intro members
    induction members with
    | nil => exact fun x hx => absurd hx List.not_mem_nil
    | cons member rest ih =>
        intro x hx
        rcases List.mem_cons.mp hx with rfl | hx
        · exact ⟨member.2, rfl⟩
        · exact ih x hx
  refine ⟨?_, ?_, ?_⟩
  · rw [textual, depth, hdepth]
    decide
  · intro inner hinner
    rcases List.mem_cons.mp hinner with heq | hinner
    · rw [Json.object.inj heq, Sorted, List.map_map]
      exact h
    · obtain ⟨s, heq⟩ := hparts members _ hinner
      cases heq
  · intro n hn
    obtain ⟨s, heq⟩ := hparts members _ ((List.mem_cons.mp hn).resolve_left (by simp))
    cases heq

theorem shaped_textual (members : List (String × String)) (data : Json) :
    shaped (textual members) data =
      pure (.ok { output := fillValue data (textual members) }) :=
  invoke_of_object _ data rfl rfl

theorem shaped_of_fill {text : String} {data : Json} (members : List (String × String))
    (hfill : fill text data = (textual members).compact)
    (hsorted : (members.map Prod.fst).Pairwise (· < ·)) :
    shaped (.string text) data = pure (.ok { output := fillValue data (textual members) }) := by
  refine invoke_of_text _ data rfl rfl ?_
  rw [hfill]
  exact parse?_compact (legible_textual hsorted)

/-- The two forms of a template differ where a value ends the text that it is put into, where it
holds a placeholder, and where it is put into a name. -/
theorem forms_differ :
    (shaped (textual [("a", "\x7b\x7binput.x\x7d\x7d")]) (textual [("x", "1\",\"b\":\"2")]) =
        pure (.ok { output := textual [("a", "1\",\"b\":\"2")] }) ∧
      shaped (.string (textual [("a", "\x7b\x7binput.x\x7d\x7d")]).compact)
          (textual [("x", "1\",\"b\":\"2")]) =
        pure (.ok { output := textual [("a", "1"), ("b", "2")] }) ∧
      textual [("a", "1\",\"b\":\"2")] ≠ textual [("a", "1"), ("b", "2")]) ∧
    (shaped (textual [("a", "\x7b\x7binput.x\x7d\x7d")])
          (textual [("x", "\x7b\x7binput.y\x7d\x7d"), ("y", "z")]) =
        pure (.ok { output := textual [("a", "\x7b\x7binput.y\x7d\x7d")] }) ∧
      shaped (.string (textual [("a", "\x7b\x7binput.x\x7d\x7d")]).compact)
          (textual [("x", "\x7b\x7binput.y\x7d\x7d"), ("y", "z")]) =
        pure (.ok { output := textual [("a", "z")] }) ∧
      textual [("a", "\x7b\x7binput.y\x7d\x7d")] ≠ textual [("a", "z")]) ∧
    (shaped (textual [("\x7b\x7binput.x\x7d\x7d", "a")]) (textual [("x", "b")]) =
        pure (.ok { output := textual [("\x7b\x7binput.x\x7d\x7d", "a")] }) ∧
      shaped (.string (textual [("\x7b\x7binput.x\x7d\x7d", "a")]).compact) (textual [("x", "b")]) =
        pure (.ok { output := textual [("b", "a")] }) ∧
      textual [("\x7b\x7binput.x\x7d\x7d", "a")] ≠ textual [("b", "a")]) := by
  refine ⟨⟨shaped_textual _ _, ?_, by simp [textual]⟩, ⟨shaped_textual _ _, ?_, by simp [textual]⟩,
    ⟨shaped_textual _ _, ?_, by simp [textual]⟩⟩
  · exact shaped_of_fill [("a", "1"), ("b", "2")] (by decide +kernel) (by decide)
  · exact shaped_of_fill [("a", "\x7b\x7binput.y\x7d\x7d")] (by decide +kernel) (by decide)
  · exact shaped_of_fill [("b", "a")] (by decide +kernel) (by decide)

end Reshape

end FlowEngine
