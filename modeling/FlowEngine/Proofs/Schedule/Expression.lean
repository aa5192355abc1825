import FlowEngine.Proofs.Json.Members
import FlowEngine.Proofs.Text
import FlowEngine.Schedule.Expression
import FlowEngine.Schedule.Pattern
import Mathlib.Data.List.Forall2
/-!
# `FlowEngine.Proofs.Schedule.Expression` — the form in which expressions are scheduled

Whatever an author writes, as an expression or as a shortcut, is brought into one form before anyone
reads it as a pattern: without blanks around it, and not of five fields.  Once in that form it stays
as it is (`toExpression_toExpression`).  A configuration has two places for an expression, and one of
them takes shortcuts too; but for their names, both bring a text into the same form
(`expressions_normal`).

The fields are those that the reader of patterns sees (`Pattern.fieldsOf`).  Second zero is put in
front by a count that is made in one pass over the text; `fieldCount_eq` says that this is their
number, and `fieldsOf_withSeconds` what becomes of them.

A shortcut is one field and stands for six, which keeps the two apart: no expression in that form is
the name of a shortcut.
-/

namespace FlowEngine

namespace Schedule

/-! ## Fields -/

section Fields

variable {cs before behind : List Char}

/-- White space as a space, and any other character as it is. -/
def spaced (c : Char) : Char := if Text.isBlank c then ' ' else c

def words (cs : List Char) : List (List Char) :=
  (Text.pieces ' ' (cs.map spaced)).filter fun piece => !piece.isEmpty

theorem fieldsOf_eq (s : String) : Pattern.fieldsOf s = (words s.toList).map String.ofList := by
  have hempty : (fun s : String => !s.isEmpty) ∘ String.ofList = fun piece => !piece.isEmpty := by
    funext piece
    rw [Function.comp_apply, Bool.eq_iff_iff, Bool.not_eq_true', Bool.not_eq_true',
      ← Bool.not_eq_true, ← Bool.not_eq_true, String.isEmpty_iff, List.isEmpty_iff,
      String.ofList_eq_empty_iff]
  rw [Pattern.fieldsOf, Text.splitAt, String.toList_ofList, List.filter_map, hempty]
  rfl

theorem spaced_of_blank {c : Char} (hc : Text.isBlank c = true) : spaced c = ' ' := if_pos hc

theorem spaced_of_not_blank {c : Char} (hc : Text.isBlank c = false) :
    spaced c = c ∧ c ≠ ' ' := by
  refine ⟨if_neg (by simp [hc]), ?_⟩
  rintro rfl
  revert hc
  decide

theorem words_append_cons {c : Char} (hc : Text.isBlank c = true) (cs more : List Char) :
    words (cs ++ c :: more) = words cs ++ words more := by
  rw [words, List.map_append, List.map_cons, spaced_of_blank hc, Text.pieces_append_cons,
    List.filter_append, words, words]

theorem words_of_blank (h : ∀ c ∈ cs, Text.isBlank c = true) : words cs = [] := by
  induction cs with
  | nil => rfl
  | cons c cs ih =>
      have hcons := words_append_cons (h c List.mem_cons_self) [] cs
      rw [ih fun d hd => h d (List.mem_cons_of_mem c hd)] at hcons
      exact hcons

theorem words_append (cs : List Char) (hbefore : ∀ c ∈ before, Text.isBlank c = true)
    (hbehind : ∀ c ∈ behind, Text.isBlank c = true) :
    words (before ++ cs ++ behind) = words cs := by
  have hend : ∀ ds : List Char, words (ds ++ behind) = words ds := by
    intro ds
    cases behind with
    | nil => rw [List.append_nil]
    | cons c rest =>
        rw [words_append_cons (hbehind c List.mem_cons_self),
          words_of_blank fun d hd => hbehind d (List.mem_cons_of_mem c hd), List.append_nil]
  rw [hend]
  induction before with
  | nil => rfl
  | cons c before ih =>
      rw [← ih fun d hd => hbefore d (List.mem_cons_of_mem c hd)]
      exact words_append_cons (hbefore c List.mem_cons_self) [] _

theorem fieldsOf_trim (s : String) : Pattern.fieldsOf (Text.trim s) = Pattern.fieldsOf s := by
  obtain ⟨before, behind, hs, hbefore, hbehind⟩ := Text.exists_stripWhile Text.isBlank s.toList
  have hwords := words_append (Text.stripWhile Text.isBlank s.toList) hbefore hbehind
  rw [fieldsOf_eq, fieldsOf_eq, Text.toList_trim, ← hwords, ← hs]

/-- The count of the fields.  Behind a character that is no blank the first piece begins no field,
for it goes on with one that has been counted. -/
theorem countFields_eq (cs : List Char) : ∃ piece pieces,
    Text.pieces ' ' (cs.map spaced) = piece :: pieces ∧
    Text.countFields true cs = (pieces.filter fun piece => !piece.isEmpty).length ∧
    Text.countFields false cs = (words cs).length := by
  induction cs with
  | nil => exact ⟨[], [], rfl, rfl, rfl⟩
  | cons c cs ih =>
      obtain ⟨piece, pieces, hsplit, hinside, houtside⟩ := ih
      cases hc : Text.isBlank c with
      | true =>
          have hcons : Text.pieces ' ' ((c :: cs).map spaced) =
              [] :: Text.pieces ' ' (cs.map spaced) := by
            rw [List.map_cons, spaced_of_blank hc]
            exact if_pos rfl
          refine ⟨[], _, hcons, ?_, ?_⟩
          · rw [Text.countFields, if_pos hc, houtside, words]
          · rw [Text.countFields, if_pos hc, houtside, words, words, hcons]
            rfl
      | false =>
          obtain ⟨hkept, hne⟩ := spaced_of_not_blank hc
          have hcons : Text.pieces ' ' ((c :: cs).map spaced) = (c :: piece) :: pieces := by
            obtain ⟨first, others, hfirst, hlonger⟩ := Text.pieces_cons_of_ne hne (cs.map spaced)
            rw [hsplit] at hfirst
            obtain ⟨rfl, rfl⟩ := List.cons.inj hfirst
            rw [List.map_cons, hkept, hlonger]
          refine ⟨_, _, hcons, ?_, ?_⟩
          · rw [Text.countFields, hc, hinside]
            exact Nat.zero_add _
          · rw [Text.countFields, hc, hinside, words, hcons]
            exact Nat.add_comm _ _

/-- The count made over a text is the number of the fields that its reader sees. -/
theorem fieldCount_eq (s : String) : Text.fieldCount s = (Pattern.fieldsOf s).length := by
  obtain ⟨-, -, -, -, hcount⟩ := countFields_eq s.toList
  rw [Text.fieldCount, hcount, fieldsOf_eq, List.length_map]

end Fields

/-! ## Second zero -/

/-- Second zero is put in front of five fields; otherwise the fields are those of the text. -/
theorem fieldsOf_withSeconds (s : String) : Pattern.fieldsOf (withSeconds s) =
    if (Pattern.fieldsOf s).length = 5 then "0" :: Pattern.fieldsOf s else Pattern.fieldsOf s := by
  rw [withSeconds, fieldCount_eq, fieldsOf_trim]
  split
  · have hzero : ("0 " ++ Text.trim s).toList = ['0'] ++ ' ' :: (Text.trim s).toList := by
      rw [String.toList_append]
      rfl
    have hfront : (words ['0']).map String.ofList = ["0"] := by decide
    rw [fieldsOf_eq, hzero, words_append_cons (by decide), List.map_append, ← fieldsOf_eq,
      fieldsOf_trim, hfront, List.singleton_append]
  · exact fieldsOf_trim s

theorem length_fieldsOf_withSeconds (s : String) :
    (Pattern.fieldsOf (withSeconds s)).length ≠ 5 := by
  rw [fieldsOf_withSeconds]
  split
  · next hfive =>
      rw [List.length_cons, hfive]
      decide
  · next hother => exact hother

theorem bare_withSeconds (s : String) : Text.Bare Text.isBlank (withSeconds s).toList := by
  have htrim := Text.bare_trim s
  rw [withSeconds]
  split
  · next hfive =>
      refine ⟨?_, ?_⟩
      · rw [String.toList_append]
        rintro c ⟨⟩
        decide
      · intro c hc
        have hne : (Text.trim s).toList ≠ [] := by
          intro hnil
          rw [Text.fieldCount, hnil] at hfive
          cases hfive
        rw [String.toList_append, List.getLast?_append_of_ne_nil _ hne] at hc
        exact htrim.2 c hc
  · exact htrim

/-- A text without blanks around it and not of five fields is left as it is. -/
theorem withSeconds_eq_self {s : String} (hbare : Text.Bare Text.isBlank s.toList)
    (hfields : (Pattern.fieldsOf s).length ≠ 5) : withSeconds s = s := by
  rw [withSeconds, Text.trim_of_bare hbare, fieldCount_eq, if_neg hfields]

theorem withSeconds_trim (s : String) : withSeconds (Text.trim s) = withSeconds s := by
  rw [withSeconds, Text.trim_trim, withSeconds]

/-! ## Shortcuts -/

def shortcutNames : List String := shortcuts.map Prod.fst

variable {s : String}

theorem expand_of_not_mem (h : s ∉ shortcutNames) : expand s = s := by
  have hnone : shortcuts.find? (fun pair => pair.1 == s) = none := by
    refine List.find?_eq_none.mpr ?_
    intro pair hpair hname
    exact h (List.mem_map.mpr ⟨pair, hpair, beq_iff_eq.mp hname⟩)
  rw [expand, hnone]

theorem exists_expand_of_mem (h : s ∈ shortcutNames) : ∃ pair ∈ shortcuts, expand s = pair.2 := by
  obtain ⟨named, hnamed, rfl⟩ := List.mem_map.mp h
  have hsome : (shortcuts.find? fun pair => pair.1 == named.1).isSome = true :=
    List.find?_isSome.mpr ⟨named, hnamed, beq_self_eq_true _⟩
  obtain ⟨pair, hpair⟩ := Option.isSome_iff_exists.mp hsome
  exact ⟨pair, List.mem_of_find?_eq_some hpair, by rw [expand, hpair]⟩

/-- The name of a shortcut is one field, and the expression it stands for has six. -/
theorem length_fieldsOf_shortcuts : ∀ pair ∈ shortcuts,
    (Pattern.fieldsOf pair.1).length = 1 ∧ (Pattern.fieldsOf pair.2).length = 6 := by
  simp only [← fieldCount_eq]
  decide

theorem length_fieldsOf_name (h : s ∈ shortcutNames) : (Pattern.fieldsOf s).length = 1 := by
  obtain ⟨pair, hpair, rfl⟩ := List.mem_map.mp h
  exact (length_fieldsOf_shortcuts pair hpair).1

theorem toExpression_of_not_mem (h : Text.trim s ∉ shortcutNames) :
    toExpression s = withSeconds s := by
  rw [toExpression, expand_of_not_mem h, withSeconds_trim]

theorem length_fieldsOf_toExpression (s : String) :
    (Pattern.fieldsOf (toExpression s)).length ≠ 5 := by
  rw [toExpression]
  exact length_fieldsOf_withSeconds _

theorem bare_toExpression (s : String) : Text.Bare Text.isBlank (toExpression s).toList := by
  rw [toExpression]
  exact bare_withSeconds _

theorem toExpression_not_mem (s : String) : toExpression s ∉ shortcutNames := by
  intro hname
  have hone := length_fieldsOf_name hname
  by_cases hshortcut : Text.trim s ∈ shortcutNames
  · obtain ⟨pair, hpair, hexpand⟩ := exists_expand_of_mem hshortcut
    have hsix := (length_fieldsOf_shortcuts pair hpair).2
    rw [toExpression, hexpand, fieldsOf_withSeconds, if_neg (by omega)] at hone
    omega
  · rw [toExpression_of_not_mem hshortcut] at hname hone
    by_cases hfive : (Pattern.fieldsOf s).length = 5
    · rw [fieldsOf_withSeconds, if_pos hfive, List.length_cons] at hone
      omega
    · -- Then nothing is put in front, and what is left is the text, trimmed.
      rw [withSeconds, fieldCount_eq, fieldsOf_trim, if_neg hfive] at hname
      exact hshortcut hname

theorem toExpression_toExpression (s : String) : toExpression (toExpression s) = toExpression s := by
  have hbare := bare_toExpression s
  have hname : Text.trim (toExpression s) ∉ shortcutNames := by
    rw [Text.trim_of_bare hbare]
    exact toExpression_not_mem s
  rw [toExpression_of_not_mem hname]
  exact withSeconds_eq_self hbare (length_fieldsOf_toExpression s)

/-- White space around what an author writes makes no difference. -/
theorem toExpression_append {front back : String} (s : String)
    (hfront : ∀ c ∈ front.toList, Text.isBlank c = true)
    (hback : ∀ c ∈ back.toList, Text.isBlank c = true) :
    toExpression (front ++ s ++ back) = toExpression s := by
  have htrim : Text.trim (front ++ s ++ back) = Text.trim s := by
    rw [Text.trim, String.toList_append, String.toList_append,
      Text.stripWhile_append _ hfront hback, Text.trim]
  rw [toExpression, htrim, toExpression]

/-! ## Configurations -/

/-- A configuration has, under a name, a text that is not blank; trimmed it is `text`. -/
def Says (config : Json.Members) (name text : String) : Prop :=
  ∃ written, Json.lookup name config = some (.string written) ∧ Text.trim written = text ∧ text ≠ ""

variable {config : Json.Members} {name text : String}

theorem configText?_eq_some_iff : configText? config name = some text ↔ Says config name text := by
  rw [configText?, Option.bind_eq_some_iff]
  constructor
  · rintro ⟨written, hvalue, htext⟩
    obtain ⟨value, hlookup, hwritten⟩ := Option.bind_eq_some_iff.mp hvalue
    obtain rfl := Json.text?_eq_some_iff.mp hwritten
    exact ⟨written, hlookup, Text.nonBlank?_eq_some_iff.mp htext⟩
  · rintro ⟨written, hlookup, htext⟩
    refine ⟨written, ?_, Text.nonBlank?_eq_some_iff.mpr htext⟩
    rw [hlookup, Option.bind_some, Json.text?]

theorem expressionOf_of_cron (h : Says config "cron" text) :
    expressionOf config = withSeconds text := by
  rw [expressionOf, configText?_eq_some_iff.mpr h]

theorem expressionOf_of_schedule (hcron : ∀ other, ¬ Says config "cron" other)
    (h : Says config "schedule" text) : expressionOf config = toExpression text := by
  have hnone : configText? config "cron" = none := by
    refine Option.eq_none_iff_forall_ne_some.mpr ?_
    intro other hother
    exact hcron other (configText?_eq_some_iff.mp hother)
  rw [expressionOf, hnone, configText?_eq_some_iff.mpr h]
  rfl

theorem Says.trim (h : Says config name text) : Text.trim text = text := by
  obtain ⟨written, -, rfl, -⟩ := h
  exact Text.trim_trim written

def cronNodes (flow : Flow) : List Node :=
  flow.canvas.nodes.filter fun node => node.kind == Trigger.cronKind

/-- The entry of a node of a flow.  Something said under `cron`, other than the name of a shortcut,
is brought into the same form as what is said under `schedule`. -/
structure Entry.Stands (flow : Flow) (node : Node) (entry : Entry) : Prop where
  flowId : entry.flowId = flow.id
  nodeId : entry.nodeId = node.id
  cron : ∀ text, Says node.config "cron" text → text ∉ shortcutNames →
    entry.expression = toExpression text
  schedule : ∀ text, (∀ other, ¬ Says node.config "cron" other) →
    Says node.config "schedule" text → entry.expression = toExpression text

theorem Entry.stands_ofNode (flow : Flow) (node : Node) :
    (Entry.ofNode flow.id node).Stands flow node where
  flowId := rfl
  nodeId := rfl
  cron := by
    intro text hsays hname
    rw [← hsays.trim] at hname
    rw [toExpression_of_not_mem hname]
    exact expressionOf_of_cron hsays
  schedule := by
    intro text hcron hsays
    exact expressionOf_of_schedule hcron hsays

/-- Any text, as an expression or a shortcut, is brought into a form that has not five fields and no
white space at its ends.  White space around the text makes no difference, and neither does a second
time.  Unless the text is the name of a shortcut its fields stay, with second zero in front if there
are five.  Any flow has the entries of its scheduled nodes, in their order, and an entry has the
expression of its node in this form, whether the node says it under `cron` or under `schedule`. -/
theorem expressions_normal (s : String) (flow : Flow) :
    (Pattern.fieldsOf (toExpression s)).length ≠ 5 ∧
    Text.Bare Text.isBlank (toExpression s).toList ∧
    (∀ front back : String, (∀ c ∈ front.toList, Text.isBlank c = true) →
      (∀ c ∈ back.toList, Text.isBlank c = true) →
        toExpression (front ++ s ++ back) = toExpression s) ∧
    toExpression (toExpression s) = toExpression s ∧
    (Text.trim s ∉ shortcutNames → Pattern.fieldsOf (toExpression s) =
      if (Pattern.fieldsOf s).length = 5 then "0" :: Pattern.fieldsOf s else Pattern.fieldsOf s) ∧
    List.Forall₂ (Entry.Stands flow) (cronNodes flow) (entries flow) := by
  refine ⟨length_fieldsOf_toExpression s, bare_toExpression s, ?_, toExpression_toExpression s, ?_,
    ?_⟩
  · intro front back hfront hback
    exact toExpression_append s hfront hback
  · intro hname
    rw [toExpression_of_not_mem hname]
    exact fieldsOf_withSeconds s
  · rw [entries, ← cronNodes, List.forall₂_map_right_iff, List.forall₂_same]
    intro node _
    exact Entry.stands_ofNode flow node

/-- An expression of five fields with a no-break space in it and other white space around it, and a
flow that has it under `cron` at one node and a shortcut under `schedule` at another. -/
theorem expressions_normal_weekly :
    let weekly := "0\u00a09 * * 1"
    let written := "\u3000" ++ weekly ++ "\n"
    let first : Node := ⟨"a", "trigger.cron", [("cron", .string written), ("schedule", .string "5m")]⟩
    let second : Node := ⟨"b", "trigger.cron", [("schedule", .string " 5m ")]⟩
    let other : Node := ⟨"c", "trigger.manual", []⟩
    let flow : Flow := { id := "f1", name := "reports", canvas := { nodes := [first, other, second] } }
    toExpression written = toExpression weekly ∧
    Pattern.fieldsOf (toExpression weekly) = ["0", "0", "9", "*", "*", "1"] ∧
    ∃ a b : Entry, entries flow = [a, b] ∧ a.expression = toExpression weekly ∧
      b.expression = toExpression "5m" := by
  intro weekly written first second other flow
  obtain ⟨-, -, haround, -, hfields, hentries⟩ := expressions_normal weekly flow
  have hname : weekly ∉ shortcutNames := by decide
  have htrim : Text.trim weekly = weekly := by decide
  have hfive : Pattern.fieldsOf weekly = ["0", "9", "*", "*", "1"] := by decide
  have hblank : ∀ s : String, s.toList.all Text.isBlank = true →
      ∀ c ∈ s.toList, Text.isBlank c = true := by
    intro s hall
    exact List.all_eq_true.mp hall
  refine ⟨haround "\u3000" "\n" (hblank _ (by decide)) (hblank _ (by decide)), ?_, ?_⟩
  · rw [hfields (htrim.symm ▸ hname), hfive]
    rfl
  · have hnodes : cronNodes flow = [first, second] := rfl
    rw [hnodes] at hentries
    obtain _ | ⟨ha, _ | ⟨hb, _ | _⟩⟩ := hentries
    have hfirst : Says first.config "cron" weekly := ⟨written, rfl, by decide, by decide⟩
    have hsecond : Says second.config "schedule" "5m" := ⟨" 5m ", rfl, by decide, by decide⟩
    have hsilent : ∀ text, ¬ Says second.config "cron" text := by
      rintro text ⟨written, hlookup, -⟩
      cases hlookup
    exact ⟨_, _, rfl, ha.cron weekly hfirst hname, hb.schedule "5m" hsilent hsecond⟩

end Schedule

end FlowEngine
