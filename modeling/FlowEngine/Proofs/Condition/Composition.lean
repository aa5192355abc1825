import FlowEngine.Proofs.Condition.Grammar
import FlowEngine.Proofs.Condition.Words
import FlowEngine.Store.Memory
import Mathlib
/-!
# `FlowEngine.Proofs.Condition.Composition` — conditions joined as texts

Whoever has the texts of two conditions can write down their conjunction, their disjunction and
their negation without reading them: each goes between parentheses, and the sign between or before
the groups.  The words of a condition are the same inside the parentheses
(`Lexes.group`), and a group is an operand wherever one may stand, so the joined text is read as the
joined tree.

A filter is trimmed before it is read, and that changes nothing (`condition_of_parse`).  So what a
store lists by the joined texts are the records that both filters select, that one of them selects,
and that the filter leaves out (`parse_joined`).
-/

namespace FlowEngine

namespace Condition

variable {cs more : List Char} {ts us : List Token} {F G : String} {f g : Expr}

/-! ## Groups -/

theorem Lexes.group (h : Lexes cs ts) (hmore : Lexes more us) :
    Lexes ('(' :: (cs ++ ')' :: more)) (.opening :: (ts ++ .closing :: us)) := by
  have hclosing : Lexes (')' :: more) (.closing :: us) := .cons_word rfl hmore
  have hboundary : Boundary (')' :: more) := boundary_cons (by decide)
  exact .cons_word rfl (h.append hboundary hclosing)

/-- A condition between parentheses, where an operand of `&&` may stand. -/
def Grammar.Disjunction.grouped (d : Grammar.Disjunction) : Grammar.Negation :=
  .plain (.plain (.group d))

@[simp] theorem Grammar.Disjunction.tokens_grouped (d : Grammar.Disjunction) :
    d.grouped.tokens = .opening :: (d.tokens ++ [.closing]) := rfl

/-- A text whose words the grammar derives is read as the tree of the derivation. -/
theorem parse_of_lexes {source : String} {d : Grammar.Disjunction}
    (h : Lexes source.toList d.tokens) : parse source = .ok d.tree := by
  rw [parse, tokenize_eq_ok_iff.mpr h]
  exact Grammar.parseTokens_tokens d

/-- A text that can be read is a row of words, and the grammar derives them. -/
theorem exists_of_parse (h : parse F = .ok f) :
    ∃ d : Grammar.Disjunction, Lexes F.toList d.tokens ∧ d.tree = f := by
  unfold parse at h
  split at h
  · next ts htokens =>
      obtain ⟨d, rfl, htree⟩ := Grammar.derives_of_parseTokens h
      exact ⟨d, tokenize_eq_ok_iff.mp htokens, htree⟩
  · cases h

/-! ## Joined texts -/

theorem parse_and (hF : parse F = .ok f) (hG : parse G = .ok g) :
    parse ("(" ++ F ++ ") && (" ++ G ++ ")") = .ok (.and f g) := by
  obtain ⟨d, hd, rfl⟩ := exists_of_parse hF
  obtain ⟨d', hd', rfl⟩ := exists_of_parse hG
  have hsign : Lexes (" && ".toList ++ '(' :: (G.toList ++ [')'])) _ :=
    .cons_separator rfl (.cons_word rfl (.cons_separator rfl (hd'.group .nil)))
  have hwords := hd.group hsign
  refine parse_of_lexes (d := .chain (.chain d.grouped [d'.grouped]) []) ?_
  simpa [Grammar.Disjunction.tokens, Grammar.Conjunction.othersTokens, Grammar.Conjunction.tokens,
    Grammar.Negation.othersTokens] using hwords

theorem parse_or (hF : parse F = .ok f) (hG : parse G = .ok g) :
    parse ("(" ++ F ++ ") || (" ++ G ++ ")") = .ok (.or f g) := by
  obtain ⟨d, hd, rfl⟩ := exists_of_parse hF
  obtain ⟨d', hd', rfl⟩ := exists_of_parse hG
  have hsign : Lexes (" || ".toList ++ '(' :: (G.toList ++ [')'])) _ :=
    .cons_separator rfl (.cons_word rfl (.cons_separator rfl (hd'.group .nil)))
  have hwords := hd.group hsign
  refine parse_of_lexes (d := .chain (.chain d.grouped []) [.chain d'.grouped []]) ?_
  simpa [Grammar.Disjunction.tokens, Grammar.Conjunction.othersTokens, Grammar.Conjunction.tokens,
    Grammar.Negation.othersTokens] using hwords

theorem parse_not (hF : parse F = .ok f) : parse ("!(" ++ F ++ ")") = .ok (.not f) := by
  obtain ⟨d, hd, rfl⟩ := exists_of_parse hF
  have hwords : Lexes ('!' :: '(' :: (F.toList ++ [')'])) _ := .cons_word rfl (hd.group .nil)
  refine parse_of_lexes (d := .chain (.chain (.not d.grouped) []) []) ?_
  simpa [Grammar.Disjunction.tokens, Grammar.Conjunction.othersTokens, Grammar.Conjunction.tokens,
    Grammar.Negation.othersTokens, Grammar.Negation.tokens] using hwords

/-! ## Joined conditions -/

@[simp] theorem holds_and (f g : Expr) (root : Json) :
    (Expr.and f g).holds root = (f.holds root && g.holds root) := rfl

@[simp] theorem holds_or (f g : Expr) (root : Json) :
    (Expr.or f g).holds root = (f.holds root || g.holds root) := rfl

@[simp] theorem holds_not (f : Expr) (root : Json) :
    (Expr.not f).holds root = !f.holds root := rfl

end Condition

/-! ## Filters of a store -/

namespace MemoryStore

variable {filter : String} {e : Condition.Expr}

/-- A filter is trimmed before it is read, and is read as the same tree. -/
theorem condition_of_parse (h : Condition.parse filter = .ok e) :
    condition (some filter) = .ok (some e) := by
  obtain ⟨d, hd, rfl⟩ := Condition.exists_of_parse h
  have htrimmed : Condition.Lexes (Text.trim filter).toList d.tokens := by
    rw [Text.toList_trim]
    exact hd.strip
  have hfilter : Text.nonBlank? filter = some (Text.trim filter) := by
    refine Text.nonBlank?_eq_some_iff.mpr ⟨rfl, ?_⟩
    intro hempty
    rw [hempty] at htrimmed
    have hpos := d.length_tokens_pos
    rw [Condition.lexes_nil.mp htrimmed] at hpos
    exact absurd hpos (by decide)
  simp only [condition, Option.bind_some, hfilter, Condition.parse_of_lexes htrimmed]

/-- Under the filter, and unsorted, the records that the store lists are these, in this order:
each page is a page of them, and their number is the total. -/
def Matches (store : MemoryStore) (collection filter : String) (records : List Json) : Prop :=
  ∀ query : ListQuery, query.filter = some filter → query.sort = none →
    store.list collection query =
      .ok ⟨(pageOf query.limit query.page records).map (project query.fields), records.length⟩

/-- The records that a filter matches are those of which it holds, in the order of their creation. -/
theorem matches_of_parse (h : Condition.parse filter = .ok e) (store : MemoryStore)
    (collection : String) :
    store.Matches collection filter ((store.records collection).filter e.holds) := by
  intro query hfilter hsort
  rw [list, hfilter, condition_of_parse h]
  unfold select
  rw [hsort]
  rfl

end MemoryStore

namespace Condition

/-- Two texts that are read as conditions may be joined: the conjunction, the disjunction and the
negation written with parentheses are read too, and hold of a value just when both conditions hold
of it, when one of them does, and when the first one does not.

So of the records of a collection a store matches with the joined texts those that both filters
match, those that one of them matches, and those that the first leaves out, in the order of their
creation. -/
theorem parse_joined (hF : parse F = .ok f) (hG : parse G = .ok g) :
    (∃ both either neither,
      parse ("(" ++ F ++ ") && (" ++ G ++ ")") = .ok both ∧
      parse ("(" ++ F ++ ") || (" ++ G ++ ")") = .ok either ∧
      parse ("!(" ++ F ++ ")") = .ok neither ∧
      ∀ root,
        both.holds root = (f.holds root && g.holds root) ∧
        either.holds root = (f.holds root || g.holds root) ∧
        neither.holds root = !f.holds root) ∧
    ∀ (store : MemoryStore) (collection : String),
      store.Matches collection F ((store.records collection).filter f.holds) ∧
      store.Matches collection G ((store.records collection).filter g.holds) ∧
      store.Matches collection ("(" ++ F ++ ") && (" ++ G ++ ")")
        ((store.records collection).filter fun record => f.holds record && g.holds record) ∧
      store.Matches collection ("(" ++ F ++ ") || (" ++ G ++ ")")
        ((store.records collection).filter fun record => f.holds record || g.holds record) ∧
      store.Matches collection ("!(" ++ F ++ ")")
        ((store.records collection).filter fun record => !f.holds record) := by
  have hand := parse_and hF hG
  have hor := parse_or hF hG
  have hnot := parse_not hF
  refine ⟨⟨_, _, _, hand, hor, hnot, fun root => ⟨rfl, rfl, rfl⟩⟩, ?_⟩
  intro store collection
  exact ⟨MemoryStore.matches_of_parse hF store collection,
    MemoryStore.matches_of_parse hG store collection,
    MemoryStore.matches_of_parse hand store collection,
    MemoryStore.matches_of_parse hor store collection,
    MemoryStore.matches_of_parse hnot store collection⟩

/-- A shipment with the day that was promised, the day it came and a remark. -/
def shipment (promised came remark : String) : Json :=
  .record [("promised", .string promised), ("came", .string came), ("remark", .string remark)]

/-- Four shipments, of which two came on another day; of either kind one has a remark that reads
like a sign between groups. -/
def shipments : List Json :=
  [shipment "mon" "mon" "", shipment "mon" "tue" "", shipment "tue" "tue" ") || (",
    shipment "mon" "wed" "left at the door"]

/-- One condition ends in a name, where a parenthesis follows; the other begins with a sign and ends
in a text that reads like one. -/
theorem parse_joined_shipments :
    parse "promised==came" = .ok (.compare .eq (.path ["promised"]) (.path ["came"])) ∧
    parse "!remark || remark = ') || ('" =
      .ok (.or (.not (.path ["remark"])) (.compare .eq (.path ["remark"]) (.text ") || ("))) ∧
    ∃ store : MemoryStore, store.records "shipments" = shipments ∧
      store.Matches "shipments" "promised==came"
        [shipment "mon" "mon" "", shipment "tue" "tue" ") || ("] ∧
      store.Matches "shipments" "(promised==came) || (!remark || remark = ') || (')"
        [shipment "mon" "mon" "", shipment "mon" "tue" "", shipment "tue" "tue" ") || ("] ∧
      store.Matches "shipments" "!(promised==came)"
        [shipment "mon" "tue" "", shipment "mon" "wed" "left at the door"] := by
  have hF : parse "promised==came" = .ok (.compare .eq (.path ["promised"]) (.path ["came"])) := by
    cbv
  have hG : parse "!remark || remark = ') || ('" =
      .ok (.or (.not (.path ["remark"])) (.compare .eq (.path ["remark"]) (.text ") || ("))) := by
    cbv
  obtain ⟨hmatchesF, -, -, hor, hnot⟩ :=
    (parse_joined hF hG).2 { collections := [("shipments", shipments)] } "shipments"
  have hrecords : MemoryStore.records { collections := [("shipments", shipments)] } "shipments" =
      shipments := rfl
  rw [hrecords] at hmatchesF hor hnot
  refine ⟨hF, hG, _, hrecords, ?_, ?_, ?_⟩
  · convert hmatchesF using 1
    cbv
  · convert hor using 1 <;> cbv
  · convert hnot using 1 <;> cbv

end Condition

end FlowEngine
