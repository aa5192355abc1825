import FlowEngine.Condition.Eval
import FlowEngine.Proofs.Text
/-!
# `FlowEngine.Proofs.Condition.Filter` — the condition that a field is a text

Whoever looks for the records with a text in a field writes the text between quotes.  Read back,
that is the comparison of the field with the text, provided that the text holds no quote itself
(`parse_equals`).  There is no way to write one that does: a text ends at the first quote of its
own kind, and nothing escapes it.

On a record that has a text in the field the condition is equality of texts.
-/

namespace FlowEngine

/-! ## Texts that trimming leaves alone -/

namespace Text

theorem nonBlank?_eq_some {s : String} {first last : Char} {cs : List Char}
    (hs : s.toList = first :: (cs ++ [last])) (hfirst : isBlank first = false)
    (hlast : isBlank last = false) : nonBlank? s = some s := by
  have htrim : trim s = s := by
    refine trim_of_bare ?_
    rw [hs]
    constructor
    · rintro c ⟨⟩
      exact hfirst
    · intro c hc
      rw [← List.cons_append, List.getLast?_concat] at hc
      obtain rfl := Option.some.inj hc
      exact hlast
  refine nonBlank?_eq_some_iff.mpr ⟨htrim, ?_⟩
  rintro rfl
  cases hs

end Text

namespace Condition

/-! ## Words -/

theorem isDigit_of_isNameStart {c : Char} (h : isNameStart c = true) : c.isDigit = false := by
  rw [← Bool.not_eq_true]
  intro hdigit
  have hrange := Text.toNat_of_isDigit hdigit
  have hascii : c.toNat < 128 := by omega
  rw [isNameStart, Bool.or_eq_true, Bool.or_eq_true, beq_iff_eq, beq_iff_eq, Text.isLetter,
    if_pos hascii] at h
  rcases h with (hletter | rfl) | rfl
  · rcases Bool.or_eq_true_iff.mp hletter with hupper | hlower
    · have hfrom : 65 ≤ c.toNat := (of_decide_eq_true hupper).1
      omega
    · have hfrom : 97 ≤ c.toNat := of_decide_eq_true (Bool.and_eq_true_iff.mp hlower).1
      omega
  · exact absurd hdigit (by decide)
  · exact absurd hdigit (by decide)

theorem lexWord_name {first c : Char} {cs rest : List Char} (hfirst : isNameStart first = true)
    (hcs : ∀ x ∈ cs, isNamePart x = true) (hc : isNamePart c = false) :
    lexWord first (cs ++ c :: rest) =
      .ok (some (.ofName (String.ofList (first :: cs))), c :: rest) := by
  have hne : ∀ d : Char, isNameStart d = false → first ≠ d := by
    rintro d hd rfl
    rw [hd] at hfirst
    cases hfirst
  have hseparator : isSeparator first = false := by
    simp [isSeparator, hne ' ' (by decide), hne '\t' (by decide), hne '\r' (by decide),
      hne '\n' (by decide)]
  have htake : (cs ++ c :: rest).takeWhile isNamePart = cs := by
    rw [List.takeWhile_append_of_pos hcs, List.takeWhile_cons_of_neg (by simp [hc]),
      List.append_nil]
  have hdrop : (cs ++ c :: rest).dropWhile isNamePart = c :: rest := by
    rw [List.dropWhile_append_of_pos hcs, List.dropWhile_cons_of_neg (by simp [hc])]
  simp only [lexWord, hseparator, hne '(' (by decide), hne ')' (by decide), hne '=' (by decide),
    hne '!' (by decide), hne '>' (by decide), hne '<' (by decide), hne '&' (by decide),
    hne '|' (by decide), hne '"' (by decide), hne '\'' (by decide), hne '-' (by decide),
    isDigit_of_isNameStart hfirst, hfirst, htake, hdrop, decide_false, Bool.false_and,
    Bool.or_self, Bool.false_eq_true, if_false, if_true]

theorem lexText_append {quote : Char} {cs rest : List Char} (h : quote ∉ cs) :
    lexText quote (cs ++ quote :: rest) = .ok (some (.text (String.ofList cs)), rest) := by
  have hcs : ∀ x ∈ cs, (x != quote) = true := by
    intro x hx
    rw [bne_iff_ne]
    rintro rfl
    exact h hx
  rw [lexText, List.dropWhile_append_of_pos hcs, List.takeWhile_append_of_pos hcs]
  simp

/-! ## A field and a text -/

/-- The text is a name of one segment. -/
structure IsField (field : String) : Prop where
  start : ∃ first cs, field.toList = first :: cs ∧ isNameStart first = true ∧
    Text.isBlank first = false ∧ ∀ x ∈ cs, isNamePart x = true
  named : Token.ofName field = .name field
  single : '.' ∉ field.toList

theorem toList_equals {field : String} {first : Char} {cs : List Char}
    (hfield : field.toList = first :: cs) (value : String) :
    (field ++ " = \"" ++ value ++ "\"").toList =
      first :: (cs ++ ' ' :: '=' :: ' ' :: '"' :: (value.toList ++ ['"'])) := by
  simp [hfield]

theorem nonBlank?_equals {field : String} (hfield : IsField field) (value : String) :
    Text.nonBlank? (field ++ " = \"" ++ value ++ "\"") =
      some (field ++ " = \"" ++ value ++ "\"") := by
  obtain ⟨first, cs, hcs, -, hblank, -⟩ := hfield.start
  have hchars : (field ++ " = \"" ++ value ++ "\"").toList =
      first :: ((cs ++ ' ' :: '=' :: ' ' :: '"' :: value.toList) ++ ['"']) := by
    rw [toList_equals hcs, List.append_assoc]
    rfl
  exact Text.nonBlank?_eq_some hchars hblank (by decide)

theorem tokenize_equals {field value : String} (hfield : IsField field)
    (hvalue : '"' ∉ value.toList) : tokenize (field ++ " = \"" ++ value ++ "\"") =
      .ok [.name field, .comparison .eq, .text value] := by
  obtain ⟨first, cs, hcs, hfirst, -, hparts⟩ := hfield.start
  have hfuel : ∃ fuel, (first :: (cs ++ ' ' :: '=' :: ' ' :: '"' ::
      (value.toList ++ ['"']))).length = fuel + 5 :=
    ⟨cs.length + value.toList.length + 1, by simp; omega⟩
  obtain ⟨fuel, hfuel⟩ := hfuel
  have hname : lexWord first (cs ++ ' ' :: '=' :: ' ' :: '"' :: (value.toList ++ ['"'])) =
      .ok (some (.name field), ' ' :: '=' :: ' ' :: '"' :: (value.toList ++ ['"'])) := by
    rw [lexWord_name hfirst hparts (by decide), ← hcs, String.ofList_toList, hfield.named]
  have htext : lexText '"' (value.toList ++ ['"']) = .ok (some (.text value), []) := by
    rw [lexText_append hvalue, String.ofList_toList]
  have hmiddle : lexFrom (fuel + 4) [.name field]
      (' ' :: '=' :: ' ' :: '"' :: (value.toList ++ ['"'])) =
      lexFrom (fuel + 1) [.comparison .eq, .name field] ('"' :: (value.toList ++ ['"'])) := rfl
  have hquote : lexWord '"' (value.toList ++ ['"']) = lexText '"' (value.toList ++ ['"']) := rfl
  rw [tokenize, toList_equals hcs, hfuel, lexFrom, hname]
  show lexFrom (fuel + 4) _ _ = _
  rw [hmiddle, lexFrom, hquote, htext]
  show lexFrom fuel _ [] = _
  rw [lexFrom]
  rfl

/-- A field, an equals sign and a text between quotes are the comparison of the two, unless the text
holds a quote. -/
theorem parse_equals {field value : String} (hfield : IsField field)
    (hvalue : '"' ∉ value.toList) : parse (field ++ " = \"" ++ value ++ "\"") =
      .ok (.compare .eq (.path [field]) (.text value)) := by
  have htokens : parseTokens [.name field, .comparison .eq, .text value] =
      .ok (.compare .eq (.path (Text.splitAt '.' field)) (.text value)) := rfl
  rw [parse, tokenize_equals hfield hvalue]
  show parseTokens _ = _
  rw [htokens, Text.splitAt_of_not_mem hfield.single]

/-- Of a record with a text in the field the comparison holds if the texts are the same. -/
theorem holds_equals {field value s : String} {record : Json}
    (h : record.get? field = some (.string s)) :
    (Expr.compare .eq (.path [field]) (.text value)).holds record = (s == value) := by
  have hpath : (Expr.path [field]).eval record = .string s := by
    cases record with
    | object members =>
        rw [Json.get?] at h
        rw [Expr.eval, resolve, Json.child?, h]
        rfl
    | _ => cases h
  rw [Expr.holds, Expr.eval, hpath]
  rfl

end Condition

end FlowEngine
