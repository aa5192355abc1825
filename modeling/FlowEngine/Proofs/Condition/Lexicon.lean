import FlowEngine.Condition.Expr
import FlowEngine.Proofs.Condition.Words
/-!
# `FlowEngine.Proofs.Condition.Lexicon` — the words of the condition language and their spellings

A `Lexeme` is a word in one of its spellings, with its token.  Written in a row, with separators
between any two, lexemes are tokenized as their tokens and as nothing else (`tokenize_written`).  So
the language has no word that swallows the one behind it or leaves a part of itself to it, as long as
they are kept apart; and only a text without a word is empty.

Each lexeme alone is a word (`Lexeme.lexes`); that it stays one in front of a separator is
`Lexes.append`.  No case looks at two neighbours.
-/

namespace FlowEngine

/-! ## Numbers as conditions write them -/

/-- Digits, perhaps with a minus sign in front and a point behind at least one of them. -/
structure Numeral where
  negative : Bool
  first : Char
  rest : List Char
  /-- The digits behind the point, if there is a point. -/
  fraction : Option (List Char)
  digits : ∀ c ∈ first :: rest ++ fraction.getD [], c.isDigit = true

namespace Numeral

variable {c : Char}

def tail (n : Numeral) : List Char := n.fraction.elim [] ('.' :: ·)

def unsigned (n : Numeral) : List Char := n.first :: (n.rest ++ n.tail)

def spelling (n : Numeral) : List Char :=
  if n.negative then '-' :: n.unsigned else n.unsigned

/-- The float nearest to the decimal that is written. -/
def value (n : Numeral) : Float :=
  Decimal.nearest n.negative (Text.digitsValue (n.first :: n.rest ++ n.fraction.getD []))
    (-((n.fraction.getD []).length : Int))

theorem isDigit_first (n : Numeral) : n.first.isDigit = true :=
  n.digits n.first (List.mem_append_left _ List.mem_cons_self)

theorem isDigit_whole (n : Numeral) : ∀ c ∈ n.first :: n.rest, c.isDigit = true :=
  fun c hc => n.digits c (List.mem_append_left _ hc)

theorem isDigit_fraction (n : Numeral) : ∀ c ∈ n.fraction.getD [], c.isDigit = true :=
  fun c hc => n.digits c (List.mem_append_right _ hc)

theorem ne_of_isDigit {d : Char} (h : c.isDigit = true) (hd : d.isDigit = false) : c ≠ d := by
  rintro rfl
  rw [hd] at h
  cases h

/-- A digit is no capital, so it has no other small form. -/
theorem toLower_of_isDigit (h : c.isDigit = true) : c.toLower = c := by
  have hrange := Text.toNat_of_isDigit h
  exact (Text.toLower_cases c).resolve_right fun hcapital => by omega

/-- The digits in front of the point are read, and then the point and the digits behind it. -/
theorem unsigned?_eq (n : Numeral) : Decimal.unsigned? n.negative n.unsigned = some n.value := by
  have hstop : ∀ d ∈ n.tail.head?, d.isDigit = false := by
    intro d hd
    rw [tail] at hd
    cases hfraction : n.fraction with
    | none => simp [hfraction] at hd
    | some ds =>
        simp only [hfraction, Option.elim_some, List.head?_cons, Option.mem_def,
          Option.some.injEq] at hd
        rw [← hd]
        rfl
  have htake : n.unsigned.takeWhile Char.isDigit = n.first :: n.rest := by
    rw [unsigned, ← List.cons_append, Text.takeWhile_append_of_stops hstop,
      List.takeWhile_eq_self_iff.mpr n.isDigit_whole]
  have hdrop : n.unsigned.dropWhile Char.isDigit = n.tail := by
    rw [unsigned, ← List.cons_append, Text.dropWhile_append_of_stops hstop,
      List.dropWhile_eq_nil_iff.mpr n.isDigit_whole, List.nil_append]
  have hfraction := n.isDigit_fraction
  rw [Decimal.unsigned?, htake, hdrop, tail, value]
  cases hpoint : n.fraction with
  | none => simp
  | some ds =>
      rw [hpoint, Option.getD_some] at hfraction
      simp [List.takeWhile_eq_self_iff.mpr hfraction,
        List.dropWhile_eq_nil_iff.mpr hfraction]

/-- A number begins with a digit, so it is none of the names of a float. -/
theorem magnitude?_eq (n : Numeral) : Decimal.magnitude? n.negative n.unsigned = some n.value := by
  have hname : ∀ {d : Char} {name : List Char}, d.isDigit = false →
      n.unsigned.map Char.toLower ≠ d :: name := by
    intro d name hd heq
    rw [unsigned, List.map_cons, toLower_of_isDigit n.isDigit_first] at heq
    exact ne_of_isDigit n.isDigit_first hd (List.cons.inj heq).1
  have hinf : n.unsigned.map Char.toLower ≠ "inf".toList := hname rfl
  have hinfinity : n.unsigned.map Char.toLower ≠ "infinity".toList := hname rfl
  have hnan : n.unsigned.map Char.toLower ≠ "nan".toList := hname rfl
  simp only [Decimal.magnitude?, hinf, hinfinity, hnan, decide_false, Bool.or_self,
    Bool.false_eq_true, if_false]
  exact n.unsigned?_eq

theorem float?_spelling (n : Numeral) :
    Decimal.float? (String.ofList n.spelling) = some n.value := by
  have hvalue := n.magnitude?_eq
  rw [Decimal.float?, String.toList_ofList, spelling]
  cases hsign : n.negative with
  | true =>
      rw [hsign] at hvalue
      exact hvalue
  | false =>
      rw [hsign] at hvalue
      have hplus := ne_of_isDigit (d := '+') n.isDigit_first rfl
      have hminus := ne_of_isDigit (d := '-') n.isDigit_first rfl
      rw [if_neg Bool.false_ne_true]
      split
      · next cs heq => exact absurd (List.cons.inj heq).1 hplus
      · next cs heq => exact absurd (List.cons.inj heq).1 hminus
      · exact hvalue

theorem isNumberPart_unsigned (n : Numeral) : ∀ c ∈ n.unsigned, Condition.isNumberPart c = true := by
  have hdigit : ∀ {c : Char}, c.isDigit = true → Condition.isNumberPart c = true := by
    intro c hc
    rw [Condition.isNumberPart, hc, Bool.true_or]
  have hfraction := n.isDigit_fraction
  intro c hc
  rw [unsigned, ← List.cons_append, tail] at hc
  rcases List.mem_append.mp hc with hc | hc
  · exact hdigit (n.isDigit_whole c hc)
  · cases hpoint : n.fraction with
    | none => simp [hpoint] at hc
    | some ds =>
        rw [hpoint] at hc hfraction
        rcases List.mem_cons.mp hc with rfl | hc
        · rfl
        · exact hdigit (hfraction c hc)

end Numeral

namespace Condition

/-! ## Words in their spellings -/

def Comparison.spellings : Comparison → List String
  | eq => ["=", "==", "==="]
  | ne => ["!=", "!=="]
  | gt => [">"]
  | lt => ["<"]
  | ge => [">="]
  | le => ["<="]

/-- The four words that stand for a value. -/
inductive Keyword where
  | true
  | false
  | null
  | undefined

namespace Keyword

def spelling : Keyword → String
  | true => "true"
  | false => "false"
  | null => "null"
  | undefined => "undefined"

def token : Keyword → Token
  | true => .bool Bool.true
  | false => .bool Bool.false
  | null => .null
  | undefined => .null

end Keyword

/-- A word in one of its spellings. -/
inductive Lexeme where
  | name (first : Char) (rest : List Char) (hfirst : isNameStart first = true)
      (hrest : ∀ c ∈ rest, isNamePart c = true)
      (hword : ∀ word : Keyword, word.spelling ≠ String.ofList (first :: rest))
  | keyword (word : Keyword)
  | text (quote : Char) (inside : List Char) (hquote : quote = '"' ∨ quote = '\'')
      (hinside : quote ∉ inside)
  | number (n : Numeral)
  | comparison (op : Comparison) (spelling : String) (h : spelling ∈ op.spellings)
  | and
  | or
  | not
  | opening
  | closing

namespace Lexeme

def spelling : Lexeme → List Char
  | name first rest _ _ _ => first :: rest
  | keyword word => word.spelling.toList
  | text quote inside _ _ => quote :: (inside ++ [quote])
  | number n => n.spelling
  | comparison _ spelling _ => spelling.toList
  | and => ['&', '&']
  | or => ['|', '|']
  | not => ['!']
  | opening => ['(']
  | closing => [')']

def token : Lexeme → Token
  | name first rest _ _ _ => .name (String.ofList (first :: rest))
  | keyword word => word.token
  | text _ inside _ _ => .text (String.ofList inside)
  | number n => .number n.value
  | comparison op _ _ => .comparison op
  | and => .and
  | or => .or
  | not => .not
  | opening => .opening
  | closing => .closing

end Lexeme

variable {c first : Char} {cs rest gap more : List Char} {ts : List Token}

theorem lexes_name (hfirst : isNameStart first = true) (hrest : ∀ c ∈ rest, isNamePart c = true) :
    Lexes (first :: rest) [.ofName (String.ofList (first :: rest))] := by
  -- The name is read in front of a blank, and that is taken off again.
  have hspaced : Lexes (first :: rest ++ [' ']) [.ofName (String.ofList (first :: rest))] :=
    .cons_word (lexWord_name hfirst hrest (by decide)) (.cons_separator rfl .nil)
  exact hspaced.of_append_blank (by decide)

theorem Token.ofName_of_ne {s : String} (h : ∀ word : Keyword, word.spelling ≠ s) :
    ofName s = name s := by
  have htrue : s ≠ "true" := Ne.symm (h .true)
  have hfalse : s ≠ "false" := Ne.symm (h .false)
  have hnull : s ≠ "null" := Ne.symm (h .null)
  have hundefined : s ≠ "undefined" := Ne.symm (h .undefined)
  simp [ofName, htrue, hfalse, hnull, hundefined]

theorem Keyword.lexes (word : Keyword) : Lexes word.spelling.toList [word.token] := by
  have hname : ∀ {first : Char} {rest : List Char}, isNameStart first = Bool.true →
      rest.all isNamePart = Bool.true →
        Lexes (first :: rest) [.ofName (String.ofList (first :: rest))] :=
    fun hfirst hrest => lexes_name hfirst (List.all_eq_true.mp hrest)
  cases word with
  | true => exact hname (by decide) (by decide)
  | false => exact hname (by decide) (by decide)
  | null => exact hname (by decide) (by decide)
  | undefined => exact hname (by decide) (by decide)

/-- A digit begins a number, and so does a minus sign in front of one. -/
theorem lexWord_digit (h : c.isDigit = true) (cs : List Char) : lexWord c cs = lexNumber c cs := by
  have hne : ∀ d : Char, d.isDigit = false → c ≠ d := fun d hd => Numeral.ne_of_isDigit h hd
  have hseparator : isSeparator c = false := by
    simp [isSeparator, hne ' ' rfl, hne '\t' rfl, hne '\r' rfl, hne '\n' rfl]
  simp only [lexWord, hseparator, hne '(' rfl, hne ')' rfl, hne '=' rfl, hne '!' rfl, hne '>' rfl,
    hne '<' rfl, hne '&' rfl, hne '|' rfl, hne '"' rfl, hne '\'' rfl, h, decide_false,
    Bool.false_and, Bool.true_or, Bool.or_self, Bool.false_eq_true, if_false, if_true]

theorem lexWord_minus (h : c.isDigit = true) (cs : List Char) :
    lexWord '-' (c :: cs) = lexNumber '-' (c :: cs) := by
  have hnumber : ('-'.isDigit || (decide ('-' = '-') &&
      ((c :: cs).head?.map Char.isDigit).getD false)) = true := by
    rw [List.head?_cons, Option.map_some, Option.getD_some, h]
    rfl
  have hstep : lexWord '-' (c :: cs) = if ('-'.isDigit || (decide ('-' = '-') &&
      ((c :: cs).head?.map Char.isDigit).getD false)) = true then lexNumber '-' (c :: cs) else
      .error (.unexpectedChar '-') := rfl
  rw [hstep, if_pos hnumber]

theorem lexes_number (n : Numeral) : Lexes n.spelling [.number n.value] := by
  have hread : ∀ {first : Char} {cs : List Char}, n.spelling = first :: cs →
      (∀ c ∈ cs, isNumberPart c = true) →
        lexNumber first cs = .ok (some (.number n.value), []) := by
    intro first cs hspelling hcs
    have hfloat := n.float?_spelling
    rw [hspelling] at hfloat
    rw [lexNumber, List.takeWhile_eq_self_iff.mpr hcs, List.dropWhile_eq_nil_iff.mpr hcs]
    simp only [hfloat]
  have hparts := n.isNumberPart_unsigned
  cases hsign : n.negative with
  | true =>
      have hspelling : n.spelling = '-' :: n.unsigned := by rw [Numeral.spelling, if_pos hsign]
      rw [hspelling]
      exact .cons_word ((lexWord_minus n.isDigit_first _).trans (hread hspelling hparts)) .nil
  | false =>
      have hspelling : n.spelling = n.unsigned := by
        rw [Numeral.spelling, if_neg (by simp [hsign])]
      have hrest : ∀ c ∈ n.rest ++ n.tail, isNumberPart c = true :=
        fun c hc => hparts c (List.mem_cons_of_mem _ hc)
      rw [hspelling]
      exact .cons_word ((lexWord_digit n.isDigit_first _).trans (hread hspelling hrest)) .nil

theorem Comparison.lexes (op : Comparison) {spelling : String} (h : spelling ∈ op.spellings) :
    Lexes spelling.toList [.comparison op] := by
  have hword : ∀ {c : Char} {cs : List Char},
      lexWord c cs = .ok (some (.comparison op), []) → Lexes (c :: cs) [.comparison op] :=
    fun hword => .cons_word hword .nil
  cases op <;> simp only [spellings, List.mem_cons, List.not_mem_nil, or_false] at h
  case eq => rcases h with rfl | rfl | rfl <;> exact hword rfl
  case ne => rcases h with rfl | rfl <;> exact hword rfl
  all_goals
    subst h
    exact hword rfl

theorem Lexeme.lexes (l : Lexeme) : Lexes l.spelling [l.token] := by
  cases l with
  | name first rest hfirst hrest hword =>
      rw [token, ← Token.ofName_of_ne hword]
      exact lexes_name hfirst hrest
  | keyword word => exact word.lexes
  | text quote inside hquote hinside =>
      have htext : lexWord quote (inside ++ [quote]) =
          .ok (some (.text (String.ofList inside)), []) := by
        rw [← lexText_append hinside]
        rcases hquote with rfl | rfl <;> rfl
      exact .cons_word htext .nil
  | number n => exact lexes_number n
  | comparison op spelling h => exact op.lexes h
  | and => exact .cons_word rfl .nil
  | or => exact .cons_word rfl .nil
  | not => exact .cons_word rfl .nil
  | opening => exact .cons_word rfl .nil
  | closing => exact .cons_word rfl .nil

/-! ## Words in a row -/

/-- Characters that separate words. -/
def IsGap (gap : List Char) : Prop := ∀ c ∈ gap, isSeparator c = true

theorem lexWord_separator (h : isSeparator c = true) (cs : List Char) :
    lexWord c cs = .ok (none, cs) := by
  rw [lexWord, if_pos h]

theorem Lexes.behind_gap (hgap : IsGap gap) (h : Lexes cs ts) : Lexes (gap ++ cs) ts := by
  induction gap with
  | nil => exact h
  | cons c gap ih =>
      obtain ⟨hc, hgap⟩ := List.forall_mem_cons.mp hgap
      exact .cons_separator (lexWord_separator hc _) (ih hgap)

theorem IsGap.boundary (hgap : IsGap gap) (hmore : gap = [] → Boundary more) :
    Boundary (gap ++ more) := by
  cases gap with
  | nil => exact hmore rfl
  | cons c gap =>
      have hc := hgap c List.mem_cons_self
      refine boundary_blank ?_
      simp only [isSeparator, Bool.or_eq_true, beq_iff_eq] at hc
      rcases hc with ((rfl | rfl) | rfl) | rfl <;> rfl

/-- The lexemes are written in a row, with separators between any two. -/
inductive Written : List Lexeme → List Char → Prop where
  | none : Written [] []
  | one (l : Lexeme) : Written [l] l.spelling
  | more (l : Lexeme) {next : Lexeme} {others : List Lexeme} {gap cs : List Char} :
      IsGap gap → gap ≠ [] → Written (next :: others) cs →
        Written (l :: next :: others) (l.spelling ++ (gap ++ cs))

theorem Written.lexes {ls : List Lexeme} (h : Written ls cs) : Lexes cs (ls.map Lexeme.token) := by
  induction h with
  | none => exact .nil
  | one l => exact l.lexes
  | more l hgap hne _ ih =>
      exact l.lexes.append (hgap.boundary fun hnil => absurd hnil hne) (ih.behind_gap hgap)

/-! ## Texts without a word -/

/-- None of the nonterminals fails with the error of a text without a word. -/
structure FailsOtherwise (fuel : Nat) : Prop where
  disjunction : ∀ ts, disjunction fuel ts ≠ .error .empty
  disjunctionRest : ∀ left ts, disjunctionRest fuel left ts ≠ .error .empty
  conjunction : ∀ ts, conjunction fuel ts ≠ .error .empty
  conjunctionRest : ∀ left ts, conjunctionRest fuel left ts ≠ .error .empty
  negation : ∀ ts, negation fuel ts ≠ .error .empty
  comparison : ∀ ts, comparison fuel ts ≠ .error .empty
  primary : ∀ ts, primary fuel ts ≠ .error .empty

namespace FailsOtherwise

theorem zero : FailsOtherwise 0 where
  disjunction _ h := by cases h
  disjunctionRest _ _ h := by cases h
  conjunction _ h := by cases h
  conjunctionRest _ _ h := by cases h
  negation _ h := by cases h
  comparison _ h := by cases h
  primary _ h := by cases h

variable {fuel : Nat}

-- What a call with more fuel fails with is what a call with less fails with, or an error of its own.
theorem succ (ih : FailsOtherwise fuel) : FailsOtherwise (fuel + 1) where
  disjunction ts h := by
    unfold Condition.disjunction at h
    split at h
    · exact ih.disjunctionRest _ _ h
    · next e he =>
        cases h
        exact ih.conjunction _ he
  disjunctionRest left ts h := by
    unfold Condition.disjunctionRest at h
    split at h
    · cases h
    · next hfuel =>
        cases hfuel
        split at h
        · exact ih.disjunctionRest _ _ h
        · next e he =>
            cases h
            exact ih.conjunction _ he
    · cases h
  conjunction ts h := by
    unfold Condition.conjunction at h
    split at h
    · exact ih.conjunctionRest _ _ h
    · next e he =>
        cases h
        exact ih.negation _ he
  conjunctionRest left ts h := by
    unfold Condition.conjunctionRest at h
    split at h
    · cases h
    · next hfuel =>
        cases hfuel
        split at h
        · exact ih.conjunctionRest _ _ h
        · next e he =>
            cases h
            exact ih.negation _ he
    · cases h
  negation ts h := by
    unfold Condition.negation at h
    split at h
    · cases h
    · next hfuel =>
        cases hfuel
        split at h
        · cases h
        · next e he =>
            cases h
            exact ih.negation _ he
    · next hfuel _ =>
        cases hfuel
        exact ih.comparison _ h
  comparison ts h := by
    unfold Condition.comparison at h
    split at h
    · split at h
      · cases h
      · next e he =>
          cases h
          exact ih.primary _ he
    · cases h
    · next e he =>
        cases h
        exact ih.primary _ he
  primary ts h := by
    unfold Condition.primary at h
    split at h
    case h_8 hfuel =>
      cases hfuel
      split at h
      · cases h
      · cases h
      · cases h
      · next e he =>
          cases h
          exact ih.disjunction _ he
    all_goals cases h

end FailsOtherwise

theorem failsOtherwise (fuel : Nat) : FailsOtherwise fuel := by
  induction fuel with
  | zero => exact .zero
  | succ fuel ih => exact ih.succ

theorem parseTokens_eq_empty_iff : parseTokens ts = .error .empty ↔ ts = [] := by
  constructor
  · intro h
    unfold parseTokens at h
    split at h
    · next hempty => exact List.isEmpty_iff.mp hempty
    · split at h
      · cases h
      · cases h
      · next e he =>
          cases h
          exact absurd he ((failsOtherwise _).disjunction ts)
  · rintro rfl
    rfl

/-- Lexemes that are kept apart are tokenized as their tokens, whatever separators there are between
them and around them; and the condition is found empty if and only if there is no lexeme. -/
theorem tokenize_written {ls : List Lexeme} {before after : List Char} {source : String}
    (hbefore : IsGap before) (hwritten : Written ls cs) (hafter : IsGap after)
    (hsource : source.toList = before ++ (cs ++ after)) :
    tokenize source = .ok (ls.map Lexeme.token) ∧ (parse source = .error .empty ↔ ls = []) := by
  have hend : Lexes after [] := by
    rw [← List.append_nil after]
    exact Lexes.nil.behind_gap hafter
  have hboundary : Boundary after := by
    rw [← List.append_nil after]
    exact hafter.boundary fun _ => by simp [Boundary]
  have hlexes : Lexes source.toList (ls.map Lexeme.token) := by
    rw [hsource, ← List.append_nil (ls.map Lexeme.token)]
    exact (hwritten.lexes.append hboundary hend).behind_gap hbefore
  have htokens := tokenize_eq_ok_iff.mpr hlexes
  refine ⟨htokens, ?_⟩
  rw [parse, htokens]
  show parseTokens (ls.map Lexeme.token) = .error .empty ↔ ls = []
  rw [parseTokens_eq_empty_iff, List.map_eq_nil_iff]

/-- A name with segments, an operator in its long spelling, a negative number and a text with the
other quote inside, behind separators of each kind. -/
theorem tokenize_written_comparisons :
    tokenize "order.total\t!==\r\n-2.50 && note = '\"paid\"' " =
      .ok [.name "order.total", .comparison .ne, .number (Decimal.nearest true 250 (-2)), .and,
        .name "note", .comparison .eq, .text "\"paid\""] := by
  have hgap : ∀ gap : List Char, gap.all isSeparator = true → IsGap gap :=
    fun _ => List.all_eq_true.mp
  have hname : ∀ {cs : List Char}, cs.all isNamePart = true → ∀ c ∈ cs, isNamePart c = true :=
    List.all_eq_true.mp
  have hdigits : ∀ c ∈ "2".toList ++ "50".toList, c.isDigit = true := List.all_eq_true.mp rfl
  let total : Lexeme := .name 'o' "rder.total".toList rfl (hname rfl) (by rintro (_ | _) <;> decide)
  let amount : Numeral := ⟨true, '2', [], some "50".toList, hdigits⟩
  let note : Lexeme := .name 'n' "ote".toList rfl (hname rfl) (by rintro (_ | _) <;> decide)
  let paid : Lexeme := .text '\'' "\"paid\"".toList (.inr rfl) (by decide)
  have hwritten : Written
      [total, .comparison .ne "!==" (by decide), .number amount, .and, note,
        .comparison .eq "=" (by decide), paid]
      "order.total\t!==\r\n-2.50 && note = '\"paid\"'".toList :=
    .more _ (hgap ['\t'] rfl) (by decide) <|
    .more _ (hgap ['\r', '\n'] rfl) (by decide) <|
    .more _ (hgap [' '] rfl) (by decide) <|
    .more _ (hgap [' '] rfl) (by decide) <|
    .more _ (hgap [' '] rfl) (by decide) <|
    .more _ (hgap [' '] rfl) (by decide) <| .one _
  exact (tokenize_written (hgap [] rfl) hwritten (hgap [' '] rfl) rfl).1

end Condition

end FlowEngine
