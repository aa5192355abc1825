import FlowEngine.Proofs.Condition.Filter
import FlowEngine.Proofs.Text
import Mathlib.Data.List.TakeWhile
/-!
# `FlowEngine.Proofs.Condition.Words` — the words of a text, whatever stands around it

`Lexes` says which tokens a text is a row of, without fuel and without what has been taken before:
a word begins at the first character, and the words of the rest come behind it.  A text is tokenized
as these words and no others (`tokenize_eq_ok_iff`).

How far a word goes is decided by the characters in it and the one behind it.  So the words of a
text are the same in front of anything that begins with a character which no word goes on with
(`Lexes.append`).  A text in quotes is the exception: it goes as far as the next quote, wherever
that is, so it has to be closed before.

White space at either end of a text that can be tokenized separates words and means nothing; the
white space of Unicode that is no separator stands in no such text but between quotes
(`Lexes.strip`).
-/

namespace FlowEngine.Condition

/-- The word at the front of a text, and what follows it. -/
abbrev Lexed := Except Error (Option Token × List Char)

variable {c quote : Char} {cs rest more : List Char} {word : Option Token} {ts us : List Token}

/-! ## Tokenizing without fuel -/

/-- What follows the word is an end of the text. -/
def Leaves (cs : List Char) (lexed : Lexed) : Prop :=
  ∀ word rest, lexed = .ok (word, rest) → rest <:+ cs

namespace Leaves

theorem ok (h : rest <:+ cs) : Leaves cs (.ok (word, rest)) := by
  intro _ _ heq
  cases heq
  exact h

theorem error {e : Error} : Leaves cs (.error e) := by
  intro _ _ heq
  cases heq

theorem ite {p : Prop} [Decidable p] {a b : Lexed} (ha : Leaves cs a) (hb : Leaves cs b) :
    Leaves cs (if p then a else b) := by
  split
  · exact ha
  · exact hb

end Leaves

theorem leaves_lexText (quote : Char) (cs : List Char) : Leaves cs (lexText quote cs) := by
  unfold lexText
  split
  · exact .error
  · next d rest hdrop =>
      exact .ok ((List.suffix_cons d rest).trans (hdrop ▸ List.dropWhile_suffix _))

theorem leaves_lexNumber (first : Char) (cs : List Char) : Leaves cs (lexNumber first cs) := by
  unfold lexNumber
  simp only
  split
  · exact .ok (List.dropWhile_suffix _)
  · exact .error

theorem leaves_lexWord (c : Char) (cs : List Char) : Leaves cs (lexWord c cs) := by
  have hself : cs <:+ cs := List.suffix_refl _
  have hdrop : ∀ n, cs.drop n <:+ cs := fun n => List.drop_suffix n cs
  unfold lexWord
  exact .ite (.ok hself) <| .ite (.ok hself) <| .ite (.ok hself) <| .ite (.ok (hdrop _)) <|
    .ite (.ite (.ok (hdrop _)) (.ok hself)) <| .ite (.ite (.ok (hdrop _)) (.ok hself)) <|
    .ite (.ite (.ok (hdrop _)) (.ok hself)) <| .ite (.ok (hdrop _)) <| .ite (.ok (hdrop _)) <|
    .ite (leaves_lexText c cs) <| .ite (leaves_lexNumber c cs) <|
    .ite (.ok (List.dropWhile_suffix _)) .error

/-- The text is a row of words, and these are their tokens. -/
inductive Lexes : List Char → List Token → Prop where
  | nil : Lexes [] []
  | cons {c : Char} {cs rest : List Char} {word : Option Token} {ts : List Token} :
      lexWord c cs = .ok (word, rest) → Lexes rest ts → Lexes (c :: cs) (word.toList ++ ts)

theorem Lexes.cons_word {token : Token} (h : lexWord c cs = .ok (some token, rest))
    (hrest : Lexes rest ts) : Lexes (c :: cs) (token :: ts) := .cons h hrest

theorem Lexes.cons_separator (h : lexWord c cs = .ok (none, rest)) (hrest : Lexes rest ts) :
    Lexes (c :: cs) ts := .cons h hrest

theorem lexes_nil : Lexes [] ts ↔ ts = [] := by
  constructor
  · intro h
    cases h
    rfl
  · rintro rfl
    exact .nil

theorem lexes_cons : Lexes (c :: cs) ts ↔
    ∃ word rest us, lexWord c cs = .ok (word, rest) ∧ Lexes rest us ∧ ts = word.toList ++ us := by
  constructor
  · intro h
    cases h with
    | cons hword hrest => exact ⟨_, _, _, hword, hrest, rfl⟩
  · rintro ⟨word, rest, us, hword, hrest, rfl⟩
    exact .cons hword hrest

/-- With fuel for every character, the words of a text come behind those that have been taken. -/
theorem lexFrom_eq_ok_iff {fuel : Nat} (hfuel : cs.length ≤ fuel) (taken : List Token) :
    lexFrom fuel taken cs = .ok ts ↔ ∃ words, Lexes cs words ∧ ts = taken.reverse ++ words := by
  induction fuel generalizing cs taken with
  | zero =>
      obtain rfl := List.eq_nil_of_length_eq_zero (Nat.le_zero.mp hfuel)
      simp [lexFrom, lexes_nil, eq_comm]
  | succ fuel ih =>
      cases cs with
      | nil => simp [lexFrom, lexes_nil, eq_comm]
      | cons c cs =>
          simp only [lexes_cons]
          cases hword : lexWord c cs with
          | error e => simp [lexFrom, hword]
          | ok lexed =>
              obtain ⟨word, rest⟩ := lexed
              have hlength := (leaves_lexWord c cs word rest hword).length_le
              have hrest : rest.length ≤ fuel := by
                rw [List.length_cons] at hfuel
                omega
              have hstep : lexFrom (fuel + 1) taken (c :: cs) =
                  lexFrom fuel (word.toList ++ taken) rest := by
                rw [lexFrom, hword]
                cases word <;> rfl
              have hreverse : (word.toList ++ taken).reverse = taken.reverse ++ word.toList := by
                cases word <;> simp
              rw [hstep, ih hrest, hreverse]
              constructor
              · rintro ⟨us, hus, rfl⟩
                exact ⟨_, ⟨word, rest, us, rfl, hus, rfl⟩, List.append_assoc _ _ _⟩
              · rintro ⟨_, ⟨_, _, us, heq, hus, rfl⟩, rfl⟩
                cases heq
                exact ⟨us, hus, (List.append_assoc _ _ _).symm⟩

/-- A text is tokenized as the words of which it is a row. -/
theorem tokenize_eq_ok_iff {source : String} :
    tokenize source = .ok ts ↔ Lexes source.toList ts := by
  rw [tokenize, lexFrom_eq_ok_iff (Nat.le_refl _)]
  simp

/-! ## In front of something else -/

/-- No word goes on with what stands at the front of the text. -/
def Boundary (more : List Char) : Prop :=
  ∀ d ∈ more.head?, isNamePart d = false ∧ d ≠ '=' ∧ d ≠ '&' ∧ d ≠ '|'

theorem boundary_cons {d : Char}
    (h : isNamePart d = false ∧ d ≠ '=' ∧ d ≠ '&' ∧ d ≠ '|') : Boundary (d :: more) := by
  intro _ hd
  cases hd
  exact h

theorem isNamePart_of_isNumberPart (h : isNumberPart c = true) : isNamePart c = true := by
  rw [isNumberPart, Bool.or_eq_true, beq_iff_eq] at h
  rcases h with hdigit | rfl
  · have hrange := Text.toNat_of_isDigit hdigit
    have hascii : c.toNat < 128 := by omega
    simp [isNamePart, Text.isLetterOrNumeral, hascii, Char.isAlphanum, hdigit]
  · decide

theorem Boundary.isNumberPart (h : Boundary more) : ∀ d ∈ more.head?, isNumberPart d = false := by
  intro d hd
  rw [← Bool.not_eq_true]
  intro hnumber
  have hname := isNamePart_of_isNumberPart hnumber
  rw [(h d hd).1] at hname
  cases hname

theorem Boundary.isDigit_head? (h : Boundary more) :
    (more.head?.map Char.isDigit).getD false = false := by
  cases more with
  | nil => rfl
  | cons d more => exact (Bool.or_eq_false_iff.mp (h.isNumberPart d rfl)).1

theorem countEquals_append (hmore : Boundary more) :
    countEquals (cs ++ more) = countEquals cs := by
  have hstop : ∀ d ∈ more.head?, (d == '=') = false :=
    fun d hd => beq_eq_false_iff_ne.mpr (hmore d hd).2.1
  rw [countEquals, Text.takeWhile_append_of_stops hstop, countEquals]

theorem countEquals_le (cs : List Char) : countEquals cs ≤ cs.length := (List.takeWhile_prefix _).length_le

theorem head?_append_iff {d : Char} (h : ∀ x ∈ more.head?, x ≠ d) :
    (cs ++ more).head? = some d ↔ cs.head? = some d := by
  cases cs with
  | nil =>
      constructor
      · intro hd
        exact absurd rfl (h d hd)
      · intro hd
        cases hd
  | cons c cs => exact Iff.rfl

/-- The second text has the word of the first at its front, and more behind it. -/
def Extends (more : List Char) (lexed longer : Lexed) : Prop :=
  longer = lexed.map fun (word, rest) => (word, rest ++ more)

namespace Extends

theorem ok {later : List Char} (h : later = rest ++ more) :
    Extends more (.ok (word, rest)) (.ok (word, later)) := by
  rw [h]
  rfl

theorem drop {n : Nat} (h : n ≤ cs.length) :
    Extends more (.ok (word, cs.drop n)) (.ok (word, (cs ++ more).drop n)) :=
  ok (List.drop_append_of_le_length h)

theorem ite {p q : Prop} [Decidable p] [Decidable q] (hpq : q ↔ p) {a b a' b' : Lexed}
    (ha : p → Extends more a a') (hb : ¬p → Extends more b b') :
    Extends more (if p then a else b) (if q then a' else b') := by
  by_cases hp : p
  · rw [if_pos hp, if_pos (hpq.mpr hp)]
    exact ha hp
  · rw [if_neg hp, if_neg (mt hpq.mp hp)]
    exact hb hp

end Extends

theorem lexText_of_not_mem (h : quote ∉ cs) : lexText quote cs = .error .unterminatedText := by
  have hdrop : cs.dropWhile (· != quote) = [] := by
    refine List.dropWhile_eq_nil_iff.mpr ?_
    intro x hx
    rw [bne_iff_ne]
    rintro rfl
    exact h hx
  rw [lexText, hdrop]

/-- A text in quotes that is closed goes no further, and one that is open is closed by no text
without the quote. -/
theorem extends_lexText (h : quote ∈ cs ∨ quote ∉ more) :
    Extends more (lexText quote cs) (lexText quote (cs ++ more)) := by
  by_cases hmem : quote ∈ cs
  · obtain ⟨inside, later, rfl, hinside⟩ := List.eq_append_cons_of_mem hmem
    rw [List.append_assoc, List.cons_append, lexText_append hinside, lexText_append hinside]
    rfl
  · have hopen : quote ∉ cs ++ more := by
      rw [List.mem_append, not_or]
      exact ⟨hmem, h.resolve_left hmem⟩
    rw [lexText_of_not_mem hmem, lexText_of_not_mem hopen]
    rfl

theorem extends_lexNumber (first : Char) (hmore : Boundary more) :
    Extends more (lexNumber first cs) (lexNumber first (cs ++ more)) := by
  unfold lexNumber
  simp only [Text.takeWhile_append_of_stops hmore.isNumberPart,
    Text.dropWhile_append_of_stops hmore.isNumberPart]
  split
  · exact .ok rfl
  · rfl

/-- A word goes on with nothing that stands behind a boundary, unless it is a text in quotes that is
open. -/
theorem extends_lexWord (hmore : Boundary more)
    (hquote : c = '"' ∨ c = '\'' → c ∈ cs ∨ c ∉ more) :
    Extends more (lexWord c cs) (lexWord c (cs ++ more)) := by
  have hequals : (cs ++ more).head? = some '=' ↔ cs.head? = some '=' :=
    head?_append_iff fun d hd => (hmore d hd).2.1
  have hand : (cs ++ more).head? = some '&' ↔ cs.head? = some '&' :=
    head?_append_iff fun d hd => (hmore d hd).2.2.1
  have hor : (cs ++ more).head? = some '|' ↔ cs.head? = some '|' :=
    head?_append_iff fun d hd => (hmore d hd).2.2.2
  have hpositive : ∀ d, cs.head? = some d → 1 ≤ cs.length := by
    intro d hd
    cases cs with
    | nil => cases hd
    | cons c cs => exact Nat.succ_le_succ (Nat.zero_le _)
  have hnext : ((cs ++ more).head?.map Char.isDigit).getD false =
      (cs.head?.map Char.isDigit).getD false := by
    cases cs with
    | nil => exact hmore.isDigit_head?
    | cons d cs => rfl
  unfold lexWord
  refine .ite Iff.rfl (fun _ => .ok rfl) fun _ => ?_
  refine .ite Iff.rfl (fun _ => .ok rfl) fun _ => ?_
  refine .ite Iff.rfl (fun _ => .ok rfl) fun _ => ?_
  refine .ite Iff.rfl (fun _ => ?_) fun _ => ?_
  · rw [← List.cons_append, countEquals_append hmore]
    have hle := countEquals_le (c :: cs)
    rw [List.length_cons] at hle
    exact .drop (by omega)
  refine .ite Iff.rfl (fun _ => .ite hequals (fun _ => ?_) fun _ => .ok rfl) fun _ => ?_
  · rw [countEquals_append hmore]
    have hle := countEquals_le cs
    exact .drop (by omega)
  refine .ite Iff.rfl (fun _ => .ite hequals (fun h => .drop (hpositive _ h)) fun _ => .ok rfl)
    fun _ => ?_
  refine .ite Iff.rfl (fun _ => .ite hequals (fun h => .drop (hpositive _ h)) fun _ => .ok rfl)
    fun _ => ?_
  refine .ite (by simp only [hand]) (fun h => .drop (hpositive '&' ?_)) fun _ => ?_
  · exact of_decide_eq_true (Bool.and_eq_true_iff.mp h).2
  refine .ite (by simp only [hor]) (fun h => .drop (hpositive '|' ?_)) fun _ => ?_
  · exact of_decide_eq_true (Bool.and_eq_true_iff.mp h).2
  refine .ite Iff.rfl (fun h => extends_lexText (hquote ?_)) fun _ => ?_
  · simpa using h
  refine .ite (by rw [hnext]) (fun _ => extends_lexNumber c hmore) fun _ => ?_
  refine .ite Iff.rfl (fun _ => ?_) fun _ => rfl
  have hstop : ∀ d ∈ more.head?, isNamePart d = false := fun d hd => (hmore d hd).1
  rw [Text.takeWhile_append_of_stops hstop, Text.dropWhile_append_of_stops hstop]
  exact .ok rfl

theorem mem_of_lexWord (h : lexWord c cs = .ok (word, rest)) (hc : c = '"' ∨ c = '\'') :
    c ∈ cs := by
  have htext : lexWord c cs = lexText c cs := by
    rcases hc with rfl | rfl <;> rfl
  by_contra hnot
  rw [htext, lexText_of_not_mem hnot] at h
  cases h

/-- The words of a text stand in front of those of another that begins where no word goes on. -/
theorem Lexes.append (h : Lexes cs ts) (hmore : Boundary more) (h' : Lexes more us) :
    Lexes (cs ++ more) (ts ++ us) := by
  induction h with
  | nil => exact h'
  | cons hword _ ih =>
      have hlonger := extends_lexWord hmore fun hc => Or.inl (mem_of_lexWord hword hc)
      rw [hword] at hlonger
      rw [List.append_assoc]
      exact .cons hlonger ih

/-! ## White space at the ends -/

def blanks : List Nat :=
  [9, 10, 11, 12, 13, 32, 133, 160, 5760, 8192, 8193, 8194, 8195, 8196, 8197, 8198, 8199, 8200,
    8201, 8202, 8232, 8233, 8239, 8287, 12288]

theorem toNat_mem_blanks (h : Text.isBlank c = true) : c.toNat ∈ blanks := by
  simp only [Text.isBlank, Bool.or_eq_true, Bool.and_eq_true, decide_eq_true_eq, beq_iff_eq] at h
  simp only [blanks, List.mem_cons, List.not_mem_nil, or_false]
  omega

theorem isNamePart_of_isBlank (h : Text.isBlank c = true) :
    isNamePart c = false ∧ isNameStart c = false := by
  have hblanks : ∀ n ∈ blanks,
      isNamePart (Char.ofNat n) = false ∧ isNameStart (Char.ofNat n) = false := by decide +kernel
  have hc := hblanks c.toNat (toNat_mem_blanks h)
  rwa [Char.ofNat_toNat] at hc

theorem boundary_blank (h : Text.isBlank c = true) : Boundary (c :: more) := by
  refine boundary_cons ⟨(isNamePart_of_isBlank h).1, ?_, ?_, ?_⟩ <;>
    · rintro rfl
      exact absurd h (by decide)

theorem lexWord_blank (h : Text.isBlank c = true) (cs : List Char) :
    lexWord c cs = if isSeparator c then .ok (none, cs) else .error (.unexpectedChar c) := by
  have hne : ∀ d : Char, Text.isBlank d = false → c ≠ d := by
    rintro d hd rfl
    rw [hd] at h
    cases h
  have hdigit : c.isDigit = false := by
    have hboundary : Boundary [c] := boundary_blank h
    exact hboundary.isDigit_head?
  simp only [lexWord, (isNamePart_of_isBlank h).2, hdigit, hne '(' (by decide), hne ')' (by decide),
    hne '=' (by decide), hne '!' (by decide), hne '>' (by decide), hne '<' (by decide),
    hne '&' (by decide), hne '|' (by decide), hne '"' (by decide), hne '\'' (by decide),
    hne '-' (by decide), decide_false, Bool.false_and, Bool.or_self, Bool.false_eq_true, if_false]

theorem Lexes.dropWhile (h : Lexes cs ts) : Lexes (cs.dropWhile Text.isBlank) ts := by
  induction h with
  | nil => exact .nil
  | @cons c cs rest word ts hword hrest ih =>
      cases hc : Text.isBlank c with
      | false =>
          rw [List.dropWhile_cons_of_neg (by simp [hc])]
          exact .cons hword hrest
      | true =>
          rw [List.dropWhile_cons_of_pos hc]
          rw [lexWord_blank hc] at hword
          split at hword
          · cases hword
            exact ih
          · cases hword

theorem Lexes.of_append_blank {d : Char} (h : Lexes (cs ++ [d]) ts)
    (hd : Text.isBlank d = true) : Lexes cs ts := by
  generalize htext : cs ++ [d] = text at h
  induction h generalizing cs with
  | nil => simp at htext
  | @cons c behind rest word ts hword hrest ih =>
      cases cs with
      | nil =>
          obtain ⟨rfl, rfl⟩ := List.cons.inj htext
          rw [lexWord_blank hd] at hword
          split at hword
          · cases hword
            exact hrest
          · cases hword
      | cons c' cs =>
          rw [List.cons_append] at htext
          obtain ⟨rfl, rfl⟩ := List.cons.inj htext
          have hquote : c' = '"' ∨ c' = '\'' → c' ∈ cs ∨ c' ∉ [d] := by
            intro hc
            refine Or.inr ?_
            rintro hmem
            obtain rfl := List.mem_singleton.mp hmem
            rcases hc with rfl | rfl <;> exact absurd hd (by decide)
          have hlonger : Extends [d] (lexWord c' cs) (lexWord c' (cs ++ [d])) :=
            extends_lexWord (boundary_blank hd) hquote
          rw [hword] at hlonger
          cases hshorter : lexWord c' cs with
          | error e =>
              rw [hshorter] at hlonger
              cases hlonger
          | ok lexed =>
              obtain ⟨word', rest'⟩ := lexed
              rw [hshorter] at hlonger
              obtain ⟨rfl, rfl⟩ := Prod.mk.inj (Except.ok.inj hlonger)
              exact .cons hshorter (ih rfl)

theorem Lexes.strip (h : Lexes cs ts) : Lexes (Text.stripWhile Text.isBlank cs) ts := by
  have hends : ∀ behind : List Char, Lexes behind.reverse ts →
      Lexes (behind.dropWhile Text.isBlank).reverse ts := by
    intro behind hbehind
    induction behind with
    | nil => exact hbehind
    | cons d behind ih =>
        cases hd : Text.isBlank d with
        | false => rwa [List.dropWhile_cons_of_neg (by simp [hd])]
        | true =>
            rw [List.dropWhile_cons_of_pos hd]
            rw [List.reverse_cons] at hbehind
            exact ih (hbehind.of_append_blank hd)
  refine hends _ ?_
  rw [List.reverse_reverse]
  exact h.dropWhile

end FlowEngine.Condition
