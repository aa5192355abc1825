import FlowEngine.Condition.Expr
/-!
# `FlowEngine.Proofs.Condition.Grammar` — a condition is read if and only if the grammar derives it

The grammar of conditions is

    or      = and ("||" and)*
    and     = not ("&&" not)*
    not     = "!" not | compare
    compare = primary (op primary)?
    primary = literal | path | "(" or ")"

Here its derivations are data: one type for each nonterminal, one constructor for each of its
alternatives, a list for each star.  A derivation has the tokens that it derives, from left to
right, and a tree, in which the operands of a chain are joined from the left and a group is what
stands in it.  Neither mentions how conditions are read.

Reading is sound: what is read in front of a list has a derivation whose tokens stand there.  It is
complete: in front of tokens that do not go on with it, a derivation is read as its tree.  A token
goes on with a derivation if it binds at least as tightly as what has been derived, and six calls
for each token are enough, since no two nonterminals call each other without taking one.

That no list of tokens has two trees is not a third induction: both trees would be what is read.
-/

namespace FlowEngine.Condition.Grammar

/-- A value that is written out. -/
inductive Literal where
  | null
  | bool (b : Bool)
  | number (x : Float)
  | text (s : String)

mutual

/-- `or = and ("||" and)*` -/
inductive Disjunction where
  | chain (first : Conjunction) (others : List Conjunction)

/-- `and = not ("&&" not)*` -/
inductive Conjunction where
  | chain (first : Negation) (others : List Negation)

/-- `not = "!" not | compare` -/
inductive Negation where
  | not (operand : Negation)
  | plain (operand : Relation)

/-- `compare = primary (op primary)?` -/
inductive Relation where
  | plain (operand : Primary)
  | compare (left : Primary) (op : Comparison) (right : Primary)

/-- `primary = literal | path | "(" or ")"` -/
inductive Primary where
  | literal (value : Literal)
  | path (name : String)
  | group (inner : Disjunction)

end

/-! ## The tokens of a derivation -/

def Literal.token : Literal → Token
  | null => .null
  | bool b => .bool b
  | number x => .number x
  | text s => .text s

mutual

def Disjunction.tokens : Disjunction → List Token
  | .chain first others => first.tokens ++ Conjunction.othersTokens others

def Conjunction.othersTokens : List Conjunction → List Token
  | [] => []
  | operand :: others => .or :: operand.tokens ++ Conjunction.othersTokens others

def Conjunction.tokens : Conjunction → List Token
  | .chain first others => first.tokens ++ Negation.othersTokens others

def Negation.othersTokens : List Negation → List Token
  | [] => []
  | operand :: others => .and :: operand.tokens ++ Negation.othersTokens others

def Negation.tokens : Negation → List Token
  | .not operand => .not :: operand.tokens
  | .plain operand => operand.tokens

def Relation.tokens : Relation → List Token
  | .plain operand => operand.tokens
  | .compare left op right => left.tokens ++ .comparison op :: right.tokens

def Primary.tokens : Primary → List Token
  | .literal value => [value.token]
  | .path name => [.name name]
  | .group inner => .opening :: inner.tokens ++ [.closing]

end

/-! ## The tree of a derivation -/

def Literal.tree : Literal → Expr
  | null => .null
  | bool b => .bool b
  | number x => .number x
  | text s => .text s

mutual

/-- The operands of `||`, joined from the left. -/
def Disjunction.tree : Disjunction → Expr
  | .chain first others => (Conjunction.trees others).foldl .or first.tree

def Conjunction.trees : List Conjunction → List Expr
  | [] => []
  | operand :: others => operand.tree :: Conjunction.trees others

/-- The operands of `&&`, joined from the left. -/
def Conjunction.tree : Conjunction → Expr
  | .chain first others => (Negation.trees others).foldl .and first.tree

def Negation.trees : List Negation → List Expr
  | [] => []
  | operand :: others => operand.tree :: Negation.trees others

def Negation.tree : Negation → Expr
  | .not operand => .not operand.tree
  | .plain operand => operand.tree

def Relation.tree : Relation → Expr
  | .plain operand => operand.tree
  | .compare left op right => .compare op left.tree right.tree

/-- A path in its segments; parentheses leave no trace. -/
def Primary.tree : Primary → Expr
  | .literal value => value.tree
  | .path name => .path (Text.splitAt '.' name)
  | .group inner => inner.tree

end

/-! ## What is read is derived

By induction on the fuel: a call takes from it, so each function may count on the others. -/

mutual

theorem exists_disjunction {fuel : Nat} {ts rest : List Token} {e : Expr}
    (h : disjunction fuel ts = .ok (e, rest)) :
    ∃ d : Disjunction, d.tree = e ∧ d.tokens ++ rest = ts := by
  match fuel with
  | 0 => cases h
  | fuel + 1 =>
      unfold disjunction at h
      split at h
      · next left between hleft =>
          obtain ⟨first, rfl, rfl⟩ := exists_conjunction hleft
          obtain ⟨others, rfl, rfl⟩ := exists_disjunctionRest h
          refine ⟨.chain first others, rfl, ?_⟩
          rw [Disjunction.tokens, List.append_assoc]
      · cases h

theorem exists_disjunctionRest {fuel : Nat} {left e : Expr} {ts rest : List Token}
    (h : disjunctionRest fuel left ts = .ok (e, rest)) :
    ∃ others : List Conjunction, (Conjunction.trees others).foldl .or left = e ∧
      Conjunction.othersTokens others ++ rest = ts := by
  match fuel with
  | 0 => cases h
  | fuel + 1 =>
      unfold disjunctionRest at h
      split at h
      · cases h
      · split at h
        · next right between hright =>
            obtain ⟨operand, rfl, rfl⟩ := exists_conjunction hright
            obtain ⟨others, rfl, rfl⟩ := exists_disjunctionRest h
            refine ⟨operand :: others, rfl, ?_⟩
            rw [Conjunction.othersTokens, List.append_assoc]
            rfl
        · cases h
      · cases h
        exact ⟨[], rfl, rfl⟩

theorem exists_conjunction {fuel : Nat} {ts rest : List Token} {e : Expr}
    (h : conjunction fuel ts = .ok (e, rest)) :
    ∃ d : Conjunction, d.tree = e ∧ d.tokens ++ rest = ts := by
  match fuel with
  | 0 => cases h
  | fuel + 1 =>
      unfold conjunction at h
      split at h
      · next left between hleft =>
          obtain ⟨first, rfl, rfl⟩ := exists_negation hleft
          obtain ⟨others, rfl, rfl⟩ := exists_conjunctionRest h
          refine ⟨.chain first others, rfl, ?_⟩
          rw [Conjunction.tokens, List.append_assoc]
      · cases h

theorem exists_conjunctionRest {fuel : Nat} {left e : Expr} {ts rest : List Token}
    (h : conjunctionRest fuel left ts = .ok (e, rest)) :
    ∃ others : List Negation, (Negation.trees others).foldl .and left = e ∧
      Negation.othersTokens others ++ rest = ts := by
  match fuel with
  | 0 => cases h
  | fuel + 1 =>
      unfold conjunctionRest at h
      split at h
      · cases h
      · split at h
        · next right between hright =>
            obtain ⟨operand, rfl, rfl⟩ := exists_negation hright
            obtain ⟨others, rfl, rfl⟩ := exists_conjunctionRest h
            refine ⟨operand :: others, rfl, ?_⟩
            rw [Negation.othersTokens, List.cons_append, List.cons_append, List.append_assoc]
        · cases h
      · cases h
        exact ⟨[], rfl, rfl⟩

theorem exists_negation {fuel : Nat} {ts rest : List Token} {e : Expr}
    (h : negation fuel ts = .ok (e, rest)) :
    ∃ d : Negation, d.tree = e ∧ d.tokens ++ rest = ts := by
  match fuel with
  | 0 => cases h
  | fuel + 1 =>
      unfold negation at h
      split at h
      · cases h
      · split at h
        · next inner between hinner =>
            obtain ⟨operand, rfl, rfl⟩ := exists_negation hinner
            cases h
            exact ⟨.not operand, rfl, rfl⟩
        · cases h
      · obtain ⟨operand, rfl, rfl⟩ := exists_comparison h
        exact ⟨.plain operand, rfl, rfl⟩

theorem exists_comparison {fuel : Nat} {ts rest : List Token} {e : Expr}
    (h : comparison fuel ts = .ok (e, rest)) :
    ∃ d : Relation, d.tree = e ∧ d.tokens ++ rest = ts := by
  match fuel with
  | 0 => cases h
  | fuel + 1 =>
      unfold comparison at h
      split at h
      · next left op between hleft =>
          obtain ⟨first, rfl, rfl⟩ := exists_primary hleft
          split at h
          · next right behind hright =>
              obtain ⟨second, rfl, rfl⟩ := exists_primary hright
              cases h
              refine ⟨.compare first op second, rfl, ?_⟩
              rw [Relation.tokens, List.append_assoc]
              rfl
          · cases h
      · next left between _ hleft =>
          obtain ⟨first, rfl, rfl⟩ := exists_primary hleft
          cases h
          exact ⟨.plain first, rfl, rfl⟩
      · cases h

theorem exists_primary {fuel : Nat} {ts rest : List Token} {e : Expr}
    (h : primary fuel ts = .ok (e, rest)) :
    ∃ d : Primary, d.tree = e ∧ d.tokens ++ rest = ts := by
  match fuel, ts with
  | 0, _ => cases h
  | _ + 1, [] => cases h
  | _ + 1, .text s :: _ =>
      cases h
      exact ⟨.literal (.text s), rfl, rfl⟩
  | _ + 1, .number x :: _ =>
      cases h
      exact ⟨.literal (.number x), rfl, rfl⟩
  | _ + 1, .bool b :: _ =>
      cases h
      exact ⟨.literal (.bool b), rfl, rfl⟩
  | _ + 1, .null :: _ =>
      cases h
      exact ⟨.literal .null, rfl, rfl⟩
  | _ + 1, .name name :: _ =>
      cases h
      exact ⟨.path name, rfl, rfl⟩
  | fuel + 1, .opening :: ts =>
      unfold primary at h
      split at h
      · next inner between hinner =>
          obtain ⟨d, rfl, rfl⟩ := exists_disjunction hinner
          cases h
          refine ⟨.group d, rfl, ?_⟩
          rw [Primary.tokens, List.cons_append, List.cons_append, List.append_assoc]
          rfl
      · cases h
      · cases h
      · cases h
  | _ + 1, .comparison _ :: _ => cases h
  | _ + 1, .and :: _ => cases h
  | _ + 1, .or :: _ => cases h
  | _ + 1, .not :: _ => cases h
  | _ + 1, .closing :: _ => cases h

end

/-! ## What is derived is read -/

/-- How tightly a token binds what stands on its two sides; most bind nothing. -/
def strength : Token → Nat
  | .or => 1
  | .and => 2
  | .comparison _ => 3
  | _ => 0

/-- The first of the tokens does not bind as tightly as that. -/
def Stops (tightness : Nat) (rest : List Token) : Prop :=
  ∀ t ∈ rest.head?, strength t < tightness

theorem Stops.mono {k l : Nat} {rest : List Token} (h : Stops k rest) (hkl : k ≤ l) :
    Stops l rest := by
  intro t ht
  exact Nat.lt_of_lt_of_le (h t ht) hkl

theorem stops_cons {k : Nat} {t : Token} {rest : List Token} (h : strength t < k) :
    Stops k (t :: rest) := by
  intro t' ht
  cases ht
  exact h

theorem stops_or_others {rest : List Token} (h : Stops 1 rest) (others : List Conjunction) :
    Stops 2 (Conjunction.othersTokens others ++ rest) := by
  cases others with
  | nil => exact h.mono (by omega)
  | cons operand others => exact stops_cons (by decide)

theorem stops_and_others {rest : List Token} (h : Stops 2 rest) (others : List Negation) :
    Stops 3 (Negation.othersTokens others ++ rest) := by
  cases others with
  | nil => exact h.mono (by omega)
  | cons operand others => exact stops_cons (by decide)

/-! Each derivation has a token, so what stands behind one is shorter. -/

theorem Primary.length_tokens_pos (d : Primary) : 0 < d.tokens.length := by
  cases d <;> simp [Primary.tokens]

theorem Relation.length_tokens_pos (d : Relation) : 0 < d.tokens.length := by
  cases d with
  | plain operand => exact operand.length_tokens_pos
  | compare left op right =>
      rw [Relation.tokens, List.length_append, List.length_cons]
      omega

theorem Negation.length_tokens_pos (d : Negation) : 0 < d.tokens.length := by
  cases d with
  | not operand => simp [Negation.tokens]
  | plain operand => exact operand.length_tokens_pos

theorem Conjunction.length_tokens_pos (d : Conjunction) : 0 < d.tokens.length := by
  cases d with
  | chain first others =>
      have hfirst := first.length_tokens_pos
      rw [Conjunction.tokens, List.length_append]
      omega

theorem Disjunction.length_tokens_pos (d : Disjunction) : 0 < d.tokens.length := by
  cases d with
  | chain first others =>
      have hfirst := first.length_tokens_pos
      rw [Disjunction.tokens, List.length_append]
      omega

theorem Primary.tokens_append_ne_not (d : Primary) {rest ts : List Token} :
    d.tokens ++ rest ≠ .not :: ts := by
  intro h
  cases d with
  | literal value => cases value <;> cases h
  | path name => cases h
  | group inner => cases h

theorem Relation.tokens_append_ne_not (d : Relation) {rest ts : List Token} :
    d.tokens ++ rest ≠ .not :: ts := by
  cases d with
  | plain operand => exact operand.tokens_append_ne_not
  | compare left op right =>
      rw [Relation.tokens, List.append_assoc]
      exact left.tokens_append_ne_not

mutual

theorem disjunction_tokens (d : Disjunction) {rest : List Token} (hrest : Stops 1 rest)
    {fuel : Nat} (hfuel : 6 * (d.tokens ++ rest).length + 5 ≤ fuel) :
    disjunction fuel (d.tokens ++ rest) = .ok (d.tree, rest) := by
  match d, fuel with
  | .chain first others, fuel + 1 =>
      rw [Disjunction.tokens, List.append_assoc] at hfuel ⊢
      rw [disjunction, conjunction_tokens first (stops_or_others hrest others) (by omega)]
      have hfirst := first.length_tokens_pos
      rw [List.length_append] at hfuel
      exact disjunctionRest_tokens others first.tree hrest (by omega)

theorem disjunctionRest_tokens (others : List Conjunction) (left : Expr) {rest : List Token}
    (hrest : Stops 1 rest) {fuel : Nat}
    (hfuel : 6 * (Conjunction.othersTokens others ++ rest).length + 1 ≤ fuel) :
    disjunctionRest fuel left (Conjunction.othersTokens others ++ rest) =
      .ok ((Conjunction.trees others).foldl .or left, rest) := by
  match others, fuel with
  | [], fuel + 1 =>
      rw [Conjunction.othersTokens, List.nil_append, disjunctionRest]
      · rfl
      · rintro ts rfl
        exact absurd (hrest .or rfl) (by decide)
  | operand :: others, fuel + 1 =>
      rw [Conjunction.othersTokens, List.cons_append, List.cons_append,
        List.append_assoc] at hfuel ⊢
      rw [List.length_cons] at hfuel
      rw [disjunctionRest, conjunction_tokens operand (stops_or_others hrest others) (by omega)]
      rw [List.length_append] at hfuel
      exact disjunctionRest_tokens others _ hrest (by omega)

theorem conjunction_tokens (d : Conjunction) {rest : List Token} (hrest : Stops 2 rest)
    {fuel : Nat} (hfuel : 6 * (d.tokens ++ rest).length + 4 ≤ fuel) :
    conjunction fuel (d.tokens ++ rest) = .ok (d.tree, rest) := by
  match d, fuel with
  | .chain first others, fuel + 1 =>
      rw [Conjunction.tokens, List.append_assoc] at hfuel ⊢
      rw [conjunction, negation_tokens first (stops_and_others hrest others) (by omega)]
      have hfirst := first.length_tokens_pos
      rw [List.length_append] at hfuel
      exact conjunctionRest_tokens others first.tree hrest (by omega)

theorem conjunctionRest_tokens (others : List Negation) (left : Expr) {rest : List Token}
    (hrest : Stops 2 rest) {fuel : Nat}
    (hfuel : 6 * (Negation.othersTokens others ++ rest).length + 1 ≤ fuel) :
    conjunctionRest fuel left (Negation.othersTokens others ++ rest) =
      .ok ((Negation.trees others).foldl .and left, rest) := by
  match others, fuel with
  | [], fuel + 1 =>
      rw [Negation.othersTokens, List.nil_append, conjunctionRest]
      · rfl
      · rintro ts rfl
        exact absurd (hrest .and rfl) (by decide)
  | operand :: others, fuel + 1 =>
      rw [Negation.othersTokens, List.cons_append, List.cons_append, List.append_assoc] at hfuel ⊢
      rw [List.length_cons] at hfuel
      rw [conjunctionRest, negation_tokens operand (stops_and_others hrest others) (by omega)]
      rw [List.length_append] at hfuel
      exact conjunctionRest_tokens others _ hrest (by omega)

theorem negation_tokens (d : Negation) {rest : List Token} (hrest : Stops 3 rest)
    {fuel : Nat} (hfuel : 6 * (d.tokens ++ rest).length + 3 ≤ fuel) :
    negation fuel (d.tokens ++ rest) = .ok (d.tree, rest) := by
  match d, fuel with
  | .not operand, fuel + 1 =>
      rw [Negation.tokens, List.cons_append] at hfuel ⊢
      rw [List.length_cons] at hfuel
      rw [negation, negation_tokens operand hrest (by omega)]
      rfl
  | .plain operand, fuel + 1 =>
      rw [Negation.tokens] at hfuel ⊢
      rw [negation, comparison_tokens operand hrest (by omega)]
      · rfl
      · intro ts
        exact operand.tokens_append_ne_not

theorem comparison_tokens (d : Relation) {rest : List Token} (hrest : Stops 3 rest)
    {fuel : Nat} (hfuel : 6 * (d.tokens ++ rest).length + 2 ≤ fuel) :
    comparison fuel (d.tokens ++ rest) = .ok (d.tree, rest) := by
  match d, fuel with
  | .plain operand, fuel + 1 =>
      rw [Relation.tokens] at hfuel ⊢
      rw [comparison, primary_tokens operand (by omega)]
      split
      · next heq =>
          cases heq
          exact absurd (hrest (.comparison _) rfl) (Nat.lt_irrefl 3)
      · next heq =>
          cases heq
          rfl
      · next heq => cases heq
  | .compare left op right, fuel + 1 =>
      have hleft := left.length_tokens_pos
      rw [Relation.tokens, List.append_assoc, List.cons_append] at hfuel ⊢
      rw [comparison, primary_tokens left (by omega)]
      rw [List.length_append, List.length_cons] at hfuel
      have hright : primary fuel (right.tokens ++ rest) = .ok (right.tree, rest) :=
        primary_tokens right (by omega)
      simp only [hright]
      rfl

theorem primary_tokens (d : Primary) {rest : List Token} {fuel : Nat}
    (hfuel : 6 * (d.tokens ++ rest).length + 1 ≤ fuel) :
    primary fuel (d.tokens ++ rest) = .ok (d.tree, rest) := by
  match d, fuel with
  | .literal value, fuel + 1 => cases value <;> rfl
  | .path name, fuel + 1 => rfl
  | .group inner, fuel + 1 =>
      rw [Primary.tokens, List.cons_append, List.cons_append, List.append_assoc,
        List.singleton_append] at hfuel ⊢
      rw [List.length_cons] at hfuel
      rw [primary, disjunction_tokens inner (stops_cons (by decide)) (by omega)]
      rfl

end

/-! ## Reading a whole condition -/

/-- The whole list can be derived, and this is the tree of the derivation. -/
def Derives (ts : List Token) (e : Expr) : Prop := ∃ d : Disjunction, d.tokens = ts ∧ d.tree = e

theorem parseTokens_tokens (d : Disjunction) : parseTokens d.tokens = .ok d.tree := by
  have hend : Stops 1 [] := by
    intro t ht
    cases ht
  have hread : disjunction (6 * d.tokens.length + 6) (d.tokens ++ []) = .ok (d.tree, []) :=
    disjunction_tokens d hend (by rw [List.append_nil]; omega)
  rw [List.append_nil] at hread
  have hnonempty : d.tokens.isEmpty = false := List.isEmpty_eq_false_iff.mpr
    (List.ne_nil_of_length_pos d.length_tokens_pos)
  rw [parseTokens, hnonempty, hread]
  rfl

theorem derives_of_parseTokens {ts : List Token} {e : Expr} (h : parseTokens ts = .ok e) :
    Derives ts e := by
  unfold parseTokens at h
  split at h
  · cases h
  · split at h
    · next tree hread =>
        cases h
        obtain ⟨d, htree, htokens⟩ := exists_disjunction hread
        rw [List.append_nil] at htokens
        exact ⟨d, htokens, htree⟩
    · cases h
    · cases h

theorem parseTokens_eq_ok_iff {ts : List Token} {e : Expr} :
    parseTokens ts = .ok e ↔ Derives ts e := by
  constructor
  · exact derives_of_parseTokens
  · rintro ⟨d, rfl, rfl⟩
    exact parseTokens_tokens d

theorem Derives.unique {ts : List Token} {e e' : Expr} (h : Derives ts e) (h' : Derives ts e') :
    e = e' := by
  have hread := parseTokens_eq_ok_iff.mpr h
  rw [parseTokens_eq_ok_iff.mpr h'] at hread
  exact (Except.ok.inj hread).symm

/-- A list of tokens is read if and only if the grammar derives the whole of it, and as the tree of
its derivation; a text is read if and only if its tokens are.  No list has two trees. -/
theorem parse_iff_derives :
    (∀ ts e, parseTokens ts = .ok e ↔ Derives ts e) ∧
      (∀ source e, parse source = .ok e ↔ ∃ ts, tokenize source = .ok ts ∧ Derives ts e) ∧
      ∀ ts e e', Derives ts e → Derives ts e' → e = e' := by
  refine ⟨fun ts e => parseTokens_eq_ok_iff, ?_, fun ts e e' => Derives.unique⟩
  intro source e
  unfold parse
  split
  · next ts htokens =>
      rw [parseTokens_eq_ok_iff, htokens]
      constructor
      · intro h
        exact ⟨ts, rfl, h⟩
      · rintro ⟨_, heq, h⟩
        cases heq
        exact h
  · next error htokens =>
      constructor
      · intro h
        cases h
      · rintro ⟨_, heq, -⟩
        rw [htokens] at heq
        cases heq

/-- A comparison is bound before the `!` in front of it, and a chain leans to the left. -/
example : Derives [.not, .name "a", .comparison .gt, .name "b", .or, .null, .or, .bool true]
    (.or (.or (.not (.compare .gt (.path ["a"]) (.path ["b"]))) .null) (.bool true)) :=
  ⟨.chain (.chain (.not (.plain (.compare (.path "a") .gt (.path "b")))) [])
    [.chain (.plain (.plain (.literal .null))) [],
      .chain (.plain (.plain (.literal (.bool true)))) []], rfl, rfl⟩

end FlowEngine.Condition.Grammar
