import FlowEngine.Condition.Lexer
import FlowEngine.Text.Split
/-!
# `FlowEngine.Condition.Expr` — conditions as trees

The grammar, from the loosest binding to the tightest:

    or      = and ("||" and)*
    and     = not ("&&" not)*
    not     = "!" not | compare
    compare = primary (op primary)?
    primary = literal | path | "(" or ")"

Chains of `||` and of `&&` lean to the left; `!` binds looser than a comparison; parentheses leave no
trace in the tree.  There is one function for each nonterminal.  Every call takes from the fuel and
between two tokens there are at most six calls, so six for each token and six more are enough.
-/

namespace FlowEngine.Condition

/-- A condition. -/
inductive Expr where
  | null
  | bool (b : Bool)
  | number (x : Float)
  | text (s : String)
  | path (segments : List String)
  | not (e : Expr)
  | and (left right : Expr)
  | or (left right : Expr)
  | compare (op : Comparison) (left right : Expr)

/-- A tree and the tokens behind it, or why there is none. -/
abbrev Parse := Except Error (Expr × List Token)

mutual

/-- The nonterminal `or`. -/
def disjunction : Nat → List Token → Parse
  | 0, _ => .error .unexpectedEnd
  | fuel + 1, ts =>
    match conjunction fuel ts with
    | .ok (left, rest) => disjunctionRest fuel left rest
    | .error e => .error e

/-- The operands of `||` behind the first. -/
def disjunctionRest : Nat → Expr → List Token → Parse
  | 0, _, _ => .error .unexpectedEnd
  | fuel + 1, left, .or :: ts =>
    match conjunction fuel ts with
    | .ok (right, rest) => disjunctionRest fuel (.or left right) rest
    | .error e => .error e
  | _ + 1, left, ts => .ok (left, ts)

/-- The nonterminal `and`. -/
def conjunction : Nat → List Token → Parse
  | 0, _ => .error .unexpectedEnd
  | fuel + 1, ts =>
    match negation fuel ts with
    | .ok (left, rest) => conjunctionRest fuel left rest
    | .error e => .error e

/-- The operands of `&&` behind the first. -/
def conjunctionRest : Nat → Expr → List Token → Parse
  | 0, _, _ => .error .unexpectedEnd
  | fuel + 1, left, .and :: ts =>
    match negation fuel ts with
    | .ok (right, rest) => conjunctionRest fuel (.and left right) rest
    | .error e => .error e
  | _ + 1, left, ts => .ok (left, ts)

/-- The nonterminal `not`. -/
def negation : Nat → List Token → Parse
  | 0, _ => .error .unexpectedEnd
  | fuel + 1, .not :: ts =>
    match negation fuel ts with
    | .ok (e, rest) => .ok (.not e, rest)
    | .error e => .error e
  | fuel + 1, ts => comparison fuel ts

/-- The nonterminal `compare`. -/
def comparison : Nat → List Token → Parse
  | 0, _ => .error .unexpectedEnd
  | fuel + 1, ts =>
    match primary fuel ts with
    | .ok (left, .comparison op :: rest) =>
      match primary fuel rest with
      | .ok (right, rest) => .ok (.compare op left right, rest)
      | .error e => .error e
    | .ok (left, rest) => .ok (left, rest)
    | .error e => .error e

/-- The nonterminal `primary`. -/
def primary : Nat → List Token → Parse
  | 0, _ => .error .unexpectedEnd
  | _ + 1, [] => .error .unexpectedEnd
  | _ + 1, .text s :: ts => .ok (.text s, ts)
  | _ + 1, .number x :: ts => .ok (.number x, ts)
  | _ + 1, .bool b :: ts => .ok (.bool b, ts)
  | _ + 1, .null :: ts => .ok (.null, ts)
  | _ + 1, .name n :: ts => .ok (.path (Text.splitAt '.' n), ts)
  | fuel + 1, .opening :: ts =>
    match disjunction fuel ts with
    | .ok (e, .closing :: rest) => .ok (e, rest)
    | .ok (_, other :: _) => .error (.unexpectedToken other.label)
    | .ok (_, []) => .error .unexpectedEnd
    | .error e => .error e
  | _ + 1, other :: _ => .error (.unexpectedToken other.label)

end

/-- The tree of a whole list of tokens. -/
def parseTokens (ts : List Token) : Except Error Expr :=
  if ts.isEmpty then .error .empty
  else match disjunction (6 * ts.length + 6) ts with
    | .ok (e, []) => .ok e
    | .ok (_, extra :: _) => .error (.unexpectedToken extra.label)
    | .error e => .error e

def parse (source : String) : Except Error Expr :=
  match tokenize source with
  | .ok ts => parseTokens ts
  | .error e => .error e

end FlowEngine.Condition
