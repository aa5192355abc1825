import FlowEngine.Json.Printer
import FlowEngine.Proofs.Json.Grammar
import FlowEngine.Proofs.Json.Reading
/-!
# `FlowEngine.Proofs.Json.Compact` — a compact text is read back

What is printed without blanks is a draft of the value (`Legible.writes`), so the reader gives the
value back (`Json.parse?_compact`), if it is one that the reader can give: members stand in order,
the nesting stays within the room that the reader has, and each number is read from its own text.
Not every number is, since the text of a float is read with the rounding of the reader.

By themselves all characters are spelled the way the printer escapes them (`spells_escaped`); a
number ends where the comma or the bracket behind it begins.
-/

namespace FlowEngine

namespace Json

/-- What stands between the quotes when a text is printed. -/
def escaped (cs : List Char) : List Char := cs.flatMap escape

theorem escaped_cons (c : Char) (cs : List Char) : escaped (c :: cs) = escape c ++ escaped cs :=
  List.flatMap_cons

theorem escaped_append (cs more : List Char) : escaped (cs ++ more) = escaped cs ++ escaped more :=
  List.flatMap_append

theorem toList_quoted (s : String) : (quoted s).toList = '"' :: (escaped s.toList ++ ['"']) :=
  String.toList_ofList

/-! ## The texts of items and members -/

theorem toList_compact_array (items : List Json) :
    (compact (.array items)).toList = '[' :: ((compactItems items).toList ++ [']']) := by
  simp [compact]

theorem toList_compact_object (members : Members) :
    (compact (.object members)).toList =
      '\x7b' :: ((compactMembers members).toList ++ ['\x7d']) := by
  simp [compact]

theorem toList_compactItems_cons (x y : Json) (items : List Json) :
    (compactItems (x :: y :: items)).toList =
      x.compact.toList ++ ',' :: (compactItems (y :: items)).toList := by
  simp [compactItems]

theorem toList_compactMembers_singleton (name : String) (x : Json) :
    (compactMembers [(name, x)]).toList =
      '"' :: (escaped name.toList ++ '"' :: ':' :: x.compact.toList) := by
  simp [compactMembers, toList_quoted]

theorem toList_compactMembers_cons (name : String) (x : Json) (member : String × Json)
    (members : Members) :
    (compactMembers ((name, x) :: member :: members)).toList =
      '"' :: (escaped name.toList ++ '"' :: ':' :: (x.compact.toList ++
        ',' :: (compactMembers (member :: members)).toList)) := by
  simp [compactMembers, toList_quoted]

/-! ## Legible values -/

mutual

def depth : Json → Nat
  | .array items => depthItems items + 1
  | .object members => depthMembers members + 1
  | .null => 0
  | .bool _ => 0
  | .number _ => 0
  | .string _ => 0

def depthItems : List Json → Nat
  | [] => 0
  | x :: xs => max (depth x) (depthItems xs)

def depthMembers : Members → Nat
  | [] => 0
  | (_, x) :: xs => max (depth x) (depthMembers xs)

end

mutual

def parts : Json → List Json
  | .array items => .array items :: partsItems items
  | .object members => .object members :: partsMembers members
  | .null => [.null]
  | .bool b => [.bool b]
  | .number n => [.number n]
  | .string s => [.string s]

def partsItems : List Json → List Json
  | [] => []
  | x :: xs => parts x ++ partsItems xs

def partsMembers : Members → List Json
  | [] => []
  | (_, x) :: xs => parts x ++ partsMembers xs

end

/-- The reader can give this value back: it has the room for it, members stand in the order in which
the reader puts them, and each number is read from its own text. -/
structure Legible (room : Nat) (v : Json) : Prop where
  shallow : v.depth ≤ room
  sorted : ∀ members, .object members ∈ v.parts → Sorted members
  exact : ∀ n, .number n ∈ v.parts → Json.parse? n.text = some (.number n)

end Json

namespace Document

open Json (escape escaped)

variable {c : Char} {cs rest more : List Char} {room : Nat}

/-! ## Texts -/

theorem spells_control {n : Nat} (hn : n < 32) :
    Spells ('\\' :: 'u' :: Text.hex 4 n) [Char.ofNat n] := by
  have hdigits : ∀ n < 32, fourHex? (Text.hexDigit (n / Nat.pow 16 3 % 16))
      (Text.hexDigit (n / Nat.pow 16 2 % 16)) (Text.hexDigit (n / Nat.pow 16 1 % 16))
      (Text.hexDigit (n / Nat.pow 16 0 % 16)) = some n := by
    decide
  refine .unit (hdigits n hn) ?_ ?_ .nil
  · exact fun hhigh => absurd hhigh.1 (by omega)
  · exact fun hlow => absurd hlow.1 (by omega)

theorem spells_escape (c : Char) : Spells (escape c) [c] := by
  have hletter : ∀ {e d : Char}, c = d → unescape? e = some d → Spells ['\\', e] [c] := by
    rintro e d rfl he
    exact .escape he .nil
  have hcode : ∀ {n : Nat}, c.toNat = n → c = Char.ofNat n := by
    rintro n rfl
    exact (Char.ofNat_toNat c).symm
  unfold Json.escape
  split
  · next heq => exact hletter heq rfl
  split
  · next heq => exact hletter heq rfl
  split
  · next heq => exact hletter heq rfl
  split
  · next heq => exact hletter heq rfl
  split
  · next heq => exact hletter heq rfl
  split
  · next heq => exact hletter (hcode heq) rfl
  split
  · next heq => exact hletter (hcode heq) rfl
  split
  · next hcontrol =>
      have hspells := spells_control hcontrol
      rwa [Char.ofNat_toNat] at hspells
  · next hquote hbackslash _ _ _ _ _ hprinted =>
      exact .plain ⟨hquote, hbackslash, by omega⟩ .nil

theorem spells_escaped (cs : List Char) : Spells (escaped cs) cs := by
  induction cs with
  | nil => exact .nil
  | cons c cs ih =>
      rw [Json.escaped_cons]
      exact (spells_escape c).append ih

/-! ## Numbers -/

theorem blunt_cons (h : c = ',' ∨ c = ']' ∨ c = '\x7d') (cs : List Char) : Blunt (c :: cs) := by
  intro d hd
  obtain rfl : c = d := Option.some.inj hd
  rcases h with rfl | rfl | rfl <;> simp [IsNumeric]

theorem isGap_of_isNumeric (h : IsNumeric c) : isGap c = false := by
  cases hgap : isGap c with
  | false => rfl
  | true =>
      simp only [isGap, Bool.or_eq_true, beq_iff_eq] at hgap
      rcases hgap with ((rfl | rfl) | rfl) | rfl <;> simp [IsNumeric] at h

theorem skipGaps_append (h : ∀ g ∈ cs, isGap g = true) (more : List Char) :
    skipGaps (cs ++ more) = skipGaps more :=
  List.dropWhile_append_of_pos h

theorem skipGaps_of_numeric (h : ∀ d ∈ cs, IsNumeric d) (hne : cs ≠ []) (more : List Char) :
    skipGaps (cs ++ more) = cs ++ more := by
  cases cs with
  | nil => exact absurd rfl hne
  | cons c cs =>
      exact skipGaps_eq_cons_iff.mpr
        ⟨[], rfl, List.forall_mem_nil _, isGap_of_isNumeric (h c List.mem_cons_self)⟩

/-- What a number is read from: a numeral between blanks, which is read to the number in front of
anything that the numeral does not go on in. -/
theorem exists_numeral {s : String} {n : Number} (h : Json.parse? s = some (.number n)) :
    ∃ front numeral gap : List Char, s.toList = front ++ (numeral ++ gap) ∧
      (∀ g ∈ front, isGap g = true) ∧ (∀ g ∈ gap, isGap g = true) ∧ numeral ≠ [] ∧
      (∀ d ∈ numeral, IsNumeric d) ∧ ∀ {room cs more}, skipGaps cs = numeral ++ more →
        Alike more gap → Reads room (.value (.literal (.number n))) cs more := by
  obtain ⟨draft, ⟨gap, hreads, hgap⟩, hvalue⟩ := Json.parse?_eq_some_iff.mp h
  have hgap : ∀ g ∈ gap, isGap g = true := List.dropWhile_eq_nil_iff.mp hgap
  cases hreads with
  | @number _ _ body _ negative v hcs hread =>
      obtain rfl : v = .number n := hvalue
      obtain ⟨taken, rfl, hnumeric, hmore⟩ := steady_readNumber? _ _ _ _ hread
      have hne : taken ≠ [] := by
        rintro rfl
        obtain ⟨d, ds, rfl, hd⟩ := isDigit_of_readNumber? hread
        have hblank := hgap d List.mem_cons_self
        rw [isGap_of_isNumeric (.inl hd)] at hblank
        cases hblank
      have hsign : ∀ d ∈ (if negative then ['-'] else []), IsNumeric d := by
        cases negative <;> simp [IsNumeric]
      refine ⟨s.toList.takeWhile isGap, (if negative then ['-'] else []) ++ taken, gap, ?_,
        fun g hg => List.mem_takeWhile_imp hg, hgap, by simp [hne], ?_, ?_⟩
      · rw [List.append_assoc, ← hcs, skipGaps, List.takeWhile_append_dropWhile]
      · exact fun d hd => (List.mem_append.mp hd).elim (hsign d) (hnumeric d)
      · intro room cs more hcs halike
        rw [List.append_assoc] at hcs
        exact .number hcs (hmore more halike)
  | word hword =>
      simp only [words, List.mem_cons, Prod.mk.injEq, List.not_mem_nil, or_false] at hword
      rcases hword with ⟨-, rfl⟩ | ⟨-, rfl⟩ | ⟨-, rfl⟩ <;> cases hvalue
  | text => cases hvalue
  | emptyArray => cases hvalue
  | array => cases hvalue
  | emptyObject => cases hvalue
  | object => cases hvalue

/-- A number that is read from a text is read from it in front of other texts, too. -/
theorem reads_number {s : String} {n : Number} (h : Json.parse? s = some (.number n))
    (hrest : Blunt rest) :
    ∃ rest', Reads room (.value (.literal (.number n))) (s.toList ++ rest) rest' ∧
      skipGaps rest' = skipGaps rest := by
  obtain ⟨front, numeral, gap, hs, hfront, hgap, hne, hnumeric, hreads⟩ := exists_numeral h
  have halike : Alike (gap ++ rest) gap := by
    cases gap with
    | nil => exact .inr ⟨hrest, by simp [Blunt]⟩
    | cons g gap => exact .inl rfl
  refine ⟨gap ++ rest, hreads ?_ halike, skipGaps_append hgap rest⟩
  rw [hs, List.append_assoc, skipGaps_append hfront, List.append_assoc,
    skipGaps_of_numeric hnumeric hne]

/-! ## Values -/

namespace Draft

mutual

/-- The value as the printer writes it. -/
def ofJson : Json → Draft
  | .string s => .text (escaped s.toList)
  | .array items => .array (ofItems items)
  | .object members => .object (ofMembers members)
  | .null => .literal .null
  | .bool b => .literal (.bool b)
  | .number n => .literal (.number n)

def ofItems : List Json → List Draft
  | [] => []
  | x :: xs => ofJson x :: ofItems xs

def ofMembers : Json.Members → List (List Char × Draft)
  | [] => []
  | (name, x) :: xs => (escaped name.toList, ofJson x) :: ofMembers xs

end

theorem spelled_escaped (s : String) : spelled (escaped s.toList) = s := by
  rw [(spells_escaped s.toList).spelled_eq, String.ofList_toList]

mutual

theorem value_ofJson (v : Json)
    (h : ∀ members, .object members ∈ v.parts → Json.Sorted members) : (ofJson v).value = v := by
  match v with
  | .null => rfl
  | .bool b => rfl
  | .number n => rfl
  | .string s => rw [ofJson, value, spelled_escaped]
  | .array items =>
      rw [ofJson, value, values_ofItems items fun members hmem => h members (.tail _ hmem)]
  | .object members =>
      rw [ofJson, value, memberValues_ofMembers members fun ms hmem => h ms (.tail _ hmem),
        Json.record, Json.ordered_of_sorted (h members List.mem_cons_self)]

theorem values_ofItems (items : List Json)
    (h : ∀ members, .object members ∈ Json.partsItems items → Json.Sorted members) :
    values (ofItems items) = items := by
  match items with
  | [] => rfl
  | x :: xs =>
      rw [ofItems, values, value_ofJson x fun ms hmem => h ms (List.mem_append_left _ hmem),
        values_ofItems xs fun ms hmem => h ms (List.mem_append_right _ hmem)]

theorem memberValues_ofMembers (members : Json.Members)
    (h : ∀ inner, .object inner ∈ Json.partsMembers members → Json.Sorted inner) :
    memberValues (ofMembers members) = members := by
  match members with
  | [] => rfl
  | (name, x) :: xs =>
      rw [ofMembers, memberValues, spelled_escaped,
        value_ofJson x fun ms hmem => h ms (List.mem_append_left _ hmem),
        memberValues_ofMembers xs fun ms hmem => h ms (List.mem_append_right _ hmem)]

end

end Draft

/-- The compact text of the value is what the printer writes, up to the blanks that may end a
number. -/
def Printed (room : Nat) (v : Json) : Prop :=
  ∀ rest, Blunt rest → ∃ rest', Reads room (.value (.ofJson v)) (v.compact.toList ++ rest) rest' ∧
    skipGaps rest' = skipGaps rest

/-- The same of the items of an array up to the bracket behind them, if there are any. -/
def PrintedItems (room : Nat) (items : List Json) : Prop :=
  items ≠ [] → ∀ rest, Reads room (.items (Draft.ofItems items))
    ((Json.compactItems items).toList ++ ']' :: rest) rest

/-- The same of the members of an object up to the brace behind them, if there are any. -/
def PrintedMembers (room : Nat) (members : Json.Members) : Prop :=
  members ≠ [] → ∀ rest, Reads room (.members (Draft.ofMembers members))
    ((Json.compactMembers members).toList ++ '\x7d' :: rest) rest

theorem printed_word (word : String) {v : Json} (hmem : (word, v) ∈ words)
    (hcompact : v.compact = word) (hdraft : Draft.ofJson v = .literal v) : Printed room v := by
  intro rest _
  refine ⟨rest, hdraft ▸ .word hmem ?_, rfl⟩
  rw [hcompact]
  simp only [words, List.mem_cons, Prod.mk.injEq, List.not_mem_nil, or_false] at hmem
  rcases hmem with ⟨rfl, rfl⟩ | ⟨rfl, rfl⟩ | ⟨rfl, rfl⟩ <;> rfl

theorem printed_number {n : Number} (h : Json.parse? n.text = some (.number n)) :
    Printed room (.number n) := by
  intro rest hrest
  rw [Draft.ofJson, Json.compact]
  exact reads_number h hrest

theorem printed_string (s : String) : Printed room (.string s) := by
  intro rest _
  refine ⟨rest, .text ?_ (spells_escaped s.toList), rfl⟩
  rw [Json.compact, Json.toList_quoted]
  simp [skipGaps, isGap]

theorem printed_array {items : List Json} (h : PrintedItems room items) :
    Printed (room + 1) (.array items) := by
  intro rest _
  cases items with
  | nil => exact ⟨rest, .emptyArray rfl rfl, rfl⟩
  | cons x xs =>
      refine ⟨rest, .array ?_ (h (List.cons_ne_nil x xs) rest), rfl⟩
      simp [Json.toList_compact_array, skipGaps, isGap]

theorem printed_object {members : Json.Members} (h : PrintedMembers room members) :
    Printed (room + 1) (.object members) := by
  intro rest _
  cases members with
  | nil => exact ⟨rest, .emptyObject rfl rfl, rfl⟩
  | cons member members =>
      refine ⟨rest, .object ?_ (h (List.cons_ne_nil member members) rest), rfl⟩
      simp [Json.toList_compact_object, skipGaps, isGap]

theorem printedItems_cons {x : Json} {xs : List Json} (hx : Printed room x)
    (hxs : PrintedItems room xs) : PrintedItems room (x :: xs) := by
  intro _ rest
  cases xs with
  | nil =>
      obtain ⟨rest', hreads, hskip⟩ := hx (']' :: rest) (blunt_cons (by simp) rest)
      exact .lastItem hreads hskip
  | cons y ys =>
      rw [Json.toList_compactItems_cons, List.append_assoc]
      obtain ⟨rest', hreads, hskip⟩ := hx (',' :: _) (blunt_cons (.inl rfl) _)
      exact .item hreads hskip (hxs (List.cons_ne_nil y ys) rest)

theorem printedMembers_cons {name : String} {x : Json} {xs : Json.Members}
    (hx : Printed room x) (hxs : PrintedMembers room xs) :
    PrintedMembers room ((name, x) :: xs) := by
  intro _ rest
  have hname := spells_escaped name.toList
  have hcolon : ∀ cs, skipGaps (':' :: cs) = ':' :: cs := fun _ => rfl
  cases xs with
  | nil =>
      obtain ⟨rest', hreads, hskip⟩ := hx ('\x7d' :: rest) (blunt_cons (by simp) rest)
      refine .lastMember ?_ hname (hcolon _) hreads hskip
      simp [Json.toList_compactMembers_singleton, skipGaps, isGap]
  | cons member members =>
      obtain ⟨rest', hreads, hskip⟩ := hx
        (',' :: ((Json.compactMembers (member :: members)).toList ++ '\x7d' :: rest))
        (blunt_cons (.inl rfl) _)
      refine .member ?_ hname (hcolon _) hreads hskip
        (hxs (List.cons_ne_nil member members) rest)
      simp [Json.toList_compactMembers_cons, skipGaps, isGap]

mutual

theorem printed_of_depth_le {room : Nat} (v : Json) (hdepth : v.depth ≤ room)
    (hnumbers : ∀ n, .number n ∈ v.parts → Json.parse? n.text = some (.number n)) :
    Printed room v := by
  match v with
  | .null => exact printed_word "null" (by simp [words]) (by rw [Json.compact]) rfl
  | .bool true => exact printed_word "true" (by simp [words]) (by rw [Json.compact]) rfl
  | .bool false => exact printed_word "false" (by simp [words]) (by rw [Json.compact]) rfl
  | .number n => exact printed_number (hnumbers n List.mem_cons_self)
  | .string s => exact printed_string s
  | .array items =>
      obtain ⟨inner, rfl⟩ := Nat.exists_eq_add_of_le' (Nat.le_of_add_left_le hdepth)
      exact printed_array (printedItems_of_depth_le items (Nat.le_of_succ_le_succ hdepth)
        fun n hmem => hnumbers n (.tail _ hmem))
  | .object members =>
      obtain ⟨inner, rfl⟩ := Nat.exists_eq_add_of_le' (Nat.le_of_add_left_le hdepth)
      exact printed_object (printedMembers_of_depth_le members (Nat.le_of_succ_le_succ hdepth)
        fun n hmem => hnumbers n (.tail _ hmem))

theorem printedItems_of_depth_le {room : Nat} (items : List Json)
    (hdepth : Json.depthItems items ≤ room)
    (hnumbers : ∀ n, .number n ∈ Json.partsItems items →
      Json.parse? n.text = some (.number n)) : PrintedItems room items := by
  match items with
  | [] => exact fun hne => absurd rfl hne
  | x :: xs =>
      obtain ⟨hx, hxs⟩ := Nat.max_le.mp hdepth
      exact printedItems_cons
        (printed_of_depth_le x hx fun n hmem => hnumbers n (List.mem_append_left _ hmem))
        (printedItems_of_depth_le xs hxs fun n hmem => hnumbers n (List.mem_append_right _ hmem))

theorem printedMembers_of_depth_le {room : Nat} (members : Json.Members)
    (hdepth : Json.depthMembers members ≤ room)
    (hnumbers : ∀ n, .number n ∈ Json.partsMembers members →
      Json.parse? n.text = some (.number n)) : PrintedMembers room members := by
  match members with
  | [] => exact fun hne => absurd rfl hne
  | (name, x) :: xs =>
      obtain ⟨hx, hxs⟩ := Nat.max_le.mp hdepth
      exact printedMembers_cons
        (printed_of_depth_le x hx fun n hmem => hnumbers n (List.mem_append_left _ hmem))
        (printedMembers_of_depth_le xs hxs fun n hmem =>
          hnumbers n (List.mem_append_right _ hmem))

end

end Document

open Document

theorem Json.Legible.writes {v : Json} (h : v.Legible maxDepth) :
    (Draft.ofJson v).Writes v.compact := by
  obtain ⟨rest', hreads, hskip⟩ :=
    printed_of_depth_le v h.shallow h.exact [] (by simp [Blunt])
  rw [List.append_nil] at hreads
  exact ⟨rest', hreads, hskip⟩

/-- A legible value is read from its compact text. -/
theorem Json.parse?_compact {v : Json} (h : v.Legible maxDepth) :
    Json.parse? v.compact = some v :=
  Json.parse?_eq_some_iff.mpr ⟨_, h.writes, Draft.value_ofJson v h.sorted⟩

end FlowEngine
