import FlowEngine.Proofs.Template
/-!
# `FlowEngine.Proofs.Template.Pieces` — templates written down piece by piece

A template that is put together of texts and placeholders is filled piece by piece
(`fill_written`): each text stays, and each placeholder becomes the text of what its path leads to,
or stays if the path leads nowhere.  What one piece becomes depends on the data and on that piece
only, so nothing that has been put in is looked at again, and no two pieces meet to make a third.

Two things are asked of the pieces.  A text has no opening brace, or a placeholder might begin in
it; closing braces it may have as many as it likes, also at its ends.  A path has no closing brace,
or the placeholder would end there; opening ones it may have, also in front, where three braces then
stand in a row.
-/

namespace FlowEngine.Template

variable {data : Json} {cs : List Char}

/-! ## Where a path begins -/

theorem splitAt_ne_nil (sep : Char) (s : String) : Text.splitAt sep s ≠ [] := by
  have hpieces : ∀ cs, Text.pieces sep cs ≠ [] := by
    intro cs
    cases cs with
    | nil => simp [Text.pieces]
    | cons c cs =>
        rw [Text.pieces]
        split
        · simp
        · split <;> simp
  intro h
  exact hpieces s.toList (List.map_eq_nil_iff.mp h)

/-- A path of a placeholder is a path into `{ "input": data }`. -/
theorem resolve?_eq_lookup? (data : Json) (path : String) :
    resolve? data path = lookup? (.object [(rootName, data)]) path := by
  rw [resolve?, lookup?]
  cases h : Text.splitAt '.' path with
  | nil => exact absurd h (splitAt_ne_nil '.' path)
  | cons first rest =>
      by_cases hfirst : first = rootName
      · simp [walk?, Json.child?, Json.lookup, hfirst]
      · simp [walk?, Json.child?, Json.lookup, hfirst, Ne.symm hfirst]

/-! ## Placeholders that lead nowhere -/

/-- A text is filled to itself if none of its placeholders leads to a value. -/
theorem filled_of_unresolved
    (h : ∀ path, Occurs path cs → resolve? data (Text.trim (String.ofList path)) = none) :
    filled data cs = cs := by
  induction hlength : cs.length using Nat.strongRecOn generalizing cs with
  | _ n ih =>
      subst hlength
      cases cs with
      | nil => rfl
      | cons c cs =>
          cases hleading : leading? (c :: cs) with
          | none =>
              have hrest := ih _ (Nat.lt_succ_self _)
                (fun path hlater => h path (.later hleading hlater)) rfl
              rw [filled_cons_of_none hleading, hrest]
          | some found =>
              obtain ⟨path, rest⟩ := found
              have hpath := h path (.here hleading)
              have hrest := ih _ (length_lt_of_leading? hleading)
                (fun path hbehind => h path (.behind hleading hbehind)) rfl
              obtain ⟨heq, hne, hclosing⟩ := leading?_eq_some_iff.mp hleading
              rw [heq, filled_marked_append hne hclosing, hrest, filling, hpath]
              rfl

/-! ## Pieces -/

/-- What a template is put together of. -/
inductive Piece where
  | text (s : String) (noOpening : '\x7b' ∉ s.toList)
  | placeholder (path : String) (nonempty : path ≠ "") (noClosing : '\x7d' ∉ path.toList)

namespace Piece

def written : Piece → String
  | text s _ => s
  | placeholder path _ _ => "\x7b\x7b" ++ path ++ "\x7d\x7d"

/-- The value that a placeholder leads to in `{ "input": data }`, blanks around its path aside. -/
def value? (data : Json) : Piece → Option Json
  | text _ _ => none
  | placeholder path _ _ => lookup? (.object [("input", data)]) (Text.trim path)

/-- What stands in place of the piece: the text of the value that it leads to, or the piece. -/
def filled (data : Json) (piece : Piece) : String :=
  match piece.value? data with
  | some v => Json.render v
  | none => piece.written

theorem toList_written_placeholder (path : String) (nonempty : path ≠ "")
    (noClosing : '\x7d' ∉ path.toList) :
    (placeholder path nonempty noClosing).written.toList = marked path.toList := by
  simp [written, marked]

theorem toList_filled_placeholder (data : Json) (path : String) (nonempty : path ≠ "")
    (noClosing : '\x7d' ∉ path.toList) :
    ((placeholder path nonempty noClosing).filled data).toList = filling data path.toList := by
  have hvalue : (placeholder path nonempty noClosing).value? data =
      resolve? data (Text.trim (String.ofList path.toList)) := by
    rw [resolve?_eq_lookup?, String.ofList_toList]
    rfl
  rw [filled, filling, hvalue]
  cases resolve? data (Text.trim (String.ofList path.toList)) with
  | some v => rfl
  | none => exact toList_written_placeholder path nonempty noClosing

theorem filled_append (piece : Piece) (data : Json) (rest : List Char) :
    Template.filled data (piece.written.toList ++ rest) =
      (piece.filled data).toList ++ Template.filled data rest := by
  cases piece with
  | text s noOpening => exact Template.filled_append noOpening rest
  | placeholder path nonempty noClosing =>
      have hne : path.toList ≠ [] := by
        intro h
        exact nonempty (String.toList_eq_nil_iff.mp h)
      rw [toList_written_placeholder, toList_filled_placeholder,
        filled_marked_append hne noClosing]

end Piece

def ofPieces (pieces : List Piece) : String := String.join (pieces.map Piece.written)

/-- A template put together of texts and placeholders becomes what its pieces become, put together
in the same order.  If none of the placeholders in it leads to a value, it is left as it is; so is
every template, whatever it is put together of, in which no placeholder found from the left leads to
a value. -/
theorem fill_ofPieces (pieces : List Piece) (data : Json) :
    fill (ofPieces pieces) data = String.join (pieces.map (Piece.filled data)) ∧
    ((∀ piece ∈ pieces, piece.value? data = none) →
      fill (ofPieces pieces) data = ofPieces pieces) ∧
    ∀ template : String,
      (∀ path, Occurs path template.toList →
        lookup? (.object [("input", data)]) (Text.trim (String.ofList path)) = none) →
      fill template data = template := by
  have hpieces : fill (ofPieces pieces) data = String.join (pieces.map (Piece.filled data)) := by
    apply String.toList_inj.mp
    rw [toList_fill, ofPieces]
    induction pieces with
    | nil => rfl
    | cons piece rest ih =>
        rw [List.map_cons, List.map_cons, String.join_cons, String.join_cons, String.toList_append,
          String.toList_append, Piece.filled_append, ih]
  refine ⟨hpieces, ?_, ?_⟩
  · intro hnowhere
    rw [hpieces, ofPieces]
    congr 1
    apply List.map_congr_left
    intro piece hpiece
    rw [Piece.filled, hnowhere piece hpiece]
  · intro template hnowhere
    apply String.toList_inj.mp
    rw [toList_fill]
    apply filled_of_unresolved
    intro path hpath
    rw [resolve?_eq_lookup?]
    exact hnowhere path hpath

/-- A letter with a line that looks like a placeholder, and a name. -/
def letter : Json :=
  .record [("line", .string "\x7b\x7binput.name\x7d\x7d"), ("name", .string "Ada")]

/-- Braces to spare on both sides, a placeholder of three braces, two that stand side by side, and
one whose value looks like another. -/
def braced : List Piece :=
  [.text "\x7d\x7d\n" (by decide +kernel),
    .placeholder " input.line " (by decide +kernel) (by decide +kernel),
    .placeholder "input.name" (by decide +kernel) (by decide +kernel),
    .placeholder "\x7binput.name" (by decide +kernel) (by decide +kernel),
    .text "\x7d" (by decide +kernel)]

/-- What the line puts in stays, the third placeholder leads nowhere, and the braces around them
belong to nothing. -/
theorem fill_ofPieces_braced :
    fill (ofPieces braced) letter =
      "\x7d\x7d\n\x7b\x7binput.name\x7d\x7dAda\x7b\x7b\x7binput.name\x7d\x7d\x7d" ∧
    fill (ofPieces braced) .null = ofPieces braced := by
  obtain ⟨hpieces, -, -⟩ := fill_ofPieces braced letter
  obtain ⟨-, hnowhere, -⟩ := fill_ofPieces braced .null
  constructor
  · rw [hpieces]
    decide +kernel
  · apply hnowhere
    simp only [braced, List.forall_mem_cons]
    refine ⟨rfl, ?_, ?_, ?_, rfl, List.forall_mem_nil _⟩
    all_goals cbv

end FlowEngine.Template
