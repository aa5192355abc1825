import FlowEngine.Json.Reader
import FlowEngine.Proofs.Text
import Mathlib.Data.List.DropRight
/-!
# `FlowEngine.Proofs.Json.Finding` — what one step of the reader finds

The reader of documents looks past the gaps at one character and goes on by it.  What it can have
found when it succeeds is said here once, with one constructor for each way to go on: at the front of
a value (`Found`), behind an item (`FoundItem`), and behind a member (`FoundMember`).  What is known
of everything that is read is then proved by cases on these and induction on the fuel, and the reader
is not opened again.
-/

namespace FlowEngine.Document

variable {c : Char} {cs body rest more : List Char} {room fuel : Nat} {d : Document}

/-! ## Gaps -/

theorem skipGaps_eq_cons_iff : skipGaps cs = c :: body ↔
    ∃ gaps, cs = gaps ++ c :: body ∧ (∀ g ∈ gaps, isGap g = true) ∧ isGap c = false := by
  constructor
  · intro h
    refine ⟨cs.takeWhile isGap, ?_, fun g hg => List.mem_takeWhile_imp hg, ?_⟩
    · rw [← h, skipGaps, List.takeWhile_append_dropWhile]
    · have hnot := List.head?_dropWhile_not isGap cs
      rw [show cs.dropWhile isGap = c :: body from h] at hnot
      simpa using hnot
  · rintro ⟨gaps, rfl, hgaps, hc⟩
    rw [skipGaps, List.dropWhile_append_of_pos hgaps]
    simp [hc]

theorem skipGaps_skipGaps (cs : List Char) : skipGaps (skipGaps cs) = skipGaps cs :=
  List.dropWhile_idempotent isGap cs

theorem length_skipGaps_le (cs : List Char) : (skipGaps cs).length ≤ cs.length :=
  (List.dropWhile_suffix isGap).length_le

theorem length_lt_of_skipGaps (h : skipGaps cs = c :: body) : body.length < cs.length := by
  have hle := length_skipGaps_le cs
  rw [h, List.length_cons] at hle
  omega

/-- Behind a text between quotes there is less left than the quotes take away. -/
theorem length_lt_of_quoted (h : skipGaps cs = '"' :: (body ++ '"' :: more)) :
    more.length + 1 < cs.length := by
  have hless := length_lt_of_skipGaps h
  rw [List.length_append, List.length_cons] at hless
  omega

theorem readValue?_skipGaps (fuel room : Nat) (cs : List Char) :
    readValue? fuel room (skipGaps cs) = readValue? fuel room cs := by
  cases fuel with
  | zero => rfl
  | succ fuel => simp only [readValue?, skipGaps_skipGaps]

theorem readItems?_skipGaps (fuel room : Nat) (read : List Document) (cs : List Char) :
    readItems? fuel room read (skipGaps cs) = readItems? fuel room read cs := by
  cases fuel with
  | zero => rfl
  | succ fuel => simp only [readItems?, readValue?_skipGaps]

theorem readMembers?_skipGaps (fuel room : Nat) (read : List (Option String × Document))
    (cs : List Char) :
    readMembers? fuel room read (skipGaps cs) = readMembers? fuel room read cs := by
  cases fuel with
  | zero => rfl
  | succ fuel => simp only [readMembers?, skipGaps_skipGaps]

/-! ## Values -/

def words : List (String × Json) :=
  [("null", .null), ("true", .bool true), ("false", .bool false)]

theorem readWord?_eq_some_iff {word : String} {v : Json} :
    readWord? word v cs = some (d, rest) ↔
      cs = word.toList ++ rest ∧ d = .literal (some v) := by
  rw [readWord?, Option.map_eq_some_iff]
  constructor
  · rintro ⟨rest', hafter, heq⟩
    obtain ⟨rfl, rfl⟩ := Prod.mk.inj heq
    exact ⟨Text.after?_eq_some_iff.mp hafter, rfl⟩
  · rintro ⟨hcs, rfl⟩
    exact ⟨rest, Text.after?_eq_some_iff.mpr hcs, rfl⟩

/-- What the reader can have found at the front of a text, and what it makes of it. -/
inductive Found (fuel room : Nat) (cs rest : List Char) (d : Document) : Prop where
  | number {negative : Bool} {body : List Char} :
      skipGaps cs = (if negative then ['-'] else []) ++ body →
      readNumber? negative body = some (d, rest) → Found fuel room cs rest d
  | word {word : String} {v : Json} : (word, v) ∈ words → skipGaps cs = word.toList ++ rest →
      d = .literal (some v) → Found fuel room cs rest d
  | text {body : List Char} {s : Option String} : skipGaps cs = '"' :: body →
      readText? body = some (s, rest) → d = .literal (s.map .string) → Found fuel room cs rest d
  | emptyArray {body : List Char} : skipGaps cs = '[' :: body → skipGaps body = ']' :: rest →
      d = within room (.array []) → Found fuel room cs rest d
  | array {body : List Char} : skipGaps cs = '[' :: body →
      readItems? fuel room [] body = some (d, rest) → Found fuel room cs rest d
  | emptyObject {body : List Char} : skipGaps cs = '\x7b' :: body →
      skipGaps body = '\x7d' :: rest → d = within room (.object []) → Found fuel room cs rest d
  | object {body : List Char} : skipGaps cs = '\x7b' :: body →
      readMembers? fuel room [] body = some (d, rest) → Found fuel room cs rest d

theorem found_of_readValue? (h : readValue? (fuel + 1) room cs = some (d, rest)) :
    Found fuel room cs rest d := by
  have hword : ∀ {word : String} {v : Json}, (word, v) ∈ words →
      readWord? word v (skipGaps cs) = some (d, rest) → Found fuel room cs rest d := by
    intro word v hmem hread
    obtain ⟨hcs, hd⟩ := readWord?_eq_some_iff.mp hread
    exact .word hmem hcs hd
  rw [readValue?] at h
  split at h
  · cases h
  next c body hcs =>
  rw [← hcs] at h
  split at h
  · next hquote =>
      subst hquote
      obtain ⟨⟨s, rest'⟩, htext, heq⟩ := Option.map_eq_some_iff.mp h
      obtain ⟨hd, rfl⟩ := Prod.mk.inj heq
      exact .text hcs htext hd.symm
  split at h
  · next hbracket =>
      subst hbracket
      split at h
      · next hbody =>
          obtain ⟨hd, rfl⟩ := Prod.mk.inj (Option.some.inj h)
          exact .emptyArray hcs hbody hd.symm
      · rw [readItems?_skipGaps] at h
        exact .array hcs h
  split at h
  · next hbrace =>
      subst hbrace
      split at h
      · next hbody =>
          obtain ⟨hd, rfl⟩ := Prod.mk.inj (Option.some.inj h)
          exact .emptyObject hcs hbody hd.symm
      · rw [readMembers?_skipGaps] at h
        exact .object hcs h
  split at h
  · next hminus =>
      subst hminus
      exact @Found.number fuel room cs rest d true body hcs h
  split at h
  · exact @Found.number fuel room cs rest d false _ rfl h
  split at h
  · exact hword (by simp [words]) h
  split at h
  · exact hword (by simp [words]) h
  split at h
  · exact hword (by simp [words]) h
  · cases h

/-! ## Items and members -/

/-- What the reader can have found among the items of an array, when it has read some before. -/
inductive FoundItem (fuel room : Nat) (read : List Document) (cs rest : List Char)
    (d : Document) : Prop where
  | item {item : Document} {more body : List Char} :
      readValue? fuel (room - 1) cs = some (item, more) → skipGaps more = ',' :: body →
      readItems? fuel room (item :: read) body = some (d, rest) → FoundItem fuel room read cs rest d
  | last {item : Document} {more : List Char} :
      readValue? fuel (room - 1) cs = some (item, more) → skipGaps more = ']' :: rest →
      d = within room (.array (item :: read).reverse) → FoundItem fuel room read cs rest d

theorem foundItem_of_readItems? {read : List Document}
    (h : readItems? (fuel + 1) room read cs = some (d, rest)) :
    FoundItem fuel room read cs rest d := by
  rw [readItems?] at h
  split at h
  · cases h
  next item more hitem =>
  split at h
  · next hmore => exact .item hitem hmore h
  · next hmore =>
      obtain ⟨hd, rfl⟩ := Prod.mk.inj (Option.some.inj h)
      exact .last hitem hmore hd.symm
  · cases h

/-- What the reader can have found among the members of an object, when it has read some before. -/
inductive FoundMember (fuel room : Nat) (read : List (Option String × Document))
    (cs rest : List Char) (d : Document) : Prop where
  | member {name : Option String} {item : Document} {body more body' more' body'' : List Char} :
      skipGaps cs = '"' :: body → readText? body = some (name, more) →
      skipGaps more = ':' :: body' → readValue? fuel (room - 1) body' = some (item, more') →
      skipGaps more' = ',' :: body'' →
      readMembers? fuel room ((name, item) :: read) body'' = some (d, rest) →
      FoundMember fuel room read cs rest d
  | last {name : Option String} {item : Document} {body more body' more' : List Char} :
      skipGaps cs = '"' :: body → readText? body = some (name, more) →
      skipGaps more = ':' :: body' → readValue? fuel (room - 1) body' = some (item, more') →
      skipGaps more' = '\x7d' :: rest →
      d = within room (.object ((name, item) :: read).reverse) →
      FoundMember fuel room read cs rest d

theorem foundMember_of_readMembers? {read : List (Option String × Document)}
    (h : readMembers? (fuel + 1) room read cs = some (d, rest)) :
    FoundMember fuel room read cs rest d := by
  rw [readMembers?] at h
  split at h
  case h_2 => cases h
  next body hcs =>
  split at h
  · cases h
  next name more hname =>
  split at h
  case h_2 => cases h
  next body' hmore =>
  split at h
  · cases h
  next item more' hitem =>
  split at h
  · next body'' hmore' => exact .member hcs hname hmore hitem hmore' h
  · next hmore' =>
      obtain ⟨hd, rfl⟩ := Prod.mk.inj (Option.some.inj h)
      exact .last hcs hname hmore hitem hmore' hd.symm
  · cases h

end FlowEngine.Document
