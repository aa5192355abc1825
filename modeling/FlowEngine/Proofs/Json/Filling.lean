import FlowEngine.Proofs.Json.Grammar
import FlowEngine.Proofs.Template
/-!
# `FlowEngine.Proofs.Json.Filling` — data spliced into a document

A template that is a document is filled as a text, before anything is known of it as data.  It stays
the same document, with other texts in the places of the old ones (`Draft.Writes.fill`), if its
placeholders stand inside texts and what is put there may stand between quotes as it is (`Harmless`).

A placeholder begins with two braces, and nothing but a text has two of them next to each other.  So
it begins between quotes, and it ends there too if no quote stands in its path: a brace is part of no
escape (`not_mem_escape`, `not_mem_unit`).
-/

namespace FlowEngine

namespace Document

open Template

variable {data : Json} {c : Char} {cs body text path rest more : List Char} {room : Nat}

/-! ## Filled drafts -/

namespace Draft

mutual

/-- The draft with the placeholders of its texts filled. -/
def fill (data : Json) : Draft → Draft
  | .literal value => .literal value
  | .text body => .text (filled data body)
  | .array items => .array (fillItems data items)
  | .object members => .object (fillMembers data members)

def fillItems (data : Json) : List Draft → List Draft
  | [] => []
  | d :: ds => fill data d :: fillItems data ds

def fillMembers (data : Json) : List (List Char × Draft) → List (List Char × Draft)
  | [] => []
  | (name, d) :: ds => (name, fill data d) :: fillMembers data ds

end

mutual

/-- The names of the members of all objects in the draft, as they are written. -/
def names : Draft → List (List Char)
  | .array items => itemNames items
  | .object members => memberNames members
  | .literal _ => []
  | .text _ => []

def itemNames : List Draft → List (List Char)
  | [] => []
  | d :: ds => names d ++ itemNames ds

def memberNames : List (List Char × Draft) → List (List Char)
  | [] => []
  | (name, d) :: ds => name :: (names d ++ memberNames ds)

end

mutual

/-- The texts in the draft that are no names, as they are written. -/
def texts : Draft → List (List Char)
  | .array items => itemTexts items
  | .object members => memberTexts members
  | .literal _ => []
  | .text body => [body]

def itemTexts : List Draft → List (List Char)
  | [] => []
  | d :: ds => texts d ++ itemTexts ds

def memberTexts : List (List Char × Draft) → List (List Char)
  | [] => []
  | (_, d) :: ds => texts d ++ memberTexts ds

end

end Draft

namespace Form

def fill (data : Json) : Form → Form
  | .value d => .value (d.fill data)
  | .items ds => .items (Draft.fillItems data ds)
  | .members ms => .members (Draft.fillMembers data ms)

def names : Form → List (List Char)
  | .value d => d.names
  | .items ds => Draft.itemNames ds
  | .members ms => Draft.memberNames ms

def texts : Form → List (List Char)
  | .value d => d.texts
  | .items ds => Draft.itemTexts ds
  | .members ms => Draft.memberTexts ms

end Form

/-! ## Harmless data -/

/-- The placeholders of the text can stand between quotes, and so can what `data` puts in their
places, every character of it for itself. -/
structure Harmless (data : Json) (cs : List Char) : Prop where
  spelled : ∀ path, Occurs path cs → ∃ text, Spells path text
  plain : ∀ path, Occurs path cs → ∀ value,
    resolve? data (Text.trim (String.ofList path)) = some value →
      ∀ c ∈ (Json.render value).toList, Plain c

theorem Harmless.of_occurs (h : Harmless data cs)
    (hoccurs : ∀ path, Occurs path more → Occurs path cs) : Harmless data more :=
  ⟨fun path hpath => h.spelled path (hoccurs path hpath),
    fun path hpath => h.plain path (hoccurs path hpath)⟩

theorem Harmless.later (h : Harmless data (c :: cs)) (hleading : leading? (c :: cs) = none) :
    Harmless data cs :=
  h.of_occurs fun _ => .later hleading

theorem Harmless.append (h : Harmless data (cs ++ more)) (hcs : '\x7b' ∉ cs) :
    Harmless data more :=
  h.of_occurs fun _ => (occurs_append_iff hcs).mpr

/-! ## Texts -/

theorem plain_brace : Plain '\x7b' ∧ Plain '\x7d' :=
  ⟨⟨by decide, by decide, by decide⟩, ⟨by decide, by decide, by decide⟩⟩

theorem spells_marked (h : Spells path text) : Spells (marked path) (marked text) := by
  obtain ⟨hopen, hclose⟩ := plain_brace
  exact .plain hopen (.plain hopen (h.append (.plain hclose (.plain hclose .nil))))

theorem leading?_eq_none_of_append (h : leading? (cs ++ more) = none) : leading? cs = none := by
  cases hleading : leading? cs with
  | none => rfl
  | some found =>
      obtain ⟨rfl, hpath⟩ := leading?_eq_some_iff.mp hleading
      rw [List.append_assoc, leading?_eq_some_iff.mpr ⟨rfl, hpath⟩] at h
      cases h

theorem not_mem_escape {b e : Char} (hb : b = '\x7b' ∨ b = '\x7d') (h : unescape? e = some c) :
    b ∉ ['\\', e] := by
  rcases hb with rfl | rfl <;> (intro hmem; simp at hmem; subst hmem; cases h)

theorem not_mem_unit {b x y z w : Char} {n : Nat} (hb : b = '\x7b' ∨ b = '\x7d')
    (h : fourHex? x y z w = some n) : b ∉ ['\\', 'u', x, y, z, w] := by
  have hhex : Text.hexValue? b = none := by
    rcases hb with rfl | rfl <;> decide
  simp only [fourHex?, Option.bind_eq_bind, Option.bind_eq_some_iff] at h
  obtain ⟨_, hx, _, hy, _, hz, _, hw, -⟩ := h
  intro hmem
  simp only [List.mem_cons, List.not_mem_nil, or_false] at hmem
  rcases hmem with rfl | rfl | rfl | rfl | rfl | rfl
  · simp at hb
  · simp at hb
  all_goals simp_all

theorem exists_append_of_not_mem (cs : List Char) {front back : List Char} (hc : c ∉ cs)
    (h : cs ++ more = front ++ c :: back) :
    ∃ left, front = cs ++ left ∧ more = left ++ c :: back := by
  rcases List.append_eq_append_iff.mp h with ⟨left, rfl, hleft⟩ | ⟨left, rfl, hleft⟩
  · exact ⟨left, rfl, hleft⟩
  · cases left with
    | nil => exact ⟨[], by simp, hleft.symm⟩
    | cons d left =>
        obtain ⟨rfl, -⟩ := List.cons.inj hleft
        exact absurd (List.mem_append_right front List.mem_cons_self) hc

/-- What stands between quotes, and the text that it spells once every placeholder in it is replaced
by the value that it leads to. -/
inductive Fills (data : Json) : List Char → List Char → Prop where
  | nil : Fills data [] []
  | value {body path rest text : List Char} {v : Json} :
      leading? body = some (path, rest) →
      resolve? data (Text.trim (String.ofList path)) = some v → Fills data rest text →
      Fills data body ((Json.render v).toList ++ text)
  | unresolved {body path rest name text : List Char} :
      leading? body = some (path, rest) →
      resolve? data (Text.trim (String.ofList path)) = none → Spells path name →
      Fills data rest text → Fills data body (marked name ++ text)
  /-- No placeholder begins in the characters in front. -/
  | passed {front body spelled text : List Char} :
      (∀ last, last <:+ front → last ≠ [] → leading? (last ++ body) = none) →
      Spells front spelled → Fills data body text → Fills data (front ++ body) (spelled ++ text)

/-- Once filled, the text between quotes spells what it should. -/
def Replaced (data : Json) (body : List Char) : Prop :=
  ∃ text, Fills data body text ∧ Spells (filled data body) text

theorem Replaced.fills_spelled (h : Replaced data body) :
    Fills data body (spelled (filled data body)).toList := by
  obtain ⟨text, hfills, hspells⟩ := h
  rwa [hspells.spelled_eq, String.toList_ofList]

theorem Replaced.append {front spelled : List Char} (h : Replaced data body)
    (hbraces : '\x7b' ∉ front) (hfront : Spells front spelled) :
    Replaced data (front ++ body) := by
  obtain ⟨text, hfills, hspells⟩ := h
  refine ⟨spelled ++ text, .passed ?_ hfront hfills, ?_⟩
  · rintro (- | ⟨c, last⟩) hlast hne
    · exact absurd rfl hne
    · refine leading?_of_ne ?_ _
      rintro rfl
      exact hbraces (hlast.subset List.mem_cons_self)
  · rw [filled_append hbraces]
    exact hfront.append hspells

theorem Replaced.cons (h : Replaced data body) (hc : Plain c)
    (hleading : leading? (c :: body) = none) : Replaced data (c :: body) := by
  obtain ⟨text, hfills, hspells⟩ := h
  have hfront : ∀ last, last <:+ [c] → last ≠ [] → leading? (last ++ body) = none := by
    intro last hlast hne
    obtain rfl : last = [c] := (List.suffix_cons_iff.mp hlast).resolve_right fun h =>
      hne (List.eq_nil_of_suffix_nil h)
    exact hleading
  have hpassed : Fills data ([c] ++ body) ([c] ++ text) := .passed hfront (.plain hc .nil) hfills
  refine ⟨c :: text, hpassed, ?_⟩
  rw [filled_cons_of_none hleading]
  exact .plain hc hspells

theorem Replaced.marked_append {name : List Char} (h : Replaced data body) (hne : path ≠ [])
    (hpath : '\x7d' ∉ path) (hname : Spells path name)
    (hplain : ∀ v, resolve? data (Text.trim (String.ofList path)) = some v →
      ∀ c ∈ (Json.render v).toList, Plain c) : Replaced data (marked path ++ body) := by
  obtain ⟨text, hfills, hspells⟩ := h
  have hleading : leading? (marked path ++ body) = some (path, body) :=
    leading?_eq_some_iff.mpr ⟨rfl, hne, hpath⟩
  unfold Replaced
  rw [filled_marked_append hne hpath, Template.filling]
  cases hvalue : resolve? data (Text.trim (String.ofList path)) with
  | some v =>
      exact ⟨_, .value hleading hvalue hfills, (Spells.of_plain (hplain v hvalue)).append hspells⟩
  | none =>
      exact ⟨_, .unresolved hleading hvalue hname hfills, (spells_marked hname).append hspells⟩

/-- The placeholders of a text are filled between its quotes, and it stays a text. -/
theorem filled_quoted (h : Spells body text) (hdata : Harmless data (body ++ '"' :: rest)) :
    filled data (body ++ '"' :: rest) = filled data body ++ '"' :: filled data rest ∧
      Replaced data body ∧ Harmless data rest := by
  induction hlength : body.length using Nat.strongRecOn generalizing body text with
  | _ n ih =>
      subst hlength
      -- Characters that are no brace are passed over.
      have hpass : ∀ {front spelled body' text' : List Char}, '\x7b' ∉ front →
          front ≠ [] → Spells front spelled → Spells body' text' → body = front ++ body' →
          filled data (body ++ '"' :: rest) = filled data body ++ '"' :: filled data rest ∧
            Replaced data body ∧ Harmless data rest := by
        rintro front spelled body' text' hfront hne hspelled hbody rfl
        have hless : body'.length < (front ++ body').length := by
          have hpos := List.length_pos_iff.mpr hne
          rw [List.length_append]
          omega
        rw [List.append_assoc] at hdata ⊢
        obtain ⟨hfilled, hreplaced, hrest⟩ := ih _ hless hbody (hdata.append hfront) rfl
        rw [filled_append hfront, filled_append hfront, hfilled, List.append_assoc]
        exact ⟨rfl, hreplaced.append hfront hspelled, hrest⟩
      cases hleading : leading? (body ++ '"' :: rest) with
      | some found =>
          obtain ⟨path, more⟩ := found
          obtain ⟨heq, hne, hpath⟩ := leading?_eq_some_iff.mp hleading
          obtain ⟨name, hname⟩ := hdata.spelled path (.here hleading)
          obtain ⟨left, text', rfl, rfl, hleft⟩ := h.split (spells_marked hname) heq
          have hless : left.length < (marked path ++ left).length := by
            simp only [marked, List.length_append, List.length_cons]
            omega
          have hbehind := hdata.of_occurs fun path => .behind hleading
          obtain ⟨hfilled, hreplaced, hrest⟩ := ih _ hless hleft hbehind rfl
          rw [List.append_assoc, filled_marked_append hne hpath, filled_marked_append hne hpath,
            hfilled, List.append_assoc]
          have hplain := hdata.plain path (.here hleading)
          exact ⟨rfl, hreplaced.marked_append hne hpath hname hplain, hrest⟩
      | none =>
          cases h with
          | nil =>
              rw [List.nil_append, filled_cons_of_none hleading]
              exact ⟨rfl, ⟨[], .nil, .nil⟩, hdata.later hleading⟩
          | @plain c body text hplain hbody =>
              obtain ⟨hfilled, hreplaced, hrest⟩ :=
                ih _ (Nat.lt_succ_self _) hbody (hdata.later hleading) rfl
              have hshort : leading? (c :: body) = none := leading?_eq_none_of_append hleading
              rw [List.cons_append] at hleading ⊢
              rw [filled_cons_of_none hleading, filled_cons_of_none hshort, hfilled]
              exact ⟨rfl, hreplaced.cons hplain hshort, hrest⟩
          | @escape e c body text hchar hbody =>
              have hfront : '\x7b' ∉ ['\\', e] := not_mem_escape (.inl rfl) hchar
              exact hpass hfront (by simp) (.escape hchar .nil) hbody rfl
          | unit hhex hhigh hlow hbody =>
              have hfront := not_mem_unit (.inl rfl) hhex
              exact hpass hfront (by simp) (.unit hhex hhigh hlow .nil) hbody rfl
          | pair hhex hhigh hhex' hlow hbody =>
              have hfront := fun hmem => (List.mem_append.mp hmem).elim
                (not_mem_unit (.inl rfl) hhex) (not_mem_unit (.inl rfl) hhex')
              exact hpass hfront (by simp) (.pair hhex hhigh hhex' hlow .nil) hbody rfl

/-! ## Documents -/

theorem not_mem_gaps {gaps : List Char} (h : ∀ g ∈ gaps, isGap g = true) : '\x7b' ∉ gaps := by
  intro hmem
  cases h _ hmem

theorem ne_brace_of_isNumeric (h : IsNumeric c) : c ≠ '\x7b' := by
  rintro rfl
  revert h
  simp [IsNumeric]

theorem not_mem_word {word : String} {v : Json} (h : (word, v) ∈ words) :
    '\x7b' ∉ word.toList := by
  simp only [words, List.mem_cons, Prod.mk.injEq, List.not_mem_nil, or_false] at h
  rcases h with ⟨rfl, rfl⟩ | ⟨rfl, rfl⟩ | ⟨rfl, rfl⟩ <;> decide

theorem exists_gaps (cs : List Char) :
    ∃ gaps, cs = gaps ++ skipGaps cs ∧ ∀ g ∈ gaps, isGap g = true :=
  ⟨cs.takeWhile isGap, List.takeWhile_append_dropWhile.symm, fun _ hg => List.mem_takeWhile_imp hg⟩

theorem head?_ne_of_skipGaps (h : (skipGaps cs).head? ≠ some '\x7b') : cs.head? ≠ some '\x7b' := by
  intro hhead
  obtain ⟨more, rfl⟩ := List.head?_eq_some_iff.mp hhead
  exact h rfl

theorem head?_ne_of_skipGaps_eq (h : skipGaps cs = c :: body) (hc : c ≠ '\x7b') :
    cs.head? ≠ some '\x7b' := by
  refine head?_ne_of_skipGaps ?_
  rw [h]
  exact fun heq => hc (Option.some.inj heq)

theorem head?_filled (h : cs.head? ≠ some '\x7b') : (filled data cs).head? = cs.head? := by
  cases cs with
  | nil => rfl
  | cons c cs =>
      have hc : c ≠ '\x7b' := fun heq => h (congrArg some heq)
      rw [filled_cons_of_none (leading?_of_ne hc cs)]
      rfl

theorem skipGaps_filled (data : Json) (h : leading? (skipGaps cs) = none) :
    skipGaps (filled data cs) = filled data (skipGaps cs) := by
  obtain ⟨gaps, hcs, hgaps⟩ := exists_gaps cs
  have hfilled : filled data cs = gaps ++ filled data (skipGaps cs) := by
    rw [← filled_append (not_mem_gaps hgaps), ← hcs]
  cases hskip : skipGaps cs with
  | nil =>
      rw [hfilled, hskip, filled_nil, List.append_nil]
      exact List.dropWhile_eq_nil_iff.mpr hgaps
  | cons c body =>
      obtain ⟨-, -, -, hc⟩ := skipGaps_eq_cons_iff.mp hskip
      rw [hskip] at h hfilled
      rw [filled_cons_of_none h] at hfilled ⊢
      exact skipGaps_eq_cons_iff.mpr ⟨gaps, hfilled, hgaps, hc⟩

theorem Harmless.skipGaps (h : Harmless data cs) : Harmless data (skipGaps cs) := by
  obtain ⟨gaps, hcs, hgaps⟩ := exists_gaps cs
  rw [hcs] at h
  exact h.append (not_mem_gaps hgaps)

/-- A character of the grammar stays in front, and filling goes on behind it. -/
theorem Harmless.behind (h : Harmless data cs) (hcs : Document.skipGaps cs = c :: body)
    (hleading : leading? (c :: body) = none) :
    Document.skipGaps (filled data cs) = c :: filled data body ∧ Harmless data body := by
  have hskip := h.skipGaps
  rw [hcs] at hskip
  rw [skipGaps_filled data (hcs ▸ hleading), hcs, filled_cons_of_none hleading]
  exact ⟨rfl, hskip.later hleading⟩

theorem Harmless.behind_of_ne (h : Harmless data cs) (hcs : Document.skipGaps cs = c :: body)
    (hc : c ≠ '\x7b') :
    Document.skipGaps (filled data cs) = c :: filled data body ∧ Harmless data body :=
  h.behind hcs (leading?_of_ne hc body)

theorem Reads.quote {ms : List (List Char × Draft)} (h : Reads room (.members ms) cs rest) :
    ∃ more, skipGaps cs = '"' :: more := by
  cases h with
  | lastMember hcs => exact ⟨_, hcs⟩
  | member hcs => exact ⟨_, hcs⟩

/-- A name without placeholders stays as it is, and filling goes on behind the colon. -/
theorem Harmless.behind_name {name name' : List Char} (h : Harmless data cs)
    (hcs : Document.skipGaps cs = '"' :: (name ++ '"' :: more)) (hspells : Spells name name')
    (hname : ∀ path, ¬ Occurs path name) (hmore : Document.skipGaps more = ':' :: body) :
    Document.skipGaps (filled data cs) = '"' :: (name ++ '"' :: filled data more) ∧
      Document.skipGaps (filled data more) = ':' :: filled data body ∧ Harmless data body := by
  obtain ⟨hskip, hinside⟩ := h.behind_of_ne hcs (by decide)
  obtain ⟨hfilled, -, hbehind⟩ := filled_quoted hspells hinside
  rw [hfilled, filled_of_not_occurs hname] at hskip
  exact ⟨hskip, hbehind.behind_of_ne hmore (by decide)⟩

theorem Harmless.behind_number {negative : Bool} {v : Json} (h : Harmless data cs)
    (hcs : Document.skipGaps cs = (if negative then ['-'] else []) ++ body)
    (hread : readNumber? negative body = some (.literal (some v), rest))
    (hrest : rest.head? ≠ some '\x7b') :
    Reads room (.value (.literal v)) (filled data cs) (filled data rest) ∧
      Harmless data rest := by
  obtain ⟨taken, rfl, hnumeric, hmore⟩ := steady_readNumber? _ _ _ _ hread
  have hsign : '\x7b' ∉ (if negative then ['-'] else []) := by
    cases negative <;> decide
  have htaken : '\x7b' ∉ taken := fun hmem => ne_brace_of_isNumeric (hnumeric _ hmem) rfl
  have hleading : leading? (Document.skipGaps cs) = none := by
    obtain ⟨c, more, heq, hc⟩ := isDigit_of_readNumber? hread
    have hc : c ≠ '\x7b' := ne_brace_of_isNumeric (.inl hc)
    rw [hcs, heq]
    cases negative with
    | true => exact leading?_of_ne (by decide) _
    | false => exact leading?_of_ne hc _
  have hskip := skipGaps_filled data hleading
  rw [hcs, filled_append hsign, filled_append htaken] at hskip
  have hbehind := h.skipGaps
  rw [hcs] at hbehind
  exact ⟨.number hskip (hmore _ (.inl (head?_filled hrest))), (hbehind.append hsign).append htaken⟩

theorem Harmless.behind_word {word : String} {v : Json} (h : Harmless data cs)
    (hword : (word, v) ∈ words) (hcs : Document.skipGaps cs = word.toList ++ rest) :
    Reads room (.value (.literal v)) (filled data cs) (filled data rest) ∧
      Harmless data rest := by
  have hbraces := not_mem_word hword
  have hleading : leading? (Document.skipGaps cs) = none := by
    rw [hcs]
    simp only [words, List.mem_cons, Prod.mk.injEq, List.not_mem_nil, or_false] at hword
    rcases hword with ⟨rfl, rfl⟩ | ⟨rfl, rfl⟩ | ⟨rfl, rfl⟩ <;>
      exact leading?_of_ne (by decide) _
  have hskip := skipGaps_filled data hleading
  rw [hcs, filled_append hbraces] at hskip
  have hbehind := h.skipGaps
  rw [hcs] at hbehind
  exact ⟨.word hword hskip, hbehind.append hbraces⟩

/-- A document whose placeholders are filled is the same document with its texts filled. -/
theorem Reads.filled {form : Form} (h : Reads room form cs rest)
    (hnames : ∀ name ∈ form.names, ∀ path, ¬ Occurs path name) (hdata : Harmless data cs)
    (hrest : rest.head? ≠ some '\x7b') :
    Reads room (form.fill data) (filled data cs) (filled data rest) ∧
      (∀ body ∈ form.texts, Replaced data body) ∧ Harmless data rest := by
  induction h with
  | number hcs hread =>
      obtain ⟨hreads, hbehind⟩ := hdata.behind_number hcs hread hrest
      exact ⟨hreads, List.forall_mem_nil _, hbehind⟩
  | word hword hcs =>
      obtain ⟨hreads, hbehind⟩ := hdata.behind_word hword hcs
      exact ⟨hreads, List.forall_mem_nil _, hbehind⟩
  | text hcs hspells =>
      obtain ⟨hskip, hbody⟩ := hdata.behind_of_ne hcs (by decide)
      obtain ⟨hfilled, hreplaced, hbehind⟩ := filled_quoted hspells hbody
      obtain ⟨text', -, hspells'⟩ := id hreplaced
      rw [hfilled] at hskip
      exact ⟨.text hskip hspells', List.forall_mem_singleton.mpr hreplaced, hbehind⟩
  | emptyArray hcs hbody =>
      obtain ⟨hskip, hinside⟩ := hdata.behind_of_ne hcs (by decide)
      obtain ⟨hskip', hbehind⟩ := hinside.behind_of_ne hbody (by decide)
      exact ⟨.emptyArray hskip hskip', List.forall_mem_nil _, hbehind⟩
  | array hcs _ ih =>
      obtain ⟨hskip, hinside⟩ := hdata.behind_of_ne hcs (by decide)
      obtain ⟨hreads, htexts, hbehind⟩ := ih hnames hinside hrest
      exact ⟨.array hskip hreads, htexts, hbehind⟩
  | emptyObject hcs hbody =>
      have hhead := head?_ne_of_skipGaps_eq hbody (by decide)
      obtain ⟨hskip, hinside⟩ := hdata.behind hcs (leading?_of_head?_ne hhead)
      obtain ⟨hskip', hbehind⟩ := hinside.behind_of_ne hbody (by decide)
      exact ⟨.emptyObject hskip hskip', List.forall_mem_nil _, hbehind⟩
  | object hcs hmembers ih =>
      obtain ⟨more, hquote⟩ := hmembers.quote
      have hhead := head?_ne_of_skipGaps_eq hquote (by decide)
      obtain ⟨hskip, hinside⟩ := hdata.behind hcs (leading?_of_head?_ne hhead)
      obtain ⟨hreads, htexts, hbehind⟩ := ih hnames hinside hrest
      exact ⟨.object hskip hreads, htexts, hbehind⟩
  | lastItem _ hmore ih =>
      have hnames : ∀ name ∈ _, ∀ path, ¬ Occurs path name := fun name hname =>
        hnames name (List.mem_append_left _ hname)
      obtain ⟨hreads, htexts, hdata⟩ := ih hnames hdata (head?_ne_of_skipGaps_eq hmore (by decide))
      obtain ⟨hskip, hbehind⟩ := hdata.behind_of_ne hmore (by decide)
      exact ⟨.lastItem hreads hskip,
        List.forall_mem_append.mpr ⟨htexts, List.forall_mem_nil _⟩, hbehind⟩
  | item _ hmore _ ih ih' =>
      obtain ⟨hnames, hnames'⟩ := List.forall_mem_append.mp hnames
      obtain ⟨hreads, htexts, hdata⟩ := ih hnames hdata (head?_ne_of_skipGaps_eq hmore (by decide))
      obtain ⟨hskip, hdata⟩ := hdata.behind_of_ne hmore (by decide)
      obtain ⟨hreads', htexts', hbehind⟩ := ih' hnames' hdata hrest
      exact ⟨.item hreads hskip hreads', List.forall_mem_append.mpr ⟨htexts, htexts'⟩, hbehind⟩
  | lastMember hcs hspells hmore _ hmore' ih =>
      obtain ⟨hname, hnames⟩ := List.forall_mem_cons.mp hnames
      obtain ⟨hnames, -⟩ := List.forall_mem_append.mp hnames
      obtain ⟨hskip, hskip', hdata⟩ := hdata.behind_name hcs hspells hname hmore
      obtain ⟨hreads, htexts, hdata⟩ := ih hnames hdata (head?_ne_of_skipGaps_eq hmore' (by decide))
      obtain ⟨hclose, hbehind⟩ := hdata.behind_of_ne hmore' (by decide)
      exact ⟨.lastMember hskip hspells hskip' hreads hclose,
        List.forall_mem_append.mpr ⟨htexts, List.forall_mem_nil _⟩, hbehind⟩
  | member hcs hspells hmore _ hmore' _ ih ih' =>
      obtain ⟨hname, hnames⟩ := List.forall_mem_cons.mp hnames
      obtain ⟨hnames, hnames'⟩ := List.forall_mem_append.mp hnames
      obtain ⟨hskip, hskip', hdata⟩ := hdata.behind_name hcs hspells hname hmore
      obtain ⟨hreads, htexts, hdata⟩ := ih hnames hdata (head?_ne_of_skipGaps_eq hmore' (by decide))
      obtain ⟨hcomma, hdata⟩ := hdata.behind_of_ne hmore' (by decide)
      obtain ⟨hreads', htexts', hbehind⟩ := ih' hnames' hdata hrest
      exact ⟨.member hskip hspells hskip' hreads hcomma hreads',
        List.forall_mem_append.mpr ⟨htexts, htexts'⟩, hbehind⟩

/-- The placeholders of a document stand inside its texts: no name has one, and none goes on behind
the quote that ends the text. -/
structure Draft.Encloses (draft : Draft) (s : String) : Prop where
  names : ∀ name ∈ draft.names, ∀ path, ¬ Occurs path name
  spelled : ∀ path, Occurs path s.toList → ∃ text, Spells path text

/-- A text that is a draft is filled to the draft with its texts filled. -/
theorem Draft.Writes.fill {draft : Draft} {s : String} (h : draft.Writes s)
    (hencloses : draft.Encloses s) (hplain : ∀ path, Occurs path s.toList → ∀ v,
      resolve? data (Text.trim (String.ofList path)) = some v →
        ∀ c ∈ (Json.render v).toList, Plain c) :
    (draft.fill data).Writes (Template.fill s data) ∧
      ∀ body ∈ draft.texts, Fills data body (spelled (filled data body)).toList := by
  obtain ⟨rest, hreads, hrest⟩ := h
  have hhead : rest.head? ≠ some '\x7b' := head?_ne_of_skipGaps (by simp [hrest])
  obtain ⟨hfilled, htexts, -⟩ := hreads.filled hencloses.names ⟨hencloses.spelled, hplain⟩ hhead
  have hleading : leading? (skipGaps rest) = none := by
    rw [hrest]
    rfl
  refine ⟨⟨filled data rest, ?_, ?_⟩, fun body hbody => (htexts body hbody).fills_spelled⟩
  · rw [toList_fill]
    exact hfilled
  · rw [skipGaps_filled data hleading, hrest, filled_nil]

end Document

/-! ## Names and nesting -/

namespace Json

mutual

/-- The value with every text in it blank; names, nesting and all other values are left. -/
def outline : Json → Json
  | .string _ => .string ""
  | .array items => .array (outlineItems items)
  | .object members => .object (outlineMembers members)
  | .null => .null
  | .bool b => .bool b
  | .number n => .number n

def outlineItems : List Json → List Json
  | [] => []
  | x :: xs => outline x :: outlineItems xs

def outlineMembers : Members → Members
  | [] => []
  | (name, x) :: xs => (name, outline x) :: outlineMembers xs

end

theorem outlineMembers_insert (name : String) (value : Json) (members : Members) :
    outlineMembers (insert name value members) =
      insert name value.outline (outlineMembers members) := by
  induction members with
  | nil => rfl
  | cons member rest ih =>
      obtain ⟨head, old⟩ := member
      simp only [insert, outlineMembers]
      split
      · rfl
      split
      · rfl
      · rw [outlineMembers, ih]

theorem ordered_concat (name : String) (value : Json) (members : Members) :
    ordered (members ++ [(name, value)]) = insert name value (ordered members) :=
  List.foldl_append

theorem outlineMembers_append (members more : Members) :
    outlineMembers (members ++ more) = outlineMembers members ++ outlineMembers more := by
  induction members with
  | nil => rfl
  | cons member rest ih => exact congrArg _ ih

theorem outlineMembers_ordered (members : Members) :
    outlineMembers (ordered members) = ordered (outlineMembers members) := by
  induction members using List.reverseRecOn with
  | nil => rfl
  | append_singleton members member ih =>
      obtain ⟨name, value⟩ := member
      rw [ordered_concat, outlineMembers_insert, ih, outlineMembers_append]
      exact (ordered_concat name value.outline _).symm

end Json

namespace Document.Draft

variable {data : Json}

mutual

theorem outline_value_fill (d : Draft) : (d.fill data).value.outline = d.value.outline := by
  match d with
  | .literal _ => rfl
  | .text _ => rfl
  | .array items => exact congrArg Json.array (outlineItems_values_fill items)
  | .object members =>
      refine congrArg Json.object ?_
      rw [Json.outlineMembers_ordered, Json.outlineMembers_ordered,
        outlineMembers_memberValues_fill members]

theorem outlineItems_values_fill (ds : List Draft) :
    Json.outlineItems (values (fillItems data ds)) = Json.outlineItems (values ds) := by
  match ds with
  | [] => rfl
  | d :: ds =>
      rw [fillItems, values, values, Json.outlineItems, Json.outlineItems, outline_value_fill d,
        outlineItems_values_fill ds]

theorem outlineMembers_memberValues_fill (ms : List (List Char × Draft)) :
    Json.outlineMembers (memberValues (fillMembers data ms)) =
      Json.outlineMembers (memberValues ms) := by
  match ms with
  | [] => rfl
  | (name, d) :: ms =>
      rw [fillMembers, memberValues, memberValues, Json.outlineMembers, Json.outlineMembers,
        outline_value_fill d, outlineMembers_memberValues_fill ms]

end

end Document.Draft

end FlowEngine
