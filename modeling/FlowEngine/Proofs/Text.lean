import FlowEngine.Text.Blank
import FlowEngine.Text.Split
import Mathlib.Data.List.DropRight
import Mathlib.Data.List.TakeWhile
/-!
# `FlowEngine.Proofs.Text` — how texts begin and where they are cut

What a reader takes from the front of a text is decided by the characters there.  These lemmas say
so of the few ways in which texts are taken apart: after a given beginning, as long as the characters
are of a class, at a separator, and between blanks.

A text is some blanks, what trimming leaves of it, and blanks again (`exists_stripWhile`).  What
trimming leaves has no blank at its ends (`bare_stripWhile`) and does not change when more blanks are
put around the text (`stripWhile_append`).
-/

namespace FlowEngine.Text

variable {c : Char} {cs more : List Char}

/-! ## Beginnings -/

theorem after?_eq_some_iff {start cs rest : List Char} :
    after? start cs = some rest ↔ cs = start ++ rest := by
  induction start generalizing cs with
  | nil => simp [after?, eq_comm]
  | cons p ps ih =>
      cases cs with
      | nil => simp [after?]
      | cons c cs =>
          by_cases hc : p = c
          · simp [after?, hc, ih]
          · simp [after?, hc, Ne.symm hc]

theorem startsWith_iff {start s : String} :
    startsWith start s = true ↔ ∃ rest, s = start ++ rest := by
  rw [startsWith, Option.isSome_iff_exists]
  simp only [after?_eq_some_iff]
  constructor
  · rintro ⟨rest, h⟩
    refine ⟨String.ofList rest, String.toList_inj.mp ?_⟩
    simpa using h
  · rintro ⟨rest, rfl⟩
    exact ⟨rest.toList, by simp⟩

/-! ## Characters of a class -/

theorem toNat_of_isDigit (h : c.isDigit = true) : 48 ≤ c.toNat ∧ c.toNat ≤ 57 := by
  simpa [Char.isDigit, UInt32.le_iff_toNat_le] using h

theorem toLower_cases (c : Char) :
    c.toLower = c ∨ (65 ≤ c.toNat ∧ c.toNat ≤ 90) ∧ c.toLower.toNat = c.toNat + 32 := by
  by_cases h : c.val ≥ 'A'.val ∧ c.val ≤ 'Z'.val
  · have hbounds : 65 ≤ c.toNat ∧ c.toNat ≤ 90 := h
    have hlower : c.toLower.val = c.val + ('a'.val - 'A'.val) := congrArg Char.val (dif_pos h)
    have hshift : 'a'.val - 'A'.val = 32 := by decide
    have hplain : (32 : UInt32).toNat = 32 := rfl
    have hle : c.val.toNat ≤ 90 := hbounds.2
    refine Or.inr ⟨hbounds, ?_⟩
    show c.toLower.val.toNat = c.val.toNat + 32
    rw [hlower, hshift, UInt32.toNat_add, hplain]
    omega
  · exact Or.inl (dif_neg h)

theorem takeWhile_append_of_stops {p : Char → Bool} (h : ∀ d ∈ more.head?, p d = false) :
    (cs ++ more).takeWhile p = cs.takeWhile p := by
  induction cs with
  | nil =>
      cases more with
      | nil => rfl
      | cons d more => simp [h d rfl]
  | cons c cs ih => simp only [List.cons_append, List.takeWhile_cons, ih]

theorem dropWhile_append_of_stops {p : Char → Bool} (h : ∀ d ∈ more.head?, p d = false) :
    (cs ++ more).dropWhile p = cs.dropWhile p ++ more := by
  induction cs with
  | nil =>
      cases more with
      | nil => rfl
      | cons d more => simp [h d rfl]
  | cons c cs ih =>
      simp only [List.cons_append, List.dropWhile_cons, ih]
      split <;> rfl

/-! ## Pieces -/

theorem pieces_ne_nil (sep : Char) (cs : List Char) : pieces sep cs ≠ [] := by
  cases cs with
  | nil => simp [pieces]
  | cons c cs =>
      rw [pieces]
      split
      · exact List.cons_ne_nil _ _
      · split <;> exact List.cons_ne_nil _ _

theorem pieces_cons_of_ne {sep : Char} (h : c ≠ sep) (cs : List Char) :
    ∃ p ps, pieces sep cs = p :: ps ∧ pieces sep (c :: cs) = (c :: p) :: ps := by
  obtain ⟨p, ps, hcs⟩ := List.exists_cons_of_ne_nil (pieces_ne_nil sep cs)
  exact ⟨p, ps, hcs, by rw [pieces, if_neg h, hcs]⟩

theorem pieces_append_cons {sep : Char} (cs rest : List Char) :
    pieces sep (cs ++ sep :: rest) = pieces sep cs ++ pieces sep rest := by
  induction cs with
  | nil => exact if_pos rfl
  | cons c cs ih =>
      by_cases hc : c = sep
      · rw [List.cons_append, pieces, if_pos hc, ih, pieces, if_pos hc, List.cons_append]
      · obtain ⟨p, ps, hcs, hcons⟩ := pieces_cons_of_ne hc cs
        rw [List.cons_append, hcons, pieces, if_neg hc, ih, hcs, List.cons_append, List.cons_append]

theorem pieces_of_not_mem {sep : Char} (h : sep ∉ cs) : pieces sep cs = [cs] := by
  induction cs with
  | nil => rfl
  | cons c rest ih =>
      have hc : c ≠ sep := fun heq => h (heq ▸ List.mem_cons_self)
      rw [pieces, if_neg hc, ih fun hmem => h (List.mem_cons_of_mem _ hmem)]

theorem splitAt_of_not_mem {sep : Char} {s : String} (h : sep ∉ s.toList) :
    splitAt sep s = [s] := by
  rw [splitAt, pieces_of_not_mem h, List.map_singleton, String.ofList_toList]

theorem sublist_of_mem_pieces {sep : Char} {piece : List Char} (h : piece ∈ pieces sep cs) :
    piece.Sublist cs ∧ sep ∉ piece := by
  induction cs generalizing piece with
  | nil =>
      rw [pieces, List.mem_singleton] at h
      exact ⟨h ▸ List.nil_sublist _, h ▸ List.not_mem_nil⟩
  | cons c cs ih =>
      by_cases hc : c = sep
      · rw [pieces, if_pos hc, List.mem_cons] at h
        obtain rfl | h := h
        · exact ⟨List.nil_sublist _, List.not_mem_nil⟩
        · exact ⟨(ih h).1.cons c, (ih h).2⟩
      · obtain ⟨p, ps, hcs, hcons⟩ := pieces_cons_of_ne hc cs
        rw [hcons, List.mem_cons] at h
        obtain rfl | h := h
        · obtain ⟨hsub, hsep⟩ := ih (hcs ▸ List.mem_cons_self)
          exact ⟨hsub.cons_cons c, List.not_mem_cons_of_ne_of_not_mem (Ne.symm hc) hsep⟩
        · obtain ⟨hsub, hsep⟩ := ih (hcs ▸ List.mem_cons_of_mem p h)
          exact ⟨hsub.cons c, hsep⟩

/-! ## Blanks -/

section Strip

variable {p : Char → Bool} {before behind : List Char}

/-- Neither the first nor the last character is of a class. -/
def Bare (p : Char → Bool) (cs : List Char) : Prop :=
  (∀ c ∈ cs.head?, p c = false) ∧ ∀ c ∈ cs.getLast?, p c = false

/-- The list library has another name for what drops characters at the end. -/
theorem dropEndWhile_eq (p : Char → Bool) (cs : List Char) : dropEndWhile p cs = cs.rdropWhile p :=
  rfl

theorem stripWhile_of_bare (h : Bare p cs) : stripWhile p cs = cs := by
  have hfront : cs.dropWhile p = cs := by
    cases cs with
    | nil => rfl
    | cons c cs => exact List.dropWhile_cons_of_neg (by simp [h.1 c rfl])
  rw [stripWhile, hfront, dropEndWhile_eq, List.rdropWhile_eq_self_iff]
  intro hne
  rw [h.2 _ (List.getLast?_eq_some_getLast hne)]
  exact Bool.false_ne_true

theorem bare_stripWhile (p : Char → Bool) (cs : List Char) : Bare p (stripWhile p cs) := by
  rw [stripWhile, dropEndWhile_eq]
  constructor
  · intro c hc
    have hhead := List.head?_dropWhile_not p cs
    have hfirst : (cs.dropWhile p).head? = some c := by
      obtain ⟨rest, hrest⟩ := List.rdropWhile_prefix p (l := cs.dropWhile p)
      rw [← hrest, List.head?_append, hc]
      rfl
    rw [hfirst] at hhead
    exact hhead
  · intro c hc
    obtain ⟨hne, rfl⟩ := List.mem_getLast?_eq_getLast hc
    exact Bool.not_eq_true _ ▸ List.rdropWhile_last_not p _ hne

/-- A text is what trimming leaves of it, with characters of the class around. -/
theorem exists_stripWhile (p : Char → Bool) (cs : List Char) :
    ∃ before behind, cs = before ++ stripWhile p cs ++ behind ∧
      (∀ c ∈ before, p c = true) ∧ ∀ c ∈ behind, p c = true := by
  refine ⟨cs.takeWhile p, (cs.dropWhile p).rtakeWhile p, ?_, ?_, ?_⟩
  · rw [List.append_assoc, stripWhile, dropEndWhile_eq, List.rdropWhile_append_rtakeWhile,
      List.takeWhile_append_dropWhile]
  · exact fun c hc => List.mem_takeWhile_imp hc
  · exact fun c hc => List.mem_rtakeWhile_imp hc

theorem stripWhile_append (cs : List Char) (hbefore : ∀ c ∈ before, p c = true)
    (hbehind : ∀ c ∈ behind, p c = true) :
    stripWhile p (before ++ cs ++ behind) = stripWhile p cs := by
  have hend : ∀ ds : List Char, dropEndWhile p (ds ++ behind) = dropEndWhile p ds := by
    intro ds
    rw [dropEndWhile, List.reverse_append, List.dropWhile_append_of_pos, dropEndWhile]
    exact fun c hc => hbehind c (List.mem_reverse.mp hc)
  rw [List.append_assoc, stripWhile, List.dropWhile_append_of_pos hbefore, List.dropWhile_append,
    stripWhile]
  split
  · next hall =>
      rw [List.isEmpty_iff.mp hall, List.dropWhile_eq_nil_iff.mpr hbehind]
  · exact hend _

theorem mem_stripWhile (h : c ∈ cs) (hc : p c = false) : c ∈ stripWhile p cs := by
  obtain ⟨before, behind, hcs, hbefore, hbehind⟩ := exists_stripWhile p cs
  have hfree : ∀ {ds : List Char}, (∀ d ∈ ds, p d = true) → c ∉ ds := by
    intro ds hds hmem
    rw [hds c hmem] at hc
    cases hc
  rw [hcs, List.mem_append, List.mem_append] at h
  exact (h.resolve_right (hfree hbehind)).resolve_left (hfree hbefore)

end Strip

theorem toList_trim (s : String) : (trim s).toList = stripWhile isBlank s.toList :=
  String.toList_ofList

theorem trim_of_bare {s : String} (h : Bare isBlank s.toList) : trim s = s := by
  rw [trim, stripWhile_of_bare h, String.ofList_toList]

theorem bare_trim (s : String) : Bare isBlank (trim s).toList := by
  rw [toList_trim]
  exact bare_stripWhile _ _

theorem trim_trim (s : String) : trim (trim s) = trim s := trim_of_bare (bare_trim s)

theorem nonBlank?_eq_some_iff {s text : String} :
    nonBlank? s = some text ↔ trim s = text ∧ text ≠ "" := by
  have hcases : nonBlank? s = if (trim s).isEmpty = true then none else some (trim s) := rfl
  rw [hcases]
  constructor
  · intro h
    split at h
    · cases h
    · next hne =>
        obtain rfl := Option.some.inj h
        exact ⟨rfl, fun hempty => hne (String.isEmpty_iff.mpr hempty)⟩
  · rintro ⟨rfl, hne⟩
    exact if_neg fun hempty => hne (String.isEmpty_iff.mp hempty)

theorem isSome_nonBlank? {s : String} (h : c ∈ s.toList) (hc : isBlank c = false) :
    (nonBlank? s).isSome = true := by
  have hmem := mem_stripWhile h hc
  refine Option.isSome_iff_exists.mpr ⟨trim s, nonBlank?_eq_some_iff.mpr ⟨rfl, ?_⟩⟩
  intro hempty
  rw [← toList_trim, hempty] at hmem
  cases hmem

end FlowEngine.Text
