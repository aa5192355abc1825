import FlowEngine.Proofs.Template
/-!
# `FlowEngine.Proofs.Template.Settled` — templates filled in more than one go

A text in which some placeholders have been filled (`FillsSome`) can be filled again.  That gives
what filling it at once gives (`Settled`), unless what has been put in is taken for a part of a
placeholder: it may hold one, and it may make one out of the braces around it, even if it is empty.

Nothing like that happens to texts that have no opening brace and begin with something other than a
closing one (`settled_of_forall`).  A placeholder that is found behind them was there before: what
begins it was no placeholder only because its braces never met, and a text that is no brace does not
bring them together.
-/

namespace FlowEngine.Template

variable {data : Json} {c : Char} {cs cs' path rest more : List Char}

/-- Some of the placeholders of the first text, found from the left, are filled in the second. -/
inductive FillsSome (data : Json) : List Char → List Char → Prop where
  | nil : FillsSome data [] []
  | filled {cs path rest rest' : List Char} {v : Json} :
      leading? cs = some (path, rest) →
      resolve? data (Text.trim (String.ofList path)) = some v → FillsSome data rest rest' →
      FillsSome data cs ((Json.render v).toList ++ rest')
  | kept {cs path rest rest' : List Char} :
      leading? cs = some (path, rest) → FillsSome data rest rest' →
      FillsSome data cs (marked path ++ rest')
  | passed {c : Char} {cs cs' : List Char} :
      leading? (c :: cs) = none → FillsSome data cs cs' → FillsSome data (c :: cs) (c :: cs')

/-- It does not matter which placeholders of the text are filled first. -/
def Settled (data : Json) (cs : List Char) : Prop :=
  ∀ cs', FillsSome data cs cs' → filled data cs' = filled data cs

theorem filling_of_some {v : Json}
    (h : resolve? data (Text.trim (String.ofList path)) = some v) :
    filling data path = (Json.render v).toList := by
  rw [filling, h]

theorem filling_of_none (h : resolve? data (Text.trim (String.ofList path)) = none) :
    filling data path = marked path := by
  rw [filling, h]
  rfl

theorem FillsSome.cons_inv (h : FillsSome data cs (c :: more)) (hleading : leading? cs = none) :
    ∃ cs', cs = c :: cs' ∧ FillsSome data cs' more := by
  generalize hwhole : c :: more = whole at h
  cases h with
  | nil => cases hwhole
  | filled hsome => exact nomatch hleading.symm.trans hsome
  | kept hsome => exact nomatch hleading.symm.trans hsome
  | passed _ hbehind =>
      obtain ⟨rfl, rfl⟩ := List.cons.inj hwhole
      exact ⟨_, rfl, hbehind⟩

/-- A text that leads no brace to another. -/
structure Inert (cs : List Char) : Prop where
  ne_nil : cs ≠ []
  head?_ne : cs.head? ≠ some '\x7d'
  not_mem : '\x7b' ∉ cs

/-- Up to a closing pair of braces nothing has been filled, or a placeholder begins before it. -/
theorem FillsSome.closing (h : FillsSome data cs (path ++ '\x7d' :: '\x7d' :: rest))
    (hinert : ∀ path, Occurs path cs → ∀ v,
      resolve? data (Text.trim (String.ofList path)) = some v → Inert (Json.render v).toList)
    (hpath : '\x7d' ∉ path) :
    (∃ rest', cs = path ++ '\x7d' :: '\x7d' :: rest') ∨
      ∃ front found rest', '\x7d' ∉ front ++ found ∧ cs = front ++ (marked found ++ rest') := by
  induction path generalizing cs with
  | nil =>
      cases hleading : leading? cs with
      | some found =>
          obtain ⟨hcs, -, hfound⟩ := leading?_eq_some_iff.mp hleading
          exact .inr ⟨[], found.1, found.2, by simpa using hfound, hcs⟩
      | none =>
          obtain ⟨cs₁, rfl, h₁⟩ := h.cons_inv hleading
          have hinert₁ := fun path hpath => hinert path (.later hleading hpath)
          generalize hwhole : '\x7d' :: rest = whole at h₁
          cases h₁ with
          | nil => cases hwhole
          | @filled _ _ _ rest' v hsome hvalue =>
              -- What is put in begins with something else.
              have hfilling := hinert₁ _ (.here hsome) v hvalue
              cases htext : (Json.render v).toList with
              | nil => exact absurd htext hfilling.ne_nil
              | cons d ds =>
                  rw [htext] at hwhole
                  obtain ⟨rfl, -⟩ := List.cons.inj hwhole
                  exact absurd (by rw [htext]; rfl) hfilling.head?_ne
          | kept => cases hwhole
          | passed =>
              obtain ⟨rfl, -⟩ := List.cons.inj hwhole
              exact .inl ⟨_, rfl⟩
  | cons d path ih =>
      obtain ⟨hd, hpath⟩ := List.ne_and_not_mem_of_not_mem_cons hpath
      cases hleading : leading? cs with
      | some found =>
          obtain ⟨hcs, -, hfound⟩ := leading?_eq_some_iff.mp hleading
          exact .inr ⟨[], found.1, found.2, by simpa using hfound, hcs⟩
      | none =>
          obtain ⟨cs₁, rfl, h₁⟩ := h.cons_inv hleading
          rcases ih h₁ (fun path hpath => hinert path (.later hleading hpath)) hpath with
            ⟨rest', rfl⟩ | ⟨front, found, rest', hnot, rfl⟩
          · exact .inl ⟨rest', rfl⟩
          · refine .inr ⟨d :: front, found, rest', ?_, rfl⟩
            rw [List.cons_append]
            exact List.not_mem_cons_of_ne_of_not_mem hd hnot

theorem FillsSome.leading?_eq_none (h : FillsSome data cs cs')
    (hinert : ∀ path, Occurs path cs → ∀ v,
      resolve? data (Text.trim (String.ofList path)) = some v → Inert (Json.render v).toList)
    (hnone : leading? (c :: cs) = none) : leading? (c :: cs') = none := by
  by_contra hsome
  obtain ⟨⟨path, rest⟩, hsome⟩ := Option.ne_none_iff_exists'.mp hsome
  obtain ⟨heq, hne, hpath⟩ := leading?_eq_some_iff.mp hsome
  have heq : c :: cs' = '\x7b' :: '\x7b' :: (path ++ '\x7d' :: '\x7d' :: rest) := by
    simpa [marked] using heq
  obtain ⟨rfl, rfl⟩ := List.cons.inj heq
  -- The second brace has been there before, and behind it a placeholder ends.
  have hopen : ∀ cs₁, cs = '\x7b' :: cs₁ → ∀ found rest', found ≠ [] → '\x7d' ∉ found →
      cs₁ ≠ found ++ '\x7d' :: '\x7d' :: rest' := by
    rintro _ rfl found rest' hfound hnot rfl
    have hleads : leading? (marked found ++ rest') = some (found, rest') :=
      leading?_eq_some_iff.mpr ⟨rfl, hfound, hnot⟩
    rw [marked] at hleads
    simp only [List.cons_append, List.append_assoc, List.nil_append] at hleads
    rw [hleads] at hnone
    cases hnone
  cases hleading : leading? cs with
  | some found =>
      obtain ⟨hcs, hfound, hnot⟩ := leading?_eq_some_iff.mp hleading
      refine hopen _ hcs ('\x7b' :: found.1) found.2 (by simp) (by simpa using hnot) ?_
      simp
  | none =>
      obtain ⟨cs₁, rfl, h₁⟩ := h.cons_inv hleading
      have hinert₁ := fun path hpath => hinert path (.later hleading hpath)
      rcases h₁.closing hinert₁ hpath with ⟨rest', hrest⟩ | ⟨front, found, rest', hnot, hrest⟩
      · exact hopen cs₁ rfl path rest' hne hpath hrest
      · refine hopen cs₁ rfl (front ++ '\x7b' :: '\x7b' :: found) rest' (by simp) ?_ ?_
        · simpa using hnot
        · simpa [marked] using hrest

/-- As long as inert texts are put in, it does not matter which placeholders are filled first. -/
theorem settled_of_forall (h : ∀ path, Occurs path cs → ∀ v,
    resolve? data (Text.trim (String.ofList path)) = some v → Inert (Json.render v).toList) :
    Settled data cs := by
  intro cs' hfills
  induction hfills with
  | nil => rfl
  | @filled cs path rest rest' v hleading hvalue _ ih =>
      obtain ⟨rfl, hne, hpath⟩ := leading?_eq_some_iff.mp hleading
      rw [filled_append (h path (.here hleading) v hvalue).not_mem,
        ih fun path hpath => h path (.behind hleading hpath), filled_marked_append hne hpath,
        filling_of_some hvalue]
  | kept hleading _ ih =>
      obtain ⟨rfl, hne, hpath⟩ := leading?_eq_some_iff.mp hleading
      rw [filled_marked_append hne hpath, filled_marked_append hne hpath,
        ih fun path hpath => h path (.behind hleading hpath)]
  | passed hleading hbehind ih =>
      have hinert := fun path hpath => h path (.later hleading hpath)
      rw [filled_cons_of_none hleading,
        filled_cons_of_none (hbehind.leading?_eq_none hinert hleading), ih hinert]

end FlowEngine.Template
