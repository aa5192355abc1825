import FlowEngine.Proofs.Text
import FlowEngine.Template
/-!
# `FlowEngine.Proofs.Template` — a template filled from the left

What a template is filled to is told from the front: a placeholder there is replaced, and any other
character stands for itself, and then the rest is filled (`filled_cons`).  Neither the fuel nor what
has been done already matters (`fillFrom_eq`).  Where no placeholder begins, a text is therefore
filled piece by piece.
-/

namespace FlowEngine.Template

variable {data : Json} {c : Char} {cs path rest : List Char}

/-! ## Placeholders -/

def marked (path : List Char) : List Char := '\x7b' :: '\x7b' :: path ++ ['\x7d', '\x7d']

/-- The path of the placeholder at the front of a text, and what follows it. -/
def leading? : List Char → Option (List Char × List Char)
  | '\x7b' :: '\x7b' :: cs => placeholder? cs
  | _ => none

/-- A placeholder of this path is among those found from the left. -/
inductive Occurs (path : List Char) : List Char → Prop where
  | here {cs rest : List Char} : leading? cs = some (path, rest) → Occurs path cs
  | behind {cs found rest : List Char} :
      leading? cs = some (found, rest) → Occurs path rest → Occurs path cs
  | later {c : Char} {cs : List Char} :
      leading? (c :: cs) = none → Occurs path cs → Occurs path (c :: cs)

theorem placeholder?_eq_some_iff : placeholder? cs = some (path, rest) ↔
    cs = path ++ '\x7d' :: '\x7d' :: rest ∧ path ≠ [] ∧ '\x7d' ∉ path := by
  constructor
  · intro h
    unfold placeholder? at h
    split at h
    · next hdrop =>
        dsimp only at h
        split at h
        · cases h
        · next hne =>
            obtain ⟨rfl, rfl⟩ := Prod.mk.inj (Option.some.inj h)
            refine ⟨?_, fun heq => hne (List.isEmpty_iff.mpr heq), fun hmem => ?_⟩
            · rw [← hdrop, List.takeWhile_append_dropWhile]
            · have hnot := List.mem_takeWhile_imp hmem
              simp at hnot
    · cases h
  · rintro ⟨rfl, hne, hpath⟩
    have hall : ∀ d ∈ path, (d != '\x7d') = true := by
      rintro d hd
      exact bne_iff_ne.mpr fun heq => hpath (heq ▸ hd)
    have htake : (path ++ '\x7d' :: '\x7d' :: rest).takeWhile (· != '\x7d') = path := by
      rw [List.takeWhile_append_of_pos hall]
      simp
    have hdrop : (path ++ '\x7d' :: '\x7d' :: rest).dropWhile (· != '\x7d') =
        '\x7d' :: '\x7d' :: rest := by
      rw [List.dropWhile_append_of_pos hall]
      simp
    rw [placeholder?, htake, hdrop]
    simp [hne]

theorem leading?_eq_some_iff : leading? cs = some (path, rest) ↔
    cs = marked path ++ rest ∧ path ≠ [] ∧ '\x7d' ∉ path := by
  constructor
  · intro h
    unfold leading? at h
    split at h
    · obtain ⟨rfl, hpath⟩ := placeholder?_eq_some_iff.mp h
      exact ⟨by simp [marked], hpath⟩
    · cases h
  · rintro ⟨rfl, hpath⟩
    exact placeholder?_eq_some_iff.mpr ⟨by simp, hpath⟩

theorem leading?_of_ne (h : c ≠ '\x7b') (cs : List Char) : leading? (c :: cs) = none := by
  unfold leading?
  split
  · next heq => exact absurd (List.cons.inj heq).1 h
  · rfl

theorem leading?_of_head?_ne (h : cs.head? ≠ some '\x7b') : leading? (c :: cs) = none := by
  unfold leading?
  split
  · next heq =>
      rw [(List.cons.inj heq).2] at h
      exact absurd rfl h
  · rfl

theorem not_occurs_nil (path : List Char) : ¬ Occurs path [] := by
  rintro (h | ⟨h, -⟩) <;> cases h

theorem occurs_cons_iff (h : leading? (c :: cs) = none) :
    Occurs path (c :: cs) ↔ Occurs path cs := by
  refine ⟨fun hoccurs => ?_, .later h⟩
  cases hoccurs with
  | here hleading => exact nomatch h.symm.trans hleading
  | behind hleading => exact nomatch h.symm.trans hleading
  | later _ hlater => exact hlater

theorem occurs_append_iff (h : '\x7b' ∉ cs) :
    Occurs path (cs ++ rest) ↔ Occurs path rest := by
  induction cs with
  | nil => rfl
  | cons c cs ih =>
      obtain ⟨hc, hcs⟩ := List.ne_and_not_mem_of_not_mem_cons h
      exact (occurs_cons_iff (leading?_of_ne hc.symm _)).trans (ih hcs)

theorem occurs_marked_append_iff {found : List Char} (hne : found ≠ []) (hfound : '\x7d' ∉ found) :
    Occurs path (marked found ++ rest) ↔ path = found ∨ Occurs path rest := by
  have hleading : leading? (marked found ++ rest) = some (found, rest) :=
    leading?_eq_some_iff.mpr ⟨rfl, hne, hfound⟩
  constructor
  · intro h
    generalize hcs : marked found ++ rest = cs at h
    rw [hcs] at hleading
    cases h with
    | here hpath => exact .inl (Prod.mk.inj (Option.some.inj (hpath.symm.trans hleading))).1
    | behind hbehind hrest =>
        obtain ⟨-, rfl⟩ := Prod.mk.inj (Option.some.inj (hbehind.symm.trans hleading))
        exact .inr hrest
    | later hnone => exact nomatch hnone.symm.trans hleading
  · rintro (rfl | h)
    · exact .here hleading
    · exact .behind hleading h

/-! ## Filling -/

/-- The characters of a template with its placeholders filled. -/
def filled (data : Json) (cs : List Char) : List Char := fillFrom data cs.length [] cs

theorem toList_fill (template : String) (data : Json) :
    (fill template data).toList = filled data template.toList :=
  String.toList_ofList

theorem fillFrom_succ (fuel : Nat) (done : List Char) (c : Char) (cs : List Char) :
    fillFrom data (fuel + 1) done (c :: cs) =
      match leading? (c :: cs) with
      | some (path, rest) => fillFrom data fuel ((filling data path).reverse ++ done) rest
      | none => fillFrom data fuel (c :: done) cs := by
  by_cases h : ∃ more, c = '\x7b' ∧ cs = '\x7b' :: more
  · obtain ⟨more, rfl, rfl⟩ := h
    rfl
  · have hleading : leading? (c :: cs) = none := by
      unfold leading?
      split
      · next heq =>
          obtain ⟨hc, hcs⟩ := List.cons.inj heq
          exact absurd ⟨_, hc, hcs⟩ h
      · rfl
    rw [hleading, fillFrom]
    intro more hc hcs
    exact absurd ⟨more, hc, hcs⟩ h

theorem length_lt_of_leading? (h : leading? cs = some (path, rest)) : rest.length < cs.length := by
  obtain ⟨rfl, -⟩ := leading?_eq_some_iff.mp h
  simp only [marked, List.length_append, List.length_cons]
  omega

/-- The length of a template is fuel enough, and what is done stands in front. -/
theorem fillFrom_eq {fuel : Nat} (hfuel : cs.length ≤ fuel) (done : List Char) :
    fillFrom data fuel done cs = done.reverse ++ filled data cs := by
  induction hlength : cs.length using Nat.strongRecOn generalizing cs fuel done with
  | _ n ih =>
      subst hlength
      match cs, fuel with
      | [], fuel => cases fuel <;> simp [fillFrom, filled]
      | c :: cs, fuel + 1 =>
          have hshort : cs.length ≤ fuel := Nat.le_of_succ_le_succ hfuel
          rw [filled, List.length_cons, fillFrom_succ, fillFrom_succ]
          cases hleading : leading? (c :: cs) with
          | none =>
              have hless : cs.length < (c :: cs).length := Nat.lt_succ_self _
              simp only [ih _ hless hshort _ rfl, ih _ hless (Nat.le_refl _) _ rfl]
              simp
          | some found =>
              obtain ⟨path, rest⟩ := found
              have hless := length_lt_of_leading? hleading
              have hrest : rest.length ≤ cs.length := Nat.le_of_lt_succ hless
              simp only [ih _ hless (hrest.trans hshort) _ rfl, ih _ hless hrest _ rfl]
              simp

theorem filled_nil (data : Json) : filled data [] = [] := rfl

theorem filled_cons (data : Json) (c : Char) (cs : List Char) :
    filled data (c :: cs) =
      match leading? (c :: cs) with
      | some (path, rest) => filling data path ++ filled data rest
      | none => c :: filled data cs := by
  rw [filled, List.length_cons, fillFrom_succ]
  cases hleading : leading? (c :: cs) with
  | none => simp [fillFrom_eq (Nat.le_refl cs.length)]
  | some found =>
      obtain ⟨path, rest⟩ := found
      have hless := length_lt_of_leading? hleading
      simp [fillFrom_eq (Nat.le_of_lt_succ hless)]

theorem filled_cons_of_none (h : leading? (c :: cs) = none) :
    filled data (c :: cs) = c :: filled data cs := by
  rw [filled_cons, h]

theorem filled_marked_append (hne : path ≠ []) (hpath : '\x7d' ∉ path) (rest : List Char) :
    filled data (marked path ++ rest) = filling data path ++ filled data rest := by
  have hleading : leading? (marked path ++ rest) = some (path, rest) :=
    leading?_eq_some_iff.mpr ⟨rfl, hne, hpath⟩
  rw [marked, List.cons_append, List.cons_append] at hleading ⊢
  rw [filled_cons, hleading]

theorem filled_append (h : '\x7b' ∉ cs) (rest : List Char) :
    filled data (cs ++ rest) = cs ++ filled data rest := by
  induction cs with
  | nil => rfl
  | cons c cs ih =>
      obtain ⟨hc, hcs⟩ := List.ne_and_not_mem_of_not_mem_cons h
      rw [List.cons_append, filled_cons_of_none (leading?_of_ne hc.symm _), ih hcs]
      rfl

theorem filled_of_not_occurs (h : ∀ path, ¬ Occurs path cs) : filled data cs = cs := by
  induction cs with
  | nil => rfl
  | cons c cs ih =>
      cases hleading : leading? (c :: cs) with
      | none =>
          rw [filled_cons_of_none hleading, ih fun path hlater => h path (.later hleading hlater)]
      | some found => exact absurd (.here hleading) (h found.1)

end FlowEngine.Template
