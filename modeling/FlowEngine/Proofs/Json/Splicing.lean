import FlowEngine.Proofs.Json.Compact
import FlowEngine.Proofs.Json.Filling
import FlowEngine.Proofs.Template.Settled
/-!
# `FlowEngine.Proofs.Json.Splicing` — a value given as its text, and its text filled

A template that is the compact text of a value is filled as a text, and what that gives is the
compact text of a value again (`Json.exists_fill_compact`).  This value differs from the given one in
texts only, and filling the texts of either gives the same.

Nothing is asked of placeholders that lead nowhere: one may stand in a name, and it may run past the
quote that ends a text, over whatever follows.  So a text may begin inside a placeholder that began
before it, and the induction carries that (`Continues`): the rest of such a placeholder stays, and
since a placeholder ends at the first closing brace, the ones that a text has by itself are found
behind it, or are part of what stays.  Which of them are filled with the whole is therefore open, and
the others are filled when the texts are filled again.
-/

namespace FlowEngine

open Template

namespace Document

open Json (escape escaped)

variable {data : Json} {b c : Char} {cs path rest more out : List Char}

/-! ## Escapes -/

theorem escape_of_plain (h : Plain c) : escape c = [c] := by
  have hcode : ∀ {n : Nat}, n < 32 → c.toNat ≠ n := by
    have hprinted := h.printed
    omega
  have hne : ∀ {d : Char}, d.toNat < 32 → c ≠ d := by
    rintro d hd rfl
    exact hcode hd rfl
  rw [escape, if_neg h.not_quote, if_neg h.not_backslash, if_neg (hne (by decide)),
    if_neg (hne (by decide)), if_neg (hne (by decide)), if_neg (hcode (by decide)),
    if_neg (hcode (by decide)), if_neg (Nat.not_lt.mpr h.printed)]

theorem mem_escape_of_not_plain (h : ¬ Plain c) : '\\' ∈ escape c := by
  unfold Json.escape
  split_ifs with hquote hbackslash _ _ _ _ _ hcontrol
  case neg => exact absurd ⟨hquote, hbackslash, by omega⟩ h
  all_goals exact List.mem_cons_self

theorem escaped_of_plain (h : ∀ c ∈ cs, Plain c) : escaped cs = cs := by
  induction cs with
  | nil => rfl
  | cons c cs ih =>
      obtain ⟨hc, hcs⟩ := List.forall_mem_cons.mp h
      rw [Json.escaped_cons, escape_of_plain hc, ih hcs]
      rfl

theorem plain_of_escaped (h : ∀ d ∈ escaped cs, Plain d) : ∀ d ∈ cs, Plain d := by
  intro d hd
  by_contra hnot
  have hmem : '\\' ∈ escaped cs := List.mem_flatMap.mpr ⟨d, hd, mem_escape_of_not_plain hnot⟩
  exact (h _ hmem).not_backslash rfl

/-! ## Braces between escapes -/

theorem plain_of_brace (hb : b = '\x7b' ∨ b = '\x7d') : Plain b := by
  rcases hb with rfl | rfl
  · exact plain_brace.1
  · exact plain_brace.2

/-- A brace spells nothing but itself. -/
theorem Spells.mem_of_brace {body text : List Char} (h : Spells body text)
    (hb : b = '\x7b' ∨ b = '\x7d') (hmem : b ∈ body) : b ∈ text := by
  induction h with
  | nil => exact hmem
  | plain _ _ ih =>
      rcases List.mem_cons.mp hmem with rfl | hmem
      · exact List.mem_cons_self
      · exact .tail _ (ih hmem)
  | @escape e c body _ hchar _ ih =>
      have hmem : b ∈ ['\\', e] ++ body := hmem
      exact .tail _ (ih ((List.mem_append.mp hmem).resolve_left (not_mem_escape hb hchar)))
  | @unit x y z w _ body _ hhex _ _ _ ih =>
      have hmem : b ∈ ['\\', 'u', x, y, z, w] ++ body := hmem
      exact .tail _ (ih ((List.mem_append.mp hmem).resolve_left (not_mem_unit hb hhex)))
  | @pair x y z w x' y' z' w' _ _ body _ hhex _ hhex' _ _ ih =>
      have hmem : b ∈ ['\\', 'u', x, y, z, w] ++ (['\\', 'u', x', y', z', w'] ++ body) := hmem
      have hmem := (List.mem_append.mp hmem).resolve_left (not_mem_unit hb hhex)
      exact .tail _ (ih ((List.mem_append.mp hmem).resolve_left (not_mem_unit hb hhex')))

theorem not_mem_escape_of_ne (hb : b = '\x7b' ∨ b = '\x7d') (hne : b ≠ c) : b ∉ escape c :=
  fun hmem => hne (List.mem_singleton.mp ((spells_escape c).mem_of_brace hb hmem))

theorem mem_escaped_iff (hb : b = '\x7b' ∨ b = '\x7d') : b ∈ escaped cs ↔ b ∈ cs := by
  refine ⟨(spells_escaped cs).mem_of_brace hb, fun hmem => ?_⟩
  have hself : b ∈ escape b := by
    rw [escape_of_plain (plain_of_brace hb)]
    exact List.mem_singleton_self b
  exact List.mem_flatMap.mpr ⟨b, hmem, hself⟩

theorem escaped_eq_append_cons (hb : b = '\x7b' ∨ b = '\x7d') {front back : List Char}
    (h : escaped cs = front ++ b :: back) :
    ∃ front' back', cs = front' ++ b :: back' ∧ front = escaped front' ∧ back = escaped back' := by
  induction cs generalizing front with
  | nil => simp [escaped] at h
  | cons c cs ih =>
      rw [Json.escaped_cons] at h
      by_cases hc : b = c
      · subst hc
        rw [escape_of_plain (plain_of_brace hb)] at h
        cases front with
        | nil => exact ⟨[], cs, rfl, rfl, (List.cons.inj h).2.symm⟩
        | cons d front =>
            obtain ⟨rfl, hrest⟩ := List.cons.inj h
            obtain ⟨front', back', rfl, rfl, rfl⟩ := ih hrest
            refine ⟨b :: front', back', rfl, ?_, rfl⟩
            rw [Json.escaped_cons, escape_of_plain (plain_of_brace hb)]
            rfl
      · obtain ⟨left, rfl, hleft⟩ :=
          exists_append_of_not_mem (escape c) (not_mem_escape_of_ne hb hc) h
        obtain ⟨front', back', rfl, rfl, rfl⟩ := ih hleft
        exact ⟨c :: front', back', rfl, (Json.escaped_cons c front').symm, rfl⟩

theorem escaped_marked (path : List Char) : escaped (marked path) = marked (escaped path) := by
  obtain ⟨hopen, hclose⟩ := plain_brace
  simp only [marked, List.cons_append, Json.escaped_cons, Json.escaped_append,
    escape_of_plain hopen, escape_of_plain hclose, List.nil_append]
  rfl

theorem escaped_ne_nil (h : cs ≠ []) : escaped cs ≠ [] := by
  intro hnil
  have hspells := spells_escaped cs
  rw [hnil] at hspells
  cases hspells
  exact h rfl

theorem leading?_escaped_of_some (h : leading? cs = some (path, rest)) :
    leading? (escaped cs) = some (escaped path, escaped rest) := by
  obtain ⟨rfl, hne, hpath⟩ := leading?_eq_some_iff.mp h
  refine leading?_eq_some_iff.mpr ⟨?_, escaped_ne_nil hne, ?_⟩
  · rw [Json.escaped_append, escaped_marked]
  · exact fun hmem => hpath ((mem_escaped_iff (.inr rfl)).mp hmem)

/-- Escaping begins no placeholder. -/
theorem leading?_escaped_of_none (h : leading? cs = none) : leading? (escaped cs) = none := by
  by_contra hsome
  obtain ⟨⟨path, rest⟩, hsome⟩ := Option.ne_none_iff_exists'.mp hsome
  obtain ⟨heq, hne, hpath⟩ := leading?_eq_some_iff.mp hsome
  have hopen : escaped cs =
      [] ++ '\x7b' :: ([] ++ '\x7b' :: (path ++ '\x7d' :: ([] ++ '\x7d' :: rest))) := by
    simpa [marked] using heq
  -- All four braces are braces of the text.
  obtain ⟨none₁, cs₁, rfl, hnone₁, h₁⟩ := escaped_eq_append_cons (.inl rfl) hopen
  obtain ⟨none₂, cs₂, rfl, hnone₂, h₂⟩ := escaped_eq_append_cons (.inl rfl) h₁.symm
  obtain ⟨name, cs₃, rfl, rfl, h₃⟩ := escaped_eq_append_cons (.inr rfl) h₂.symm
  obtain ⟨none₃, cs₄, rfl, hnone₃, -⟩ := escaped_eq_append_cons (.inr rfl) h₃.symm
  have hnil : ∀ {ds : List Char}, [] = escaped ds → ds = [] := fun heq =>
    by_contra fun hds => escaped_ne_nil hds heq.symm
  obtain rfl := hnil hnone₁
  obtain rfl := hnil hnone₂
  obtain rfl := hnil hnone₃
  have hname : name ≠ [] := by
    rintro rfl
    exact hne rfl
  have hleads : leading? (marked name ++ cs₄) = some (name, cs₄) :=
    leading?_eq_some_iff.mpr ⟨rfl, hname, fun hmem => hpath ((mem_escaped_iff (.inr rfl)).mpr hmem)⟩
  simp only [marked, List.cons_append, List.append_assoc, List.nil_append] at hleads h
  rw [hleads] at h
  cases h

theorem leading?_brace_escaped_of_none (h : leading? ('\x7b' :: cs) = none) :
    leading? ('\x7b' :: escaped cs) = none := by
  have hescaped := leading?_escaped_of_none h
  rwa [Json.escaped_cons, escape_of_plain plain_brace.1] at hescaped

/-! ## Filling from within a placeholder -/

/-- The end of a placeholder. -/
inductive IsTail : List Char → Prop where
  | done : IsTail []
  | last : IsTail ['\x7d']
  | inside {path : List Char} : '\x7d' ∉ path → IsTail (path ++ ['\x7d', '\x7d'])

theorem IsTail.of_cons (h : IsTail (c :: cs)) : IsTail cs := by
  generalize hwhole : c :: cs = whole at h
  cases h with
  | done => cases hwhole
  | last =>
      obtain ⟨-, rfl⟩ := List.cons.inj hwhole
      exact .done
  | @inside path hpath =>
      cases path with
      | nil =>
          obtain ⟨-, rfl⟩ := List.cons.inj hwhole
          exact .last
      | cons d path =>
          obtain ⟨-, rfl⟩ := List.cons.inj hwhole
          exact .inside (List.not_mem_of_not_mem_cons hpath)

/-- Each placeholder that leads to a value, and what is put in its place, means the same between
quotes as outside of them. -/
def Verbatim (data : Json) (cs : List Char) : Prop :=
  ∀ path, Occurs path cs → ∀ v, resolve? data (Text.trim (String.ofList path)) = some v →
    (∀ c ∈ path, Plain c) ∧ ∀ c ∈ (Json.render v).toList, Plain c

/-- The rest of a template, and what it becomes.  It may begin inside a placeholder that leads
nowhere, which stays as it is. -/
def Continues (data : Json) (cs out : List Char) : Prop :=
  ∃ held rest, cs = held ++ rest ∧ IsTail held ∧ Verbatim data rest ∧ out = held ++ filled data rest

theorem continues_filled (h : Verbatim data cs) : Continues data cs (filled data cs) :=
  ⟨[], cs, rfl, .done, h, rfl⟩

theorem Continues.eq_nil (h : Continues data [] out) : out = [] := by
  obtain ⟨held, rest, hcs, -, -, rfl⟩ := h
  obtain ⟨rfl, rfl⟩ := List.append_eq_nil_iff.mp hcs.symm
  rfl

/-- A character stays, unless a placeholder of plain characters begins with it. -/
theorem Continues.step (h : Continues data (c :: cs) out)
    (hleading : ∀ path rest, leading? (c :: cs) = some (path, rest) → ∃ d ∈ path, ¬ Plain d) :
    ∃ out', out = c :: out' ∧ Continues data cs out' := by
  obtain ⟨held, rest, hcs, htail, hverbatim, rfl⟩ := h
  cases held with
  | cons d held =>
      obtain ⟨rfl, rfl⟩ := List.cons.inj hcs
      exact ⟨_, rfl, held, rest, rfl, htail.of_cons, hverbatim, rfl⟩
  | nil =>
      obtain rfl : c :: cs = rest := hcs
      cases hfound : leading? (c :: cs) with
      | none =>
          refine ⟨filled data cs, filled_cons_of_none hfound, ?_⟩
          exact continues_filled fun path hpath => hverbatim path (.later hfound hpath)
      | some found =>
          obtain ⟨path, more⟩ := found
          obtain ⟨d, hd, hnot⟩ := hleading path more hfound
          have hnone : resolve? data (Text.trim (String.ofList path)) = none := by
            cases hvalue : resolve? data (Text.trim (String.ofList path)) with
            | none => rfl
            | some v => exact absurd ((hverbatim path (.here hfound) v hvalue).1 d hd) hnot
          obtain ⟨heq, hne, hpath⟩ := leading?_eq_some_iff.mp hfound
          have hinside : '\x7d' ∉ '\x7b' :: path :=
            List.not_mem_cons_of_ne_of_not_mem (by decide) hpath
          have hmarked : ∀ rest, marked path ++ rest =
              '\x7b' :: (('\x7b' :: path ++ ['\x7d', '\x7d']) ++ rest) := fun _ => rfl
          rw [hmarked] at heq
          obtain ⟨rfl, rfl⟩ := List.cons.inj heq
          refine ⟨_, ?_, _, more, rfl, .inside hinside,
            fun path hpath => hverbatim path (.behind hfound hpath), rfl⟩
          rw [List.nil_append, ← hmarked, ← hmarked, filled_marked_append hne hpath,
            filling_of_none hnone]

theorem Continues.step_of_none (h : Continues data (c :: cs) out)
    (hleading : leading? (c :: cs) = none) : ∃ out', out = c :: out' ∧ Continues data cs out' :=
  h.step fun _ _ hsome => nomatch hleading.symm.trans hsome

theorem Continues.append {front : List Char} (h : Continues data (front ++ cs) out)
    (hfront : '\x7b' ∉ front) : ∃ out', out = front ++ out' ∧ Continues data cs out' := by
  induction front generalizing out with
  | nil => exact ⟨out, rfl, h⟩
  | cons c front ih =>
      obtain ⟨hc, hfront⟩ := List.ne_and_not_mem_of_not_mem_cons hfront
      obtain ⟨behind, rfl, hbehind⟩ := h.step_of_none (leading?_of_ne hc.symm _)
      obtain ⟨out', rfl, hout⟩ := ih hbehind hfront
      exact ⟨out', rfl, hout⟩

/-- A whole placeholder stays, or it leads to a value and is filled. -/
theorem Continues.placeholder (h : Continues data (marked path ++ cs) out) (hne : path ≠ [])
    (hpath : '\x7d' ∉ path) : ∃ out', Continues data cs out' ∧
      (out = marked path ++ out' ∨ ∃ v, resolve? data (Text.trim (String.ofList path)) = some v ∧
        (∀ c ∈ path, Plain c) ∧ (∀ c ∈ (Json.render v).toList, Plain c) ∧
        out = (Json.render v).toList ++ out') := by
  obtain ⟨held, rest, hcs, htail, hverbatim, rfl⟩ := h
  have hleading : leading? (marked path ++ cs) = some (path, cs) :=
    leading?_eq_some_iff.mpr ⟨rfl, hne, hpath⟩
  cases htail with
  | done =>
      obtain rfl : marked path ++ cs = rest := hcs
      refine ⟨filled data cs, continues_filled fun path hpath =>
        hverbatim path (.behind hleading hpath), ?_⟩
      rw [List.nil_append, filled_marked_append hne hpath]
      cases hvalue : resolve? data (Text.trim (String.ofList path)) with
      | none => exact .inl (by rw [filling_of_none hvalue])
      | some v =>
          obtain ⟨hplain, hplain'⟩ := hverbatim path (.here hleading) v hvalue
          exact .inr ⟨v, rfl, hplain, hplain', by rw [filling_of_some hvalue]⟩
  | last => exact absurd (List.cons.inj hcs).1 (by decide)
  | @inside front hfront =>
      -- Both end at the first closing brace.
      have hends : ('\x7b' :: '\x7b' :: path) ++ '\x7d' :: '\x7d' :: cs =
          front ++ '\x7d' :: '\x7d' :: rest := by
        simpa [marked] using hcs
      have hinside : '\x7d' ∉ '\x7b' :: '\x7b' :: path := by simpa using hpath
      obtain ⟨left, rfl, hleft⟩ := exists_append_of_not_mem _ hinside hends
      cases left with
      | cons d left =>
          obtain ⟨rfl, -⟩ := List.cons.inj hleft
          exact absurd (List.mem_append_right _ List.mem_cons_self) hfront
      | nil =>
          obtain rfl : cs = rest := by simpa using hleft
          refine ⟨filled data cs, continues_filled hverbatim, .inl ?_⟩
          simp [marked]

/-! ## Texts -/

/-- Between the text and what becomes of it, some placeholders have been filled, but for those that
lead nowhere as they are written. -/
structure Respells (data : Json) (s s' : List Char) : Prop where
  fills : FillsSome data s s'
  stays : (∀ path, Occurs path (escaped s) →
    resolve? data (Text.trim (String.ofList path)) = none) → s' = s

/-- Behind a character with which no placeholder begins, filling goes on. -/
theorem Respells.cons {s s' : List Char} (h : Respells data s s')
    (hleading : leading? (c :: s) = none) : Respells data (c :: s) (c :: s') where
  fills := .passed hleading h.fills
  stays := by
    intro hnone
    refine congrArg _ (h.stays fun path hpath => hnone path ?_)
    rw [Json.escaped_cons]
    by_cases hc : '\x7b' = c
    · subst hc
      rw [escape_of_plain plain_brace.1]
      exact .later (leading?_brace_escaped_of_none hleading) hpath
    · exact (occurs_append_iff (not_mem_escape_of_ne (.inl rfl) hc)).mpr hpath

/-- A character with which no placeholder begins stays between quotes. -/
theorem Continues.escape_append {s : List Char}
    (h : Continues data (escape c ++ (escaped s ++ '"' :: rest)) out)
    (hleading : leading? (c :: s) = none) :
    ∃ out', out = escape c ++ out' ∧ Continues data (escaped s ++ '"' :: rest) out' := by
  by_cases hc : '\x7b' = c
  · subst hc
    have hescaped := leading?_brace_escaped_of_none hleading
    rw [escape_of_plain plain_brace.1] at h ⊢
    refine h.step fun path more hsome => ?_
    -- A placeholder that runs past the quote has the quote in it.
    by_contra hplain
    have hplain : ∀ d ∈ path, Plain d := fun d hd => by_contra fun hnot => hplain ⟨d, hd, hnot⟩
    obtain ⟨heq, hne, hpath⟩ := leading?_eq_some_iff.mp hsome
    have hquote : '"' ∉ marked path := by
      intro hmem
      have hmem : '"' ∈ path := by simpa [marked] using hmem
      exact (hplain _ hmem).not_quote rfl
    have heq : marked path ++ more = ('\x7b' :: escaped s) ++ '"' :: rest := heq.symm
    obtain ⟨left, hleft, -⟩ := exists_append_of_not_mem _ hquote heq
    rw [hleft, leading?_eq_some_iff.mpr ⟨rfl, hne, hpath⟩] at hescaped
    cases hescaped
  · exact h.append (not_mem_escape_of_ne (.inl rfl) hc)

/-- The placeholders of a text are filled between its quotes, some of them, and filling goes on
behind it. -/
theorem Continues.text {s : List Char} (h : Continues data (escaped s ++ '"' :: rest) out) :
    ∃ s' out', out = escaped s' ++ '"' :: out' ∧ Continues data rest out' ∧ Respells data s s' := by
  induction hlength : s.length using Nat.strongRecOn generalizing s out with
  | _ n ih =>
      subst hlength
      cases s with
      | nil =>
          obtain ⟨out', rfl, hout⟩ := h.step_of_none (leading?_of_ne (by decide) _)
          exact ⟨[], out', rfl, hout, .nil, fun _ => rfl⟩
      | cons c s =>
          cases hleading : leading? (c :: s) with
          | none =>
              rw [Json.escaped_cons, List.append_assoc] at h
              obtain ⟨behind, rfl, hbehind⟩ := h.escape_append hleading
              obtain ⟨s', out', rfl, hout, hs'⟩ := ih _ (Nat.lt_succ_self _) hbehind rfl
              refine ⟨c :: s', out', ?_, hout, hs'.cons hleading⟩
              rw [Json.escaped_cons, List.append_assoc]
          | some found =>
              obtain ⟨path, more⟩ := found
              have hless := length_lt_of_leading? hleading
              have hescaped := leading?_escaped_of_some hleading
              obtain ⟨-, hne, hpath⟩ := leading?_eq_some_iff.mp hescaped
              rw [(leading?_eq_some_iff.mp hescaped).1, List.append_assoc] at h
              obtain ⟨behind, hbehind, hout⟩ := h.placeholder hne hpath
              obtain ⟨s', out', rfl, hrest, hs'⟩ := ih _ hless hbehind rfl
              rcases hout with rfl | ⟨v, hvalue, hplain, hplain', rfl⟩
              · refine ⟨marked path ++ s', out', ?_, hrest, .kept hleading hs'.fills, ?_⟩
                · rw [Json.escaped_append, escaped_marked, List.append_assoc]
                · intro hnone
                  rw [(leading?_eq_some_iff.mp hleading).1,
                    hs'.stays fun path hpath => hnone path (.behind hescaped hpath)]
              · have hself := escaped_of_plain (plain_of_escaped hplain)
                rw [hself] at hvalue
                refine ⟨(Json.render v).toList ++ s', out', ?_, hrest,
                  .filled hleading hvalue hs'.fills, ?_⟩
                · rw [Json.escaped_append, escaped_of_plain hplain', List.append_assoc]
                · intro hnone
                  have hnowhere := hnone _ (.here hescaped)
                  rw [hself] at hnowhere
                  exact nomatch hnowhere.symm.trans hvalue

theorem Continues.quoted {s : List Char}
    (h : Continues data ('"' :: (escaped s ++ '"' :: rest)) out) :
    ∃ s' out', out = '"' :: (escaped s' ++ '"' :: out') ∧ Continues data rest out' ∧
      Respells data s s' := by
  obtain ⟨behind, rfl, hbehind⟩ := h.step_of_none (leading?_of_ne (by decide) _)
  obtain ⟨s', out', rfl, hout, hs'⟩ := hbehind.text
  exact ⟨s', out', rfl, hout, hs'⟩

/-- A name whose placeholders lead nowhere stays, and so does the colon behind it. -/
theorem Continues.name {name : List Char}
    (h : Continues data ('"' :: (escaped name ++ '"' :: ':' :: rest)) out)
    (hname : ∀ path, Occurs path (escaped name) →
      resolve? data (Text.trim (String.ofList path)) = none) :
    ∃ out', out = '"' :: (escaped name ++ '"' :: ':' :: out') ∧ Continues data rest out' := by
  obtain ⟨name', behind, rfl, hbehind, hname'⟩ := h.quoted
  obtain rfl := hname'.stays hname
  obtain ⟨out', rfl, hout⟩ := hbehind.step_of_none (leading?_of_ne (by decide) _)
  exact ⟨out', rfl, hout⟩

/-! ## Values -/

/-- What filling the compact text asks of the values inside: that names lead nowhere, that it does
not matter which placeholders of a text are filled first, and that numbers are made of numerals. -/
structure Spliceable (data : Json) (parts : List Json) : Prop where
  names : ∀ members, .object members ∈ parts → ∀ member ∈ members, ∀ path,
    Occurs path (escaped member.1.toList) →
      resolve? data (Text.trim (String.ofList path)) = none
  texts : ∀ s, .string s ∈ parts → Settled data s.toList
  numbers : ∀ n, .number n ∈ parts → Json.parse? n.text = some (.number n)

theorem Spliceable.mono {parts parts' : List Json} (h : Spliceable data parts)
    (hparts : ∀ x ∈ parts', x ∈ parts) : Spliceable data parts' where
  names members hmem := h.names members (hparts _ hmem)
  texts s hmem := h.texts s (hparts _ hmem)
  numbers n hmem := h.numbers n (hparts _ hmem)

/-- The values differ in texts only, and once filled not even in these. -/
structure Refills (data v v' : Json) : Prop where
  outline : v'.outline = v.outline
  filled : fillValue data v' = fillValue data v

theorem Refills.rfl {v : Json} : Refills data v v := ⟨Eq.refl _, Eq.refl _⟩

theorem Refills.items_cons {x x' : Json} {xs xs' : List Json} (hx : Refills data x x')
    (hxs : Refills data (.array xs) (.array xs')) :
    Refills data (.array (x :: xs)) (.array (x' :: xs')) := by
  have houtline : Json.outlineItems xs' = Json.outlineItems xs := Json.array.inj hxs.outline
  have hfilled : fillItems data xs' = fillItems data xs := Json.array.inj hxs.filled
  constructor
  · simp only [Json.outline, Json.outlineItems, hx.outline, houtline]
  · simp only [fillValue, fillItems, hx.filled, hfilled]

theorem Refills.members_cons {name : String} {x x' : Json} {xs xs' : Json.Members}
    (hx : Refills data x x') (hxs : Refills data (.object xs) (.object xs')) :
    Refills data (.object ((name, x) :: xs)) (.object ((name, x') :: xs')) := by
  have houtline : Json.outlineMembers xs' = Json.outlineMembers xs := Json.object.inj hxs.outline
  have hfilled : fillMembers data xs' = fillMembers data xs := Json.object.inj hxs.filled
  constructor
  · simp only [Json.outline, Json.outlineMembers, hx.outline, houtline]
  · simp only [fillValue, fillMembers, hx.filled, hfilled]

theorem Refills.text {s s' : String} (h : Respells data s.toList s'.toList)
    (hsettled : Settled data s.toList) : Refills data (.string s) (.string s') := by
  refine ⟨Eq.refl _, congrArg Json.string (String.toList_inj.mp ?_)⟩
  rw [toList_fill, toList_fill, hsettled _ h.fills]

theorem Refills.exists_item {x : Json} {xs items : List Json}
    (h : Refills data (.array (x :: xs)) (.array items)) : ∃ x' xs', items = x' :: xs' := by
  cases items with
  | nil => cases h.outline
  | cons x' xs' => exact ⟨x', xs', Eq.refl _⟩

theorem Refills.exists_member {member : String × Json} {xs members : Json.Members}
    (h : Refills data (.object (member :: xs)) (.object members)) :
    ∃ member' xs', members = member' :: xs' := by
  cases members with
  | nil => cases h.outline
  | cons member' xs' => exact ⟨member', xs', Eq.refl _⟩

theorem not_mem_number {s : String} {n : Number} (h : Json.parse? s = some (.number n)) :
    '\x7b' ∉ s.toList := by
  obtain ⟨front, numeral, gap, hs, hfront, hgap, -, hnumeric, -⟩ := exists_numeral h
  rw [hs, List.mem_append, List.mem_append]
  rintro (hmem | hmem | hmem)
  · exact not_mem_gaps hfront hmem
  · exact ne_brace_of_isNumeric (hnumeric _ hmem) rfl
  · exact not_mem_gaps hgap hmem

/-- Filled, the text of the value is the text of a value that differs in texts only. -/
def Splices (data v : Json) : Prop :=
  ∀ rest out, Continues data (v.compact.toList ++ rest) out →
    ∃ v' out', out = v'.compact.toList ++ out' ∧ Continues data rest out' ∧ Refills data v v'

/-- The same of the items of an array, up to the bracket behind them. -/
def SplicesItems (data : Json) (items : List Json) : Prop :=
  ∀ rest out, Continues data ((Json.compactItems items).toList ++ ']' :: rest) out →
    ∃ items' out', out = (Json.compactItems items').toList ++ ']' :: out' ∧
      Continues data rest out' ∧ Refills data (.array items) (.array items')

/-- The same of the members of an object, up to the brace behind them. -/
def SplicesMembers (data : Json) (members : Json.Members) : Prop :=
  ∀ rest out, Continues data ((Json.compactMembers members).toList ++ '\x7d' :: rest) out →
    ∃ members' out', out = (Json.compactMembers members').toList ++ '\x7d' :: out' ∧
      Continues data rest out' ∧ Refills data (.object members) (.object members')

theorem splices_of_not_mem {v : Json} (h : '\x7b' ∉ v.compact.toList) : Splices data v := by
  intro rest out hcontinues
  obtain ⟨out', rfl, hout⟩ := hcontinues.append h
  exact ⟨v, out', rfl, hout, .rfl⟩

theorem splices_number {n : Number} (h : Json.parse? n.text = some (.number n)) :
    Splices data (.number n) := by
  refine splices_of_not_mem ?_
  rw [Json.compact]
  exact not_mem_number h

theorem splices_string {s : String} (h : Settled data s.toList) : Splices data (.string s) := by
  intro rest out hcontinues
  rw [Json.compact, Json.toList_quoted, List.cons_append, List.append_assoc] at hcontinues
  obtain ⟨s', out', rfl, hout, hs'⟩ := hcontinues.quoted
  rw [← String.toList_ofList (l := s')] at hs'
  refine ⟨.string (String.ofList s'), out', ?_, hout, .text hs' h⟩
  simp [Json.compact, Json.toList_quoted]

theorem splices_array {items : List Json} (h : SplicesItems data items) :
    Splices data (.array items) := by
  intro rest out hcontinues
  rw [Json.toList_compact_array, List.cons_append, List.append_assoc] at hcontinues
  obtain ⟨behind, rfl, hbehind⟩ := hcontinues.step_of_none (leading?_of_ne (by decide) _)
  obtain ⟨items', out', rfl, hout, hitems⟩ := h _ _ hbehind
  exact ⟨.array items', out', by simp [Json.toList_compact_array], hout, hitems⟩

/-- No placeholder begins with the brace that opens an object. -/
theorem leading?_compact_object (members : Json.Members) (rest : List Char) :
    leading? ('\x7b' :: ((Json.compactMembers members).toList ++ '\x7d' :: rest)) = none := by
  refine leading?_of_head?_ne ?_
  match members with
  | [] => simp [Json.compactMembers]
  | [(name, x)] => simp [Json.toList_compactMembers_singleton]
  | (name, x) :: member :: members => simp [Json.toList_compactMembers_cons]

theorem splices_object {members : Json.Members} (h : SplicesMembers data members) :
    Splices data (.object members) := by
  intro rest out hcontinues
  rw [Json.toList_compact_object, List.cons_append, List.append_assoc] at hcontinues
  obtain ⟨behind, rfl, hbehind⟩ := hcontinues.step_of_none (leading?_compact_object members rest)
  obtain ⟨members', out', rfl, hout, hmembers⟩ := h _ _ hbehind
  exact ⟨.object members', out', by simp [Json.toList_compact_object], hout, hmembers⟩

theorem splicesItems_nil : SplicesItems data [] := by
  intro rest out hcontinues
  obtain ⟨out', rfl, hout⟩ := hcontinues.step_of_none (leading?_of_ne (by decide) _)
  exact ⟨[], out', rfl, hout, .rfl⟩

theorem splicesItems_cons {x : Json} {xs : List Json} (hx : Splices data x)
    (hxs : SplicesItems data xs) : SplicesItems data (x :: xs) := by
  intro rest out hcontinues
  cases xs with
  | nil =>
      obtain ⟨x', behind, rfl, hbehind, hx'⟩ := hx _ _ hcontinues
      obtain ⟨out', rfl, hout⟩ := hbehind.step_of_none (leading?_of_ne (by decide) _)
      exact ⟨[x'], out', rfl, hout, hx'.items_cons .rfl⟩
  | cons y ys =>
      rw [Json.toList_compactItems_cons, List.append_assoc, List.cons_append] at hcontinues
      obtain ⟨x', comma, rfl, hcomma, hx'⟩ := hx _ _ hcontinues
      obtain ⟨behind, rfl, hbehind⟩ := hcomma.step_of_none (leading?_of_ne (by decide) _)
      obtain ⟨items', out', rfl, hout, hys'⟩ := hxs _ _ hbehind
      obtain ⟨y', ys', rfl⟩ := hys'.exists_item
      refine ⟨x' :: y' :: ys', out', ?_, hout, hx'.items_cons hys'⟩
      simp [Json.toList_compactItems_cons]

theorem splicesMembers_nil : SplicesMembers data [] := by
  intro rest out hcontinues
  obtain ⟨out', rfl, hout⟩ := hcontinues.step_of_none (leading?_of_ne (by decide) _)
  exact ⟨[], out', rfl, hout, .rfl⟩

theorem splicesMembers_cons {name : String} {x : Json} {xs : Json.Members}
    (hname : ∀ path, Occurs path (escaped name.toList) →
      resolve? data (Text.trim (String.ofList path)) = none)
    (hx : Splices data x) (hxs : SplicesMembers data xs) :
    SplicesMembers data ((name, x) :: xs) := by
  intro rest out hcontinues
  cases xs with
  | nil =>
      rw [Json.toList_compactMembers_singleton, List.cons_append, List.append_assoc] at hcontinues
      obtain ⟨value, rfl, hvalue⟩ := hcontinues.name hname
      obtain ⟨x', behind, rfl, hbehind, hx'⟩ := hx _ _ hvalue
      obtain ⟨out', rfl, hout⟩ := hbehind.step_of_none (leading?_of_ne (by decide) _)
      refine ⟨[(name, x')], out', ?_, hout, hx'.members_cons .rfl⟩
      simp [Json.toList_compactMembers_singleton]
  | cons member ms =>
      rw [Json.toList_compactMembers_cons] at hcontinues
      simp only [List.cons_append, List.append_assoc] at hcontinues
      obtain ⟨value, rfl, hvalue⟩ := hcontinues.name hname
      obtain ⟨x', comma, rfl, hcomma, hx'⟩ := hx _ _ hvalue
      obtain ⟨behind, rfl, hbehind⟩ := hcomma.step_of_none (leading?_of_ne (by decide) _)
      obtain ⟨members', out', rfl, hout, hxs'⟩ := hxs _ _ hbehind
      obtain ⟨⟨name', y'⟩, others, rfl⟩ := hxs'.exists_member
      refine ⟨(name, x') :: (name', y') :: others, out', ?_, hout, hx'.members_cons hxs'⟩
      simp [Json.toList_compactMembers_cons]

mutual

theorem Spliceable.splices (v : Json) (h : Spliceable data v.parts) : Splices data v := by
  match v with
  | .null => exact splices_of_not_mem (v := .null) (by decide)
  | .bool true => exact splices_of_not_mem (v := .bool true) (by decide)
  | .bool false => exact splices_of_not_mem (v := .bool false) (by decide)
  | .number n => exact splices_number (h.numbers n List.mem_cons_self)
  | .string s => exact splices_string (h.texts s List.mem_cons_self)
  | .array items =>
      exact splices_array (Spliceable.splicesItems items (h.mono fun x hx => .tail _ hx))
  | .object members =>
      exact splices_object (Spliceable.splicesMembers members
        (h.names members List.mem_cons_self) (h.mono fun x hx => .tail _ hx))

theorem Spliceable.splicesItems (items : List Json)
    (h : Spliceable data (Json.partsItems items)) : SplicesItems data items := by
  match items with
  | [] => exact splicesItems_nil
  | x :: xs =>
      exact splicesItems_cons
        (Spliceable.splices x (h.mono fun y hy => List.mem_append_left _ hy))
        (Spliceable.splicesItems xs (h.mono fun y hy => List.mem_append_right _ hy))

theorem Spliceable.splicesMembers (members : Json.Members)
    (hnames : ∀ member ∈ members, ∀ path, Occurs path (escaped member.1.toList) →
      resolve? data (Text.trim (String.ofList path)) = none)
    (h : Spliceable data (Json.partsMembers members)) : SplicesMembers data members := by
  match members with
  | [] => exact splicesMembers_nil
  | (name, x) :: xs =>
      obtain ⟨hname, hnames⟩ := List.forall_mem_cons.mp hnames
      exact splicesMembers_cons hname
        (Spliceable.splices x (h.mono fun y hy => List.mem_append_left _ hy))
        (Spliceable.splicesMembers xs hnames (h.mono fun y hy => List.mem_append_right _ hy))

end

end Document

/-! ## Outlines -/

namespace Json

mutual

theorem depth_outline (v : Json) : v.outline.depth = v.depth := by
  match v with
  | .null => rfl
  | .bool _ => rfl
  | .number _ => rfl
  | .string _ => rfl
  | .array items => rw [outline, depth, depth, depthItems_outline items]
  | .object members => rw [outline, depth, depth, depthMembers_outline members]

theorem depthItems_outline (items : List Json) :
    depthItems (outlineItems items) = depthItems items := by
  match items with
  | [] => rfl
  | x :: xs => rw [outlineItems, depthItems, depthItems, depth_outline x, depthItems_outline xs]

theorem depthMembers_outline (members : Members) :
    depthMembers (outlineMembers members) = depthMembers members := by
  match members with
  | [] => rfl
  | (_, x) :: xs =>
      rw [outlineMembers, depthMembers, depthMembers, depth_outline x, depthMembers_outline xs]

end

mutual

theorem parts_outline (v : Json) : v.outline.parts = v.parts.map outline := by
  match v with
  | .null => rfl
  | .bool _ => rfl
  | .number _ => rfl
  | .string _ => rfl
  | .array items => rw [outline, parts, parts, partsItems_outline items, List.map_cons, outline]
  | .object members =>
      rw [outline, parts, parts, partsMembers_outline members, List.map_cons, outline]

theorem partsItems_outline (items : List Json) :
    partsItems (outlineItems items) = (partsItems items).map outline := by
  match items with
  | [] => rfl
  | x :: xs =>
      rw [outlineItems, partsItems, partsItems, parts_outline x, partsItems_outline xs,
        List.map_append]

theorem partsMembers_outline (members : Members) :
    partsMembers (outlineMembers members) = (partsMembers members).map outline := by
  match members with
  | [] => rfl
  | (_, x) :: xs =>
      rw [outlineMembers, partsMembers, partsMembers, parts_outline x, partsMembers_outline xs,
        List.map_append]

end

theorem names_outlineMembers (members : Members) :
    (outlineMembers members).map Prod.fst = members.map Prod.fst := by
  induction members with
  | nil => rfl
  | cons member rest ih =>
      obtain ⟨name, x⟩ := member
      rw [outlineMembers, List.map_cons, List.map_cons, ih]

/-- The reader needs to know of a value what is left without its texts. -/
theorem Legible.of_outline_eq {room : Nat} {v v' : Json} (h : v.Legible room)
    (heq : v'.outline = v.outline) : v'.Legible room := by
  have hparts : ∀ x ∈ v'.parts, ∃ y ∈ v.parts, y.outline = x.outline := by
    intro x hx
    have hmem : x.outline ∈ v'.parts.map outline := List.mem_map_of_mem hx
    rw [← parts_outline, heq, parts_outline] at hmem
    exact List.mem_map.mp hmem
  refine ⟨?_, ?_, ?_⟩
  · rw [← depth_outline, heq, depth_outline]
    exact h.shallow
  · intro members hmem
    obtain ⟨y, hy, houtline⟩ := hparts _ hmem
    cases y with
    | object others =>
        have hnames := congrArg (List.map Prod.fst) (Json.object.inj houtline)
        rw [names_outlineMembers, names_outlineMembers] at hnames
        have hsorted := h.sorted others hy
        rwa [Sorted, hnames] at hsorted
    | _ => cases houtline
  · intro n hmem
    obtain ⟨y, hy, houtline⟩ := hparts _ hmem
    cases y with
    | number m =>
        obtain rfl : m = n := Json.number.inj houtline
        exact h.exact m hy
    | _ => cases houtline

end Json

open Document

/-- The compact text of a value is filled to the compact text of one that differs from it in texts
only, and once filled not even in these. -/
theorem Json.exists_fill_compact {data v : Json} (hverbatim : Verbatim data v.compact.toList)
    (hv : Spliceable data v.parts) :
    ∃ v', Template.fill v.compact data = v'.compact ∧ Refills data v v' := by
  have hstart := continues_filled hverbatim
  rw [← List.append_nil v.compact.toList] at hstart
  obtain ⟨v', out', hfilled, hnothing, hv'⟩ := hv.splices v _ _ hstart
  obtain rfl := hnothing.eq_nil
  refine ⟨v', String.toList_inj.mp ?_, hv'⟩
  rw [toList_fill]
  simpa using hfilled

end FlowEngine
