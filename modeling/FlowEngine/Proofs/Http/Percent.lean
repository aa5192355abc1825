import FlowEngine.Http.Target
import FlowEngine.Proofs.Text
/-!
# `FlowEngine.Proofs.Http.Percent` — what a text is once its escapes are decoded

A part of a URL is compared as bytes, with its escapes decoded (`meant`).  Escaping characters for a
path changes nothing about these (`meant_percentEncode`), and because the percent sign itself is not
escaped, the escapes that a text holds to begin with are decoded with the others.  So a text without
them stands for its own bytes (`meant_of_not_hasEscape`), and a text with one for fewer bytes than it
has (`length_meant_lt`).
-/

namespace FlowEngine

namespace Text

variable {c : Char} {cs more : List Char}

/-! ## Bytes of a text -/

theorem toBytes_cons (c : Char) (cs : List Char) :
    toBytes (c :: cs) = String.utf8EncodeChar c ++ toBytes cs :=
  List.flatMap_cons

theorem length_utf8EncodeChar_pos (c : Char) : 0 < (String.utf8EncodeChar c).length :=
  List.length_pos_iff.mpr String.utf8EncodeChar_ne_nil

theorem toBytes_injective (h : toBytes cs = toBytes more) : cs = more := by
  have hencoded : cs.utf8Encode = more.utf8Encode := congrArg List.toByteArray h
  have hdecoded := congrArg ByteArray.utf8Decode? hencoded
  rw [List.utf8Decode?_utf8Encode, List.utf8Decode?_utf8Encode] at hdecoded
  exact List.toArray_inj (Option.some.inj hdecoded)

theorem length_toBytes_le (h : cs.Sublist more) : (toBytes cs).length ≤ (toBytes more).length := by
  induction h with
  | slnil => exact Nat.le_refl _
  | cons c _ ih =>
      rw [toBytes_cons, List.length_append]
      omega
  | cons_cons c _ ih =>
      rw [toBytes_cons, toBytes_cons, List.length_append, List.length_append]
      omega

theorem eq_of_length_toBytes_le (h : cs.Sublist more)
    (hlength : (toBytes more).length ≤ (toBytes cs).length) : cs = more := by
  induction h with
  | slnil => rfl
  | cons c hsub _ =>
      have hle := length_toBytes_le hsub
      have hpos := length_utf8EncodeChar_pos c
      rw [toBytes_cons, List.length_append] at hlength
      omega
  | cons_cons c _ ih =>
      rw [toBytes_cons, toBytes_cons, List.length_append, List.length_append] at hlength
      rw [ih (by omega)]

end Text

namespace Http

open Text (toBytes toBytes_cons length_utf8EncodeChar_pos hexValue?)

/-! ## What a text stands for -/

/-- The bytes that a text stands for. -/
def meant (cs : List Char) : List UInt8 := percentDecode (fun _ => false) cs

/-- The text begins with two hexadecimal digits, so that a percent sign in front makes an escape. -/
def StartsDigits (cs : List Char) : Prop :=
  ∃ a b behind, cs = a :: b :: behind ∧ (hexValue? a).isSome = true ∧ (hexValue? b).isSome = true

/-- Somewhere in the text an escape is written. -/
def HasEscape (cs : List Char) : Prop :=
  ∃ before behind, cs = before ++ '%' :: behind ∧ StartsDigits behind

variable {a b c : Char} {cs rest : List Char}

theorem hasEscape_cons : HasEscape (c :: rest) ↔ c = '%' ∧ StartsDigits rest ∨ HasEscape rest := by
  constructor
  · rintro ⟨before, behind, hcs, hdigits⟩
    cases before with
    | nil =>
        obtain ⟨rfl, rfl⟩ := List.cons.inj hcs
        exact Or.inl ⟨rfl, hdigits⟩
    | cons d before =>
        obtain ⟨rfl, rfl⟩ := List.cons.inj hcs
        exact Or.inr ⟨before, behind, rfl, hdigits⟩
  · rintro (⟨rfl, hdigits⟩ | ⟨before, behind, rfl, hdigits⟩)
    · exact ⟨[], rest, rfl, hdigits⟩
    · exact ⟨c :: before, behind, rfl, hdigits⟩

theorem meant_of_ne (hc : c ≠ '%') (rest : List Char) :
    meant (c :: rest) = String.utf8EncodeChar c ++ meant rest := by
  rw [meant, percentDecode]
  · rw [toBytes_cons]
    simp [toBytes, meant]
  · rintro _ _ _ rfl
    exact absurd rfl hc

theorem meant_escape (ha : (hexValue? a).isSome = true) (hb : (hexValue? b).isSome = true) :
    ∃ byte, ∀ rest, meant ('%' :: a :: b :: rest) = byte :: meant rest := by
  obtain ⟨high, hhigh⟩ := Option.isSome_iff_exists.mp ha
  obtain ⟨low, hlow⟩ := Option.isSome_iff_exists.mp hb
  refine ⟨(16 * high + low).toUInt8, fun rest => ?_⟩
  rw [meant, percentDecode, hhigh, hlow]
  rfl

theorem meant_of_not_digits (h : ¬ StartsDigits rest) :
    meant ('%' :: rest) = String.utf8EncodeChar '%' ++ meant rest := by
  have hlone : ∀ cs, Text.toBytes ['%'] ++ meant cs = String.utf8EncodeChar '%' ++ meant cs :=
    fun cs => by rw [toBytes_cons]; simp [toBytes]
  match rest with
  | [] => rfl
  | [a] => exact hlone [a]
  | a :: b :: behind =>
      rw [meant, percentDecode]
      split
      · next high low hhigh hlow =>
          exact absurd ⟨a, b, behind, rfl, by rw [hhigh]; rfl, by rw [hlow]; rfl⟩ h
      · exact hlone (a :: b :: behind)

/-- A text read from the left: characters that stand for themselves, escapes, and percent signs that
make none. -/
@[elab_as_elim]
theorem meant_induction {motive : List Char → Prop} (nil : motive [])
    (plain : ∀ c rest, c ≠ '%' → motive rest → motive (c :: rest))
    (escape : ∀ a b rest, (hexValue? a).isSome = true → (hexValue? b).isSome = true →
      motive rest → motive ('%' :: a :: b :: rest))
    (lone : ∀ rest, ¬ StartsDigits rest → motive rest → motive ('%' :: rest))
    (cs : List Char) : motive cs := by
  induction hn : cs.length using Nat.strong_induction_on generalizing cs with
  | _ n ih =>
      subst hn
      match cs with
      | [] => exact nil
      | c :: rest =>
          by_cases hc : c = '%'
          · subst hc
            by_cases hdigits : StartsDigits rest
            · obtain ⟨a, b, behind, rfl, ha, hb⟩ := hdigits
              exact escape a b behind ha hb (ih _ (by simp only [List.length_cons]; omega) _ rfl)
            · exact lone rest hdigits (ih _ (by simp) _ rfl)
          · exact plain c rest hc (ih _ (by simp) _ rfl)

/-! ## Escapes shorten -/

theorem length_meant_le (cs : List Char) : (meant cs).length ≤ (toBytes cs).length := by
  induction cs using meant_induction with
  | nil => exact Nat.le_refl _
  | plain c rest hc ih =>
      rw [meant_of_ne hc, toBytes_cons, List.length_append, List.length_append]
      omega
  | escape a b rest ha hb ih =>
      obtain ⟨byte, hbyte⟩ := meant_escape ha hb
      have hpercent := length_utf8EncodeChar_pos '%'
      rw [hbyte, toBytes_cons, toBytes_cons, toBytes_cons]
      simp only [List.length_cons, List.length_append]
      omega
  | lone rest hdigits ih =>
      rw [meant_of_not_digits hdigits, toBytes_cons, List.length_append, List.length_append]
      omega

theorem length_meant_lt (h : HasEscape cs) : (meant cs).length < (toBytes cs).length := by
  induction cs using meant_induction with
  | nil =>
      obtain ⟨before, behind, hcs, -⟩ := h
      exact absurd hcs (by simp)
  | plain c rest hc ih =>
      have hrest := ih ((hasEscape_cons.mp h).resolve_left fun hleft => hc hleft.1)
      rw [meant_of_ne hc, toBytes_cons, List.length_append, List.length_append]
      omega
  | escape a b rest ha hb ih =>
      obtain ⟨byte, hbyte⟩ := meant_escape ha hb
      have hle := length_meant_le rest
      have hpercent := length_utf8EncodeChar_pos '%'
      have hpos := length_utf8EncodeChar_pos a
      rw [hbyte, toBytes_cons, toBytes_cons, toBytes_cons]
      simp only [List.length_cons, List.length_append]
      omega
  | lone rest hdigits ih =>
      have hrest := ih ((hasEscape_cons.mp h).resolve_left fun hleft => hdigits hleft.2)
      rw [meant_of_not_digits hdigits, toBytes_cons, List.length_append, List.length_append]
      omega

theorem meant_of_not_hasEscape (h : ¬ HasEscape cs) : meant cs = toBytes cs := by
  induction cs using meant_induction with
  | nil => rfl
  | plain c rest hc ih =>
      rw [meant_of_ne hc, toBytes_cons, ih fun hrest => h (hasEscape_cons.mpr (Or.inr hrest))]
  | escape a b rest ha hb _ =>
      exact absurd (hasEscape_cons.mpr (Or.inl ⟨rfl, a, b, rest, rfl, ha, hb⟩)) h
  | lone rest hdigits ih =>
      rw [meant_of_not_digits hdigits, toBytes_cons,
        ih fun hrest => h (hasEscape_cons.mpr (Or.inr hrest))]

/-! ## Escaping a path -/

theorem hexValue?_capitalHexDigit (n : Fin 16) :
    hexValue? (capitalHexDigit n) = some (n : Nat) := by
  revert n
  decide

theorem meant_escapeByte (b : UInt8) (rest : List Char) :
    meant (escapeByte b ++ rest) = b :: meant rest := by
  have hb := b.toNat_lt
  have hhigh := hexValue?_capitalHexDigit ⟨b.toNat / 16, by omega⟩
  have hlow := hexValue?_capitalHexDigit ⟨b.toNat % 16, by omega⟩
  have hsum : 16 * (b.toNat / 16) + b.toNat % 16 = b.toNat := Nat.div_add_mod _ _
  show meant ('%' :: capitalHexDigit (b.toNat / 16) :: capitalHexDigit (b.toNat % 16) :: rest) = _
  rw [meant, percentDecode, hhigh, hlow]
  simp only [hsum]
  simp [meant]

theorem meant_escapeBytes (bs : List UInt8) (rest : List Char) :
    meant (bs.flatMap escapeByte ++ rest) = bs ++ meant rest := by
  induction bs with
  | nil => rfl
  | cons b bs ih => rw [List.flatMap_cons, List.append_assoc, meant_escapeByte, ih, List.cons_append]

/-- A character as it is written in a path. -/
def inPath (c : Char) : List Char :=
  if Target.isEscaped c then (String.utf8EncodeChar c).flatMap escapeByte else [c]

theorem toList_percentEncode (s : String) :
    (percentEncode Target.isEscaped s).toList = s.toList.flatMap inPath :=
  String.toList_ofList

theorem inPath_of_isEscaped (h : Target.isEscaped c = true) :
    inPath c = (String.utf8EncodeChar c).flatMap escapeByte := if_pos h

theorem inPath_of_not_isEscaped (h : Target.isEscaped c = false) : inPath c = [c] := by
  rw [inPath, h]
  rfl

theorem toNat_of_hexValue? (h : (hexValue? c).isSome = true) :
    48 ≤ c.toNat ∧ c.toNat ≤ 57 ∨ 65 ≤ c.toNat ∧ c.toNat ≤ 70 ∨ 97 ≤ c.toNat ∧ c.toNat ≤ 102 := by
  rw [hexValue?] at h
  split at h
  · next hdigit => exact Or.inl (Text.toNat_of_isDigit hdigit)
  split at h
  · next hsmall =>
      have hbounds : 'a'.toNat ≤ c.toNat ∧ c.toNat ≤ 'f'.toNat := by
        simpa [Char.le_def, UInt32.le_iff_toNat_le] using hsmall
      exact Or.inr (Or.inr hbounds)
  split at h
  · next hlarge =>
      have hbounds : 'A'.toNat ≤ c.toNat ∧ c.toNat ≤ 'F'.toNat := by
        simpa [Char.le_def, UInt32.le_iff_toNat_le] using hlarge
      exact Or.inr (Or.inl hbounds)
  · cases h

theorem inPath_of_hexValue? (h : (hexValue? c).isSome = true) : inPath c = [c] := by
  have hbounds := toNat_of_hexValue? h
  refine inPath_of_not_isEscaped ?_
  rw [Target.isEscaped, Bool.or_eq_false_iff, Bool.or_eq_false_iff]
  refine ⟨⟨decide_eq_false (by omega), decide_eq_false (by omega)⟩, ?_⟩
  rw [← Bool.not_eq_true, List.contains_iff_mem]
  intro hmem
  simp only [List.mem_cons, List.not_mem_nil, or_false] at hmem
  obtain rfl | rfl | rfl | rfl | rfl | rfl | rfl | rfl := hmem <;> simp at hbounds

theorem inPath_percent : inPath '%' = ['%'] := inPath_of_not_isEscaped (by decide)

theorem inPath_cases (c : Char) : inPath c = [c] ∨ ∃ digits, inPath c = '%' :: digits := by
  by_cases h : Target.isEscaped c = true
  · obtain ⟨b, bs, hbytes⟩ := List.exists_cons_of_ne_nil (String.utf8EncodeChar_ne_nil (c := c))
    rw [inPath_of_isEscaped h, hbytes, List.flatMap_cons]
    exact Or.inr ⟨_, rfl⟩
  · exact Or.inl (inPath_of_not_isEscaped (Bool.eq_false_iff.mpr h))

theorem eq_cons_of_flatMap_inPath (ha : (hexValue? a).isSome = true)
    (h : cs.flatMap inPath = a :: rest) : ∃ behind, cs = a :: behind ∧ behind.flatMap inPath = rest := by
  cases cs with
  | nil => cases h
  | cons c behind =>
      rw [List.flatMap_cons] at h
      obtain hc | ⟨digits, hc⟩ := inPath_cases c
      · rw [hc] at h
        obtain ⟨rfl, hrest⟩ := List.cons.inj h
        exact ⟨behind, rfl, hrest⟩
      · rw [hc] at h
        obtain ⟨rfl, -⟩ := List.cons.inj h
        exact absurd ha (by decide)

theorem startsDigits_of_flatMap_inPath (h : StartsDigits (cs.flatMap inPath)) : StartsDigits cs := by
  obtain ⟨a, b, behind, hcs, ha, hb⟩ := h
  obtain ⟨rest, rfl, hrest⟩ := eq_cons_of_flatMap_inPath ha hcs
  obtain ⟨rest, rfl, -⟩ := eq_cons_of_flatMap_inPath hb hrest
  exact ⟨a, b, rest, rfl, ha, hb⟩

/-- Writing a text for a path makes no escape that would stand for something else. -/
theorem meant_flatMap_inPath (cs : List Char) : meant (cs.flatMap inPath) = meant cs := by
  induction cs using meant_induction with
  | nil => rfl
  | plain c rest hc ih =>
      rw [List.flatMap_cons, meant_of_ne hc]
      by_cases h : Target.isEscaped c = true
      · rw [inPath_of_isEscaped h, meant_escapeBytes, ih]
      · rw [inPath_of_not_isEscaped (Bool.eq_false_iff.mpr h), List.singleton_append,
          meant_of_ne hc, ih]
  | escape a b rest ha hb ih =>
      obtain ⟨byte, hbyte⟩ := meant_escape ha hb
      rw [List.flatMap_cons, List.flatMap_cons, List.flatMap_cons, inPath_percent,
        inPath_of_hexValue? ha, inPath_of_hexValue? hb, hbyte]
      exact (hbyte _).trans (congrArg (byte :: ·) ih)
  | lone rest hdigits ih =>
      rw [List.flatMap_cons, inPath_percent, List.singleton_append, meant_of_not_digits hdigits,
        meant_of_not_digits fun h => hdigits (startsDigits_of_flatMap_inPath h), ih]

theorem meant_percentEncode (s : String) :
    meant (percentEncode Target.isEscaped s).toList = meant s.toList := by
  rw [toList_percentEncode, meant_flatMap_inPath]

theorem slash_not_mem_inPath (hc : c ≠ '/') : '/' ∉ inPath c := by
  have hdigit : ∀ n : Fin 16, '/' ≠ capitalHexDigit n := by decide
  by_cases h : Target.isEscaped c = true
  · rw [inPath_of_isEscaped h, List.mem_flatMap]
    rintro ⟨b, -, hmem⟩
    have hb := b.toNat_lt
    rw [escapeByte, List.mem_cons, List.mem_cons, List.mem_singleton] at hmem
    obtain hmem | hmem | hmem := hmem
    · exact absurd hmem (by decide)
    · exact hdigit ⟨b.toNat / 16, by omega⟩ hmem
    · exact hdigit ⟨b.toNat % 16, by omega⟩ hmem
  · rw [inPath_of_not_isEscaped (Bool.eq_false_iff.mpr h), List.mem_singleton]
    exact hc.symm

theorem slash_not_mem_percentEncode {s : String} (h : '/' ∉ s.toList) :
    '/' ∉ (percentEncode Target.isEscaped s).toList := by
  rw [toList_percentEncode, List.mem_flatMap]
  rintro ⟨c, hc, hmem⟩
  exact slash_not_mem_inPath (fun hslash => h (hslash ▸ hc)) hmem

end Http

end FlowEngine
