import FlowEngine.Json.Reader
import FlowEngine.Proofs.Text
/-!
# `FlowEngine.Proofs.Json.Spelling` — what stands between quotes

`Spells` is the grammar of a text between quotes: a row of characters that stand for themselves and
of escapes, two of which may make up one character.  The reader takes what is spelled up to the first
quote that is not part of an escape (`readText?_eq_some_iff`).

It goes from the front and never back, so whatever can be spelled at the front of a text is spelled
there: a part of it ends where a piece ends (`Spells.split`).
-/

namespace FlowEngine.Document

variable {c e : Char} {cs body text rest more : List Char} {n : Nat}

/-! ## Pieces -/

/-- A character that stands for itself between quotes. -/
structure Plain (c : Char) : Prop where
  not_quote : c ≠ '"'
  not_backslash : c ≠ '\\'
  printed : 32 ≤ c.toNat

instance (c : Char) : Decidable (Plain c) :=
  decidable_of_iff (c ≠ '"' ∧ c ≠ '\\' ∧ 32 ≤ c.toNat)
    ⟨fun ⟨hquote, hbackslash, hprinted⟩ => ⟨hquote, hbackslash, hprinted⟩,
      fun ⟨hquote, hbackslash, hprinted⟩ => ⟨hquote, hbackslash, hprinted⟩⟩

/-- A UTF-16 unit that is the first of a pair. -/
def IsHigh (n : Nat) : Prop := 0xd800 ≤ n ∧ n < 0xdc00

/-- A UTF-16 unit that is the second of a pair. -/
def IsLow (n : Nat) : Prop := 0xdc00 ≤ n ∧ n < 0xe000

/-- What stands between the quotes, and the text that it spells. -/
inductive Spells : List Char → List Char → Prop where
  | nil : Spells [] []
  | plain {c : Char} {body text : List Char} :
      Plain c → Spells body text → Spells (c :: body) (c :: text)
  | escape {e c : Char} {body text : List Char} :
      unescape? e = some c → Spells body text → Spells ('\\' :: e :: body) (c :: text)
  | unit {a b c d : Char} {n : Nat} {body text : List Char} :
      fourHex? a b c d = some n → ¬ IsHigh n → ¬ IsLow n → Spells body text →
      Spells ('\\' :: 'u' :: a :: b :: c :: d :: body) (Char.ofNat n :: text)
  | pair {a b c d a' b' c' d' : Char} {n m : Nat} {body text : List Char} :
      fourHex? a b c d = some n → IsHigh n → fourHex? a' b' c' d' = some m → IsLow m →
      Spells body text →
      Spells ('\\' :: 'u' :: a :: b :: c :: d :: '\\' :: 'u' :: a' :: b' :: c' :: d' :: body)
        (Char.ofNat (0x10000 + (n - 0xd800) * 0x400 + (m - 0xdc00)) :: text)

/-- What stands between the quotes, cut into pieces. -/
inductive Cut : List Char → List Piece → Prop where
  | nil : Cut [] []
  | plain {c : Char} {body : List Char} {pieces : List Piece} :
      Plain c → Cut body pieces → Cut (c :: body) (.char c :: pieces)
  | escape {e c : Char} {body : List Char} {pieces : List Piece} :
      unescape? e = some c → Cut body pieces → Cut ('\\' :: e :: body) (.char c :: pieces)
  | unit {a b c d : Char} {n : Nat} {body : List Char} {pieces : List Piece} :
      fourHex? a b c d = some n → Cut body pieces →
      Cut ('\\' :: 'u' :: a :: b :: c :: d :: body) (.unit n :: pieces)

theorem ne_u_of_unescape? (h : unescape? e = some c) : e ≠ 'u' := by
  rintro rfl
  cases h

theorem cut_of_readPieces? {read pieces : List Piece}
    (h : readPieces? read cs = some (pieces, rest)) :
    ∃ body cut, cs = body ++ '"' :: rest ∧ Cut body cut ∧ pieces = read.reverse ++ cut := by
  fun_induction readPieces? read cs with
  | case1 => cases h
  | case2 read rest' =>
      obtain ⟨rfl, rfl⟩ := Prod.mk.inj (Option.some.inj h)
      exact ⟨[], [], rfl, .nil, (List.append_nil _).symm⟩
  | case3 read a b c d rest' n hhex ih =>
      obtain ⟨body, cut, rfl, hcut, rfl⟩ := ih h
      exact ⟨_, _, rfl, .unit hhex hcut, by simp⟩
  | case4 => cases h
  | case5 read e rest' _ c hchar ih =>
      obtain ⟨body, cut, rfl, hcut, rfl⟩ := ih h
      exact ⟨_, _, rfl, .escape hchar hcut, by simp⟩
  | case6 => cases h
  | case7 => cases h
  | case8 read c rest' hquote hunit hescape hprinted ih =>
      obtain ⟨body, cut, rfl, hcut, rfl⟩ := ih h
      -- A backslash is the last character of the text, and then no quote follows.
      have hbackslash : c ≠ '\\' := by
        rintro rfl
        cases body <;> exact hescape _ _ rfl rfl
      exact ⟨_, _, rfl, .plain ⟨hquote, hbackslash, by omega⟩ hcut, by simp⟩

theorem readPieces?_append {pieces : List Piece} (h : Cut body pieces) (read : List Piece) :
    readPieces? read (body ++ cs) = readPieces? (pieces.reverse ++ read) cs := by
  induction h generalizing read with
  | nil => rfl
  | plain hplain _ ih =>
      have hprinted := hplain.printed
      rw [List.cons_append, readPieces?, if_neg (by omega), ih]
      · simp
      · exact hplain.not_quote
      · exact fun _ _ _ _ _ heq => absurd heq hplain.not_backslash
      · exact fun _ _ heq => absurd heq hplain.not_backslash
  | escape hchar _ ih =>
      rw [List.cons_append, List.cons_append, readPieces?, hchar]
      · simp [ih]
      · exact fun _ _ _ _ _ heq => absurd heq (ne_u_of_unescape? hchar)
  | unit hhex _ ih => simp [readPieces?, hhex, ih]

theorem joinPieces?_unit {joined : List Char} {pieces : List Piece} (hhigh : ¬ IsHigh n)
    (hlow : ¬ IsLow n) :
    joinPieces? joined (.unit n :: pieces) = joinPieces? (Char.ofNat n :: joined) pieces := by
  have hlow : (0xdc00 ≤ n && n < 0xe000) = false := by simpa [IsLow] using hlow
  have hhigh : (0xd800 ≤ n && n < 0xdc00) = false := by simpa [IsHigh] using hhigh
  rw [joinPieces?.eq_def]
  simp only [hlow, hhigh, Bool.false_eq_true, if_false]

theorem joinPieces?_pair {joined : List Char} {pieces : List Piece} {m : Nat} (hhigh : IsHigh n)
    (hlow : IsLow m) :
    joinPieces? joined (.unit n :: .unit m :: pieces) = joinPieces?
      (Char.ofNat (0x10000 + (n - 0xd800) * 0x400 + (m - 0xdc00)) :: joined) pieces := by
  obtain ⟨hhigh, hhigh'⟩ := hhigh
  obtain ⟨hlow, hlow'⟩ := hlow
  have hnot : ¬ (0xdc00 ≤ n ∧ n < 0xe000) := by omega
  rw [joinPieces?]
  simp [hnot, hhigh, hhigh', hlow, hlow']

/-- Units that can be joined are a pair at the front, or a first one that is none of a pair. -/
theorem joinPieces?_unit_cases {joined : List Char} {pieces : List Piece}
    (h : joinPieces? joined (.unit n :: pieces) = some text) :
    ¬ IsHigh n ∧ ¬ IsLow n ∨ IsHigh n ∧ ∃ m rest, pieces = .unit m :: rest ∧ IsLow m := by
  by_cases hlow : IsLow n
  · rcases pieces with - | ⟨c | m, pieces⟩ <;> simp [joinPieces?, hlow.1, hlow.2] at h
  · by_cases hhigh : IsHigh n
    · refine Or.inr ⟨hhigh, ?_⟩
      have hnot : ¬ (0xdc00 ≤ n ∧ n < 0xe000) := hlow
      rcases pieces with - | ⟨c | m, pieces⟩
      · simp [joinPieces?, hnot, hhigh.1, hhigh.2] at h
      · simp [joinPieces?, hnot, hhigh.1, hhigh.2] at h
      · refine ⟨m, pieces, rfl, ?_⟩
        by_contra hm
        have hm : 0xdc00 ≤ m → ¬ m < 0xe000 := fun h₁ h₂ => hm ⟨h₁, h₂⟩
        rw [joinPieces?] at h
        simp [hnot, hhigh.1, hhigh.2] at h
        exact absurd h.1.2 (hm h.1.1)
    · exact Or.inl ⟨hhigh, hlow⟩

theorem spells_of_joinPieces? {joined : List Char} {pieces : List Piece} (hcut : Cut body pieces)
    (h : joinPieces? joined pieces = some text) :
    ∃ spelled, Spells body spelled ∧ text = joined.reverse ++ spelled := by
  induction hlength : pieces.length using Nat.strongRecOn generalizing body pieces joined with
  | _ k ih =>
      subst hlength
      cases hcut with
      | nil =>
          obtain rfl := Option.some.inj h
          exact ⟨[], .nil, (List.append_nil _).symm⟩
      | plain hplain hcut =>
          obtain ⟨spelled, hspells, rfl⟩ := ih _ (Nat.lt_succ_self _) hcut h rfl
          exact ⟨_, .plain hplain hspells, by simp⟩
      | escape hchar hcut =>
          obtain ⟨spelled, hspells, rfl⟩ := ih _ (Nat.lt_succ_self _) hcut h rfl
          exact ⟨_, .escape hchar hspells, by simp⟩
      | unit hhex hcut =>
          rcases joinPieces?_unit_cases h with ⟨hhigh, hlow⟩ | ⟨hhigh, m, more, rfl, hlow⟩
          · rw [joinPieces?_unit hhigh hlow] at h
            obtain ⟨spelled, hspells, rfl⟩ := ih _ (Nat.lt_succ_self _) hcut h rfl
            exact ⟨_, .unit hhex hhigh hlow hspells, by simp⟩
          · cases hcut with
            | unit hhex' hcut =>
                rw [joinPieces?_pair hhigh hlow] at h
                have hless : more.length < more.length + 1 + 1 := by omega
                obtain ⟨spelled, hspells, rfl⟩ := ih _ hless hcut h rfl
                exact ⟨_, .pair hhex hhigh hhex' hlow hspells, by simp⟩

theorem joinPieces?_append (h : Spells body text) :
    ∃ pieces, Cut body pieces ∧ ∀ joined others,
      joinPieces? joined (pieces ++ others) = joinPieces? (text.reverse ++ joined) others := by
  induction h with
  | nil => exact ⟨[], .nil, fun joined others => rfl⟩
  | plain hplain _ ih =>
      obtain ⟨pieces, hcut, hjoin⟩ := ih
      exact ⟨_, .plain hplain hcut, fun joined others => by simp [joinPieces?, hjoin]⟩
  | escape hchar _ ih =>
      obtain ⟨pieces, hcut, hjoin⟩ := ih
      exact ⟨_, .escape hchar hcut, fun joined others => by simp [joinPieces?, hjoin]⟩
  | unit hhex hhigh hlow _ ih =>
      obtain ⟨pieces, hcut, hjoin⟩ := ih
      refine ⟨_, .unit hhex hcut, fun joined others => ?_⟩
      rw [List.cons_append, joinPieces?_unit hhigh hlow, hjoin]
      simp
  | pair hhex hhigh hhex' hlow _ ih =>
      obtain ⟨pieces, hcut, hjoin⟩ := ih
      refine ⟨_, .unit hhex (.unit hhex' hcut), fun joined others => ?_⟩
      rw [List.cons_append, List.cons_append, joinPieces?_pair hhigh hlow, hjoin]
      simp

theorem Spells.readText? (h : Spells body text) (rest : List Char) :
    readText? (body ++ '"' :: rest) = some (some (String.ofList text), rest) := by
  obtain ⟨pieces, hcut, hjoin⟩ := joinPieces?_append h
  have hjoined : joinPieces? [] pieces = some text := by
    simpa [joinPieces?] using hjoin [] []
  rw [Document.readText?, readPieces?_append hcut, readPieces?]
  simp [hjoined]

theorem readText?_eq_some_iff {s : String} : readText? cs = some (some s, rest) ↔
    ∃ body, cs = body ++ '"' :: rest ∧ Spells body s.toList := by
  constructor
  · intro h
    unfold readText? at h
    split at h
    · next pieces rest' hread =>
        obtain ⟨htext, rfl⟩ := Prod.mk.inj (Option.some.inj h)
        obtain ⟨text, hjoin, rfl⟩ := Option.map_eq_some_iff.mp htext
        obtain ⟨body, cut, rfl, hcut, rfl⟩ := cut_of_readPieces? hread
        obtain ⟨spelled, hspells, rfl⟩ := spells_of_joinPieces? hcut hjoin
        exact ⟨body, rfl, by simpa using hspells⟩
    · cases h
  · rintro ⟨body, rfl, hspells⟩
    rw [hspells.readText? rest, String.ofList_toList]

theorem Spells.append {body' text' : List Char} (h : Spells body text) (h' : Spells body' text') :
    Spells (body ++ body') (text ++ text') := by
  induction h with
  | nil => exact h'
  | plain hplain _ ih => exact .plain hplain ih
  | escape hchar _ ih => exact .escape hchar ih
  | unit hhex hhigh hlow _ ih => exact .unit hhex hhigh hlow ih
  | pair hhex hhigh hhex' hlow _ ih => exact .pair hhex hhigh hhex' hlow ih

theorem Spells.of_plain (h : ∀ c ∈ cs, Plain c) : Spells cs cs := by
  induction cs with
  | nil => exact .nil
  | cons c cs ih =>
      obtain ⟨hc, hcs⟩ := List.forall_mem_cons.mp h
      exact .plain hc (ih hcs)

theorem Spells.of_all (h : (cs.all fun c => decide (Plain c)) = true) : Spells cs cs :=
  .of_plain (by simpa using h)

/-- Where something is spelled at the front of a text that ends with a quote, it ends before the
quote, and what is left is spelled as well. -/
theorem Spells.split {front spelled : List Char} (h : Spells body text)
    (hfront : Spells front spelled) (heq : body ++ '"' :: rest = front ++ more) :
    ∃ left text', body = front ++ left ∧ more = left ++ '"' :: rest ∧ Spells left text' := by
  obtain ⟨pieces, hcut, hjoin⟩ := joinPieces?_append h
  obtain ⟨first, hcut', hjoin'⟩ := joinPieces?_append hfront
  have hread : readPieces? first.reverse more = some (pieces, rest) := by
    have hwhole : readPieces? [] (body ++ '"' :: rest) =
        readPieces? (pieces.reverse ++ []) ('"' :: rest) := readPieces?_append hcut []
    rw [heq, readPieces?_append hcut', readPieces?] at hwhole
    simpa using hwhole
  obtain ⟨left, others, rfl, hleft, rfl⟩ := cut_of_readPieces? hread
  have hothers : joinPieces? spelled.reverse others = some text := by
    have hwhole : joinPieces? [] (first ++ others) = some text := by
      simpa [joinPieces?] using hjoin [] []
    rwa [hjoin', List.append_nil] at hwhole
  obtain ⟨text', hspells, -⟩ := spells_of_joinPieces? hleft hothers
  refine ⟨left, text', ?_, rfl, hspells⟩
  rw [← List.append_assoc] at heq
  exact List.append_cancel_right heq

end FlowEngine.Document
