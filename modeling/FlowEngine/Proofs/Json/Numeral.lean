import FlowEngine.Json.Reader
import Mathlib.Data.List.TakeWhile
/-!
# `FlowEngine.Proofs.Json.Numeral` — how far a number goes

The reader of numbers is built of readers that take characters of numbers and look at the one behind
them, and at nothing else (`Steady`).  Such readers in a row are one again, and so are two of which
the first character decides (`Steady.bind`, `Steady.either`).  What stands behind a number can be
exchanged, then, for anything that begins alike, and where it begins with no character of a number,
for anything else that does not (`steady_readNumber?`).
-/

namespace FlowEngine.Document

def IsNumeric (c : Char) : Prop :=
  c.isDigit = true ∨ c = '.' ∨ c = 'e' ∨ c = 'E' ∨ c = '+' ∨ c = '-'

variable {α β : Type} {c : Char} {cs more rest : List Char}

/-- The text begins with no character of a number. -/
def Blunt (cs : List Char) : Prop := ∀ c ∈ cs.head?, ¬ IsNumeric c

/-- What a reader of numbers sees behind a number is the same in both texts. -/
def Alike (more rest : List Char) : Prop := more.head? = rest.head? ∨ Blunt more ∧ Blunt rest

theorem Alike.append (h : Alike more rest) (taken : List Char) :
    Alike (taken ++ more) (taken ++ rest) := by
  cases taken with
  | nil => exact h
  | cons c taken => exact .inl rfl

theorem Alike.head?_ne (h : Alike more rest) (hc : IsNumeric c) (hne : rest.head? ≠ some c) :
    more.head? ≠ some c := by
  rcases h with heq | ⟨hmore, -⟩
  · rwa [heq]
  · exact fun hhead => hmore c hhead hc

/-- The reader takes characters of numbers, and they and the one behind them tell what it reads. -/
def Steady (read : List Char → Option (α × List Char)) : Prop :=
  ∀ cs a rest, read cs = some (a, rest) →
    ∃ taken, cs = taken ++ rest ∧ (∀ c ∈ taken, IsNumeric c) ∧
      ∀ more, Alike more rest → read (taken ++ more) = some (a, more)

theorem steady_none : Steady fun _ => (none : Option (α × List Char)) :=
  fun _ _ _ h => nomatch h

theorem steady_pure (a : α) : Steady fun cs => some (a, cs) := by
  rintro cs _ _ ⟨⟩
  exact ⟨[], rfl, by simp, fun more _ => rfl⟩

theorem Steady.bind {read : List Char → Option (α × List Char)}
    {next : α → List Char → Option (β × List Char)} (h : Steady read)
    (hnext : ∀ a, Steady (next a)) :
    Steady fun cs => (read cs).bind fun (a, rest) => next a rest := by
  intro cs b rest hread
  obtain ⟨⟨a, middle⟩, hfirst, hsecond⟩ := Option.bind_eq_some_iff.mp hread
  obtain ⟨taken, rfl, hnumeric, hmore⟩ := h _ _ _ hfirst
  obtain ⟨taken', rfl, hnumeric', hmore'⟩ := hnext a _ _ _ hsecond
  refine ⟨taken ++ taken', (List.append_assoc _ _ _).symm, ?_, fun more halike => ?_⟩
  · intro c hc
    exact (List.mem_append.mp hc).elim (hnumeric c) (hnumeric' c)
  · simp only [List.append_assoc, hmore _ (halike.append taken'), Option.bind_some,
      hmore' _ halike]

/-- One reader behind a character, if it is in front, and otherwise another. -/
def either (c : Char) (read other : List Char → Option α) (cs : List Char) : Option α :=
  if cs.head? = some c then read cs.tail else other cs

theorem Steady.either {read other : List Char → Option (α × List Char)} (hc : IsNumeric c)
    (h : Steady read) (hother : Steady other) : Steady (either c read other) := by
  intro cs a rest hread
  unfold Document.either at hread
  split at hread
  · next hhead =>
      obtain ⟨tail, rfl⟩ := List.head?_eq_some_iff.mp hhead
      obtain ⟨taken, htail, hnumeric, hmore⟩ := h _ _ _ hread
      obtain rfl : tail = taken ++ rest := htail
      refine ⟨c :: taken, rfl, List.forall_mem_cons.mpr ⟨hc, hnumeric⟩, fun more halike => ?_⟩
      rw [List.cons_append, Document.either, if_pos (List.head?_cons ..)]
      exact hmore more halike
  · next hne =>
      obtain ⟨taken, rfl, hnumeric, hmore⟩ := hother _ _ _ hread
      refine ⟨taken, rfl, hnumeric, fun more halike => ?_⟩
      rw [Document.either, if_neg ((halike.append taken).head?_ne hc hne)]
      exact hmore more halike

/-! ## The parts of a number -/

theorem steady_digits : Steady fun cs => some (digits cs) := by
  rintro cs _ _ ⟨⟩
  refine ⟨cs.takeWhile Char.isDigit, List.takeWhile_append_dropWhile.symm, ?_,
    fun more halike => ?_⟩
  · exact fun c hc => Or.inl (List.mem_takeWhile_imp hc)
  · have hdigits : ∀ c ∈ cs.takeWhile Char.isDigit, c.isDigit = true :=
      fun c hc => List.mem_takeWhile_imp hc
    have hstop : ∀ c ∈ more.head?, c.isDigit = false := by
      intro c hc
      by_contra hdigit
      have hdigit : c.isDigit = true := by simpa using hdigit
      refine halike.head?_ne (.inl hdigit) (fun hhead => ?_) hc
      have hnot := List.head?_dropWhile_not Char.isDigit cs
      rw [show (cs.dropWhile Char.isDigit).head? = some c from hhead] at hnot
      simp [hdigit] at hnot
    simp only [digits, List.takeWhile_append_of_pos hdigits, List.dropWhile_append_of_pos hdigits]
    cases more with
    | nil => simp
    | cons c more => simp [hstop c rfl]

def someDigits (cs : List Char) : Option (List Char × List Char) :=
  (some (digits cs)).bind fun (ds, rest) => if ds.isEmpty then none else some (ds, rest)

theorem steady_someDigits : Steady someDigits := by
  have hnext : ∀ ds : List Char,
      Steady fun rest => if ds.isEmpty then none else some (ds, rest) := by
    intro ds
    split
    · exact steady_none
    · exact steady_pure ds
  exact steady_digits.bind hnext

/-- What `readPower?` reads, as one value and the rest. -/
def power (cs : List Char) : Option ((Bool × List Char) × List Char) :=
  (readPower? cs).map fun (negative, ds, rest) => ((negative, ds), rest)

def powerOf (negative : Bool) (cs : List Char) : Option ((Bool × List Char) × List Char) :=
  (someDigits cs).bind fun (ds, rest) => some ((negative, ds), rest)

theorem power_eq :
    power = either '+' (powerOf false) (either '-' (powerOf true) (powerOf false)) := by
  funext cs
  have hunsigned : ∀ (negative : Bool) (cs : List Char), powerOf negative cs =
      (if (digits cs).1.isEmpty then none else some (negative, (digits cs).1, (digits cs).2)).map
        fun (negative, ds, rest) => ((negative, ds), rest) := by
    intro negative cs
    simp only [powerOf, someDigits, Option.bind_some]
    split <;> rfl
  simp only [power, either, hunsigned]
  by_cases hplus : cs.head? = some '+'
  · obtain ⟨rest, rfl⟩ := List.head?_eq_some_iff.mp hplus
    rfl
  by_cases hminus : cs.head? = some '-'
  · obtain ⟨rest, rfl⟩ := List.head?_eq_some_iff.mp hminus
    rfl
  rw [if_neg hplus, if_neg hminus, readPower?]
  · exact fun rest heq => hplus (by rw [heq]; rfl)
  · exact fun rest heq => hminus (by rw [heq]; rfl)

theorem steady_power : Steady power := by
  have hpower : ∀ negative, Steady (powerOf negative) := fun negative =>
    steady_someDigits.bind fun ds => steady_pure (negative, ds)
  rw [power_eq]
  exact .either (by simp [IsNumeric]) (hpower false) (.either (by simp [IsNumeric]) (hpower true)
    (hpower false))

def fraction : List Char → Option (List Char × List Char) :=
  either '.' someDigits fun cs => some ([], cs)

theorem steady_fraction : Steady fraction :=
  .either (by simp [IsNumeric]) steady_someDigits (steady_pure [])

variable {negative : Bool}

/-- The number of these digits, with the power that stands behind them. -/
def scaled (negative : Bool) (whole ds : List Char) :
    List Char → Option (Option Number × List Char) :=
  let withPower (cs : List Char) := (power cs).bind fun ((negativePower, digits), rest) =>
    some (fractionalNumber negative whole ds negativePower (Text.digitsValue digits), rest)
  either 'e' withPower <| either 'E' withPower fun cs =>
    some (if ds.isEmpty then wholeNumber negative whole
      else fractionalNumber negative whole ds false 0, cs)

theorem steady_scaled (negative : Bool) (whole ds : List Char) :
    Steady (scaled negative whole ds) := by
  have hpower := steady_power.bind fun found =>
    steady_pure (fractionalNumber negative whole ds found.1 (Text.digitsValue found.2))
  exact .either (by simp [IsNumeric]) hpower (.either (by simp [IsNumeric]) hpower (steady_pure _))

/-- What stands behind the digits in front of the point. -/
def behindWhole (negative : Bool) (whole cs : List Char) : Option (Option Number × List Char) :=
  if whole.isEmpty || (1 < whole.length && whole.head? == some '0') then none
  else (fraction cs).bind fun (ds, rest) => scaled negative whole ds rest

theorem steady_behindWhole (negative : Bool) (whole : List Char) :
    Steady (behindWhole negative whole) := by
  unfold behindWhole
  split
  · exact steady_none
  · exact steady_fraction.bind fun ds => steady_scaled negative whole ds

theorem fraction_eq (cs : List Char) : fraction cs =
    match cs with
    | '.' :: more =>
      if (digits more).1.isEmpty then none else some ((digits more).1, (digits more).2)
    | other => some ([], other) := by
  split
  · rfl
  · next hpoint =>
      refine if_neg fun hhead => ?_
      obtain ⟨more, rfl⟩ := List.head?_eq_some_iff.mp hhead
      exact hpoint more rfl

theorem scaled_nil (negative : Bool) (whole ds : List Char) : scaled negative whole ds [] =
    some (if ds.isEmpty then wholeNumber negative whole
      else fractionalNumber negative whole ds false 0, []) :=
  rfl

theorem scaled_cons (negative : Bool) (whole ds : List Char) (c : Char) (cs : List Char) :
    scaled negative whole ds (c :: cs) =
      if c = 'e' || c = 'E' then
        (readPower? cs).map fun (negativePower, digits, rest) =>
          (fractionalNumber negative whole ds negativePower (Text.digitsValue digits), rest)
      else some (if ds.isEmpty then wholeNumber negative whole
        else fractionalNumber negative whole ds false 0, c :: cs) := by
  simp only [scaled, either, List.head?_cons, Option.some.injEq, List.tail_cons, power]
  by_cases he : c = 'e'
  · subst he
    cases readPower? cs <;> rfl
  · by_cases hE : c = 'E'
    · subst hE
      cases readPower? cs <;> rfl
    · simp [he, hE]

theorem readNumber?_eq (negative : Bool) (cs : List Char) : readNumber? negative cs =
    (behindWhole negative (digits cs).1 (digits cs).2).map fun (n, rest) =>
      (literal (n.map Json.number), rest) := by
  rcases hdigits : digits cs with ⟨whole, rest⟩
  unfold readNumber? behindWhole
  simp only [hdigits]
  split
  · rfl
  split
  · next hnone =>
      have hfraction : fraction rest = none := (fraction_eq rest).trans hnone
      rw [hfraction]
      rfl
  · next ds rest' hsome =>
      have hfraction : fraction rest = some (ds, rest') := (fraction_eq rest).trans hsome
      rw [hfraction, Option.bind_some]
      cases rest' with
      | nil =>
          simp only [scaled_nil]
          split <;> rfl
      | cons c more =>
          simp only [scaled_cons]
          split
          · cases readPower? more <;> rfl
          · split <;> rfl

theorem steady_readNumber? (negative : Bool) : Steady (readNumber? negative) := by
  have hread : readNumber? negative = fun cs =>
      ((some (digits cs)).bind fun (whole, rest) => behindWhole negative whole rest).bind
        fun (n, rest) => some (literal (n.map Json.number), rest) := by
    funext cs
    rw [readNumber?_eq, Option.map_eq_bind]
    rfl
  rw [hread]
  have hnumber := steady_digits.bind (steady_behindWhole negative)
  exact hnumber.bind fun n => steady_pure (literal (n.map Json.number))

theorem literal_of_readNumber? {d : Document} {rest : List Char}
    (h : readNumber? negative cs = some (d, rest)) :
    ∃ n, d = literal (Option.map Json.number n) := by
  rw [readNumber?_eq] at h
  obtain ⟨⟨n, _⟩, -, heq⟩ := Option.map_eq_some_iff.mp h
  exact ⟨n, (Prod.mk.inj heq).1.symm⟩

theorem isDigit_of_readNumber? {d : Document} {rest : List Char}
    (h : readNumber? negative cs = some (d, rest)) :
    ∃ c more, cs = c :: more ∧ c.isDigit = true := by
  rw [readNumber?_eq, behindWhole] at h
  split at h
  · cases h
  · next hwhole =>
      cases cs with
      | nil => exact absurd rfl hwhole
      | cons c more =>
          refine ⟨c, more, rfl, ?_⟩
          by_contra hc
          exact hwhole (by simp [digits, hc])

end FlowEngine.Document
