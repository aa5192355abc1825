import FlowEngine.Proofs.Text
import FlowEngine.Proofs.Time.Calendar
import FlowEngine.Proofs.Time.Moment
import Mathlib.Algebra.Group.Nat.Defs
/-!
# `FlowEngine.Proofs.Time.Reading` — the text of a moment is read as the moment

The moments that are legible are the civil ones (`legible_iff`): those of the years that are read,
in which a leap second is the last of its minute.  No text stands for another moment
(`isCivil_of_parse?`), so whatever has been read once can be written and read again.

A moment is written part by part, and each part is read from the front of the text behind the one
before.  The lemma for a part says what of the text behind it matters: nothing for a field of a given
width, that it does not begin with a digit for a year and a fraction.
-/

namespace FlowEngine

/-! ## Numbers in digits -/

namespace Text

variable {ds : List Char}

theorem digitsValueFrom_nil (acc : Nat) : digitsValueFrom acc [] = acc := by
  rw [digitsValueFrom.eq_def]

theorem digitsValueFrom_cons (acc : Nat) (d : Char) (ds : List Char) :
    digitsValueFrom acc (d :: ds) = digitsValueFrom (10 * acc + digitValue d) ds := by
  rw [digitsValueFrom.eq_def]

theorem digitsValue_eq (ds : List Char) : digitsValue ds = Nat.ofDigitChars 10 ds 0 := by
  have hfrom : ∀ acc, digitsValueFrom acc ds = Nat.ofDigitChars 10 ds acc := by
    induction ds with
    | nil =>
        intro acc
        rw [digitsValueFrom_nil, Nat.ofDigitChars_nil]
    | cons d ds ih =>
        intro acc
        rw [digitsValueFrom_cons, ih, Nat.ofDigitChars_cons, digitValue]
  exact hfrom 0

theorem digitValue_lt {d : Char} (h : d.isDigit = true) : digitValue d < 10 := by
  have hrange := toNat_of_isDigit h
  have hzero : '0'.toNat = 48 := rfl
  rw [digitValue, hzero]
  omega

theorem isBlank_of_isDigit {d : Char} (h : d.isDigit = true) : isBlank d = false := by
  have hrange := toNat_of_isDigit h
  simp only [isBlank, Bool.or_eq_false_iff, Bool.and_eq_false_iff, decide_eq_false_iff_not,
    beq_eq_false_iff_ne]
  omega

theorem digitsValue_lt (h : ∀ d ∈ ds, d.isDigit = true) : digitsValue ds < 10 ^ ds.length := by
  have hfrom : ∀ acc, digitsValueFrom acc ds < (acc + 1) * 10 ^ ds.length := by
    induction ds with
    | nil =>
        intro acc
        rw [digitsValueFrom_nil, List.length_nil, Nat.pow_zero, Nat.mul_one]
        exact Nat.lt_succ_self acc
    | cons d ds ih =>
        intro acc
        obtain ⟨hd, hds⟩ := List.forall_mem_cons.mp h
        have hdigit := digitValue_lt hd
        calc
          digitsValueFrom acc (d :: ds) = digitsValueFrom (10 * acc + digitValue d) ds :=
            digitsValueFrom_cons acc d ds
          _ < (10 * acc + digitValue d + 1) * 10 ^ ds.length := ih hds _
          _ ≤ (10 * (acc + 1)) * 10 ^ ds.length := Nat.mul_le_mul_right _ (by omega)
          _ = (acc + 1) * 10 ^ (d :: ds).length := by
            rw [List.length_cons, Nat.pow_succ, Nat.mul_comm 10, Nat.mul_assoc, Nat.mul_comm 10]
  have hzero := hfrom 0
  rwa [Nat.zero_add, Nat.one_mul] at hzero

theorem toList_padded (width n : Nat) : (padded width n).toList =
    List.replicate (width - (Nat.toDigits 10 n).length) '0' ++ Nat.toDigits 10 n := by
  have hdigits : (toString n).toList = Nat.toDigits 10 n := Nat.toList_repr
  rw [padded, String.toList_ofList, hdigits]

theorem isDigit_padded (width n : Nat) : ∀ d ∈ (padded width n).toList, d.isDigit = true := by
  intro d hd
  rw [toList_padded, List.mem_append] at hd
  rcases hd with hzero | hdigit
  · rw [List.eq_of_mem_replicate hzero]
    rfl
  · exact Nat.isDigit_of_mem_toDigits (by decide) (by decide) hdigit

theorem digitsValue_padded (width n : Nat) : digitsValue (padded width n).toList = n := by
  have hzeros : ∀ k, digitsValue (List.replicate k '0' ++ Nat.toDigits 10 n) = n := by
    intro k
    induction k with
    | zero =>
        rw [List.replicate_zero, List.nil_append, digitsValue_eq]
        exact Nat.ofDigitChars_ten_toDigits
    | succ k ih => exact ih
  rw [toList_padded]
  exact hzeros _

theorem padded_ne_nil (width n : Nat) : (padded width n).toList ≠ [] := by
  rw [toList_padded]
  refine List.append_ne_nil_of_right_ne_nil _ ?_
  exact List.length_pos_iff.mp Nat.length_toDigits_pos

theorem length_padded {width n : Nat} (hwidth : 0 < width) (h : n < 10 ^ width) :
    (padded width n).toList.length = width := by
  have hle := (Nat.length_toDigits_le_iff (by decide) hwidth).mpr h
  rw [toList_padded, List.length_append, List.length_replicate]
  exact Nat.sub_add_cancel hle

end Text

namespace Timestamp

/-! ## Parts of a moment -/

variable {rest : List Char}

theorem skipBlanks_cons {c : Char} (h : Text.isBlank c = false) (cs : List Char) :
    skipBlanks (c :: cs) = c :: cs := by
  rw [skipBlanks, List.dropWhile_cons_of_neg (by simp [h])]

theorem skipBlanks_digits {ds : List Char} (hds : ∀ d ∈ ds, d.isDigit = true) (hne : ds ≠ []) :
    skipBlanks (ds ++ rest) = ds ++ rest := by
  cases ds with
  | nil => exact absurd rfl hne
  | cons d ds => exact skipBlanks_cons (Text.isBlank_of_isDigit (hds d List.mem_cons_self)) _

theorem mark?_cons {c : Char} (h : Text.isBlank c = false) (rest : List Char) :
    mark? c (c :: rest) = some rest := by
  rw [mark?, skipBlanks_cons h]
  exact if_pos rfl

theorem field?_padded {width n : Nat} (hwidth : 0 < width) (h : n < 10 ^ width)
    (rest : List Char) : field? width ((Text.padded width n).toList ++ rest) = some (n, rest) := by
  have hdigits := Text.isDigit_padded width n
  have hne := Text.padded_ne_nil width n
  have hlength := Text.length_padded hwidth h
  have htake : ((Text.padded width n).toList ++ rest).take width = (Text.padded width n).toList :=
    List.take_left' hlength
  have hdrop : ((Text.padded width n).toList ++ rest).drop width = rest := List.drop_left' hlength
  rw [field?, skipBlanks_digits hdigits hne]
  simp only [htake, List.takeWhile_eq_self_iff.mpr hdigits, hlength, hdrop,
    Text.digitsValue_padded, List.isEmpty_eq_false_iff.mpr hne, Bool.false_eq_true, if_false]

theorem digits_append {ds : List Char} (hds : ∀ d ∈ ds, d.isDigit = true)
    (hrest : ∀ d ∈ rest.head?, d.isDigit = false) :
    (ds ++ rest).takeWhile Char.isDigit = ds ∧ (ds ++ rest).drop ds.length = rest := by
  rw [Text.takeWhile_append_of_stops hrest, List.takeWhile_eq_self_iff.mpr hds]
  exact ⟨rfl, List.drop_left⟩

theorem year?_padded {n : Nat} (h : n < 10 ^ 4) (rest : List Char) :
    year? ((Text.padded 4 n).toList ++ rest) = some ((n : Int), rest) := by
  have hread := field?_padded (by decide) h rest
  have hdigits := Text.isDigit_padded 4 n
  have hne := Text.padded_ne_nil 4 n
  generalize (Text.padded 4 n).toList = ds at hread hdigits hne
  cases ds with
  | nil => exact absurd rfl hne
  | cons d ds =>
      have hd := hdigits d List.mem_cons_self
      rw [year?, skipBlanks_digits hdigits hne]
      split
      · next heq =>
          obtain ⟨rfl, -⟩ := List.cons.inj heq
          cases hd
      · next heq =>
          obtain ⟨rfl, -⟩ := List.cons.inj heq
          cases hd
      · rw [hread]
        rfl

theorem year?_signed {ds : List Char} (hds : ∀ d ∈ ds, d.isDigit = true) (hne : ds ≠ [])
    (hrest : ∀ d ∈ rest.head?, d.isDigit = false) :
    year? ('-' :: (ds ++ rest)) = some (-(Text.digitsValue ds : Int), rest) ∧
      year? ('+' :: (ds ++ rest)) = some ((Text.digitsValue ds : Int), rest) := by
  obtain ⟨htake, hdrop⟩ := digits_append hds hrest
  have hsome : ds.isEmpty = false := List.isEmpty_eq_false_iff.mpr hne
  constructor
  · rw [year?, skipBlanks_cons (by decide)]
    simp only [htake, hdrop, hsome, Bool.false_eq_true, if_false]
  · rw [year?, skipBlanks_cons (by decide)]
    simp only [htake, hdrop, hsome, Bool.false_eq_true, if_false]

theorem year?_yearText (year : Int) (hrest : ∀ d ∈ rest.head?, d.isDigit = false) :
    year? ((yearText year).toList ++ rest) = some (year, rest) := by
  have hvalue : Text.digitsValue (Text.padded 4 year.natAbs).toList = year.natAbs :=
    Text.digitsValue_padded 4 year.natAbs
  obtain ⟨hnegative, hpositive⟩ :=
    year?_signed (Text.isDigit_padded 4 year.natAbs) (Text.padded_ne_nil 4 year.natAbs) hrest
  rw [hvalue] at hnegative hpositive
  have hminus : "-".toList = ['-'] := rfl
  have hplus : "+".toList = ['+'] := rfl
  unfold yearText
  split
  · next hfour =>
      rw [Bool.and_eq_true, decide_eq_true_eq, decide_eq_true_eq] at hfour
      have hcast : (year.toNat : Int) = year := Int.toNat_of_nonneg hfour.1
      have hlt : year.toNat < 10 ^ 4 := by omega
      rw [year?_padded hlt, hcast]
  · split
    · next hsign =>
        have habs : -(year.natAbs : Int) = year := by omega
        rw [habs] at hnegative
        rw [String.toList_append, hminus, List.append_assoc, List.singleton_append, hnegative]
    · next hsign =>
        have habs : (year.natAbs : Int) = year := by omega
        rw [habs] at hpositive
        rw [String.toList_append, hplus, List.append_assoc, List.singleton_append, hpositive]

/-- As many digits as the fraction has are worth a power of ten each. -/
theorem fraction?_padded {width n : Nat} (hwidth : 0 < width) (hnine : width ≤ 9)
    (h : n < 10 ^ width) (hrest : ∀ d ∈ rest.head?, d.isDigit = false) :
    fraction? (("." ++ Text.padded width n).toList ++ rest) =
      some (n * 10 ^ (9 - width), rest) := by
  have hpoint : ".".toList = ['.'] := rfl
  have hlength := Text.length_padded hwidth h
  obtain ⟨htake, hdrop⟩ := digits_append (Text.isDigit_padded width n) hrest
  rw [hlength] at hdrop
  have hkept : (Text.padded width n).toList.take 9 = (Text.padded width n).toList :=
    List.take_of_length_le (by omega)
  have hsome := List.isEmpty_eq_false_iff.mpr (Text.padded_ne_nil width n)
  rw [String.toList_append, hpoint, List.append_assoc, List.singleton_append, fraction?]
  simp only [htake, hdrop, hsome, hkept, hlength, Text.digitsValue_padded, Bool.false_eq_true,
    if_false]
  rfl

theorem fraction?_none (hrest : ∀ d ∈ rest.head?, d ≠ '.') : fraction? rest = some (0, rest) := by
  cases rest with
  | nil => rfl
  | cons d rest =>
      unfold fraction?
      split
      · next heq =>
          obtain ⟨rfl, -⟩ := List.cons.inj heq
          exact absurd rfl (hrest '.' rfl)
      · rfl

theorem fraction?_fractionText {nanos : Nat} (h : nanos < perSecond)
    (hrest : ∀ d ∈ rest.head?, d.isDigit = false ∧ d ≠ '.') :
    fraction? ((fractionText nanos).toList ++ rest) = some (nanos, rest) := by
  have hdigit : ∀ d ∈ rest.head?, d.isDigit = false := fun d hd => (hrest d hd).1
  have hnine : nanos < 10 ^ 9 := h
  unfold fractionText
  split
  · next hzero =>
      rw [hzero]
      exact fraction?_none fun d hd => (hrest d hd).2
  split
  · next hmillis =>
      have hlt : nanos / 1000000 < 10 ^ 3 := by omega
      have hexact : nanos / 1000000 * 10 ^ (9 - 3) = nanos := by omega
      rw [fraction?_padded (by decide) (by decide) hlt hdigit, hexact]
  split
  · next hmicros =>
      have hlt : nanos / 1000 < 10 ^ 6 := by omega
      have hexact : nanos / 1000 * 10 ^ (9 - 6) = nanos := by omega
      rw [fraction?_padded (by decide) (by decide) hlt hdigit, hexact]
  · rw [fraction?_padded (by decide) (by decide) hnine hdigit, Nat.sub_self, Nat.pow_zero,
      Nat.mul_one]

theorem date?_text {d : Date} (hvalid : d.isValid = true) (hfirst : firstYear ≤ d.year)
    (hlast : d.year ≤ lastYear) (rest : List Char) :
    date? ((yearText d.year).toList ++ '-' :: ((Text.padded 2 d.month).toList ++
      '-' :: ((Text.padded 2 d.day).toList ++ rest))) = some (d, rest) := by
  have hparts := hvalid
  simp only [Date.isValid, Bool.and_eq_true, decide_eq_true_eq] at hparts
  obtain ⟨⟨⟨-, hmonth⟩, -⟩, hday⟩ := hparts
  have hlength := Date.daysIn_le d.year d.month
  have hmonth' : d.month < 10 ^ 2 := by omega
  have hday' : d.day < 10 ^ 2 := by omega
  have hmark : ∀ c ∈ ('-' :: ((Text.padded 2 d.month).toList ++
      '-' :: ((Text.padded 2 d.day).toList ++ rest))).head?, c.isDigit = false := by
    rintro _ ⟨⟩
    rfl
  rw [date?, year?_yearText _ hmark]
  simp only [Option.bind_eq_bind, Option.bind_some, mark?_cons (c := '-') (by decide),
    field?_padded (by decide) hmonth', field?_padded (by decide) hday', hvalid, hfirst, hlast,
    decide_true, Bool.and_self, if_true]

theorem clock?_text {hour minute second nanos : Nat} (hhour : hour < 24) (hminute : minute < 60)
    (hsecond : second ≤ 60) (hnanos : nanos < perSecond)
    (hrest : ∀ d ∈ rest.head?, d.isDigit = false ∧ d ≠ '.') :
    clock? ((Text.padded 2 hour).toList ++ ':' :: ((Text.padded 2 minute).toList ++
      ':' :: ((Text.padded 2 second).toList ++ ((fractionText nanos).toList ++ rest)))) =
      some (hour * 3600 + minute * 60 + (if second = 60 then 59 else second),
        nanos + (if second = 60 then perSecond else 0), rest) := by
  have hhour' : hour < 10 ^ 2 := by omega
  have hminute' : minute < 10 ^ 2 := by omega
  have hsecond' : second < 10 ^ 2 := by omega
  rw [clock?]
  simp only [Option.bind_eq_bind, Option.bind_some, mark?_cons (c := ':') (by decide),
    field?_padded (by decide) hhour', field?_padded (by decide) hminute',
    field?_padded (by decide) hsecond', fraction?_fractionText hnanos hrest, hhour, hminute,
    hsecond, decide_true, Bool.and_self, if_true, beq_iff_eq]

theorem toList_text (t : Timestamp) :
    let date := Date.ofDays (t.seconds / 86400)
    let clock := (t.seconds % 86400).toNat
    let second := clock % 60 + (if perSecond ≤ t.nanos then 1 else 0)
    t.text.toList =
      (yearText date.year).toList ++ '-' :: ((Text.padded 2 date.month).toList ++
        '-' :: ((Text.padded 2 date.day).toList ++ 'T' :: ((Text.padded 2 (clock / 3600)).toList ++
          ':' :: ((Text.padded 2 (clock / 60 % 60)).toList ++
            ':' :: ((Text.padded 2 second).toList ++
              ((fractionText (t.nanos % perSecond)).toList ++ ['Z'])))))) := by
  intro date clock second
  have hdash : "-".toList = ['-'] := rfl
  have hcolon : ":".toList = [':'] := rfl
  have htime : "T".toList = ['T'] := rfl
  have hzone : "Z".toList = ['Z'] := rfl
  simp only [text, String.toList_append, hdash, hcolon, htime, hzone, List.append_assoc,
    List.singleton_append]
  rfl

/-! ## Civil moments -/

/-- A moment of the years that are read, in which a leap second is the last of its minute.  Any other
would be written as a different moment, or as none at all. -/
structure IsCivil (t : Timestamp) : Prop where
  inRange : t.isInRange = true
  nanos : t.nanos < perSecond ∨ t.nanos < 2 * perSecond ∧ t.seconds % 60 = 59

namespace IsCivil

variable {t : Timestamp}

theorem year_bounds (h : t.IsCivil) : firstYear ≤ (Date.ofDays (t.seconds / 86400)).year ∧
    (Date.ofDays (t.seconds / 86400)).year ≤ lastYear := by
  have hrange := h.inRange
  rw [isInRange, Bool.and_eq_true, decide_eq_true_eq, decide_eq_true_eq] at hrange
  have hvalid := Date.isValid_ofDays (t.seconds / 86400)
  have hfirst := Date.le_year_iff hvalid firstYear
  have hlast := Date.le_year_iff hvalid (lastYear + 1)
  rw [Date.toDays_ofDays] at hfirst hlast
  omega

theorem legible (h : t.IsCivil) : t.Legible := by
  obtain ⟨hfirst, hlast⟩ := h.year_bounds
  have hvalid := Date.isValid_ofDays (t.seconds / 86400)
  have hdays := Date.toDays_ofDays (t.seconds / 86400)
  obtain ⟨clock, hclock⟩ : ∃ clock : Nat, (t.seconds % 86400).toNat = clock := ⟨_, rfl⟩
  have hrest : ∀ d ∈ ['Z'].head?, d.isDigit = false ∧ d ≠ '.' := by
    rintro _ ⟨⟩
    decide
  have htext := t.toList_text
  simp only [hclock] at htext
  -- The second that is written is 60 in a leap second, and only there.
  obtain ⟨second, hsecond, hwritten, hread, hnanos⟩ : ∃ second, second ≤ 60 ∧
      clock % 60 + (if perSecond ≤ t.nanos then 1 else 0) = second ∧
      (if second = 60 then 59 else second) = clock % 60 ∧
      t.nanos % perSecond + (if second = 60 then perSecond else 0) = t.nanos := by
    by_cases hplain : t.nanos < perSecond
    · refine ⟨clock % 60, by omega, ?_, ?_, ?_⟩
      · rw [if_neg (by omega), Nat.add_zero]
      · rw [if_neg (by omega)]
      · rw [if_neg (by omega), Nat.mod_eq_of_lt hplain, Nat.add_zero]
    · obtain ⟨hleap, hminute⟩ := h.nanos.resolve_left hplain
      have hlast : clock % 60 = 59 := by omega
      refine ⟨60, Nat.le_refl _, ?_, ?_, ?_⟩
      · rw [if_pos (by omega), hlast]
      · rw [if_pos rfl, hlast]
      · rw [if_pos rfl]
        unfold perSecond at *
        omega
  have hwhole : clock / 3600 * 3600 + clock / 60 % 60 * 60 + clock % 60 = clock := by omega
  have hfraction : t.nanos % perSecond < perSecond := Nat.mod_lt _ (by decide)
  rw [Legible, parse?, htext, date?_text hvalid hfirst hlast]
  simp only [Option.bind_eq_bind, Option.bind_some, hwritten]
  rw [clock?_text (by omega) (by omega) hsecond hfraction hrest]
  have hmoment : (⟨(Date.ofDays (t.seconds / 86400)).toDays * 86400 + clock - 0, t.nanos⟩ :
      Timestamp) = t := by
    have hseconds : (Date.ofDays (t.seconds / 86400)).toDays * 86400 + clock - 0 = t.seconds := by
      rw [hdays]
      omega
    rw [hseconds]
  have hoffset : offset? ['Z'] = some (0, []) := rfl
  simp only [Option.bind_some, hread, hwhole, hnanos, hoffset, hmoment, h.inRange]
  rfl

end IsCivil

/-! ## Other moments are not read -/

theorem fraction?_lt {cs : List Char} {nanos : Nat} (h : fraction? cs = some (nanos, rest)) :
    nanos < perSecond := by
  unfold fraction? at h
  split at h
  · next digits =>
      simp only at h
      split at h
      · cases h
      · obtain ⟨rfl, -⟩ := Prod.mk.inj (Option.some.inj h)
        have hdigits : ∀ d ∈ (digits.takeWhile Char.isDigit).take 9, d.isDigit = true :=
          fun d hd => List.mem_takeWhile_imp (List.mem_of_mem_take hd)
        have hlength : ((digits.takeWhile Char.isDigit).take 9).length ≤ 9 := List.length_take_le _ _
        have hlt := Text.digitsValue_lt hdigits
        generalize (digits.takeWhile Char.isDigit).take 9 = kept at hlt hlength
        have hplaces : 0 < 10 ^ (9 - kept.length) := Nat.pow_pos (by decide)
        calc
          Text.digitsValue kept * 10 ^ (9 - kept.length)
            < 10 ^ kept.length * 10 ^ (9 - kept.length) := Nat.mul_lt_mul_of_pos_right hlt hplaces
          _ = 10 ^ 9 := by rw [← Nat.pow_add, Nat.add_sub_cancel' hlength]
  · cases h
    decide

theorem clock?_bounds {cs : List Char} {clock nanos : Nat} (h : clock? cs = some (clock, nanos, rest)) :
    nanos < perSecond ∨ nanos < 2 * perSecond ∧ clock % 60 = 59 := by
  simp only [clock?, Option.bind_eq_bind, Option.bind_eq_some_iff, Prod.exists] at h
  obtain ⟨hour, cs₁, -, cs₂, -, minute, cs₃, -, cs₄, -, second, cs₅, -, fraction, cs₆, hfraction, h⟩ := h
  have hlt := fraction?_lt hfraction
  split at h
  · cases h
    by_cases hleap : second = 60
    · simp only [hleap, beq_self_eq_true, if_true]
      omega
    · simp only [beq_eq_false_iff_ne.mpr hleap, Bool.false_eq_true, if_false]
      exact Or.inl hlt
  · cases h

/-- Offsets are whole minutes. -/
theorem offset?_minutes {cs : List Char} {offset : Int} (h : offset? cs = some (offset, rest)) :
    offset % 60 = 0 := by
  have hsize : ∀ {cs rest : List Char} {size : Nat}, offsetSize? cs = some (size, rest) →
      size % 60 = 0 := by
    intro cs rest size hsome
    unfold offsetSize? at hsome
    split at hsome
    · cases hsome
    · split at hsome
      · cases hsome
      · split at hsome
        · cases hsome
          omega
        · cases hsome
  unfold offset? at h
  split at h
  · cases h
  split at h
  · cases h
    rfl
  split at h
  · obtain ⟨⟨size, behind⟩, hsome, heq⟩ := Option.map_eq_some_iff.mp h
    cases heq
    have hminutes := hsize hsome
    omega
  split at h
  · obtain ⟨⟨size, behind⟩, hsome, heq⟩ := Option.map_eq_some_iff.mp h
    cases heq
    have hminutes := hsize hsome
    omega
  split at h
  · cases h
    rfl
  · cases h

/-- Whatever is read is civil. -/
theorem isCivil_of_parse? {s : String} {t : Timestamp} (h : parse? s = some t) : t.IsCivil := by
  rw [parse?, Option.bind_eq_bind] at h
  obtain ⟨⟨date, cs⟩, -, h⟩ := Option.bind_eq_some_iff.mp h
  simp only at h
  split at h
  case h_2 => cases h
  split at h
  case isFalse => cases h
  simp only [Option.bind_eq_bind, Option.bind_some, Option.bind_eq_some_iff, Prod.exists] at h
  obtain ⟨clock, nanos, cs', hclock, offset, rest, hoffset, h⟩ := h
  have hnanos := clock?_bounds hclock
  have hminutes := offset?_minutes hoffset
  split at h
  · next hread =>
      rw [Bool.and_eq_true] at hread
      cases h
      refine ⟨hread.2, ?_⟩
      rcases hnanos with hplain | ⟨hleap, hlast⟩
      · exact Or.inl hplain
      · refine Or.inr ⟨hleap, ?_⟩
        show (date.toDays * 86400 + (clock : Int) - offset) % 60 = 59
        omega
  · cases h

theorem legible_iff {t : Timestamp} : t.Legible ↔ t.IsCivil :=
  ⟨isCivil_of_parse?, IsCivil.legible⟩

end Timestamp

end FlowEngine
