import FlowEngine.Time.Calendar
/-!
# `FlowEngine.Proofs.Time.Calendar` — every day has a date, and the date is that of no other day

`Date.ofDays` goes from the number of a day to its date by one division for each unit, `Date.toDays`
back by a sum.  The date of a day is in the calendar, and its day number is the day it came from
(`isValid_ofDays`, `toDays_ofDays`); and a date lies in a year or a later one just when it does not
come before the first of January (`le_year_iff`).

The divisions are exact but for that by the length of a year, which is no whole number.  Within a
century it is a quarter of 1461 days (`yearOfEra_century`); at the ends of centuries the dividend is
corrected first, and that is all there is to the formula.
-/

namespace FlowEngine.Date

/-! ## Years of an era

A year begins in March, so a leap day is the last day of its year. -/

def yearOfEra (dayOfEra : Nat) : Nat :=
  (dayOfEra - dayOfEra / 1460 + dayOfEra / 36524 - dayOfEra / 146096) / 365

def yearStart (year : Nat) : Nat := 365 * year + year / 4 - year / 100

theorem yearOfEra_century {century day : Nat} (hcentury : century < 4) (hday : day < 36524) :
    yearOfEra (36524 * century + day) = 100 * century + (4 * day + 3) / 1461 := by
  -- Four years at a time: the correction counts a leap day before it has come, by a few days only.
  obtain ⟨four, rest, rfl, hrest⟩ : ∃ four rest, day = 1461 * four + rest ∧ rest < 1461 :=
    ⟨day / 1461, day % 1461, by omega, by omega⟩
  have hcenturies : (36524 * century + (1461 * four + rest)) / 36524 = century := by omega
  have heras : (36524 * century + (1461 * four + rest)) / 146096 = 0 := by omega
  have hyears : (4 * (1461 * four + rest) + 3) / 1461 = 4 * four + (4 * rest + 3) / 1461 := by omega
  rw [yearOfEra, hcenturies, heras, hyears]
  omega

theorem yearStart_century {century year : Nat} (hyear : year < 100) :
    yearStart (100 * century + year) = 36524 * century + 1461 * year / 4 := by
  rw [yearStart]
  omega

/-- The day is a day of its year, and the last of 366 only in a leap year. -/
theorem dayOfYear_bounds {day : Nat} (h : day < 146097) :
    yearOfEra day < 400 ∧ yearStart (yearOfEra day) ≤ day ∧
      day ≤ yearStart (yearOfEra day) + 365 ∧
      (day = yearStart (yearOfEra day) + 365 → isLeapYear (yearOfEra day + 1) = true) := by
  by_cases hlast : day = 146096
  · subst hlast
    decide
  obtain ⟨century, rest, rfl, hcentury, hrest⟩ :
      ∃ century rest, day = 36524 * century + rest ∧ century < 4 ∧ rest < 36524 :=
    ⟨day / 36524, day % 36524, by omega, by omega, by omega⟩
  have hyear : (4 * rest + 3) / 1461 < 100 := by omega
  rw [yearOfEra_century hcentury hrest, yearStart_century hyear]
  refine ⟨by omega, by omega, by omega, ?_⟩
  intro hleap
  simp only [isLeapYear, Bool.and_eq_true, Bool.or_eq_true, beq_iff_eq, bne_iff_ne]
  omega

/-! ## Months of a year -/

/-- The day of the year on which a month begins; March is the first. -/
def monthStart (month : Nat) : Nat := (153 * month + 2) / 5

def monthOfYear (dayOfYear : Nat) : Nat := (5 * dayOfYear + 2) / 153

/-- The number of a month when March is the first. -/
def ofMarch (month : Nat) : Nat := if month < 10 then month + 3 else month - 9

theorem dayOfMonth_bounds {day : Nat} (h : day ≤ 365) :
    monthOfYear day < 12 ∧ monthStart (monthOfYear day) ≤ day ∧
      day < monthStart (monthOfYear day + 1) := by
  unfold monthOfYear monthStart
  omega

theorem daysIn_ofMarch {month : Nat} (h : month < 11) (year : Int) :
    daysIn year (ofMarch month) = monthStart (month + 1) - monthStart month := by
  have hmonths : month ∈ List.range 11 := List.mem_range.mpr h
  simp only [List.range, List.range.loop, List.mem_cons, List.not_mem_nil, or_false] at hmonths
  rcases hmonths with rfl | rfl | rfl | rfl | rfl | rfl | rfl | rfl | rfl | rfl | rfl <;> rfl

/-! ## Days in parts -/

/-- A day by the year of its era, the month of that year and the day of that month, all counted from
0 and from March. -/
structure Parts where
  era : Int
  year : Nat
  month : Nat
  day : Nat
  year_lt : year < 400
  month_lt : month < 12
  day_lt : monthStart month + day < monthStart (month + 1)
  dayOfYear_le : monthStart month + day ≤ 365
  /-- The last of 366 days is a leap day. -/
  leap : monthStart month + day = 365 → isLeapYear (year + 1) = true

namespace Parts

def days (p : Parts) : Int :=
  p.era * 146097 + (yearStart p.year + monthStart p.month + p.day : Nat) - 719468

/-- The date of the day; January and February belong to the next year. -/
def date (p : Parts) : Date :=
  ⟨p.year + p.era * 400 + (if p.month < 10 then 0 else 1), ofMarch p.month, p.day + 1⟩

@[simp]
theorem year_date (p : Parts) :
    p.date.year = p.year + p.era * 400 + (if p.month < 10 then 0 else 1) := rfl

@[simp]
theorem month_date (p : Parts) : p.date.month = ofMarch p.month := rfl

@[simp]
theorem day_date (p : Parts) : p.date.day = p.day + 1 := rfl

theorem isLeapYear_era (era : Int) (year : Int) :
    isLeapYear (year + era * 400) = isLeapYear year := by
  have hfour : (year + era * 400) % 4 = year % 4 := by omega
  have hcentury : (year + era * 400) % 100 = year % 100 := by omega
  have hera : (year + era * 400) % 400 = year % 400 := by omega
  rw [isLeapYear, hfour, hcentury, hera, isLeapYear]

theorem isValid_date (p : Parts) : p.date.isValid = true := by
  have hmonth := p.month_lt
  have hday := p.day_lt
  have hlength : p.day + 1 ≤ daysIn p.date.year (ofMarch p.month) := by
    by_cases hlast : p.month < 11
    · rw [daysIn_ofMarch hlast]
      omega
    · -- February has a 29th day if that is a leap day.
      have hfebruary : p.month = 11 := by omega
      have hyear : p.date.year = (p.year : Int) + 1 + p.era * 400 := by
        rw [year_date, hfebruary, if_neg (by decide)]
        omega
      have hdays : daysIn p.date.year (ofMarch 11) =
          if isLeapYear (p.year + 1) = true then 29 else 28 := by
        rw [hyear, ← isLeapYear_era p.era]
        rfl
      have hle := p.dayOfYear_le
      have hleap := p.leap
      rw [hfebruary] at hle hleap ⊢
      have hstart : monthStart 11 = 337 := rfl
      rw [hdays]
      split
      · omega
      · next hnot =>
          have hne : monthStart 11 + p.day ≠ 365 := mt hleap hnot
          omega
  have hbounds : 1 ≤ ofMarch p.month ∧ ofMarch p.month ≤ 12 := by
    unfold ofMarch
    split <;> omega
  simp only [isValid, Bool.and_eq_true, decide_eq_true_eq]
  exact ⟨⟨hbounds, Nat.succ_le_succ (Nat.zero_le _)⟩, hlength⟩

theorem toDays_date (p : Parts) : p.date.toDays = p.days := by
  have hyear := p.year_lt
  have hmonth := p.month_lt
  -- Counted from March again, the year and the month are those of the parts.
  have hshifted : (if p.date.month ≤ 2 then p.date.year - 1 else p.date.year) =
      p.year + p.era * 400 := by
    rw [month_date, year_date, ofMarch]
    split <;> split <;> omega
  have hmarch : (p.date.month + 9) % 12 = p.month := by
    rw [month_date, ofMarch]
    split <;> omega
  have hera : ((p.year : Int) + p.era * 400) / 400 = p.era := by omega
  have hyearOfEra : ((p.year : Int) + p.era * 400) % 400 = p.year := by omega
  have hday : (153 * p.month + 2) / 5 + p.date.day - 1 = monthStart p.month + p.day := by
    rw [day_date, monthStart]
    omega
  rw [toDays]
  simp only [hshifted, hmarch, hera, hyearOfEra, hday]
  rw [days, yearStart]
  omega

end Parts

theorem exists_parts (days : Int) : ∃ p : Parts, p.days = days ∧ p.date = ofDays days := by
  obtain ⟨day, hday⟩ : ∃ day : Nat, (days + 719468) % 146097 = day :=
    ⟨((days + 719468) % 146097).toNat, by omega⟩
  have hlt : day < 146097 := by omega
  obtain ⟨hyear, hstart, hlast, hleap⟩ := dayOfYear_bounds hlt
  obtain ⟨dayOfYear, hrest⟩ := Nat.exists_eq_add_of_le hstart
  have hle : dayOfYear ≤ 365 := by omega
  obtain ⟨hmonth, hfirst, hnext⟩ := dayOfMonth_bounds hle
  obtain ⟨dayOfMonth, hdayOfYear⟩ := Nat.exists_eq_add_of_le hfirst
  refine ⟨⟨(days + 719468) / 146097, yearOfEra day, monthOfYear dayOfYear, dayOfMonth, hyear,
    hmonth, by omega, by omega, fun hlong => hleap (by omega)⟩, ?_, ?_⟩
  · simp only [Parts.days]
    omega
  · have hdays : ofDays days =
        let month := monthOfYear (day - yearStart (yearOfEra day))
        ⟨if ofMarch month ≤ 2 then (yearOfEra day : Int) + (days + 719468) / 146097 * 400 + 1
            else yearOfEra day + (days + 719468) / 146097 * 400,
          ofMarch month, day - yearStart (yearOfEra day) - monthStart month + 1⟩ := by
      have htoNat : ((days + 719468) % 146097).toNat = day := by omega
      rw [ofDays]
      simp only [htoNat]
      rfl
    have hsub : day - yearStart (yearOfEra day) = dayOfYear := by omega
    have hsub' : dayOfYear - monthStart (monthOfYear dayOfYear) = dayOfMonth := by omega
    rw [hdays]
    simp only [hsub, hsub', Parts.date, ofMarch, mk.injEq, and_true]
    split <;> split <;> omega

theorem isValid_ofDays (days : Int) : (ofDays days).isValid = true := by
  obtain ⟨p, -, hdate⟩ := exists_parts days
  rw [← hdate]
  exact p.isValid_date

theorem toDays_ofDays (days : Int) : (ofDays days).toDays = days := by
  obtain ⟨p, hdays, hdate⟩ := exists_parts days
  rw [← hdate, p.toDays_date, hdays]

/-! ## The order of years -/

/-- The number of days from the first of March of the year 0 to that of a year. -/
def daysBefore (year : Int) : Int := 365 * year + year / 4 - year / 100 + year / 400

theorem daysBefore_mono {year later : Int} (h : year ≤ later) :
    daysBefore year ≤ daysBefore later := by
  unfold daysBefore
  omega

theorem daysBefore_succ (year : Int) : daysBefore year + 365 ≤ daysBefore (year + 1) := by
  unfold daysBefore
  omega

/-- In January and February the year counted from March is the one before. -/
theorem toDays_of_le {d : Date} (h : d.month ≤ 2) : d.toDays =
    daysBefore (d.year - 1) + (monthStart ((d.month + 9) % 12) + d.day - 1 : Nat) - 719468 := by
  rw [toDays, if_pos h, daysBefore, monthStart]
  omega

theorem toDays_of_lt {d : Date} (h : 2 < d.month) : d.toDays =
    daysBefore d.year + (monthStart ((d.month + 9) % 12) + d.day - 1 : Nat) - 719468 := by
  rw [toDays, if_neg (by omega), daysBefore, monthStart]
  omega

theorem toDays_newYear (year : Int) :
    toDays ⟨year, 1, 1⟩ = daysBefore (year - 1) + 306 - 719468 := by
  have hearly : (⟨year, 1, 1⟩ : Date).month ≤ 2 := Nat.le_succ 1
  have hstart : monthStart ((1 + 9) % 12) + 1 - 1 = 306 := rfl
  rw [toDays_of_le hearly, hstart]
  rfl

theorem daysIn_le (year : Int) (month : Nat) : daysIn year month ≤ 31 := by
  unfold daysIn
  repeat' split
  all_goals omega

theorem le_year_iff {d : Date} (h : d.isValid = true) (year : Int) :
    year ≤ d.year ↔ toDays ⟨year, 1, 1⟩ ≤ d.toDays := by
  simp only [isValid, Bool.and_eq_true, decide_eq_true_eq] at h
  obtain ⟨⟨⟨hfirst, hmonth⟩, hday⟩, hlast⟩ := h
  have hlength := daysIn_le d.year d.month
  rw [toDays_newYear]
  by_cases hearly : d.month ≤ 2
  · -- The first of January is the 306th day of the year counted from March.
    have hstart : 306 ≤ monthStart ((d.month + 9) % 12) ∧
        monthStart ((d.month + 9) % 12) ≤ 337 := by
      unfold monthStart
      omega
    rw [toDays_of_le hearly]
    constructor
    · intro hle
      have hbefore : daysBefore (year - 1) ≤ daysBefore (d.year - 1) :=
        daysBefore_mono (by omega)
      omega
    · intro hle
      refine Int.not_lt.mp fun hlater => ?_
      have hbefore : daysBefore d.year ≤ daysBefore (year - 1) := daysBefore_mono (by omega)
      have hlong := daysBefore_succ (d.year - 1)
      rw [Int.sub_add_cancel] at hlong
      omega
  · have hstart : monthStart ((d.month + 9) % 12) ≤ 275 := by
      unfold monthStart
      omega
    rw [toDays_of_lt (by omega)]
    constructor
    · intro hle
      have hbefore : daysBefore (year - 1) ≤ daysBefore (d.year - 1) :=
        daysBefore_mono (by omega)
      have hlong := daysBefore_succ (d.year - 1)
      rw [Int.sub_add_cancel] at hlong
      omega
    · intro hle
      refine Int.not_lt.mp fun hlater => ?_
      have hbefore : daysBefore d.year ≤ daysBefore (year - 1) := daysBefore_mono (by omega)
      omega

end FlowEngine.Date
