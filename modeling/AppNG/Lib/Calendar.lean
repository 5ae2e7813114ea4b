/-!
# Lib.Calendar

The civil calendar with its change from Julian to Gregorian dates: to the fourth of October 1582 there are Julian
dates, and the next day is the fifteenth. Days are counted from the first of January 1970, and the year before the
year 1 is the year 0. A year is counted from March on, so that the leap day is its last one.

* `dayOf_dateOf`: the date of a day stands for the day.
* `one_le_year_iff`, `dayOf_withoutEra`: the days from the year 1 on, and what becomes of the others without an era.
* `dateOf_dayOf_iff`, `dateOf_eq_iff`: which Gregorian dates are dates of this calendar.
* `localOf_fieldsOf`: days with the time of day.
-/

namespace AppNG
namespace Calendar

structure CivilDate where
  year : Int
  month : Int
  day : Int
  deriving DecidableEq, Repr

/-! ## Years from March on -/

/-- A month behind December belongs to a later year. -/
def CivilDate.marchYear (date : CivilDate) : Int := date.year + (date.month - 3) / 12

/-- The days since the first of March. -/
def CivilDate.marchDay (date : CivilDate) : Int := (153 * ((date.month + 9) % 12) + 2) / 5 + date.day - 1

def ofMarch (year day : Int) : CivilDate :=
  let month := (5 * day + 2) / 153
  { year := if month < 10 then year else year + 1
    month := if month < 10 then month + 3 else month - 9
    day := day - (153 * month + 2) / 5 + 1 }

theorem marchYear_ofMarch (year : Int) {day : Int} (h : 0 ≤ day ∧ day ≤ 365) : (ofMarch year day).marchYear = year := by
  simp only [CivilDate.marchYear, ofMarch]
  split <;> omega

theorem marchDay_ofMarch (year : Int) {day : Int} (h : 0 ≤ day ∧ day ≤ 365) : (ofMarch year day).marchDay = day := by
  simp only [CivilDate.marchDay, ofMarch]
  split <;> omega

/-! ## The two calendars -/

/-- The day of the first of March. -/
def gregorianStart (year : Int) : Int := 365 * year + year / 4 - year / 100 + year / 400 - 719468

def julianStart (year : Int) : Int := 365 * year + year / 4 - 719470

def gregorianDay (date : CivilDate) : Int := gregorianStart date.marchYear + date.marchDay

def julianDay (date : CivilDate) : Int := julianStart date.marchYear + date.marchDay

/-- The year of a day, from one that is next to it or the year itself. -/
def correctYear (start : Int → Int) (day year : Int) : Int :=
  if day < start year then year - 1 else if start (year + 1) ≤ day then year + 1 else year

def gregorianYear (day : Int) : Int := correctYear gregorianStart day (400 * (day + 719468) / 146097)

def julianYear (day : Int) : Int := correctYear julianStart day (4 * (day + 719470) / 1461)

def ofGregorianDay (day : Int) : CivilDate := ofMarch (gregorianYear day) (day - gregorianStart (gregorianYear day))

def ofJulianDay (day : Int) : CivilDate := ofMarch (julianYear day) (day - julianStart (julianYear day))

theorem correctYear_spec {start : Int → Int} {day year : Int} (hlow : start (year - 1) ≤ day)
    (hhigh : day < start (year + 2)) :
    start (correctYear start day year) ≤ day ∧ day < start (correctYear start day year + 1) := by
  have hbehind : year + 1 + 1 = year + 2 := by omega
  have hbefore : year - 1 + 1 = year := by omega
  unfold correctYear
  split
  · rw [hbefore]
    omega
  · split
    · rw [hbehind]
      omega
    · omega

theorem gregorianYear_spec (day : Int) :
    gregorianStart (gregorianYear day) ≤ day ∧ day < gregorianStart (gregorianYear day + 1) := by
  refine correctYear_spec ?_ ?_ <;> simp only [gregorianStart] <;> omega

theorem julianYear_spec (day : Int) :
    julianStart (julianYear day) ≤ day ∧ day < julianStart (julianYear day + 1) := by
  refine correctYear_spec ?_ ?_ <;> simp only [julianStart] <;> omega

theorem gregorianYear_day (day : Int) :
    0 ≤ day - gregorianStart (gregorianYear day) ∧ day - gregorianStart (gregorianYear day) ≤ 365 := by
  have h := gregorianYear_spec day
  simp only [gregorianStart] at *
  omega

theorem julianYear_day (day : Int) :
    0 ≤ day - julianStart (julianYear day) ∧ day - julianStart (julianYear day) ≤ 365 := by
  have h := julianYear_spec day
  simp only [julianStart] at *
  omega

theorem gregorianDay_ofGregorianDay (day : Int) : gregorianDay (ofGregorianDay day) = day := by
  have h := gregorianYear_day day
  rw [gregorianDay, ofGregorianDay, marchYear_ofMarch _ h, marchDay_ofMarch _ h]
  omega

theorem julianDay_ofJulianDay (day : Int) : julianDay (ofJulianDay day) = day := by
  have h := julianYear_day day
  rw [julianDay, ofJulianDay, marchYear_ofMarch _ h, marchDay_ofMarch _ h]
  omega

/-! ## The civil calendar -/

/-- The fifteenth of October 1582. -/
def cutover : Int := -141427

def dateOf (day : Int) : CivilDate := if day < cutover then ofJulianDay day else ofGregorianDay day

/-- A date that is Gregorian and comes before the change is taken for a Julian one. -/
def dayOf (date : CivilDate) : Int := if cutover ≤ gregorianDay date then gregorianDay date else julianDay date

example : dateOf (-141427) = ⟨1582, 10, 15⟩ ∧ dateOf (-141428) = ⟨1582, 10, 4⟩ ∧ dayOf ⟨2000, 2, 29⟩ = 11016 := by
  decide

theorem dayOf_dateOf (day : Int) : dayOf (dateOf day) = day := by
  unfold dateOf
  split
  · rename_i hbefore
    have hjulian := julianDay_ofJulianDay day
    have hspec := julianYear_day day
    have hlow : gregorianDay (ofJulianDay day) < cutover := by
      rw [gregorianDay, ofJulianDay, marchYear_ofMarch _ hspec, marchDay_ofMarch _ hspec]
      simp only [cutover, gregorianStart, julianStart] at *
      omega
    rw [dayOf, if_neg (by omega), hjulian]
  · rename_i hafter
    rw [dayOf, gregorianDay_ofGregorianDay, if_pos (by omega)]

theorem dateOf_fields (day : Int) :
    (1 ≤ (dateOf day).month ∧ (dateOf day).month ≤ 12) ∧ 1 ≤ (dateOf day).day ∧ (dateOf day).day ≤ 31 := by
  have hmarch (year : Int) {d : Int} (h : 0 ≤ d ∧ d ≤ 365) :
      (1 ≤ (ofMarch year d).month ∧ (ofMarch year d).month ≤ 12) ∧
        1 ≤ (ofMarch year d).day ∧ (ofMarch year d).day ≤ 31 := by
    simp only [ofMarch]
    split <;> omega
  unfold dateOf
  split
  · exact hmarch _ (julianYear_day day)
  · exact hmarch _ (gregorianYear_day day)

/-- January and February belong to the March year before. -/
theorem ofMarch_year (year : Int) {day : Int} (h : 0 ≤ day ∧ day ≤ 365) :
    day < 306 ∧ (ofMarch year day).year = year ∧ 3 ≤ (ofMarch year day).month ∨
      306 ≤ day ∧ (ofMarch year day).year = year + 1 ∧ 1 ≤ (ofMarch year day).month ∧ (ofMarch year day).month ≤ 2 := by
  simp only [ofMarch]
  by_cases hmonth : (5 * day + 2) / 153 < 10
  · rw [if_pos hmonth, if_pos hmonth]
    omega
  · rw [if_neg hmonth, if_neg hmonth]
    omega

theorem one_le_year_iff (day : Int) : 1 ≤ (dateOf day).year ↔ -719164 ≤ day := by
  unfold dateOf
  split
  · rename_i hbefore
    have h := julianYear_day day
    have hyear := ofMarch_year (julianYear day) h
    simp only [ofJulianDay, julianStart, cutover] at *
    omega
  · rename_i hafter
    have h := gregorianYear_day day
    have hyear := ofMarch_year (gregorianYear day) h
    simp only [ofGregorianDay, gregorianStart, cutover] at *
    omega

/-- The date that has the same number of the year, but in the era from the year 1 on. -/
def CivilDate.withoutEra (date : CivilDate) : CivilDate :=
  { date with year := if 1 ≤ date.year then date.year else 1 - date.year }

theorem withoutEra_of_pos {date : CivilDate} (h : 1 ≤ date.year) : date.withoutEra = date := by
  rw [CivilDate.withoutEra, if_pos h]

/-- Without its era a date before the year 1 is a much later one. -/
theorem dayOf_withoutEra {day : Int} (h : ¬ 1 ≤ (dateOf day).year) : day + 300 ≤ dayOf (dateOf day).withoutEra := by
  have hday : day < -719164 := by
    have := one_le_year_iff day
    omega
  have hspec := julianYear_day day
  have hyear := ofMarch_year (julianYear day) hspec
  have hmarch := marchDay_ofMarch (julianYear day) hspec
  have hdate : dateOf day = ofMarch (julianYear day) (day - julianStart (julianYear day)) := by
    rw [dateOf, if_pos (by simp only [cutover]; omega), ofJulianDay]
  rw [hdate] at h ⊢
  generalize ofMarch (julianYear day) (day - julianStart (julianYear day)) = date at *
  unfold dayOf
  split
  · rename_i hcutover
    simp only [cutover] at hcutover
    omega
  · have hsame : date.withoutEra.marchDay = date.marchDay := rfl
    have hmarchYear : date.withoutEra.marchYear = 1 - date.year + (date.month - 3) / 12 := by
      rw [CivilDate.marchYear, CivilDate.withoutEra, if_neg h]
    rw [julianDay, hsame, hmarch, hmarchYear]
    simp only [julianStart] at *
    omega

/-! ## Gregorian dates before the change -/

/-- Also before the change. -/
def CivilDate.Gregorian (date : CivilDate) : Prop := ofGregorianDay (gregorianDay date) = date

instance : DecidablePred CivilDate.Gregorian := fun date =>
  inferInstanceAs (Decidable (ofGregorianDay (gregorianDay date) = date))

/-- The dates that were left out at the change. -/
def CivilDate.LeftOut (date : CivilDate) : Prop := date.year = 1582 ∧ date.month = 10 ∧ 5 ≤ date.day ∧ date.day ≤ 14

theorem leftOut_days {date : CivilDate} (h : date.LeftOut) :
    gregorianDay date < cutover ∧ cutover ≤ julianDay date := by
  obtain ⟨hyear, hmonth, hday⟩ := h
  simp only [gregorianDay, julianDay, CivilDate.marchYear, CivilDate.marchDay, hyear, hmonth, gregorianStart,
    julianStart, cutover]
  omega

theorem leftOut_ofMarch {day : Int} (hlow : 218 ≤ day) (hhigh : day ≤ 227) : (ofMarch 1582 day).LeftOut := by
  have hmonth : (5 * day + 2) / 153 = 7 := by omega
  simp only [CivilDate.LeftOut, ofMarch, hmonth]
  omega

theorem julianYear_eq {day year : Int} (hlow : julianStart year ≤ day) (hhigh : day < julianStart (year + 1)) :
    julianYear day = year := by
  have h := julianYear_spec day
  simp only [julianStart] at *
  omega

/-- The march year of a Gregorian date, and the day of it. -/
theorem gregorian_march {date : CivilDate} (h : date.Gregorian) :
    date = ofMarch date.marchYear date.marchDay ∧ 0 ≤ date.marchDay ∧
      date.marchDay < gregorianStart (date.marchYear + 1) - gregorianStart date.marchYear := by
  have hspec := gregorianYear_spec (gregorianDay date)
  have hyear := gregorianYear_day (gregorianDay date)
  have hdate : ofMarch (gregorianYear (gregorianDay date))
      (gregorianDay date - gregorianStart (gregorianYear (gregorianDay date))) = date := h
  have hmarchYear := marchYear_ofMarch (gregorianYear (gregorianDay date)) hyear
  have hmarchDay := marchDay_ofMarch (gregorianYear (gregorianDay date)) hyear
  rw [hdate] at hmarchYear hmarchDay
  rw [hmarchYear, hmarchDay, hdate]
  exact ⟨rfl, by omega, by omega⟩

/-- Every leap year of the Gregorian calendar is one of the Julian calendar. -/
theorem ofJulianDay_julianDay {date : CivilDate} (h : date.Gregorian) : ofJulianDay (julianDay date) = date := by
  obtain ⟨hdate, hlow, hhigh⟩ := gregorian_march h
  have hyear : julianYear (julianDay date) = date.marchYear := by
    refine julianYear_eq ?_ ?_ <;> simp only [julianDay, julianStart, gregorianStart] at * <;> omega
  have hday : julianDay date - julianStart date.marchYear = date.marchDay := by
    rw [julianDay]
    omega
  rw [ofJulianDay, hyear, hday, ← hdate]

/-- The days that are missing are days of 1582. -/
theorem leftOut_of_days {date : CivilDate} (h : date.Gregorian) (hbefore : gregorianDay date < cutover)
    (hafter : cutover ≤ julianDay date) : date.LeftOut := by
  obtain ⟨hdate, hlow, hhigh⟩ := gregorian_march h
  have hyear : date.marchYear = 1582 := by
    simp only [gregorianDay, julianDay, julianStart, gregorianStart, cutover] at *
    omega
  rw [hdate, hyear]
  simp only [gregorianDay, julianDay, hyear] at hbefore hafter
  refine leftOut_ofMarch ?_ ?_ <;> simp only [julianStart, gregorianStart, cutover] at * <;> omega

/-- A Gregorian date is one of the civil calendar, unless it was left out. -/
theorem dateOf_dayOf_iff {date : CivilDate} (h : date.Gregorian) : dateOf (dayOf date) = date ↔ ¬ date.LeftOut := by
  have hnot (hkept : cutover ≤ gregorianDay date ∨ julianDay date < cutover) : ¬ date.LeftOut := by
    intro hleft
    have := leftOut_days hleft
    omega
  unfold dayOf
  split
  · rename_i hafter
    rw [dateOf, if_neg (by omega)]
    exact iff_of_true h (hnot (Or.inl hafter))
  · rw [dateOf]
    split
    · rename_i hjulian
      exact iff_of_true (ofJulianDay_julianDay h) (hnot (Or.inr hjulian))
    · refine iff_of_false ?_ ?_
      · intro heq
        have hback := gregorianDay_ofGregorianDay (julianDay date)
        rw [heq] at hback
        omega
      · intro hkept
        exact hkept (leftOut_of_days h (by omega) (by omega))

theorem dateOf_eq_iff {date : CivilDate} (h : date.Gregorian) (day : Int) :
    dateOf day = date ↔ day = dayOf date ∧ ¬ date.LeftOut := by
  constructor
  · rintro rfl
    exact ⟨(dayOf_dateOf day).symm, (dateOf_dayOf_iff h).mp (by rw [dayOf_dateOf])⟩
  · rintro ⟨rfl, hkept⟩
    exact (dateOf_dayOf_iff h).mpr hkept

/-! ## The time of day -/

structure Fields where
  date : CivilDate
  hour : Int
  minute : Int
  second : Int
  deriving DecidableEq, Repr

/-- The fields of the seconds since midnight of the first of January 1970. -/
def fieldsOf (time : Int) : Fields where
  date := dateOf (time / 86400)
  hour := time % 86400 / 3600
  minute := time % 3600 / 60
  second := time % 60

theorem hour_fieldsOf (time : Int) : 0 ≤ (fieldsOf time).hour ∧ (fieldsOf time).hour < 24 := by
  simp only [fieldsOf]
  omega

theorem minute_fieldsOf (time : Int) : 0 ≤ (fieldsOf time).minute ∧ (fieldsOf time).minute < 60 := by
  simp only [fieldsOf]
  omega

theorem second_fieldsOf (time : Int) : 0 ≤ (fieldsOf time).second ∧ (fieldsOf time).second < 60 := by
  simp only [fieldsOf]
  omega

def localOf (fields : Fields) : Int :=
  86400 * dayOf fields.date + 3600 * fields.hour + 60 * fields.minute + fields.second

theorem localOf_fieldsOf (time : Int) : localOf (fieldsOf time) = time := by
  simp only [localOf, fieldsOf, dayOf_dateOf]
  omega

theorem fieldsOf_localOf {fields : Fields} (hdate : dateOf (dayOf fields.date) = fields.date)
    (hhour : 0 ≤ fields.hour ∧ fields.hour < 24) (hminute : 0 ≤ fields.minute ∧ fields.minute < 60)
    (hsecond : 0 ≤ fields.second ∧ fields.second < 60) : fieldsOf (localOf fields) = fields := by
  have hday : localOf fields / 86400 = dayOf fields.date := by
    simp only [localOf]
    omega
  obtain ⟨date, hour, minute, second⟩ := fields
  simp only [fieldsOf, hday, hdate, Fields.mk.injEq, true_and]
  simp only [localOf] at *
  omega

end Calendar
end AppNG
