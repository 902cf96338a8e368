import Chronicle.Proofs.Calendar.Succession

namespace Chronicle.Calendar

variable {day day' : Int}

lemma toNat_dayOfYear (day : Int) : (dayOfYear day : Int) = day - firstDay - daysBeforeYear (yearOfDay day) + 1 := by
  have ⟨hle, _⟩ := year_spans day
  rw [dayOfYear]
  omega

lemma dayOfYear_pos (day : Int) : 0 < dayOfYear day := Nat.succ_pos _

lemma dayOfYear_le (day : Int) : dayOfYear day ≤ 366 := by
  have ⟨_, hlt⟩ := year_spans day
  have hday := toNat_dayOfYear day
  have hlength : yearLength (yearOfDay day) ≤ 366 := by
    unfold yearLength
    split <;> decide
  rw [daysBeforeYear_succ] at hlt
  omega

lemma yearOfDay_bounds (hlow : -407230 ≤ day) (hhigh : day ≤ 407230) : 854 < yearOfDay day ∧ yearOfDay day < 3085 := by
  have ⟨hle, hlt⟩ := year_spans day
  simp only [daysBeforeYear, firstDay] at hle hlt
  omega

lemma same_year_or_later (h : day ≤ day') :
    (yearOfDay day' = yearOfDay day ∧ (dayOfYear day' : Int) = dayOfYear day + (day' - day)) ∨
      yearOfDay day < yearOfDay day' := by
  rcases Int.lt_trichotomy (yearOfDay day) (yearOfDay day') with hlt | heq | hgt
  · exact .inr hlt
  · have hday := toNat_dayOfYear day
    have hday' := toNat_dayOfYear day'
    rw [← heq] at hday'
    exact .inl ⟨heq.symm, by omega⟩
  · have ⟨hle, _⟩ := year_spans day
    have ⟨_, hlt⟩ := year_spans day'
    have := monotone_daysBeforeYear hgt
    omega

lemma strictMono_codeOf : StrictMono codeOf := strictMono_int_of_lt_succ fun day => by
  have hmonth := (valid_dateOf day).month_le
  have hday := (valid_dateOf day).day_le_max
  rw [codeOf, codeOf, dateOf_add_one, Date.next]
  split
  · simp only
    omega
  · split <;> simp only <;> omega

def monthCodeOf (day : Int) : Int := (dateOf day).year * 100 + (dateOf day).month

lemma monotone_monthCodeOf : Monotone monthCodeOf := monotone_int_of_le_succ fun day => by
  have hmonth := (valid_dateOf day).month_le
  rw [monthCodeOf, monthCodeOf, dateOf_add_one, Date.next]
  split
  · exact Int.le_refl _
  · split <;> simp only <;> omega

lemma monthCodeOf_eq_iff : monthCodeOf day = monthCodeOf day' ↔
    (dateOf day).year = (dateOf day').year ∧ (dateOf day).month = (dateOf day').month := by
  have hmonth := (valid_dateOf day).month_le
  have hmonth' := (valid_dateOf day').month_le
  rw [monthCodeOf, monthCodeOf]
  omega

def ordinalCodeOf (day : Int) : Int := (dateOf day).year * 1000 + dayOfYear day

lemma strictMono_ordinalCodeOf : StrictMono ordinalCodeOf := fun day day' h => by
  have hday := dayOfYear_le day
  change yearOfDay day * 1000 + dayOfYear day < yearOfDay day' * 1000 + dayOfYear day'
  rcases same_year_or_later (Int.le_of_lt h) with ⟨hyear, hlater⟩ | hyear
  · rw [hyear]
    omega
  · omega

def weekCodeOf (day : Int) : Int := (weekOf day).year * 100 + (weekOf day).number

lemma thursday_eq (day : Int) : day - weekday day + 3 = 7 * ((day + 3) / 7) := by
  rw [weekday]
  omega

lemma weekOf_eq (day : Int) :
    weekOf day = ⟨yearOfDay (7 * ((day + 3) / 7)), (dayOfYear (7 * ((day + 3) / 7)) - 1) / 7 + 1⟩ := by
  rw [← thursday_eq]
  rfl

lemma weekOf_number_le (day : Int) : (weekOf day).number ≤ 53 := by
  have hthursday := dayOfYear_le (7 * ((day + 3) / 7))
  simp only [weekOf_eq]
  omega

def codeOfWeek (week : Int) : Int := yearOfDay (7 * week) * 100 + ((dayOfYear (7 * week) - 1) / 7 + 1 : Nat)

lemma strictMono_codeOfWeek : StrictMono codeOfWeek := fun week week' h => by
  have hday := dayOfYear_le (7 * week)
  have hpos := dayOfYear_pos (7 * week)
  rw [codeOfWeek, codeOfWeek]
  rcases same_year_or_later (show 7 * week ≤ 7 * week' by omega) with ⟨hyear, hlater⟩ | hyear
  · rw [hyear]
    omega
  · omega

lemma weekCodeOf_eq (day : Int) : weekCodeOf day = codeOfWeek ((day + 3) / 7) := by
  rw [weekCodeOf, weekOf_eq, codeOfWeek]

lemma weekCodeOf_eq_iff : weekCodeOf day = weekCodeOf day' ↔ (day + 3) / 7 = (day' + 3) / 7 := by
  rw [weekCodeOf_eq, weekCodeOf_eq]
  exact strictMono_codeOfWeek.injective.eq_iff

lemma monotone_weekCodeOf : Monotone weekCodeOf := fun day day' h => by
  rw [weekCodeOf_eq, weekCodeOf_eq]
  exact strictMono_codeOfWeek.monotone (by omega)

def SameWeek (day day' : Int) : Prop :=
  ∃ monday, weekday monday = 0 ∧ (monday ≤ day ∧ day ≤ monday + 6) ∧ monday ≤ day' ∧ day' ≤ monday + 6

lemma sameWeek_iff : SameWeek day day' ↔ (day + 3) / 7 = (day' + 3) / 7 := by
  constructor
  · rintro ⟨monday, hmonday, hday, hday'⟩
    rw [weekday] at hmonday
    omega
  · intro h
    refine ⟨7 * ((day + 3) / 7) - 3, ?_, ?_, ?_⟩
    · rw [weekday]
      omega
    · omega
    · omega

def IsOrdinalOf (ordinal : Nat) (year day : Int) : Prop := 0 < ordinal ∧ Falls (day - (ordinal - 1)) ⟨year, 1, 1⟩

lemma valid_january (year : Int) {left : Nat} (hpos : 0 < left) (hle : left ≤ 28) : (⟨year, 1, left⟩ : Date).Valid :=
  have hmonth : 1 ≤ 12 := by decide
  ⟨Nat.one_pos, hmonth, hpos, Nat.le_trans hle (Date.monthLength_bounds hmonth).1⟩

lemma toDay_january (year : Int) (left : Nat) :
    (⟨year, 1, left⟩ : Date).toDay = firstDay + daysBeforeYear year + (left - 1) := by
  simp [Date.toDay]

lemma isOrdinalOf_dayOfYear (day : Int) : IsOrdinalOf (dayOfYear day) (dateOf day).year day := by
  have hday := toNat_dayOfYear day
  have hyear : (dateOf day).year = yearOfDay day := rfl
  refine ⟨Nat.succ_pos _, ?_⟩
  convert falls_toDay (valid_january (dateOf day).year Nat.one_pos (by decide)) using 1
  rw [toDay_january, hyear]
  omega

/-- A week of the ISO calendar: it runs from Monday to Sunday, it belongs to the year of its Thursday, and its number
counts the weeks from that of the first Thursday of the year. -/
def IsWeekOf (week : Week) (day : Int) : Prop := ∃ thursday, weekday thursday = 3 ∧
  (thursday - 3 ≤ day ∧ day ≤ thursday + 3) ∧ (∃ d, Falls thursday d ∧ d.year = week.year) ∧ 0 < week.number ∧
  ∃ first ≤ 7, Falls (thursday - 7 * (week.number - 1)) ⟨week.year, 1, first⟩

lemma isWeekOf_weekOf (day : Int) : IsWeekOf (weekOf day) day := by
  rw [weekOf_eq]
  generalize hth : 7 * ((day + 3) / 7) = thursday
  have hyear := toNat_dayOfYear thursday
  have hpos := dayOfYear_pos thursday
  refine ⟨thursday, ?_, by omega, ⟨_, falls_dateOf thursday, rfl⟩, Nat.succ_pos _, (dayOfYear thursday - 1) % 7 + 1,
    by omega, ?_⟩
  · rw [weekday]
    omega
  · convert falls_toDay (valid_january (yearOfDay thursday) (Nat.succ_pos ((dayOfYear thursday - 1) % 7)) (by omega))
      using 1
    rw [toDay_january]
    simp only
    omega

end Chronicle.Calendar
