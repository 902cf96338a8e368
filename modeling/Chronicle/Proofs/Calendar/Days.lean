import Mathlib.Algebra.GroupWithZero.Nat
import Mathlib.Logic.Function.Basic
import Chronicle.Identifier.Calendar
import Chronicle.Proofs.Identifier.Fields

namespace Chronicle

namespace Calendar

lemma daysBeforeYear_succ (year : Int) : daysBeforeYear (year + 1) = daysBeforeYear year + yearLength year := by
  simp only [daysBeforeYear, yearLength, isLeap, Bool.and_eq_true, Bool.or_eq_true, beq_iff_eq, bne_iff_ne]
  split <;> omega

lemma guess_spans (n : Int) :
    daysBeforeYear (n * 400 / 146097) ≤ n ∧ n < daysBeforeYear (n * 400 / 146097 + 1 + 1 + 1) := by
  simp only [daysBeforeYear]
  omega

lemma year_spans (day : Int) : daysBeforeYear (yearOfDay day) ≤ day - firstDay ∧
    day - firstDay < daysBeforeYear (yearOfDay day + 1) := by
  have ⟨hle, hlt⟩ := guess_spans (day - firstDay)
  rw [yearOfDay]
  generalize (day - firstDay) * 400 / 146097 = guess at hle hlt ⊢
  split
  · next hearly =>
    rw [Int.add_sub_cancel]
    exact ⟨hle, hearly⟩
  · next hearly =>
    split
    · next hlate => exact ⟨hlate, hlt⟩
    · next hlate => exact ⟨Int.not_lt.1 hearly, Int.not_le.1 hlate⟩

lemma sum_monthLengths (year : Int) : (monthLengths year).sum = yearLength year := by
  unfold monthLengths yearLength
  split <;> rfl

lemma sum_take_splitMonths (lengths : List Nat) (day : Nat) :
    (lengths.take (splitMonths lengths day).1).sum + (splitMonths lengths day).2 = day := by
  induction lengths generalizing day with
  | nil => simp [splitMonths]
  | cons length rest ih =>
    simp only [splitMonths]
    split
    · simp
    · next h =>
      have hrest := ih (day - length)
      simp only [List.take_succ_cons, List.sum_cons]
      omega

lemma splitMonths_lt {lengths : List Nat} {day : Nat} (h : day < lengths.sum) :
    ∃ length, lengths[(splitMonths lengths day).1]? = some length ∧ (splitMonths lengths day).2 < length := by
  induction lengths generalizing day with
  | nil => cases h
  | cons length rest ih =>
    simp only [splitMonths]
    split
    · next hlt => exact ⟨length, rfl, hlt⟩
    · next hle =>
      rw [List.sum_cons] at h
      exact @ih (day - length) (by omega)

def Date.toDay (d : Date) : Int :=
  firstDay + daysBeforeYear d.year + ((monthLengths d.year).take (d.month - 1)).sum + (d.day - 1)

lemma toDay_dateOf (day : Int) : (dateOf day).toDay = day := by
  have ⟨hle, _⟩ := year_spans day
  have hsum := sum_take_splitMonths (monthLengths (yearOfDay day)) (dayOfYear day - 1)
  have hday : ((dayOfYear day - 1 : Nat) : Int) = day - firstDay - daysBeforeYear (yearOfDay day) := by
    rw [dayOfYear, Nat.add_sub_cancel, Int.toNat_of_nonneg (by omega)]
  simp only [dateOf, Date.toDay, Nat.add_sub_cancel]
  omega

lemma dateOf_injective : Function.Injective dateOf := Function.LeftInverse.injective toDay_dateOf

def Date.monthLength (d : Date) : Nat := (monthLengths d.year).getD (d.month - 1) 0

structure Date.Valid (d : Date) : Prop where
  month_pos : 0 < d.month
  month_le : d.month ≤ 12
  day_pos : 0 < d.day
  day_le : d.day ≤ d.monthLength

lemma Date.getElem?_monthLengths {d : Date} (h : d.month ≤ 12) :
    (monthLengths d.year)[d.month - 1]? = some d.monthLength := by
  have hlt : d.month - 1 < (monthLengths d.year).length := by
    change d.month - 1 < 12
    omega
  rw [monthLength, List.getD_eq_getElem?_getD, List.getElem?_eq_getElem hlt, Option.getD_some]

lemma Date.monthLength_bounds {d : Date} (h : d.month ≤ 12) : 28 ≤ d.monthLength ∧ d.monthLength ≤ 31 := by
  have hmem := List.mem_of_getElem? (getElem?_monthLengths h)
  simp only [monthLengths, List.mem_cons, List.not_mem_nil, or_false] at hmem
  split at hmem <;> omega

lemma valid_dateOf (day : Int) : (dateOf day).Valid := by
  have ⟨hle, hlt⟩ := year_spans day
  rw [daysBeforeYear_succ, ← sum_monthLengths] at hlt
  have hsum : dayOfYear day - 1 < (monthLengths (yearOfDay day)).sum := by
    rw [dayOfYear]
    omega
  obtain ⟨length, hlength, hleft⟩ := splitMonths_lt hsum
  have hmonth : (dateOf day).month ≤ 12 := (List.getElem?_eq_some_iff.1 hlength).1
  have heq := Date.getElem?_monthLengths hmonth
  refine ⟨Nat.succ_pos _, hmonth, Nat.succ_pos _, ?_⟩
  rw [← Option.some.inj (hlength.symm.trans heq)]
  exact hleft

lemma Date.Valid.day_le_max {d : Date} (h : d.Valid) : d.day ≤ 31 :=
  Nat.le_trans h.day_le (monthLength_bounds h.month_le).2

lemma Date.eq_of_code_eq {d d' : Date} (h : d.Valid) (h' : d'.Valid)
    (hcode : d.year * 10000 + d.month * 100 + d.day = d'.year * 10000 + d'.month * 100 + d'.day) : d = d' := by
  have hmonth := h.month_le
  have hmonth' := h'.month_le
  have hday := h.day_le_max
  have hday' := h'.day_le_max
  cases d
  cases d'
  simp only at hmonth hmonth' hday hday' hcode
  rw [Date.mk.injEq]
  omega

def codeOf (day : Int) : Int := (dateOf day).year * 10000 + (dateOf day).month * 100 + (dateOf day).day

lemma codeOf_injective : Function.Injective codeOf := fun _ _ h =>
  dateOf_injective (Date.eq_of_code_eq (valid_dateOf _) (valid_dateOf _) h)

lemma codeOf_bounds {day : Int} (hlow : firstDay ≤ day) (hhigh : day < 2 ^ 20) :
    0 ≤ codeOf day ∧ codeOf day < 2 ^ 56 := by
  have ⟨hle, hlt⟩ := year_spans day
  have hmonth := (valid_dateOf day).month_le
  have hday := (valid_dateOf day).day_le_max
  have hyear : (dateOf day).year = yearOfDay day := rfl
  have hpos : 0 < yearOfDay day := by
    simp only [daysBeforeYear, firstDay] at hlt hlow
    omega
  have hmax : yearOfDay day < 10000 := by
    simp only [daysBeforeYear, firstDay] at hle
    omega
  rw [codeOf, hyear]
  omega

end Calendar

namespace Identifier

lemma dayCode_bounds (x : Identifier) : 0 ≤ x.dayCode ∧ x.dayCode < 2 ^ 56 := by
  have hlow := x.raw.le_toInt
  have hhigh := x.raw.toInt_lt
  apply Calendar.codeOf_bounds
  · rw [dayNumber, toInt_millis, Calendar.firstDay, Calendar.dayMillis, perMillisecond]
    omega
  · rw [dayNumber, toInt_millis, Calendar.dayMillis, perMillisecond]
    omega

lemma toInt_dayCode (x : Identifier) : (Int64.ofInt x.dayCode).toInt = Calendar.codeOf x.dayNumber := by
  have ⟨hlow, hhigh⟩ := x.dayCode_bounds
  exact Int64.toInt_ofInt_of_le (by omega) (by omega)

lemma ofDigitChars_dayText (x : Identifier) : Nat.ofDigitChars 10 x.dayText.toList 0 = x.dayCode.toNat := by
  rw [dayText, Int.toString_eq_repr, Int.repr_eq_if, if_pos x.dayCode_bounds.1, Nat.toList_repr]
  exact Nat.ofDigitChars_toDigits (by decide) (by decide)

lemma dayText_eq_iff {x y : Identifier} : x.dayText = y.dayText ↔ x.dayNumber = y.dayNumber := by
  constructor
  · intro h
    have hcode : x.dayCode.toNat = y.dayCode.toNat := by
      rw [← ofDigitChars_dayText, h, ofDigitChars_dayText]
    have hx := x.dayCode_bounds
    have hy := y.dayCode_bounds
    exact Calendar.codeOf_injective (show x.dayCode = y.dayCode by omega)
  · intro h
    rw [dayText, dayText, dayCode, dayCode, date, date, h]

lemma dayNumber_le {x y : Identifier} (h : x.raw.toInt ≤ y.raw.toInt) : x.dayNumber ≤ y.dayNumber := by
  rw [dayNumber, dayNumber, toInt_millis, toInt_millis]
  exact Int.ediv_le_ediv (by decide) (Int.ediv_le_ediv (by decide) h)

lemma lt_of_dayNumber_lt {x y : Identifier} (h : x.dayNumber < y.dayNumber) : x < y := by
  rw [lt_iff_toInt]
  by_contra hle
  exact Int.not_le.2 h (dayNumber_le (Int.not_lt.1 hle))

lemma dayNumber_firstAt {millis : Int64} (h : HoldsMillis millis) :
    (firstAt millis).dayNumber = millis.toInt / Calendar.dayMillis := by
  rw [dayNumber, toInt_millis_firstAt h]

def firstOf (day : Int) : Identifier := firstAt (Int64.ofInt (day * Calendar.dayMillis))

def HoldsDay (day : Int) : Prop := -2 ^ 45 ≤ day * Calendar.dayMillis ∧ day * Calendar.dayMillis < 2 ^ 45

lemma dayNumber_firstOf {day : Int} (h : HoldsDay day) : (firstOf day).dayNumber = day := by
  obtain ⟨hlow, hhigh⟩ := h
  have hword : (Int64.ofInt (day * Calendar.dayMillis)).toInt = day * Calendar.dayMillis :=
    Int64.toInt_ofInt_of_le (by omega) (by omega)
  rw [firstOf, dayNumber_firstAt ⟨by omega, by omega⟩, hword]
  exact Int.mul_ediv_cancel _ (by decide)

lemma HoldsDay.lt {millis : Int} (h : HoldsDay (millis / Calendar.dayMillis)) : -2 ^ 45 < millis := by
  -- no day begins at the least millisecond
  simp only [HoldsDay, Calendar.dayMillis] at h
  omega

lemma HoldsDay.of_between {oldest now day : Int} (h : HoldsDay (oldest / Calendar.dayMillis)) (hnow : now < 2 ^ 45)
    (hge : oldest / Calendar.dayMillis ≤ day) (hle : day ≤ now / Calendar.dayMillis) : HoldsDay day := by
  simp only [HoldsDay, Calendar.dayMillis] at *
  omega

end Identifier

end Chronicle
