import Mathlib.Data.Int.ConditionallyCompleteOrder
import Mathlib.Order.ConditionallyCompleteLattice.Basic
import Mathlib.Tactic.Conv
import Chronicle.Proofs.Calendar.Days

/-! The calendar as a count of days from the first of January 1970. -/

namespace Chronicle.Calendar

def Date.next (d : Date) : Date :=
  if d.day < d.monthLength then { d with day := d.day + 1 }
  else if d.month < 12 then ⟨d.year, d.month + 1, 1⟩
  else ⟨d.year + 1, 1, 1⟩

/-- The date that a day falls on, as one finds it by counting the days from the epoch. -/
inductive Falls : Int → Date → Prop
  | epoch : Falls 0 ⟨1970, 1, 1⟩
  | next {day : Int} {d : Date} (h : Falls day d) : Falls (day + 1) d.next
  | prev {day : Int} {d : Date} (valid : d.Valid) (h : Falls (day + 1) d.next) : Falls day d

variable {d : Date} {day : Int} {year : Int}

lemma monotone_daysBeforeYear : Monotone daysBeforeYear :=
  monotone_int_of_le_succ fun year => by
    rw [daysBeforeYear_succ]
    omega

lemma yearOfDay_eq (hle : daysBeforeYear year ≤ day - firstDay) (hlt : day - firstDay < daysBeforeYear (year + 1)) :
    yearOfDay day = year := by
  have ⟨hle', hlt'⟩ := year_spans day
  refine Int.le_antisymm (Int.not_lt.1 fun h => ?_) (Int.not_lt.1 fun h => ?_)
  · have := monotone_daysBeforeYear h
    omega
  · have := monotone_daysBeforeYear h
    omega

lemma splitMonths_sum_take {lengths : List Nat} {month length left : Nat} (hlength : lengths[month]? = some length)
    (hleft : left < length) : splitMonths lengths ((lengths.take month).sum + left) = (month, left) := by
  induction lengths generalizing month with
  | nil => cases hlength
  | cons first rest ih =>
    cases month with
    | zero =>
      obtain rfl : first = length := by simpa using hlength
      simp [splitMonths, hleft]
    | succ month =>
      have hsub : first + (rest.take month).sum + left - first = (rest.take month).sum + left := by omega
      rw [List.take_succ_cons, List.sum_cons, splitMonths, if_neg (by omega), hsub, ih hlength]

lemma sum_take_succ {lengths : List Nat} {month length : Nat} (hlength : lengths[month]? = some length) :
    (lengths.take (month + 1)).sum = (lengths.take month).sum + length := by
  rw [List.take_add_one, hlength, List.sum_append]
  simp

lemma sum_take_le (lengths : List Nat) (month : Nat) : (lengths.take month).sum ≤ lengths.sum := by
  conv_rhs => rw [← List.take_append_drop month lengths, List.sum_append]
  exact Nat.le_add_right _ _

namespace Date

lemma daysBeforeYear_le_toDay (d : Date) (h : 0 < d.day) : daysBeforeYear d.year ≤ d.toDay - firstDay := by
  rw [toDay]
  omega

lemma Valid.toDay_lt (h : d.Valid) : d.toDay - firstDay < daysBeforeYear (d.year + 1) := by
  have hpos := h.day_pos
  have hday := h.day_le
  have hsum := sum_take_succ (getElem?_monthLengths h.month_le)
  have hle := sum_take_le (monthLengths d.year) (d.month - 1 + 1)
  rw [sum_monthLengths] at hle
  rw [daysBeforeYear_succ, toDay]
  omega

lemma Valid.yearOfDay_toDay (h : d.Valid) : yearOfDay d.toDay = d.year :=
  yearOfDay_eq (d.daysBeforeYear_le_toDay h.day_pos) h.toDay_lt

lemma Valid.dateOf_toDay (h : d.Valid) : dateOf d.toDay = d := by
  have hpos := h.day_pos
  have hday := h.day_le
  have hleft : dayOfYear d.toDay - 1 = ((monthLengths d.year).take (d.month - 1)).sum + (d.day - 1) := by
    rw [dayOfYear, h.yearOfDay_toDay, toDay]
    omega
  have hsplit := splitMonths_sum_take (getElem?_monthLengths h.month_le) (show d.day - 1 < d.monthLength by omega)
  rw [dateOf, h.yearOfDay_toDay, hleft, hsplit]
  change (⟨d.year, d.month - 1 + 1, d.day - 1 + 1⟩ : Date) = d
  rw [Nat.sub_add_cancel h.month_pos, Nat.sub_add_cancel hpos]

lemma monthLength_pos (h : d.month ≤ 12) : 0 < d.monthLength :=
  Nat.lt_of_lt_of_le (by decide) (monthLength_bounds h).1

lemma Valid.next (h : d.Valid) : d.next.Valid := by
  rw [Date.next]
  split
  · next hday => exact ⟨h.month_pos, h.month_le, Nat.succ_pos _, hday⟩
  · split
    · next hmonth => exact ⟨Nat.succ_pos _, hmonth, Nat.one_pos, monthLength_pos hmonth⟩
    · have hfirst : 1 ≤ 12 := by decide
      exact ⟨Nat.one_pos, hfirst, Nat.one_pos, monthLength_pos hfirst⟩

lemma Valid.toDay_next (h : d.Valid) : d.next.toDay = d.toDay + 1 := by
  have hpos := h.day_pos
  have hday := h.day_le
  have hmonth := h.month_pos
  have hle := h.month_le
  have hsum := sum_take_succ (getElem?_monthLengths hle)
  rw [Date.next]
  split
  · simp only [toDay]
    omega
  · rw [Nat.sub_add_cancel hmonth] at hsum
    split
    · simp only [toDay, Nat.add_sub_cancel, hsum]
      omega
    · have hlast : d.month = 12 := by omega
      have hall : (monthLengths d.year).take 12 = monthLengths d.year := rfl
      rw [hlast, hall, sum_monthLengths] at hsum
      simp only [toDay, daysBeforeYear_succ, hsum]
      rw [hlast]
      simp
      omega

end Date

lemma dateOf_add_one (day : Int) : dateOf (day + 1) = (dateOf day).next := by
  have h := valid_dateOf day
  rw [← h.next.dateOf_toDay, h.toDay_next, toDay_dateOf]

lemma falls_iff : Falls day d ↔ d = dateOf day := by
  constructor
  · intro h
    induction h with
    | epoch => decide
    | next h ih => rw [ih, dateOf_add_one]
    | @prev day d valid h ih =>
      have hday := congrArg Date.toDay ih
      rw [valid.toDay_next, toDay_dateOf] at hday
      rw [← valid.dateOf_toDay, add_right_cancel hday]
  · rintro rfl
    induction day with
    | zero => exact .epoch
    | succ day ih => exact dateOf_add_one day ▸ ih.next
    | pred day ih =>
      refine .prev (valid_dateOf _) ?_
      rw [← dateOf_add_one, Int.sub_add_cancel]
      exact ih

lemma falls_dateOf (day : Int) : Falls day (dateOf day) := falls_iff.2 rfl

lemma falls_toDay (h : d.Valid) : Falls d.toDay d := falls_iff.2 h.dateOf_toDay.symm

end Chronicle.Calendar
