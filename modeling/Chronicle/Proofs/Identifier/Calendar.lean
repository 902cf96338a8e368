import Mathlib.Algebra.Order.BigOperators.Group.List
import Chronicle.Proofs.Calendar.Periods

namespace Chronicle

namespace Calendar

structure Moment.Is (t : Moment) (millis : Int) : Prop where
  falls : Falls (millis / dayMillis) t.date
  hour_lt : t.hour < 24
  minute_lt : t.minute < 60
  second_lt : t.second < 60
  milli_lt : t.milli < 1000
  passed : millis % dayMillis = ((t.hour * 60 + t.minute) * 60 + t.second) * 1000 + t.milli

lemma Moment.is_ofMillis (millis : Int) : (ofMillis millis).Is millis := by
  have hlt : (millis % dayMillis).toNat < 86400000 := by
    rw [dayMillis]
    omega
  refine ⟨falls_dateOf _, ?_, ?_, ?_, ?_, ?_⟩ <;> simp only [ofMillis]
  · omega
  · exact Nat.mod_lt _ (by decide)
  · exact Nat.mod_lt _ (by decide)
  · exact Nat.mod_lt _ (by decide)
  · have hnonneg : 0 ≤ millis % dayMillis := Int.emod_nonneg _ (by decide)
    omega

end Calendar

def word32? (n : Int) : Option Int := if -2 ^ 31 ≤ n ∧ n < 2 ^ 31 then some n else none

def addWeighted? (sum : Int) : List (Int × Int) → Option Int
  | [] => some sum
  | (n, weight) :: terms => do
    let product ← word32? (n * weight)
    let sum ← word32? (sum + product)
    addWeighted? sum terms

lemma addWeighted?_eq {sum : Int} {terms : List (Int × Int)} (hsum : 0 ≤ sum) (hterms : ∀ t ∈ terms, 0 ≤ t.1 * t.2)
    (hlt : sum + (terms.map fun t => t.1 * t.2).sum < 2 ^ 31) :
    addWeighted? sum terms = some (sum + (terms.map fun t => t.1 * t.2).sum) := by
  induction terms generalizing sum with
  | nil => simp [addWeighted?]
  | cons t terms ih =>
    obtain ⟨ht, hterms⟩ := List.forall_mem_cons.1 hterms
    have hrest : 0 ≤ (terms.map fun t => t.1 * t.2).sum := List.sum_nonneg (List.forall_mem_map.2 hterms)
    rw [List.map_cons, List.sum_cons] at hlt ⊢
    rw [addWeighted?, word32?, if_pos (by omega), Option.bind_eq_bind, Option.bind_some, word32?, if_pos (by omega),
      Option.bind_some, ih (by omega) hterms (by omega), Int.add_assoc]

lemma addWeighted?_pair {a b weight : Int} (ha : 0 ≤ a * weight) (hb : 0 ≤ b) (hlt : a * weight + b < 2 ^ 31) :
    addWeighted? 0 [(a, weight), (b, 1)] = some (a * weight + b) := by
  have h := @addWeighted?_eq 0 [(a, weight), (b, 1)] (Int.le_refl 0)
  simp only [List.forall_mem_cons, List.map_cons, List.sum_cons, List.map_nil, List.sum_nil, Int.zero_add, Int.mul_one,
    Int.add_zero] at h
  exact h ⟨ha, hb, nofun⟩ hlt

lemma addWeighted?_triple {a b c weight weight' : Int} (ha : 0 ≤ a * weight) (hb : 0 ≤ b * weight') (hc : 0 ≤ c)
    (hlt : a * weight + b * weight' + c < 2 ^ 31) :
    addWeighted? 0 [(a, weight), (b, weight'), (c, 1)] = some (a * weight + b * weight' + c) := by
  have h := @addWeighted?_eq 0 [(a, weight), (b, weight'), (c, 1)] (Int.le_refl 0)
  simp only [List.forall_mem_cons, List.map_cons, List.sum_cons, List.map_nil, List.sum_nil, Int.zero_add, Int.mul_one,
    Int.add_zero, ← Int.add_assoc] at h
  exact h ⟨ha, hb, hc, nofun⟩ hlt

namespace Identifier

variable (x : Identifier) {y z : Identifier}

lemma dayNumber_bounds : -407227 ≤ x.dayNumber ∧ x.dayNumber ≤ 407226 := by
  have hlow := x.raw.le_toInt
  have hhigh := x.raw.toInt_lt
  rw [dayNumber, toInt_millis, perMillisecond, Calendar.dayMillis]
  omega

lemma year_bounds : 854 < x.date.year ∧ x.date.year < 3085 := by
  have ⟨hlow, hhigh⟩ := x.dayNumber_bounds
  exact Calendar.yearOfDay_bounds (by omega) (by omega)

lemma week_bounds : 854 < (Calendar.weekOf x.dayNumber).year ∧ (Calendar.weekOf x.dayNumber).year < 3085 := by
  have ⟨hlow, hhigh⟩ := x.dayNumber_bounds
  rw [Calendar.weekOf_eq]
  exact Calendar.yearOfDay_bounds (by omega) (by omega)

lemma ofMillis?_millis : Calendar.Moment.ofMillis? x.millis.toInt = some (.ofMillis x.millis.toInt) := by
  have ⟨hlow, hhigh⟩ := x.year_bounds
  rw [Calendar.Moment.ofMillis?, if_pos]
  change Calendar.Moment.firstYear ≤ x.date.year ∧ x.date.year ≤ Calendar.Moment.lastYear
  rw [Calendar.Moment.firstYear, Calendar.Moment.lastYear]
  omega

lemma createdAt_eq : x.createdAt = .ofMillis x.millis.toInt := by
  rw [createdAt, ofMillis?_millis, Option.getD_some]

lemma date_createdAt : x.createdAt.date = x.date := by
  rw [createdAt_eq, Calendar.Moment.ofMillis, date, dayNumber]

structure Coded (x : Identifier) : Prop where
  day : addWeighted? 0 [(x.createdAt.date.year, 10000), (x.createdAt.date.month, 100), (x.createdAt.date.day, 1)] =
    some x.dayCode
  month : addWeighted? 0 [(x.createdAt.date.year, 100), (x.createdAt.date.month, 1)] = some x.monthCode
  ordinal : ∃ ordinal : Nat, Calendar.IsOrdinalOf ordinal x.createdAt.date.year x.dayNumber ∧
    addWeighted? 0 [(x.createdAt.date.year, 1000), (ordinal, 1)] = some x.ordinalCode
  week : ∃ week, Calendar.IsWeekOf week x.dayNumber ∧
    addWeighted? 0 [(week.year, 100), (week.number, 1)] = some x.weekCode

lemma coded : x.Coded := by
  have ⟨hlow, hhigh⟩ := x.year_bounds
  have hvalid : x.date.Valid := Calendar.valid_dateOf _
  have hmonth := hvalid.month_le
  have hday := hvalid.day_le_max
  have hordinal := Calendar.dayOfYear_le x.dayNumber
  have ⟨hlow', hhigh'⟩ := x.week_bounds
  have hweek := Calendar.weekOf_number_le x.dayNumber
  refine ⟨?_, ?_, ⟨Calendar.dayOfYear x.dayNumber, ?_, ?_⟩, ⟨Calendar.weekOf x.dayNumber, ?_, ?_⟩⟩
  · rw [date_createdAt]
    exact addWeighted?_triple (by omega) (by omega) (by omega) (by omega)
  · rw [date_createdAt]
    exact addWeighted?_pair (by omega) (by omega) (by omega)
  · rw [date_createdAt]
    exact Calendar.isOrdinalOf_dayOfYear x.dayNumber
  · rw [date_createdAt]
    exact addWeighted?_pair (by omega) (by omega) (by omega)
  · exact Calendar.isWeekOf_weekOf x.dayNumber
  · exact addWeighted?_pair (by omega) (by omega) (by omega)

lemma dayCode_eq_iff : y.dayCode = z.dayCode ↔ y.dayNumber = z.dayNumber :=
  Calendar.codeOf_injective.eq_iff

lemma ordinalCode_eq_iff : y.ordinalCode = z.ordinalCode ↔ y.dayNumber = z.dayNumber :=
  Calendar.strictMono_ordinalCodeOf.injective.eq_iff

lemma monthCode_eq_iff : y.monthCode = z.monthCode ↔
    y.createdAt.date.year = z.createdAt.date.year ∧ y.createdAt.date.month = z.createdAt.date.month := by
  rw [date_createdAt, date_createdAt]
  exact Calendar.monthCodeOf_eq_iff

lemma weekCode_eq_iff : y.weekCode = z.weekCode ↔ Calendar.SameWeek y.dayNumber z.dayNumber :=
  Calendar.weekCodeOf_eq_iff.trans Calendar.sameWeek_iff.symm

theorem codes_in_order_of_periods :
    (∀ y : Identifier, Calendar.Moment.ofMillis? y.millis.toInt = some y.createdAt ∧ y.createdAt.Is y.millis.toInt ∧
      y.Coded) ∧
    (∀ y z : Identifier, y ≤ z → y.dayCode ≤ z.dayCode ∧ y.monthCode ≤ z.monthCode ∧ y.weekCode ≤ z.weekCode ∧
      y.ordinalCode ≤ z.ordinalCode) ∧
    ∀ y z : Identifier,
      (y.dayCode = z.dayCode ↔ y.millis.toInt / Calendar.dayMillis = z.millis.toInt / Calendar.dayMillis) ∧
      (y.dayText = z.dayText ↔ y.millis.toInt / Calendar.dayMillis = z.millis.toInt / Calendar.dayMillis) ∧
      (y.ordinalCode = z.ordinalCode ↔ y.millis.toInt / Calendar.dayMillis = z.millis.toInt / Calendar.dayMillis) ∧
      (y.monthCode = z.monthCode ↔
        y.createdAt.date.year = z.createdAt.date.year ∧ y.createdAt.date.month = z.createdAt.date.month) ∧
      (y.weekCode = z.weekCode ↔
        Calendar.SameWeek (y.millis.toInt / Calendar.dayMillis) (z.millis.toInt / Calendar.dayMillis)) := by
  refine ⟨fun y => ⟨?_, ?_, y.coded⟩, fun y z h => ?_, fun y z => ?_⟩
  · rw [createdAt_eq, ofMillis?_millis]
  · rw [createdAt_eq]
    exact Calendar.Moment.is_ofMillis _
  · have hday : y.dayNumber ≤ z.dayNumber := dayNumber_le (Int64.le_iff_toInt_le.1 h)
    exact ⟨Calendar.strictMono_codeOf.monotone hday, Calendar.monotone_monthCodeOf hday,
      Calendar.monotone_weekCodeOf hday,
      Calendar.strictMono_ordinalCodeOf.monotone hday⟩
  · exact ⟨dayCode_eq_iff, dayText_eq_iff, ordinalCode_eq_iff, monthCode_eq_iff, weekCode_eq_iff⟩

theorem codes_in_order_of_periods_across_years :
    let y := lastAt 1609459199999
    let z := firstAt 1609459200000
    y ≤ z ∧ y.createdAt = ⟨⟨2020, 12, 31⟩, 23, 59, 59, 999⟩ ∧ z.createdAt = ⟨⟨2021, 1, 1⟩, 0, 0, 0, 0⟩ ∧
    (y.dayCode = 20201231 ∧ z.dayCode = 20210101) ∧ (y.ordinalCode = 2020366 ∧ z.ordinalCode = 2021001) ∧
    (y.weekCode = 202053 ∧ z.weekCode = 202053) ∧ y.Coded ∧ y.monthCode ≤ z.monthCode ∧
    Calendar.SameWeek (y.millis.toInt / Calendar.dayMillis) (z.millis.toInt / Calendar.dayMillis) := by
  intro y z
  have hle : y ≤ z := by decide +kernel
  have hweek : y.weekCode = 202053 ∧ z.weekCode = 202053 := by decide +kernel
  have ⟨heach, hordered, hequal⟩ := codes_in_order_of_periods
  exact ⟨hle, by decide +kernel, by decide +kernel, by decide +kernel, by decide +kernel, hweek, (heach y).2.2,
    (hordered y z hle).2.1, (hequal y z).2.2.2.2.1 (hweek.1.trans hweek.2.symm)⟩

example : (⟨-1⟩ : Identifier).createdAt = ⟨⟨1969, 12, 31⟩, 23, 59, 59, 999⟩ := by decide +kernel

end Identifier

end Chronicle
