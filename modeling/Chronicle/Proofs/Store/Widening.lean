import Mathlib.Data.List.Perm.Subperm
import Chronicle.Proofs.Store.Window

namespace Chronicle

namespace Identifier

lemma dayNumber_least : least.dayNumber = -407227 := by decide +kernel

lemma dayNumber_greatest : greatest.dayNumber = 407226 := by decide +kernel

lemma holdsDay_or_first (x : Identifier) : HoldsDay x.dayNumber ∨ x.dayNumber = least.dayNumber := by
  have hlow := x.raw.le_toInt
  have hhigh := x.raw.toInt_lt
  rw [dayNumber_least]
  simp only [HoldsDay, dayNumber, toInt_millis, perMillisecond, Calendar.dayMillis]
  omega

lemma holdsDay_of_lt {day : Int} (hlow : least.dayNumber < day) (hhigh : day ≤ greatest.dayNumber) : HoldsDay day := by
  rw [dayNumber_least] at hlow
  rw [dayNumber_greatest] at hhigh
  simp only [HoldsDay, Calendar.dayMillis]
  omega

lemma day_of_holdsMillis {millis : Int64} (h : HoldsMillis millis) :
    least.dayNumber ≤ millis.toInt / Calendar.dayMillis ∧ millis.toInt / Calendar.dayMillis ≤ greatest.dayNumber := by
  obtain ⟨hlow, hhigh⟩ := h
  rw [dayNumber_least, dayNumber_greatest, Calendar.dayMillis]
  omega

lemma dayNumber_firstOf_least : (firstOf least.dayNumber).dayNumber = greatest.dayNumber := by decide +kernel

lemma pred_mono {x y : Identifier} (h : x ≤ y) : x.pred ≤ y.pred := by
  change x.raw ≤ y.raw at h
  change Saturating.sub x.raw 1 ≤ Saturating.sub y.raw 1
  rw [Int64.le_iff_toInt_le] at h ⊢
  rw [Saturating.sub, Saturating.sub, Saturating.toInt_int64, Saturating.toInt_int64]
  omega

lemma pred_le (x : Identifier) : x.pred ≤ x := by
  have hone : (1 : Int64).toInt = 1 := by decide
  have hmin := Int64.toInt_minValue
  have hlow := x.raw.le_toInt
  change Saturating.sub x.raw 1 ≤ x.raw
  rw [Int64.le_iff_toInt_le, Saturating.sub, Saturating.toInt_int64, hone]
  omega

end Identifier

namespace MemoryTables

open Identifier (firstOf HoldsDay)

variable {t : MemoryTables} {index : String} {ref : IndexRef} {day : Int} {days : Nat} {after after' : Option Identifier}

lemma refsOfDays_suffix (hle : ∀ x, Grows after' x → Grows after x) :
    t.refsOfDays index days day after' <:+ t.refsOfDays index days day after := by
  cases days with
  | zero => exact List.suffix_refl _
  | succ days =>
    obtain ⟨rows, hrows⟩ := Source.rowsAfter_suffix (t.lists_ofIndex index (firstOf day).dayText) hle
    exact ⟨rows, by rw [refsOfDays, refsOfDays, ← hrows, List.append_assoc]⟩

lemma refsOfDays_later_suffix (skipped : Nat) :
    t.refsOfDays index days (day + (skipped + 1)) none <:+ t.refsOfDays index (days + (skipped + 1)) day after := by
  induction skipped generalizing day after with
  | zero => exact List.suffix_append ..
  | succ skipped ih =>
    have hday : day + ((skipped + 1 : Nat) + 1) = day + 1 + (skipped + 1) := by omega
    rw [hday]
    exact ih.trans (List.suffix_append ..)

lemma refsFrom_suffix (t : MemoryTables) (index : String) {oldest oldest' : Identifier} (h : oldest ≤ oldest')
    (now : Int64) : t.refsFrom index oldest' now <:+ t.refsFrom index oldest now := by
  have hgrows (x : Identifier) (hx : Grows (some oldest'.pred) x) : Grows (some oldest.pred) x := by
    intro c hc
    obtain rfl := Option.some.inj hc
    have hle : oldest.pred.raw ≤ oldest'.pred.raw := Identifier.pred_mono h
    exact Int64.lt_of_le_of_lt hle (hx _ rfl)
  have hday : oldest.dayNumber ≤ oldest'.dayNumber := Identifier.dayNumber_le (Int64.le_iff_toInt_le.1 h)
  unfold refsFrom
  generalize oldest.dayNumber = day at hday
  generalize oldest'.dayNumber = day' at hday
  obtain rfl | hlt := Int.le_iff_eq_or_lt.1 hday
  · exact refsOfDays_suffix hgrows
  · obtain ⟨skipped, rfl⟩ : ∃ skipped : Nat, day' = day + (skipped + 1) := ⟨(day' - day - 1).toNat, by omega⟩
    by_cases hnone : now.toInt / Calendar.dayMillis - (day + (skipped + 1)) + 1 ≤ 0
    · rw [Int.toNat_of_nonpos hnone]
      exact List.nil_suffix
    · have hdays : (now.toInt / Calendar.dayMillis - day + 1).toNat =
          (now.toInt / Calendar.dayMillis - (day + (skipped + 1)) + 1).toNat + (skipped + 1) := by omega
      rw [hdays]
      refine (refsOfDays_suffix fun x _ => ?_).trans (refsOfDays_later_suffix skipped)
      simp [Grows]

lemma nodup_of_places {refs : List IndexRef} (h : refs.Pairwise fun ref ref' => ref.place < ref'.place) : refs.Nodup :=
  h.imp fun {ref ref'} hlt heq => by
    subst heq
    exact Int64.lt_irrefl hlt

lemma exists_split_of_nodup {refs : List IndexRef} (hnodup : refs.Nodup) (href : ref ∈ refs) :
    ∃ before later, refs = before ++ ref :: later ∧ (before ++ [ref]).Nodup := by
  obtain ⟨before, later, rfl⟩ := List.append_of_mem href
  have hsublist : (before ++ [ref]).Sublist (before ++ ref :: later) := by simp
  exact ⟨before, later, rfl, hnodup.sublist hsublist⟩

lemma exists_split_of_append {shown rest : List IndexRef} (hshown : shown.Nodup) (hrest : rest.Nodup)
    (hnew : ∀ before later, rest = before ++ ref :: later → ref ∉ shown → ∀ a ∈ shown, a ∉ before)
    (href : ref ∈ shown ++ rest) :
    ∃ before later, shown ++ rest = before ++ ref :: later ∧ (before ++ [ref]).Nodup := by
  by_cases hmem : ref ∈ shown
  · obtain ⟨before, later, rfl, hnodup⟩ := exists_split_of_nodup hshown hmem
    exact ⟨before, later ++ rest, by rw [List.append_assoc]; rfl, hnodup⟩
  · obtain ⟨before, later, heq, hnodup⟩ := exists_split_of_nodup hrest ((List.mem_append.1 href).resolve_left hmem)
    refine ⟨shown ++ before, later, by rw [heq, List.append_assoc], ?_⟩
    rw [List.append_assoc, List.nodup_append]
    refine ⟨hshown, hnodup, fun a ha b hb hab => ?_⟩
    subst hab
    rcases List.mem_append.1 hb with hb | hb
    · exact hnew before later heq hmem a ha hb
    · exact hmem (List.mem_singleton.1 hb ▸ ha)

namespace Dated

variable (h : t.Dated index) {oldest : Identifier}

include h

lemma mem_firstDay_iff (hfirst : oldest.dayNumber = Identifier.least.dayNumber) :
    ref ∈ (Source.ofIndex t index (firstOf oldest.dayNumber).dayText).rowsAfter
        (t.refsAfter index (firstOf oldest.dayNumber).dayText none) (some oldest.pred) ↔
      ref ∈ t.refsAfter index ref.place.dayText none ∧ ref.place.dayNumber = Identifier.greatest.dayNumber := by
  rw [hfirst, Source.rowsAfter, List.mem_filter, decide_eq_true_eq]
  constructor
  · rintro ⟨href, _⟩
    have hvalue := h _ _ href
    refine ⟨hvalue ▸ href, ?_⟩
    rw [← Identifier.dayText_eq_iff.1 hvalue, Identifier.dayNumber_firstOf_least]
  · rintro ⟨href, hnumber⟩
    rw [Identifier.dayText_eq_iff.2 (Identifier.dayNumber_firstOf_least.trans hnumber.symm)]
    refine ⟨href, fun c hc => ?_⟩
    obtain rfl := Option.some.inj hc
    have hlt : oldest < ref.place := by
      apply Identifier.lt_of_dayNumber_lt
      rw [hfirst, hnumber, Identifier.dayNumber_least, Identifier.dayNumber_greatest]
      decide
    exact Int64.lt_of_le_of_lt (Identifier.pred_le oldest) hlt

lemma not_mem_of_before (hfirst : oldest.dayNumber = Identifier.least.dayNumber) {before later : List IndexRef}
    (hdays : ∀ d, day ≤ d → d < day + days → HoldsDay d) (hlast : day + days ≤ Identifier.greatest.dayNumber + 1)
    (heq : t.refsOfDays index days day none = before ++ ref :: later)
    (href : ref ∉ (Source.ofIndex t index (firstOf oldest.dayNumber).dayText).rowsAfter
      (t.refsAfter index (firstOf oldest.dayNumber).dayText none) (some oldest.pred)) :
    ∀ a ∈ (Source.ofIndex t index (firstOf oldest.dayNumber).dayText).rowsAfter
      (t.refsAfter index (firstOf oldest.dayNumber).dayText none) (some oldest.pred), a ∉ before := by
  intro a ha hbefore
  have hpairwise : (before ++ ref :: later).Pairwise fun ref ref' => ref.place < ref'.place :=
    heq ▸ h.pairwise_refsOfDays hdays
  have hlt := (List.pairwise_append.1 hpairwise).2.2 a hbefore ref List.mem_cons_self
  have hle : a.place.dayNumber ≤ ref.place.dayNumber :=
    Identifier.dayNumber_le (Int.le_of_lt (Identifier.lt_iff_toInt.1 hlt))
  have hmem : ref ∈ t.refsOfDays index days day none := by
    rw [heq]
    simp
  have hplace := (h.mem_refsOfDays hdays).1 hmem
  have hlastDay := ((h.mem_firstDay_iff hfirst).1 ha).2
  exact href ((h.mem_firstDay_iff hfirst).2 ⟨hplace.1, by omega⟩)

lemma exists_nodup_split {now : Int64} (hnow : Identifier.HoldsMillis now) (href : ref ∈ t.refsFrom index oldest now) :
    ∃ before later, t.refsFrom index oldest now = before ++ ref :: later ∧ (before ++ [ref]).Nodup := by
  obtain ⟨hlow, hhigh⟩ := Identifier.day_of_holdsMillis hnow
  have hlater (d : Int) (hgt : Identifier.least.dayNumber < d) (hle : d ≤ now.toInt / Calendar.dayMillis) : HoldsDay d :=
    Identifier.holdsDay_of_lt hgt (Int.le_trans hle hhigh)
  by_cases hfirst : oldest.dayNumber = Identifier.least.dayNumber
  · obtain ⟨days, hcount⟩ : ∃ days : Nat, (now.toInt / Calendar.dayMillis - oldest.dayNumber + 1).toNat = days + 1 :=
      ⟨(now.toInt / Calendar.dayMillis - oldest.dayNumber).toNat, by omega⟩
    have hdays (d : Int) (hge : oldest.dayNumber + 1 ≤ d) (hlt : d < oldest.dayNumber + 1 + days) : HoldsDay d :=
      hlater d (by omega) (by omega)
    rw [refsFrom, hcount, refsOfDays] at href ⊢
    exact exists_split_of_append (nodup_of_places ((t.lists_ofIndex index _).ascending.filter _))
      (nodup_of_places (h.pairwise_refsOfDays hdays))
      (fun _ _ heq hnot => h.not_mem_of_before hfirst hdays (by omega) heq hnot) href
  · refine exists_split_of_nodup (nodup_of_places (h.pairwise_refsOfDays fun d hge hlt => ?_)) href
    rcases oldest.holdsDay_or_first with hholds | hleast
    · by_cases hgt : Identifier.least.dayNumber < d
      · exact hlater d hgt (by omega)
      · rw [Identifier.dayNumber_least] at hgt
        simp only [HoldsDay, Calendar.dayMillis] at *
        omega
    · exact absurd hleast hfirst

end Dated

end MemoryTables

namespace Collection

variable {ε : Type} [Entity ε] {c : Collection ε} {t : MemoryTables} {index : String} {found : IndexRef → Option ε}

lemma length_filterMap_le (hstores : ∀ ref e, found ref = some e ↔ c.Stores t ref.entity ref.place e)
    {refs : List IndexRef} (hnodup : refs.Nodup) : (refs.filterMap found).length ≤ t.versions.size := by
  have hlength : (refs.filterMap found).length =
      ((refs.filter fun ref => (found ref).isSome).map fun ref => VersionKey.mk c.table ref.entity ref.place).length := by
    rw [List.length_filterMap_eq_countP, List.length_map, List.countP_eq_length_filter]
  have hkeys : ((refs.filter fun ref => (found ref).isSome).map fun ref =>
      VersionKey.mk c.table ref.entity ref.place).Nodup := by
    refine (hnodup.filter _).map fun ref ref' heq => ?_
    obtain ⟨_, hentity, hplace⟩ := VersionKey.mk.inj heq
    cases ref
    cases ref'
    exact IndexRef.mk.injEq .. ▸ ⟨hplace, hentity⟩
  have hsize : t.versions.size = t.versions.keys.length := (List.length_map _).symm
  rw [hlength, hsize]
  refine (hkeys.subperm fun k hk => ?_).length_le
  obtain ⟨ref, href, rfl⟩ := List.mem_map.1 hk
  obtain ⟨e, he⟩ := Option.isSome_iff_exists.1 (List.mem_filter.1 href).2
  obtain ⟨v, hv, _⟩ := (hstores ref e).1 he
  rw [OrderedMap.mem_keys_iff, OrderedMap.contains, hv]
  rfl

def windowStart (now window : Int64) : Identifier := Identifier.firstAt (Saturating.sub now window)

lemma windowStart_le {now : Int64} (hnow : Identifier.HoldsMillis now) {narrow wide : Nat} (hle : narrow ≤ wide)
    (hwide : wide ≤ now.toInt + 2 ^ 45) : windowStart now (Int64.ofNat wide) ≤ windowStart now (Int64.ofNat narrow) := by
  obtain ⟨hlow, hhigh⟩ := hnow
  have hstart (window : Nat) (hwindow : window ≤ now.toInt + 2 ^ 45) :
      (windowStart now (Int64.ofNat window)).raw.toInt = (now.toInt - window) * Identifier.perMillisecond := by
    have hword : (Int64.ofNat window).toInt = window := Int64.toInt_ofNat_of_lt (by omega)
    have hsub : (Saturating.sub now (Int64.ofNat window)).toInt = now.toInt - window := by
      rw [Saturating.toInt_sub, hword] <;> omega
    rw [windowStart, Identifier.toInt_firstAt ⟨by omega, by omega⟩, hsub]
  refine Int64.le_iff_toInt_le.2 ?_
  rw [hstart wide hwide, hstart narrow (by omega), Identifier.perMillisecond]
  omega

lemma RowsRead.recent_ok (h : c.RowsRead t) (now window : Int64) {limit : Nat} (hlimit : limit ≠ 0) :
    ∃ es, c.recent t now index window limit = .ok es := by
  obtain ⟨found, hfound, _⟩ := h.exists_found
  exact ⟨_, recent_eq_refsFrom hfound now window hlimit⟩

lemma RowsRead.recent_widened (h : c.RowsRead t) (hdated : t.Dated index) {now narrow wide : Int64}
    (hnow : Identifier.HoldsMillis now) (hstart : windowStart now wide ≤ windowStart now narrow) {limit : Nat}
    (hlimit : t.versions.size ≤ limit) {es : List ε} (hes : c.recent t now index narrow limit = .ok es) :
    ∃ es', c.recent t now index wide limit = .ok es' ∧ ∀ e ∈ es, e ∈ es' := by
  have hne : limit ≠ 0 := by
    rintro rfl
    cases hes
  obtain ⟨found, hfound, hstores⟩ := h.exists_found
  obtain rfl := Except.ok.inj ((recent_eq_refsFrom hfound now narrow hne).symm.trans hes)
  refine ⟨_, recent_eq_refsFrom hfound now wide hne, fun e he => ?_⟩
  obtain ⟨ref, href, hf⟩ := List.mem_filterMap.1 (List.mem_of_mem_take he)
  have hmem := (MemoryTables.refsFrom_suffix t index hstart now).subset href
  obtain ⟨before, later, heq, hnodup⟩ := hdated.exists_nodup_split hnow hmem
  have hlength := (length_filterMap_le hstores hnodup).trans hlimit
  change e ∈ ((t.refsFrom index (windowStart now wide) now).filterMap found).take limit
  rw [heq, ← List.singleton_append, ← List.append_assoc, List.filterMap_append, List.take_append,
    List.take_of_length_le hlength]
  refine List.mem_append_left _ (List.mem_filterMap.2 ⟨ref, ?_, hf⟩)
  simp

end Collection

end Chronicle
