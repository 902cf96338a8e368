import Chronicle.Proofs.Calendar.Days
import Chronicle.Proofs.Store.Holders

namespace Chronicle

namespace MemoryTables

open Identifier (firstOf HoldsDay)

variable {t : MemoryTables} {index : String} {ref : IndexRef} {day : Int} {days : Nat} {after : Option Identifier}

def Dated (t : MemoryTables) (index : String) : Prop :=
  ∀ value, ∀ ref ∈ t.refsAfter index value none, value = ref.place.dayText

def refsOfDays (t : MemoryTables) (index : String) : Nat → Int → Option Identifier → List IndexRef
  | 0, _, _ => []
  | days + 1, day, after =>
    (Source.ofIndex t index (firstOf day).dayText).rowsAfter (t.refsAfter index (firstOf day).dayText none) after ++
      t.refsOfDays index days (day + 1) none

namespace Dated

variable (h : t.Dated index)

include h

lemma mem_iff (hday : HoldsDay day) : ref ∈ t.refsAfter index (firstOf day).dayText none ↔
    ref ∈ t.refsAfter index ref.place.dayText none ∧ ref.place.dayNumber = day := by
  constructor
  · intro href
    have hvalue := h _ _ href
    refine ⟨hvalue ▸ href, ?_⟩
    rw [← Identifier.dayText_eq_iff.1 hvalue, Identifier.dayNumber_firstOf hday]
  · rintro ⟨href, hnumber⟩
    rwa [Identifier.dayText_eq_iff.2 ((Identifier.dayNumber_firstOf hday).trans hnumber.symm)]

lemma mem_refsOfDays (hdays : ∀ d, day ≤ d → d < day + days → HoldsDay d) : ref ∈ t.refsOfDays index days day after ↔
    ref ∈ t.refsAfter index ref.place.dayText none ∧ (day ≤ ref.place.dayNumber ∧ ref.place.dayNumber < day + days) ∧
      (ref.place.dayNumber = day → Grows after ref.place) := by
  induction days generalizing day after with
  | zero =>
    simp only [refsOfDays, List.not_mem_nil, false_iff]
    omega
  | succ days ih =>
    rw [refsOfDays, List.mem_append, ih fun d hd hd' => hdays d (by omega) (by omega), Source.rowsAfter,
      List.mem_filter, h.mem_iff (hdays day (by omega) (by omega)), decide_eq_true_eq]
    constructor
    · rintro (⟨⟨href, hnumber⟩, hgrows⟩ | ⟨href, hspan, _⟩)
      · exact ⟨href, by omega, fun _ => hgrows⟩
      · exact ⟨href, by omega, fun hnumber => by omega⟩
    · rintro ⟨href, hspan, hgrows⟩
      by_cases hnumber : ref.place.dayNumber = day
      · exact .inl ⟨⟨href, hnumber⟩, hgrows hnumber⟩
      · exact .inr ⟨href, by omega, fun _ => by simp [Grows]⟩

lemma pairwise_refsOfDays (hdays : ∀ d, day ≤ d → d < day + days → HoldsDay d) :
    (t.refsOfDays index days day after).Pairwise fun ref ref' => ref.place < ref'.place := by
  induction days generalizing day after with
  | zero => exact List.Pairwise.nil
  | succ days ih =>
    have hrest : ∀ d, day + 1 ≤ d → d < day + 1 + days → HoldsDay d := fun d hd hd' => hdays d (by omega) (by omega)
    refine List.pairwise_append.2 ⟨(t.lists_ofIndex index _).ascending.filter _, ih hrest, fun ref href ref' href' => ?_⟩
    have hfirst := ((h.mem_iff (hdays day (by omega) (by omega))).1 (List.mem_filter.1 href).1).2
    have hlater := ((h.mem_refsOfDays hrest).1 href').2.1.1
    exact Identifier.lt_of_dayNumber_lt (by omega)

end Dated

def refsFrom (t : MemoryTables) (index : String) (oldest : Identifier) (now : Int64) : List IndexRef :=
  t.refsOfDays index (now.toInt / Calendar.dayMillis - oldest.dayNumber + 1).toNat oldest.dayNumber (some oldest.pred)

def refsSince (t : MemoryTables) (index : String) (oldest now : Int64) : List IndexRef :=
  t.refsOfDays index (now.toInt / Calendar.dayMillis - oldest.toInt / Calendar.dayMillis + 1).toNat
    (oldest.toInt / Calendar.dayMillis) (some (Identifier.firstAt oldest).pred)

section

variable {oldest now : Int64} (h : t.Dated index) (holdest : Identifier.HoldsMillis oldest)
  (hday : HoldsDay (oldest.toInt / Calendar.dayMillis)) (hnow : Identifier.HoldsMillis now)

include h hday hnow

lemma Dated.pairwise_refsSince : (t.refsSince index oldest now).Pairwise fun ref ref' => ref.place < ref'.place :=
  h.pairwise_refsOfDays fun _ hge hlt => hday.of_between hnow.2 hge (by omega)

include holdest

lemma Dated.mem_refsSince : ref ∈ t.refsSince index oldest now ↔ ref ∈ t.refsAfter index ref.place.dayText none ∧
    oldest.toInt ≤ ref.place.millis.toInt ∧ ref.place.dayNumber ≤ now.toInt / Calendar.dayMillis := by
  have hgrows : Grows (some (Identifier.firstAt oldest).pred) ref.place ↔
      oldest.toInt ≤ ref.place.millis.toInt := by
    rw [← Identifier.pred_firstAt_lt_iff holdest hday.lt]
    simp [Grows, Cursor.word, LT.lt]
  rw [refsSince, h.mem_refsOfDays fun _ hge hlt => hday.of_between hnow.2 hge (by omega), hgrows]
  refine and_congr_right fun _ => ?_
  rw [Identifier.dayNumber, Calendar.dayMillis]
  omega

end

end MemoryTables

namespace Collection

section

variable {ε : Type} {found : IndexRef → Option ε}

lemma take_filterMap (refs : List IndexRef) (want : Nat) : (refs.filterMap found).take want =
    (refs.take want).filterMap found ++
      ((refs.drop want).filterMap found).take (want - ((refs.take want).filterMap found).length) := by
  have hlength : ((refs.take want).filterMap found).length ≤ want :=
    (List.length_filterMap_le ..).trans (List.length_take_le ..)
  conv_lhs => rw [← List.take_append_drop want refs]
  rw [List.filterMap_append, List.take_append, List.take_of_length_le hlength]

end

variable {ε σ : Type} [Entity ε] [Tables σ] {c : Collection ε} {tables : σ} {t : MemoryTables} {index bucket : String}
  {found : IndexRef → Option ε}

section

variable (hfound : ∀ ref, c.version tables ref.entity ref.place = .ok (found ref))

include hfound

lemma lookupVersions_eq {want : Nat} {after next : Option Identifier} {refs : List IndexRef}
    (hpage : (Source.ofIndex tables index bucket).page want after = .ok ⟨refs, next⟩) :
    ∃ stale, c.lookupVersions tables index bucket after want = .ok ⟨refs.filterMap found, stale, next⟩ :=
  ⟨_, siftPage_eq hfound hpage⟩

lemma takeDay_eq {refs : List IndexRef} (h : (Source.ofIndex tables index bucket).Lists refs) {want : Nat}
    (hwant : 0 < want) (after : Option Identifier) : c.takeDay tables index bucket after want =
      .ok ((((Source.ofIndex tables index bucket).rowsAfter refs after).filterMap found).take want) := by
  induction hr : remaining after using Nat.strongRecOn generalizing after want with
  | ind r ih =>
    obtain ⟨next, hpage, hnext⟩ := Source.page_eq h hwant after
    obtain ⟨stale, hlookup⟩ := lookupVersions_eq hfound hpage
    rw [takeDay, hlookup, take_filterMap]
    have hlength := (List.length_filterMap_le found _).trans
      (List.length_take_le want ((Source.ofIndex tables index bucket).rowsAfter refs after))
    generalize (((Source.ofIndex tables index bucket).rowsAfter refs after).take want).filterMap found = got at *
    simp only
    split
    · next hfull => rw [hfull, Nat.sub_self, List.take_zero, List.append_nil]
    · next hshort =>
      cases next with
      | none =>
        rw [show _ = [] from hnext, List.filterMap_nil, List.take_nil, List.append_nil]
      | some next =>
        obtain ⟨hgrows, hrest⟩ := hnext
        simp only [hgrows, dif_pos]
        rw [ih _ (hr ▸ remaining_lt_of_grows hgrows) (by omega) (some next) rfl, hrest]
        rfl

end

lemma takeDays_eq (hfound : ∀ ref, c.version t ref.entity ref.place = .ok (found ref)) {want : Nat}
    (hwant : 0 < want) (days : Nat) (day : Int) (after : Option Identifier) :
    c.takeDays t index days (day * Calendar.dayMillis) after want =
      .ok (((t.refsOfDays index days day after).filterMap found).take want) := by
  induction days generalizing day after want with
  | zero => rw [takeDays, MemoryTables.refsOfDays, List.filterMap_nil, List.take_nil]
  | succ days ih =>
    have htake := takeDay_eq hfound (t.lists_ofIndex index (Identifier.firstOf day).dayText) hwant after
    rw [Identifier.firstOf] at htake
    rw [takeDays, MemoryTables.refsOfDays, List.filterMap_append, List.take_append, Identifier.firstOf, htake]
    generalize ((Source.ofIndex t index _).rowsAfter _ after).filterMap found = first
    simp only [bind, Except.bind, pure, Except.pure, List.length_take]
    split
    · next hfull =>
      have hnone : want - first.length = 0 := by omega
      rw [hnone, List.take_zero, List.append_nil]
    · next hshort =>
      have hle : first.length ≤ want := by omega
      rw [Nat.min_eq_right hle, show day * Calendar.dayMillis + Calendar.dayMillis = (day + 1) * Calendar.dayMillis by
        rw [Int.add_mul, Int.one_mul], ih (by omega)]

lemma RowsRead.exists_found (h : c.RowsRead t) : ∃ found : IndexRef → Option ε,
    (∀ ref, c.version t ref.entity ref.place = .ok (found ref)) ∧
      ∀ ref e, found ref = some e ↔ c.Stores t ref.entity ref.place e := by
  have hversion : ∀ ref : IndexRef, ∃ o, c.version t ref.entity ref.place = .ok o ∧
      ∀ e, o = some e ↔ c.Stores t ref.entity ref.place e := by
    intro ref
    change ∃ o, (t.versions.get? ⟨c.table, ref.entity, ref.place⟩).mapM c.decode = .ok o ∧ _
    cases hget : t.versions.get? ⟨c.table, ref.entity, ref.place⟩ with
    | none => exact ⟨none, rfl, fun e => by simp [Stores, hget]⟩
    | some v =>
      obtain ⟨e, he⟩ := h ref.entity ref.place v hget
      refine ⟨some e, mapM_some he.decode_eq, fun e' => ?_⟩
      rw [Option.some.injEq]
      constructor
      · rintro rfl
        exact ⟨v, hget, he⟩
      · exact Stores.unique ⟨v, hget, he⟩
  choose found hfound using hversion
  exact ⟨found, fun ref => (hfound ref).1, fun ref => (hfound ref).2⟩

structure Enumerates (c : Collection ε) (t : MemoryTables) (admits : Identifier → Prop) (versions : List ε) : Prop where
  complete : ∀ id u v, t.versions.get? ⟨c.table, id, u⟩ = some v → admits u → ∃ e ∈ versions, c.ReadsAs v id u e
  sound : ∀ e ∈ versions, ∃ id u, c.Stores t id u e ∧ admits u
  ascending : versions.Pairwise fun e e' => ∀ u ∈ Entity.update e, ∀ u' ∈ Entity.update e', u < u'

lemma RowsRead.enumerates {refs : List IndexRef} {admits : Identifier → Prop} (h : c.RowsRead t)
    (hstores : ∀ ref e, found ref = some e ↔ c.Stores t ref.entity ref.place e)
    (hrefs : refs.Pairwise fun ref ref' => ref.place < ref'.place) (hadmits : ∀ ref ∈ refs, admits ref.place)
    (hpresent : ∀ id u e, c.Stores t id u e → admits u → ⟨u, id⟩ ∈ refs) :
    c.Enumerates t admits (refs.filterMap found) where
  complete id u v hget hu := by
    obtain ⟨e, he⟩ := h id u v hget
    have hstored : c.Stores t id u e := ⟨v, hget, he⟩
    exact ⟨e, List.mem_filterMap.2 ⟨⟨u, id⟩, hpresent id u e hstored hu, (hstores _ _).2 hstored⟩, he⟩
  sound e he := by
    obtain ⟨ref, href, hf⟩ := List.mem_filterMap.1 he
    exact ⟨ref.entity, ref.place, (hstores ref e).1 hf, hadmits ref href⟩
  ascending := by
    refine List.pairwise_filterMap.2 (hrefs.imp ?_)
    intro ref ref' hlt e he e' he' u hu u' hu'
    obtain ⟨_, _, hr⟩ := (hstores ref e).1 he
    obtain ⟨_, _, hr'⟩ := (hstores ref' e').1 he'
    obtain rfl := Option.some.inj (hr.entity_update.symm.trans hu)
    obtain rfl := Option.some.inj (hr'.entity_update.symm.trans hu')
    exact hlt

lemma daysUntil_eq (day now : Int) :
    daysUntil (day * Calendar.dayMillis) now = (now / Calendar.dayMillis - day + 1).toNat := by
  rw [daysUntil, Calendar.dayMillis]
  omega

lemma recent_eq_refsFrom (hfound : ∀ ref, c.version t ref.entity ref.place = .ok (found ref)) (now window : Int64)
    {limit : Nat} (hlimit : limit ≠ 0) : c.recent t now index window limit =
      .ok (((t.refsFrom index (Identifier.firstAt (Saturating.sub now window)) now).filterMap found).take limit) := by
  rw [recent, if_neg hlimit]
  change c.takeDays .. = _
  rw [daysUntil_eq]
  exact takeDays_eq hfound (Nat.pos_of_ne_zero hlimit) ..

lemma recent_eq_take (hfound : ∀ ref, c.version t ref.entity ref.place = .ok (found ref)) {now window : Int64}
    (holdest : Identifier.HoldsMillis (Saturating.sub now window)) {limit : Nat} (hlimit : limit ≠ 0) :
    c.recent t now index window limit =
      .ok (((t.refsSince index (Saturating.sub now window) now).filterMap found).take limit) := by
  rw [recent_eq_refsFrom hfound now window hlimit, MemoryTables.refsFrom, Identifier.dayNumber_firstAt holdest]
  rfl

lemma RowsRead.recent_eq (h : c.RowsRead t) (hdated : t.Dated index)
    (hpresent : ∀ id u e, c.Stores t id u e → ⟨u, id⟩ ∈ t.refsAfter index u.dayText none) {now window : Int64}
    (hnow : Identifier.HoldsMillis now)
    (hday : -2 ^ 45 ≤ (now.toInt - window.toInt) / Calendar.dayMillis * Calendar.dayMillis)
    (holdest : now.toInt - window.toInt < 2 ^ 45) :
    ∃ versions, c.Enumerates t (fun u => now.toInt - window.toInt ≤ u.millis.toInt ∧
        u.dayNumber ≤ now.toInt / Calendar.dayMillis) versions ∧
      ∀ limit, limit ≠ 0 → c.recent t now index window limit = .ok (versions.take limit) := by
  have hholds : Identifier.HoldsDay ((now.toInt - window.toInt) / Calendar.dayMillis) := by
    refine ⟨hday, ?_⟩
    rw [Calendar.dayMillis]
    omega
  have hlow := hholds.lt
  have hword : (Saturating.sub now window).toInt = now.toInt - window.toInt :=
    Saturating.toInt_sub (by omega) (by omega)
  rw [← hword] at hholds holdest ⊢
  have hheld : Identifier.HoldsMillis (Saturating.sub now window) := ⟨Int.le_of_lt hholds.lt, holdest⟩
  obtain ⟨found, hfound, hstores⟩ := h.exists_found
  refine ⟨_, h.enumerates hstores (hdated.pairwise_refsSince hholds hnow) (fun ref href => ?_)
    (fun id u e he hu => ?_), fun limit hlimit => recent_eq_take hfound hheld hlimit⟩
  · exact ((hdated.mem_refsSince hheld hholds hnow).1 href).2
  · exact (hdated.mem_refsSince hheld hholds hnow).2 ⟨hpresent id u e he, hu⟩

end Collection

end Chronicle
