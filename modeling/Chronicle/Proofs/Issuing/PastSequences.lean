import Mathlib.Data.Finset.Card
import Chronicle.Proofs.Issuing.Repeats

namespace Chronicle.Issuer

variable {γ : Type} [Clock γ] {start s : Issuer} {millis : Int64} {node : Node} {log : List (Turn γ)} {k : Nat}

def asks (log : List (Turn γ)) : List Int64 := log.filterMap Turn.asked

def nextAfter : Nat → Option UInt16
  | 0 => none
  | k + 1 => some (.ofNat (min (k + 1) (Identifier.lastSequence + 1)))

lemma size_insert_makeRoom_le (h : s.past.size ≤ pastLimit) (next : UInt16) :
    ((s.makeRoom millis).insert millis next).size ≤ pastLimit := by
  rw [OrderedMap.size_insert, makeRoom]
  by_cases hfull : pastLimit ≤ s.past.size ∧ !s.past.contains millis
  · have hpos : 0 < pastLimit := by decide
    have hsize : s.past.eraseMin.size = s.past.size - 1 := List.length_tail
    rw [if_pos hfull, hsize]
    split <;> omega
  · rw [if_neg hfull]
    split
    · exact h
    · next hnew => exact Nat.lt_of_not_le fun hle => hfull ⟨hle, by simpa using hnew⟩

namespace Turn

variable {t : Turn γ} {x : Identifier}

def backdated (t : Turn γ) : Option Identifier := t.asked.bind fun _ => t.given

/-- The use drops `millis`, the oldest of as many milliseconds as are remembered, for one that is not among them. -/
structure Drops (t : Turn γ) (millis : Int64) : Prop extends t.Forgets millis where
  filled : t.before.past.size = pastLimit
  dropped : t.after.past.contains millis = false

def AnswersInTurn (t : Turn γ) (node : Node) (millis : Int64) (k : Nat) : Prop :=
  (k ≤ Identifier.lastSequence → ∃ x, t.before.issueAt millis = .ok (x, t.after) ∧
    x.millis = millis ∧ x.sequence.toNat = k ∧ x.node = node) ∧
  (Identifier.lastSequence < k → t.before.issueAt millis = .error (.millisecondFull millis) ∧ t.after = t.before)

omit [Clock γ] in
lemma use_of_asked (h : t.asked = some millis) : t.use = .issueAt millis := by
  obtain ⟨s, use⟩ := t
  cases use with
  | issueAt asked => exact congrArg _ (Option.some.inj h)
  | issue clock => cases h
  | assignNode node => cases h

lemma asked_of_backdated (h : t.backdated = some x) : ∃ millis, t.asked = some millis ∧ t.given = some x :=
  Option.bind_eq_some_iff.1 h

lemma size_after (h : t.before.past.size ≤ pastLimit) : t.after.past.size ≤ pastLimit := by
  cases ha : t.asked with
  | none => rwa [past_of_not_asked ha]
  | some millis =>
    obtain ⟨s, use⟩ := t
    obtain rfl : use = .issueAt millis := use_of_asked ha
    cases hp : s.issueAt millis with
    | error err => rwa [after_of_error hp]
    | ok p =>
      obtain ⟨x, t⟩ := p
      rw [after_of_ok hp]
      obtain ⟨_, _, _, _, _, _, rfl⟩ := issueAt_ok hp
      exact size_insert_makeRoom_le h _

lemma Forgets.drops (h : t.Forgets millis) (hsize : t.before.past.size ≤ pastLimit) : t.Drops millis := by
  refine ⟨h, Nat.le_antisymm hsize h.full, ?_⟩
  obtain ⟨other, hasked, hnew⟩ := h.asks
  obtain ⟨s, use⟩ := t
  obtain rfl : use = .issueAt other := use_of_asked hasked
  have hheld : s.past.contains millis = true := by
    obtain ⟨e, he, rfl⟩ := Option.map_eq_some_iff.1 h.oldest
    rw [OrderedMap.contains, OrderedMap.get?_eq_some_iff.2 (List.mem_of_head? he)]
    rfl
  have hne : millis ≠ other := by
    rintro rfl
    exact Bool.false_ne_true (hnew.symm.trans hheld)
  obtain ⟨x, hx⟩ := Option.isSome_iff_exists.1 h.gives
  cases hp : s.issueAt other with
  | error err => simp [given, hp, Except.toOption] at hx
  | ok p =>
    obtain ⟨x, t⟩ := p
    rw [after_of_ok hp]
    obtain ⟨_, _, _, _, _, _, rfl⟩ := issueAt_ok hp
    rw [makeRoom, if_pos ⟨h.full, by simpa using hnew⟩, OrderedMap.contains, OrderedMap.get?_insert, if_neg hne,
      OrderedMap.get?_eraseMin, if_pos h.oldest]
    rfl

end Turn

lemma Run.size_past (h : Run start log s) (hpast : start.past.size ≤ pastLimit) : s.past.size ≤ pastLimit := by
  induction h with
  | start => exact hpast
  | use h use ih => exact Turn.size_after ih

lemma Run.exists_run_before (h : Run start log s) {t : Turn γ} (ht : t ∈ log) :
    ∃ older : List (Turn γ), Run start older t.before := by
  induction h with
  | start => cases ht
  | @use log s h use ih =>
    rcases List.mem_cons.1 ht with rfl | ht
    · exact ⟨log, h⟩
    · exact ih ht

lemma getD_nextAfter (k : Nat) : (nextAfter k).getD 0 = .ofNat (min k (Identifier.lastSequence + 1)) := by
  cases k <;> rfl

lemma nextAfter_succ_of_lt (hk : Identifier.lastSequence < k) : nextAfter (k + 1) = nextAfter k := by
  cases k with
  | zero => cases hk
  | succ k => rw [nextAfter, nextAfter, Nat.min_eq_right hk, Nat.min_eq_right (Nat.le_succ_of_le hk)]

lemma toNat_ofNat_of_le (hk : k ≤ Identifier.lastSequence + 1) : (UInt16.ofNat k).toNat = k := by
  simp only [Identifier.lastSequence] at hk
  rw [UInt16.toNat_ofNat', Nat.mod_eq_of_lt (by omega)]

section Counting

variable (hnode : s.node = some node) (hroom : s.makeRoom millis = s.past) (hget : s.past.get? millis = nextAfter k)

include hnode hroom hget

lemma issueAt_of_le (hk : k ≤ Identifier.lastSequence) : s.issueAt millis = .ok (.ofFields millis (.ofNat k) node,
    { s with past := s.past.insert millis (.ofNat (k + 1)) }) := by
  have hnext : (s.past.get? millis).getD 0 = .ofNat k := by
    rw [hget, getD_nextAfter, Nat.min_eq_left (Nat.le_succ_of_le hk)]
  have hle : ¬ Identifier.lastSequence < (UInt16.ofNat k).toNat := by
    rw [toNat_ofNat_of_le (Nat.le_succ_of_le hk)]
    exact Nat.not_lt.2 hk
  simp only [issueAt, hnode, hroom, hnext, if_neg hle, UInt16.ofNat_add]
  rfl

lemma issueAt_of_lt (hk : Identifier.lastSequence < k) : s.issueAt millis = .error (.millisecondFull millis) := by
  have hnext : (s.past.get? millis).getD 0 = .ofNat (Identifier.lastSequence + 1) := by
    rw [hget, getD_nextAfter, Nat.min_eq_right hk]
  have hlt : Identifier.lastSequence < (UInt16.ofNat (Identifier.lastSequence + 1)).toNat := by decide
  simp only [issueAt, hnode, hroom, hnext, if_pos hlt]

end Counting

omit [Clock γ] in
lemma card_asks_le (newer older : List (Turn γ)) :
    (asks older).toFinset.card ≤ (asks (newer ++ older)).toFinset.card := by
  rw [asks, asks, List.filterMap_append, List.toFinset_append]
  exact Finset.card_le_card Finset.subset_union_right

def Counted (s : Issuer) (log : List (Turn γ)) : Prop :=
  ∀ millis, s.past.get? millis = nextAfter ((asks log).count millis)

omit [Clock γ] in
lemma Counted.mem_asks_iff (h : Counted s log) : millis ∈ asks log ↔ s.past.contains millis = true := by
  rw [OrderedMap.contains, h millis, ← List.count_pos_iff]
  cases (asks log).count millis <;> simp [nextAfter]

omit [Clock γ] in
lemma Counted.size_le (h : Counted s log) : s.past.size ≤ (asks log).toFinset.card := by
  have hsize : s.past.size = s.past.keys.toFinset.card := by
    rw [List.toFinset_card_of_nodup s.past.nodup_keys, OrderedMap.keys, List.length_map, OrderedMap.size]
  rw [hsize]
  refine Finset.card_le_card fun millis hm => ?_
  rw [List.mem_toFinset] at hm ⊢
  exact h.mem_asks_iff.2 (OrderedMap.mem_keys_iff.1 hm)

omit [Clock γ] in
lemma Counted.makeRoom_eq (h : Counted s log) (hfew : (insert millis (asks log).toFinset).card ≤ pastLimit) :
    s.makeRoom millis = s.past := by
  by_cases hm : millis ∈ asks log
  · exact makeRoom_of_contains (h.mem_asks_iff.1 hm)
  · rw [Finset.card_insert_of_notMem (fun hmem => hm (List.mem_toFinset.1 hmem))] at hfew
    have hsize := h.size_le
    rw [makeRoom, if_neg]
    omega

lemma Counted.after (h : Counted s log) (hnode : s.node = some node) {use : Use γ}
    (hfew : (asks (⟨s, use⟩ :: log)).toFinset.card ≤ pastLimit) : Counted (Turn.mk s use).after (⟨s, use⟩ :: log) := by
  intro millis
  cases ha : (⟨s, use⟩ : Turn γ).asked with
  | none =>
    rw [Turn.past_of_not_asked ha, asks, List.filterMap_cons_none ha]
    exact h millis
  | some asked =>
    obtain rfl : use = .issueAt asked := Turn.use_of_asked ha
    have hasks : asks (⟨s, .issueAt asked⟩ :: log : List (Turn γ)) = asked :: asks log := List.filterMap_cons_some ha
    rw [hasks, List.toFinset_cons] at hfew
    have hroom := h.makeRoom_eq hfew
    rcases Nat.lt_or_ge Identifier.lastSequence ((asks log).count asked) with hfull | hle
    · -- the ask is counted, but beyond the last sequence the next one stays the same
      rw [Turn.after_of_error (issueAt_of_lt hnode hroom (h asked) hfull), h millis, hasks]
      by_cases hm : millis = asked
      · rw [hm, List.count_cons_self, nextAfter_succ_of_lt hfull]
      · rw [List.count_cons_of_ne (Ne.symm hm)]
    · rw [Turn.after_of_ok (issueAt_of_le hnode hroom (h asked) hle), OrderedMap.get?_insert, hasks]
      by_cases hm : millis = asked
      · rw [if_pos hm, hm, List.count_cons_self, nextAfter, Nat.min_eq_left (Nat.succ_le_succ hle)]
      · rw [if_neg hm, List.count_cons_of_ne (Ne.symm hm), h millis]

lemma Run.counted (h : Run start log s) (hnode : start.node = some node) (hpast : start.past = ∅)
    (hfew : (asks log).toFinset.card ≤ pastLimit) : Counted s log := by
  induction h with
  | start => exact fun millis => hpast ▸ rfl
  | use h use ih => exact (ih (Nat.le_trans (card_asks_le [_] _) hfew)).after (h.keeps_node hnode) hfew

lemma Counted.answersInTurn (h : Counted s log) (hnode : s.node = some node) (hm : Identifier.HoldsMillis millis)
    {t : Turn γ} (ht : t.before = s) (hasked : t.asked = some millis)
    (hfew : (asks (t :: log)).toFinset.card ≤ pastLimit) : t.AnswersInTurn node millis ((asks log).count millis) := by
  subst ht
  have hasks : asks (t :: log) = millis :: asks log := List.filterMap_cons_some hasked
  rw [hasks, List.toFinset_cons] at hfew
  have hroom := h.makeRoom_eq hfew
  obtain ⟨s, use⟩ := t
  obtain rfl : use = .issueAt millis := Turn.use_of_asked hasked
  constructor
  · intro hk
    have hissue := issueAt_of_le hnode hroom (h millis) hk
    have hk' := (toNat_ofNat_of_le (Nat.le_succ_of_le hk)).symm ▸ hk
    refine ⟨_, ?_, Identifier.millis_ofFields node hm hk', ?_, Identifier.node_ofFields ..⟩
    · rw [Turn.after_of_ok hissue]
      exact hissue
    · rw [Identifier.sequence_ofFields node hm hk', toNat_ofNat_of_le (Nat.le_succ_of_le hk)]
  · intro hk
    have hissue := issueAt_of_lt hnode hroom (h millis) hk
    exact ⟨hissue, Turn.after_of_error hissue⟩

def AnsweredInTurn (node : Node) (log : List (Turn γ)) : Prop :=
  ∀ newer t older millis, log = newer ++ t :: older → t.asked = some millis →
    t.AnswersInTurn node millis ((asks older).count millis)

lemma Run.answeredInTurn (h : Run start log s) (hnode : start.node = some node) (hpast : start.past = ∅)
    (ha : AsksInRange log) (hfew : (asks log).toFinset.card ≤ pastLimit) : AnsweredInTurn node log := by
  rintro newer t older millis rfl hasked
  obtain ⟨mid, hrun, _⟩ := h.of_append
  have hfew := Nat.le_trans (card_asks_le newer (t :: older)) hfew
  have hm := ha t (List.mem_append_right _ List.mem_cons_self) millis hasked
  cases hrun with
  | use hrun use =>
    have hcounted := hrun.counted hnode hpast (Nat.le_trans (card_asks_le [_] _) hfew)
    exact hcounted.answersInTurn (hrun.keeps_node hnode) hm rfl hasked hfew

lemma Turn.AnswersInTurn.of_given {t : Turn γ} {x : Identifier} (h : t.AnswersInTurn node millis k)
    (hasked : t.asked = some millis) (hx : t.given = some x) : x.millis = millis ∧ x.sequence.toNat = k := by
  obtain ⟨s, use⟩ := t
  obtain rfl : use = .issueAt millis := Turn.use_of_asked hasked
  rcases Nat.lt_or_ge Identifier.lastSequence k with hk | hk
  · simp [Turn.given, (h.2 hk).1, Except.toOption] at hx
  · obtain ⟨y, hy, hmillis, hsequence, _⟩ := h.1 hk
    obtain rfl : y = x := by simpa [Turn.given, hy, Except.toOption] using hx
    exact ⟨hmillis, hsequence⟩

lemma AnsweredInTurn.nodup (h : AnsweredInTurn node log) : (log.filterMap Turn.backdated).Nodup := by
  induction log with
  | nil => exact List.nodup_nil
  | cons t log ih =>
    have ih := ih fun newer u older millis hlog => h (t :: newer) u older millis (congrArg _ hlog)
    cases hx : t.backdated with
    | none => rwa [List.filterMap_cons_none hx]
    | some x =>
      rw [List.filterMap_cons_some hx]
      refine List.nodup_cons.2 ⟨fun hmem => ?_, ih⟩
      obtain ⟨u, hu, hux⟩ := List.mem_filterMap.1 hmem
      obtain ⟨newer, older, rfl⟩ := List.append_of_mem hu
      obtain ⟨millis, hasked, hgiven⟩ := Turn.asked_of_backdated hx
      obtain ⟨other, hasked', hgiven'⟩ := Turn.asked_of_backdated hux
      obtain ⟨rfl, hlater⟩ := (h [] t _ _ rfl hasked).of_given hasked hgiven
      obtain ⟨rfl, hearlier⟩ := (h (t :: newer) u older _ rfl hasked').of_given hasked' hgiven'
      rw [asks, List.filterMap_append, List.filterMap_cons_some hasked', List.count_append,
        List.count_cons_self] at hlater
      rw [asks] at hearlier
      omega

lemma Run.drops_between {newer between older : List (Turn γ)} {later earlier : Turn γ} {x : Identifier}
    (h : Run start (newer ++ later :: (between ++ earlier :: older)) s) (hpast : start.past.size ≤ pastLimit)
    (ha : AsksInRange (newer ++ later :: (between ++ earlier :: older))) (hlater : later.backdated = some x)
    (hearlier : earlier.backdated = some x) : ∃ t ∈ between, t.Drops x.millis := by
  obtain ⟨millis, hasked, hgiven⟩ := Turn.asked_of_backdated hlater
  obtain ⟨other, hasked', hgiven'⟩ := Turn.asked_of_backdated hearlier
  obtain ⟨rfl, _⟩ := Turn.of_asked (ha later (by simp) millis hasked) hasked hgiven
  obtain ⟨rfl, _⟩ := Turn.of_asked (ha earlier (by simp) other hasked') hasked' hgiven'
  obtain ⟨mid, hrun, _⟩ := h.of_append
  obtain ⟨t, ht, hforgets⟩ := hrun.forgets_between (ha later (by simp) _ hasked) hasked hasked' hgiven hgiven'
  obtain ⟨log, hlog⟩ := h.exists_run_before (t := t) (by simp [ht])
  exact ⟨t, ht, hforgets.drops (hlog.size_past hpast)⟩

theorem past_counted_in_turn (h : Run start log s) (hnode : start.node = some node) (hpast : start.past = ∅)
    (ha : AsksInRange log) :
    s.past.size ≤ pastLimit ∧
    (∀ newer later between earlier older x, log = newer ++ later :: (between ++ earlier :: older) →
      later.backdated = some x → earlier.backdated = some x → ∃ t ∈ between, t.Drops x.millis) ∧
    ((asks log).toFinset.card ≤ pastLimit → AnsweredInTurn node log ∧ (log.filterMap Turn.backdated).Nodup) := by
  have hempty : start.past.size ≤ pastLimit := by
    rw [hpast]
    exact Nat.zero_le _
  refine ⟨h.size_past hempty, ?_, fun hfew => ?_⟩
  · rintro newer later between earlier older x rfl hlater hearlier
    exact h.drops_between hempty ha hlater hearlier
  · have hanswered := h.answeredInTurn hnode hpast ha hfew
    exact ⟨hanswered, hanswered.nodup⟩

lemma backdated_firstAsk : firstAsk.backdated = some ⟨5⟩ := by
  rw [Turn.backdated, asked_firstAsk, Option.bind_some, given_firstAsk]

lemma backdated_secondAsk : secondAsk.backdated = some ⟨5⟩ := by
  rw [Turn.backdated, asked_secondAsk, Option.bind_some, given_secondAsk]

theorem past_counted_in_turn_returning :
    (∃ t ∈ firstAsk.after.sweep pastLimit, t.Drops (⟨5⟩ : Identifier).millis) ∧
    ∃ (log : List (Turn SteppingClock)) (s : Issuer), Run firstAsk.before log s ∧
      log.filterMap Turn.backdated = [⟨1835269⟩, ⟨-786427⟩, ⟨1835013⟩] ∧ AnsweredInTurn 5 log := by
  constructor
  · have hrun : Run firstAsk.before (secondAsk :: (firstAsk.after.sweep pastLimit ++ [firstAsk])) secondAsk.after :=
      (Run.sweep (Run.start.use (.issueAt 0)) pastLimit).use (.issueAt 0)
    have hasks : AsksInRange (secondAsk :: (firstAsk.after.sweep pastLimit ++ [firstAsk])) := by
      have hall := asksInRange_sweepAndReturn
      rw [sweepAndReturn] at hall
      refine fun t ht => hall t ?_
      rw [← List.cons_append] at ht ⊢
      exact List.mem_append.2 ((List.mem_append.1 ht).imp_right fun ht =>
        List.mem_cons.2 (.inl (List.mem_singleton.1 ht)))
    exact (past_counted_in_turn hrun rfl rfl hasks).2.1 [] secondAsk (firstAsk.after.sweep pastLimit) firstAsk [] ⟨5⟩
      (List.nil_append _).symm backdated_secondAsk backdated_firstAsk
  · have hrun : Run firstAsk.before (_ : List (Turn SteppingClock)) _ :=
      (((Run.start.use (.issueAt 7)).use (.issueAt (-3))).use (.issue ⟨9, 0⟩)).use (.issueAt 7)
    exact ⟨_, _, hrun, by decide, ((past_counted_in_turn hrun rfl rfl (by decide)).2.2 (by decide)).1⟩

end Chronicle.Issuer
