import Chronicle.Proofs.Issuing.Increase
import Chronicle.Proofs.OrderedMap.Scan

/-! Identifiers that one issuer gives out twice. -/

namespace Chronicle

namespace Issuer

variable {γ : Type} [Clock γ] {s t : Issuer} {millis other : Int64} {x : Identifier}

lemma makeRoom_of_contains (h : s.past.contains millis = true) : s.makeRoom millis = s.past := by
  simp [makeRoom, h]

namespace Turn

variable {t : Turn γ}

def given (t : Turn γ) : Option Identifier :=
  match t.use with
  | .issue clock => (t.before.issue clock).1.toOption
  | .issueAt millis => (t.before.issueAt millis).toOption.map (·.1)
  | .assignNode _ => none

def asked (t : Turn γ) : Option Int64 :=
  match t.use with
  | .issueAt millis => some millis
  | _ => none

/-- The use asks for a millisecond that is not remembered where there is no room for it, so that `millis`, the oldest of
those that are, is dropped. -/
structure Forgets (t : Turn γ) (millis : Int64) : Prop where
  gives : t.given.isSome = true
  asks : ∃ other, t.asked = some other ∧ t.before.past.contains other = false
  full : pastLimit ≤ t.before.past.size
  oldest : t.before.past.entries.head?.map (·.1) = some millis

lemma after_of_ok {s s' : Issuer} (h : s.issueAt millis = .ok (x, s')) : (⟨s, .issueAt millis⟩ : Turn γ).after = s' := by
  simp only [after, h, Except.toOption, Option.map_some, Option.getD_some]

lemma after_of_error {s : Issuer} {err : Error} (h : s.issueAt millis = .error err) :
    (⟨s, .issueAt millis⟩ : Turn γ).after = s := by
  simp only [after, h, Except.toOption, Option.map_none, Option.getD_none]

lemma past_of_not_asked (h : t.asked = none) : t.after.past = t.before.past := by
  obtain ⟨s, use⟩ := t
  cases use with
  | issueAt asked => cases h
  | issue clock => exact (issue_frame s clock).2
  | assignNode node =>
    by_cases hn : node.IsAssignable <;> simp [after, assignNode, hn, Except.toOption]

lemma issued_of_given (ha : t.asked = none) (hx : t.given = some x) : t.issued = some x := by
  obtain ⟨s, use⟩ := t
  cases use with
  | issue clock => exact hx
  | issueAt millis => cases ha
  | assignNode node => cases hx

lemma of_asked (hm : Identifier.HoldsMillis millis) (ha : t.asked = some millis) (hx : t.given = some x) :
    x.millis = millis ∧ ∃ next : UInt16, ((t.before.makeRoom millis).get? millis).getD 0 = next ∧
      x.slot = millis.toInt * 1024 + next.toNat ∧
      ∃ later, t.after.past.get? millis = some later ∧ later.toNat = next.toNat + 1 := by
  obtain ⟨s, use⟩ := t
  cases use with
  | issue clock => cases ha
  | assignNode node => cases ha
  | issueAt asked =>
    obtain rfl : asked = millis := Option.some.inj ha
    cases h : s.issueAt asked with
    | error err => simp [given, h, Except.toOption] at hx
    | ok p =>
      obtain ⟨y, t⟩ := p
      obtain rfl : y = x := by simpa [given, h, Except.toOption] using hx
      obtain ⟨node, next, _, hnext, hle, rfl, rfl⟩ := issueAt_ok h
      refine ⟨Identifier.millis_ofFields node hm hle, next, hnext, Identifier.slot_ofFields node hm hle, next + 1, ?_, ?_⟩
      · rw [after_of_ok h, OrderedMap.get?_insert, if_pos rfl]
      · exact toNat_add_one_of_le hle

lemma remembers_after {next : UInt16} (h : t.before.past.get? millis = some next) (hnot : ¬ t.Forgets millis) :
    ∃ later, t.after.past.get? millis = some later ∧ next.toNat ≤ later.toNat := by
  have hkept {s : Issuer} (hpast : s.past = t.before.past) :
      ∃ later, s.past.get? millis = some later ∧ next.toNat ≤ later.toNat := ⟨next, hpast ▸ h, Nat.le_refl _⟩
  obtain ⟨s, use⟩ := t
  cases use with
  | issue | assignNode => exact hkept (past_of_not_asked rfl)
  | issueAt asked =>
    cases hp : s.issueAt asked with
    | error err => exact hkept (by rw [after_of_error hp])
    | ok p =>
      obtain ⟨x, t⟩ := p
      obtain ⟨node, count, _, hcount, hle, _, rfl⟩ := issueAt_ok hp
      rw [after_of_ok hp, OrderedMap.get?_insert]
      split
      · next heq =>
        subst heq
        rw [makeRoom_of_contains (by rw [OrderedMap.contains, h]; rfl), h, Option.getD_some] at hcount
        subst hcount
        refine ⟨_, rfl, ?_⟩
        rw [toNat_add_one_of_le hle]
        exact Nat.le_succ _
      · next hne =>
        refine ⟨next, ?_, Nat.le_refl _⟩
        rw [makeRoom]
        split
        · next hfull =>
          have hgiven : (given (⟨s, .issueAt asked⟩ : Turn γ)).isSome = true := by simp [given, hp, Except.toOption]
          rw [OrderedMap.get?_eraseMin, if_neg, h]
          exact fun holdest => hnot ⟨hgiven, ⟨asked, rfl, by simpa using hfull.2⟩, hfull.1, holdest⟩
        · exact h

end Turn

lemma Run.of_append {start s : Issuer} {log older : List (Turn γ)} (h : Run start (log ++ older) s) :
    ∃ mid, Run start older mid ∧ Run mid log s := by
  induction log generalizing s with
  | nil => exact ⟨s, h, .start⟩
  | cons t log ih =>
    cases h with
    | use h use =>
      obtain ⟨mid, holder, hlog⟩ := ih h
      exact ⟨mid, holder, hlog.use use⟩

lemma Run.remembers {start s : Issuer} {log : List (Turn γ)} {next : UInt16} (h : Run start log s)
    (hstart : start.past.get? millis = some next) (hnot : ∀ t ∈ log, ¬ t.Forgets millis) :
    ∃ later, s.past.get? millis = some later ∧ next.toNat ≤ later.toNat := by
  induction h with
  | start => exact ⟨next, hstart, Nat.le_refl _⟩
  | @use log s h use ih =>
    obtain ⟨hnot, hrest⟩ := List.forall_mem_cons.1 hnot
    obtain ⟨count, hcount, hle⟩ := ih hrest
    obtain ⟨later, hlater, hle'⟩ := Turn.remembers_after (t := ⟨s, use⟩) hcount hnot
    exact ⟨later, hlater, Nat.le_trans hle hle'⟩

def AsksInRange (log : List (Turn γ)) : Prop :=
  ∀ t ∈ log, ∀ millis ∈ t.asked, Identifier.HoldsMillis millis

instance (log : List (Turn γ)) : Decidable (AsksInRange log) :=
  have := Identifier.decidableHoldsMillis (fun t : Turn γ => t.asked.toList) log
  decidable_of_iff (∀ t ∈ log, ∀ millis ∈ t.asked.toList, Identifier.HoldsMillis millis) (by simp [AsksInRange])

variable {later earlier : Turn γ} {log older newer between : List (Turn γ)}

lemma Run.issued_ne {start : Issuer} (h : Run start (later :: log) s) (hs : start.Sound)
    (hr : ReadsInRange (later :: log)) (hx : later.issued = some x) : ∀ t ∈ log, t.issued ≠ some x := by
  cases h with
  | use h use =>
    intro t ht htx
    have hle := h.slot_le_mark hs hr.of_cons.2 x (List.mem_filterMap.2 ⟨t, ht, htx⟩)
    obtain ⟨ha, hslot, _⟩ := Turn.after_of_issued (h.sound hs hr.of_cons.2) hr.of_cons.1 hx
    exact Int.lt_irrefl _ (Int.lt_of_le_of_lt hle (hslot ▸ ha.mark_lt))

lemma Run.forgets_between {start : Issuer} (h : Run start (later :: (between ++ earlier :: older)) s)
    (hm : Identifier.HoldsMillis millis) (hlater : later.asked = some millis) (hearlier : earlier.asked = some millis)
    (hx : later.given = some x) (hx' : earlier.given = some x) : ∃ t ∈ between, t.Forgets millis := by
  refine Classical.byContradiction fun hnone => ?_
  have hnot : ∀ t ∈ between, ¬ t.Forgets millis := fun t ht hforgets => hnone ⟨t, ht, hforgets⟩
  cases h with
  | @use _ s h use =>
    obtain ⟨mid, hmid, hbetween⟩ := h.of_append
    cases hmid with
    | use _ use' =>
      -- the sequence that the later turn finds is still above the one that the earlier turn took
      obtain ⟨_, next, _, hslot, count, hcount, hsucc⟩ := Turn.of_asked hm hearlier hx'
      obtain ⟨count', hcount', hle⟩ := hbetween.remembers hcount hnot
      obtain ⟨_, next', hnext', hslot', _⟩ := Turn.of_asked hm hlater hx
      rw [makeRoom_of_contains (by rw [OrderedMap.contains, hcount']; rfl), hcount', Option.getD_some] at hnext'
      subst hnext'
      omega

theorem given_twice_only {micros : Nat} (h : Run (ofPatience micros) (newer ++ later :: (between ++ earlier :: older)) s)
    (hr : ReadsInRange (newer ++ later :: (between ++ earlier :: older)))
    (ha : AsksInRange (newer ++ later :: (between ++ earlier :: older)))
    (hlater : later.given = some x) (hearlier : earlier.given = some x) :
    (later.asked = some x.millis ∨ earlier.asked = some x.millis) ∧
      (later.asked = earlier.asked → ∃ t ∈ between, t.Forgets x.millis) := by
  obtain ⟨mid, hlog, _⟩ := h.of_append
  have hr : ReadsInRange (later :: (between ++ earlier :: older)) := fun t ht => hr t (List.mem_append_right _ ht)
  have hin {t : Turn γ} (ht : t ∈ later :: (between ++ earlier :: older)) {millis : Int64}
      (hasked : t.asked = some millis) : Identifier.HoldsMillis millis := ha t (List.mem_append_right _ ht) millis hasked
  have hmem : earlier ∈ between ++ earlier :: older := List.mem_append_right _ List.mem_cons_self
  cases hl : later.asked with
  | none =>
    cases he : earlier.asked with
    | none =>
      have hissued := Turn.issued_of_given hl hlater
      exact absurd (Turn.issued_of_given he hearlier) (hlog.issued_ne (sound_ofPatience micros) hr hissued _ hmem)
    | some millis =>
      obtain ⟨rfl, _⟩ := Turn.of_asked (hin (List.mem_cons_of_mem _ hmem) he) he hearlier
      exact ⟨.inr rfl, nofun⟩
  | some millis =>
    have hm := hin List.mem_cons_self hl
    obtain ⟨rfl, _⟩ := Turn.of_asked hm hl hlater
    exact ⟨.inl rfl, fun heq => hlog.forgets_between hm hl heq.symm hlater hearlier⟩

lemma issueAt_of_not_contains {node : Node} (hnode : s.node = some node) (h : s.past.contains millis = false) :
    s.issueAt millis = .ok (.ofFields millis 0 node, { s with past := (s.makeRoom millis).insert millis 1 }) := by
  have hget : s.past.get? millis = none := by simpa [OrderedMap.contains] using h
  have hroom : (s.makeRoom millis).get? millis = none := by
    rw [makeRoom]
    split
    · rw [OrderedMap.get?_eraseMin, hget, ite_self]
    · exact hget
  simp only [issueAt, hnode, hroom]
  rfl

lemma Turn.of_not_contains {node : Node} (hnode : s.node = some node) (h : s.past.contains millis = false) :
    (⟨s, .issueAt millis⟩ : Turn γ).given = some (.ofFields millis 0 node) ∧
      (⟨s, .issueAt millis⟩ : Turn γ).after = { s with past := (s.makeRoom millis).insert millis 1 } := by
  simp only [given, after, issueAt_of_not_contains hnode h, Except.toOption, Option.map_some, Option.getD_some,
    and_self]

section Sweep

variable {node : Node} {n : Nat} {start : Issuer}

def swept (s : Issuer) : Nat → Issuer
  | 0 => s
  | n + 1 => (⟨swept s n, .issueAt (.ofNat (n + 1))⟩ : Turn SteppingClock).after

def sweep (s : Issuer) : Nat → List (Turn SteppingClock)
  | 0 => []
  | n + 1 => ⟨swept s n, .issueAt (.ofNat (n + 1))⟩ :: sweep s n

lemma Run.sweep {log : List (Turn SteppingClock)} (h : Run start log s) (n : Nat) :
    Run start (s.sweep n ++ log) (s.swept n) := by
  induction n with
  | zero => exact h
  | succ n ih => exact ih.use _

lemma use_of_mem_sweep {t : Turn SteppingClock} (ht : t ∈ s.sweep n) :
    ∃ i, i < n ∧ t.use = .issueAt (.ofNat (i + 1)) := by
  induction n with
  | zero => cases ht
  | succ n ih =>
    rcases List.mem_cons.1 ht with rfl | ht
    · exact ⟨n, Nat.lt_succ_self n, rfl⟩
    · obtain ⟨i, hi, huse⟩ := ih ht
      exact ⟨i, Nat.lt_succ_of_lt hi, huse⟩

lemma toInt_ofNat_of_le (hn : n ≤ pastLimit) : (Int64.ofNat n).toInt = n :=
  Int64.toInt_ofNat_of_lt (Nat.lt_of_le_of_lt hn (by decide))

lemma forall_lt_of_entries {m : OrderedMap Int64 UInt16}
    (h : m.entries = (List.range n).map fun i => (Int64.ofNat i, 1)) (hn : n ≤ pastLimit) :
    ∀ e ∈ m.entries, compare e.1 (Int64.ofNat n) = .lt := by
  intro e he
  rw [h] at he
  obtain ⟨i, hi, rfl⟩ := List.mem_map.1 he
  have hi := List.mem_range.1 hi
  rw [Std.compare_eq_lt, Int64.lt_iff_toInt_lt, toInt_ofNat_of_le (by omega), toInt_ofNat_of_le hn]
  exact Int.ofNat_lt.2 hi

lemma past_swept (hnode : s.node = some node) (hpast : s.past.entries = [(0, 1)]) (hn : n < pastLimit) :
    (s.swept n).node = some node ∧
      (s.swept n).past.entries = (List.range (n + 1)).map fun i => (Int64.ofNat i, 1) := by
  induction n with
  | zero => exact ⟨hnode, hpast⟩
  | succ n ih =>
    obtain ⟨hnode, hentries⟩ := ih (Nat.lt_of_succ_lt hn)
    have hlt := forall_lt_of_entries hentries (Nat.le_of_lt hn)
    have hroom : (s.swept n).makeRoom (.ofNat (n + 1)) = (s.swept n).past := by
      rw [makeRoom, if_neg]
      simp only [OrderedMap.size, hentries, List.length_map, List.length_range]
      omega
    rw [swept, (Turn.of_not_contains hnode (OrderedMap.contains_eq_false_of_forall_lt hlt)).2, hroom]
    refine ⟨hnode, ?_⟩
    change ((s.swept n).past.insert _ 1).entries = _
    rw [OrderedMap.entries_insert_of_forall_lt hlt, hentries, List.range_succ (n := n + 1), List.map_append]
    rfl

lemma not_contains_swept (hnode : s.node = some node) (hpast : s.past.entries = [(0, 1)]) (hn : n + 1 = pastLimit) :
    (s.swept (n + 1)).node = some node ∧ (s.swept (n + 1)).past.contains 0 = false := by
  obtain ⟨hnode, hentries⟩ := past_swept hnode hpast (Nat.lt_of_succ_le (Nat.le_of_eq hn))
  have hnew := OrderedMap.contains_eq_false_of_forall_lt (forall_lt_of_entries hentries (Nat.le_of_eq hn))
  have hroom : (s.swept n).makeRoom (.ofNat (n + 1)) = (s.swept n).past.eraseMin := by
    rw [makeRoom, if_pos]
    simp only [OrderedMap.size, hentries, List.length_map, List.length_range, hnew, Bool.not_false, and_true]
    exact Nat.le_of_eq hn.symm
  have hfirst : (s.swept n).past.entries.head?.map (·.1) = some 0 := by
    rw [hentries, List.range_succ_eq_map]
    rfl
  have hne : (0 : Int64) ≠ .ofNat (n + 1) := by
    intro heq
    have htoInt := congrArg Int64.toInt heq
    rw [toInt_ofNat_of_le (Nat.le_of_eq hn), Int64.toInt_zero] at htoInt
    omega
  rw [swept, (Turn.of_not_contains hnode hnew).2, hroom]
  refine ⟨hnode, ?_⟩
  change ((s.swept n).past.eraseMin.insert (.ofNat (n + 1)) 1).contains 0 = false
  rw [OrderedMap.contains, OrderedMap.get?_insert, if_neg hne, OrderedMap.get?_eraseMin, if_pos hfirst]
  rfl

def firstAsk : Turn SteppingClock := ⟨{ ofPatience 0 with node := some 5 }, .issueAt 0⟩

def secondAsk : Turn SteppingClock := ⟨firstAsk.after.swept pastLimit, .issueAt 0⟩

def sweepAndReturn : List (Turn SteppingClock) :=
  secondAsk :: (firstAsk.after.sweep pastLimit ++ firstAsk :: [⟨ofPatience 0, .assignNode 5⟩])

lemma Run.sweepAndReturn : Run (ofPatience 0) sweepAndReturn secondAsk.after :=
  (Run.sweep ((Run.start.use (.assignNode 5)).use (.issueAt 0)) pastLimit).use (.issueAt 0)

lemma asked_firstAsk : firstAsk.asked = some 0 := rfl

lemma asked_secondAsk : secondAsk.asked = some 0 := rfl

lemma given_firstAsk : firstAsk.given = some ⟨5⟩ := by decide

lemma given_secondAsk : secondAsk.given = some ⟨5⟩ := by
  obtain ⟨hnode, hnew⟩ := not_contains_swept (s := firstAsk.after) (n := 4095) rfl rfl rfl
  exact (Turn.of_not_contains hnode hnew).1

lemma use_of_mem_sweepAndReturn {t : Turn SteppingClock} (ht : t ∈ sweepAndReturn) :
    t.use = .assignNode 5 ∨ ∃ i ≤ pastLimit, t.use = .issueAt (.ofNat i) := by
  rcases List.mem_cons.1 ht with rfl | ht
  · exact .inr ⟨0, Nat.zero_le _, rfl⟩
  · rcases List.mem_append.1 ht with ht | ht
    · obtain ⟨i, hi, huse⟩ := use_of_mem_sweep ht
      exact .inr ⟨i + 1, hi, huse⟩
    · rcases List.mem_cons.1 ht with rfl | ht
      · exact .inr ⟨0, Nat.zero_le _, rfl⟩
      · exact .inl (List.mem_singleton.1 ht ▸ rfl)

lemma readsInRange_sweepAndReturn : ReadsInRange sweepAndReturn := by
  intro t ht r hr
  rcases use_of_mem_sweepAndReturn ht with huse | ⟨i, _, huse⟩ <;>
  · rw [Turn.readings, huse] at hr
    cases hr

lemma asksInRange_sweepAndReturn : AsksInRange sweepAndReturn := by
  intro t ht millis hmillis
  rcases use_of_mem_sweepAndReturn ht with huse | ⟨i, hi, huse⟩
  · rw [Turn.asked, huse] at hmillis
    cases hmillis
  · rw [Turn.asked, huse] at hmillis
    obtain rfl := Option.some.inj hmillis
    simp only [pastLimit] at hi
    rw [Identifier.HoldsMillis, toInt_ofNat_of_le hi]
    omega

end Sweep

theorem given_twice_only_sweep : Run (ofPatience 0) sweepAndReturn secondAsk.after ∧
    secondAsk.given = some ⟨5⟩ ∧ firstAsk.given = some ⟨5⟩ ∧
    ∃ t ∈ firstAsk.after.sweep pastLimit, t.Forgets (⟨5⟩ : Identifier).millis :=
  have honly := @given_twice_only _ _ secondAsk.after ⟨5⟩ secondAsk firstAsk [⟨ofPatience 0, .assignNode 5⟩] []
    (firstAsk.after.sweep pastLimit) 0 Run.sweepAndReturn readsInRange_sweepAndReturn asksInRange_sweepAndReturn
    given_secondAsk given_firstAsk
  ⟨Run.sweepAndReturn, given_secondAsk, given_firstAsk, honly.2 (asked_secondAsk.trans asked_firstAsk.symm)⟩

/-- A live and a past identifier of one millisecond can be the same, and so can two past ones. -/
theorem given_twice :
    (∃ (log : List (Turn SteppingClock)) (s : Issuer), Run (ofPatience 0) log s ∧ ReadsInRange log ∧
      AsksInRange log ∧ log.filterMap Turn.given = [⟨1835013⟩, ⟨1835013⟩]) ∧
    ∃ (log : List (Turn SteppingClock)) (s : Issuer), Run (ofPatience 0) log s ∧ ReadsInRange log ∧
      AsksInRange log ∧ log.filterMap Turn.issued = [] ∧ ¬ (log.filterMap Turn.given).Nodup := by
  constructor
  · refine ⟨_, _, ((Run.start.use (.assignNode 5)).use (.issue ⟨7, 0⟩)).use (.issueAt 7), ?_, ?_, ?_⟩ <;> decide
  · refine ⟨_, _, Run.sweepAndReturn, readsInRange_sweepAndReturn, asksInRange_sweepAndReturn, ?_, fun hnodup => ?_⟩
    · rw [List.filterMap_eq_nil_iff]
      intro t ht
      rcases use_of_mem_sweepAndReturn ht with huse | ⟨i, _, huse⟩ <;> rw [Turn.issued, huse]
    · rw [sweepAndReturn, List.filterMap_cons, given_secondAsk, List.nodup_cons] at hnodup
      exact hnodup.1 (List.mem_filterMap.2 ⟨_, List.mem_append_right _ List.mem_cons_self, given_firstAsk⟩)

end Issuer

end Chronicle
