import Mathlib.Algebra.Group.Nat.Defs
import Chronicle.Proofs.Issuing.PastSequences
import Chronicle.Proofs.Issuing.Pauses

/-! Each millisecond gives out its sequences in turn and without a gap. -/

namespace Chronicle.Issuer

variable {γ : Type} [Clock γ] {s : Issuer} {clock : γ} {node : Node} {patience : Nat} {log older : List (Turn γ)}
  {x : Identifier}

def ready (node : Node) (patience : Nat) : Issuer := ⟨some node, Int64.minValue, 0, ∅, patience, 0⟩

lemma assignNode_ofPatience (micros : Nat) (h : node.IsAssignable) :
    (ofPatience micros).assignNode node = .ok (node, ready node (max (micros / pauseMicros) 1)) := by
  rw [assignNode, if_pos h]
  rfl

namespace Turn

def pauses (t : Turn γ) : Nat :=
  match t.use with
  | .issue clock => t.before.pauses clock
  | _ => 0

def waited (t : Turn γ) : Bool := t.issued.isSome && decide (0 < t.pauses)

lemma goes_of_issued {t : Turn γ} (hnode : t.before.node = some node) (hx : t.issued = some x) :
    ∃ clock : γ, Goes node t.before clock (.ok x) t.after t.pauses := by
  obtain ⟨s, use⟩ := t
  cases use with
  | issue clock =>
    obtain ⟨hgoes, _⟩ := goes_issue hnode clock
    cases h : (s.issue clock).1 with
    | ok y =>
      obtain rfl : y = x := by simpa [issued, h, Except.toOption] using hx
      exact ⟨clock, h ▸ hgoes⟩
    | error e => simp [issued, h, Except.toOption] at hx
  | issueAt millis => cases hx
  | assignNode node => cases hx

lemma waits_after {t : Turn γ} (hnode : t.before.node = some node) :
    t.after.waits = t.before.waits + t.waited.toNat ∧ t.after.patience = t.before.patience := by
  obtain ⟨s, use⟩ := t
  cases use with
  | issue clock => exact (goes_issue hnode clock).1.waits_eq
  | issueAt millis =>
    cases h : s.issueAt millis with
    | error err =>
      rw [after_of_error h]
      exact ⟨rfl, rfl⟩
    | ok p =>
      obtain ⟨x, s'⟩ := p
      rw [after_of_ok h]
      obtain ⟨_, _, _, _, _, _, rfl⟩ := issueAt_ok h
      exact ⟨rfl, rfl⟩
  | assignNode node =>
    by_cases hn : node.IsAssignable <;> simp [after, waited, issued, assignNode, hn, Except.toOption]

end Turn

def sequencesOf (log : List (Turn γ)) (millis : Int64) : List Nat :=
  ((log.filterMap Turn.issued).reverse.filter (·.millis = millis)).map (·.sequence.toNat)

lemma sequencesOf_cons_none {t : Turn γ} (h : t.issued = none) (millis : Int64) :
    sequencesOf (t :: log) millis = sequencesOf log millis := by
  rw [sequencesOf, List.filterMap_cons_none h, sequencesOf]

lemma sequencesOf_cons_some {t : Turn γ} (h : t.issued = some x) (millis : Int64) : sequencesOf (t :: log) millis =
    sequencesOf log millis ++ if x.millis = millis then [x.sequence.toNat] else [] := by
  rw [sequencesOf, List.filterMap_cons_some h, List.reverse_cons, List.filter_append, List.map_append, sequencesOf]
  split <;> simp [*]

/-- Each millisecond has given out its sequences from 0 on, those up to the issuer's millisecond any, and that of the
latest identifier those up to the issuer's sequence. -/
structure Dense (s : Issuer) (log : List (Turn γ)) : Prop where
  every : ∀ millis, ∃ k ≤ Identifier.lastSequence + 1, sequencesOf log millis = List.range k
  above : ∀ millis, s.millis < millis → sequencesOf log millis = []
  latest : ∀ x, (log.filterMap Turn.issued).head? = some x → x.millis = s.millis ∧ x.sequence = s.sequence ∧
    sequencesOf log s.millis = List.range (s.sequence.toNat + 1)
  unissued : (log.filterMap Turn.issued).head? = none → s.millis = Int64.minValue ∧ s.sequence = 0

lemma dense_ready (node : Node) (patience : Nat) : Dense (ready node patience) ([] : List (Turn γ)) where
  every _ := ⟨0, Nat.zero_le _, rfl⟩
  above _ _ := rfl
  latest := nofun
  unissued _ := ⟨rfl, rfl⟩

namespace Dense

variable {t : Turn γ}

lemma of_not_issued (h : Dense t.before log) (hx : t.issued = none) : Dense t.after (t :: log) := by
  obtain ⟨hmillis, hsequence⟩ := Turn.after_of_not_issued hx
  refine ⟨?_, ?_, ?_, ?_⟩ <;> simp only [sequencesOf_cons_none hx, List.filterMap_cons_none hx, hmillis, hsequence]
  · exact h.every
  · exact h.above
  · exact h.latest
  · exact h.unissued

lemma of_issued (h : Dense t.before log) (hx : t.issued = some x) (hmillis : x.millis = t.after.millis)
    (hsequence : x.sequence = t.after.sequence) (hle : t.after.sequence.toNat ≤ Identifier.lastSequence)
    (hmono : t.before.millis ≤ t.after.millis)
    (hcurrent : sequencesOf (t :: log) t.after.millis = List.range (t.after.sequence.toNat + 1)) :
    Dense t.after (t :: log) := by
  have hother {millis : Int64} (hne : t.after.millis ≠ millis) :
      sequencesOf (t :: log) millis = sequencesOf log millis := by
    rw [sequencesOf_cons_some hx, if_neg (by rwa [hmillis]), List.append_nil]
  refine ⟨fun millis => ?_, fun millis hm => ?_, fun y hy => ?_, fun hy => ?_⟩
  · by_cases hm : t.after.millis = millis
    · exact ⟨_, Nat.succ_le_succ hle, hm ▸ hcurrent⟩
    · rw [hother hm]
      exact h.every millis
  · rw [hother (Int64.ne_of_lt hm)]
    exact h.above millis (Int64.lt_of_le_of_lt hmono hm)
  · rw [List.filterMap_cons_some hx, List.head?_cons, Option.some.injEq] at hy
    exact hy ▸ ⟨hmillis, hsequence, hcurrent⟩
  · rw [List.filterMap_cons_some hx] at hy
    cases hy

lemma after (h : Dense t.before log) (hs : t.before.Sound) (hnode : t.before.node = some node)
    (hr : ∀ r ∈ t.readings, Identifier.HoldsMillis r) : Dense t.after (t :: log) := by
  cases hx : t.issued with
  | none => exact h.of_not_issued hx
  | some x =>
    obtain ⟨clock, hgoes⟩ := Turn.goes_of_issued hnode hx
    have hadvanced := (Turn.after_of_issued hs hr hx).1
    have hle := hadvanced.sound.sequence_le
    have hmillis : x.millis = t.after.millis := by
      rw [hgoes.eq_ofFields, Identifier.millis_ofFields node hadvanced.holds hle]
    have hsequence : x.sequence = t.after.sequence := by
      rw [hgoes.eq_ofFields, Identifier.sequence_ofFields node hadvanced.holds hle]
    have hcons : sequencesOf (t :: log) t.after.millis = _ := sequencesOf_cons_some hx _
    rw [if_pos hmillis, hsequence] at hcons
    rcases hgoes.enters_or_follows with ⟨hlt, hzero⟩ | ⟨hsame, hsucc⟩
    · refine h.of_issued hx hmillis hsequence hle (Int64.le_of_lt hlt) ?_
      rw [hcons, h.above _ hlt, hzero]
      rfl
    · refine h.of_issued hx hmillis hsequence hle (hsame ▸ Int64.le_refl _) ?_
      cases hlatest : (log.filterMap Turn.issued).head? with
      | none =>
        -- nothing follows in the millisecond at which an issuer starts, since identifiers do not hold it
        have hholds := hadvanced.holds
        rw [hsame, (h.unissued hlatest).1] at hholds
        exact absurd hholds (by decide)
      | some y =>
        obtain ⟨_, _, hbefore⟩ := h.latest y hlatest
        rw [hcons, hsame, hbefore, hsucc, ← List.range_succ]

end Dense

lemma sound_ready (node : Node) (patience : Nat) : (ready node patience).Sound where
  sequence_le := Nat.zero_le _
  millis_lt := by
    rw [ready, Int64.toInt_minValue]
    omega

lemma Run.dense (h : Run (ready node patience) log s) (hr : ReadsInRange log) : Dense s log := by
  induction h with
  | start => exact dense_ready node patience
  | @use log s h use ih =>
    exact (ih hr.of_cons.2).after (h.sound (sound_ready node patience) hr.of_cons.2) (h.keeps_node rfl) hr.of_cons.1

lemma Run.waits_eq (h : Run (ready node patience) log s) : s.patience = patience ∧ s.waits = log.countP Turn.waited := by
  induction h with
  | start => exact ⟨rfl, rfl⟩
  | @use log s h use ih =>
    obtain ⟨hpatience, hwaits⟩ := ih
    obtain ⟨hcount, hsame⟩ := Turn.waits_after (t := ⟨s, use⟩) (h.keeps_node rfl)
    rw [hsame, hcount, List.countP_cons]
    refine ⟨hpatience, ?_⟩
    cases (⟨s, use⟩ : Turn γ).waited <;> simp [hwaits]

lemma Turn.waits_le_after {t : Turn γ} (hnode : t.before.node = some node) (hs : t.before.Sound)
    (hr : ∀ r ∈ t.readings, Identifier.HoldsMillis r)
    (h : t.before.waits = 0 ∨ (t.before.waits : Int) ≤ t.before.millis.toInt + 2 ^ 45 + 1) :
    t.after.waits = 0 ∨ (t.after.waits : Int) ≤ t.after.millis.toInt + 2 ^ 45 + 1 := by
  have hcount := (waits_after hnode).1
  cases hx : t.issued with
  | none =>
    rw [waited, hx] at hcount
    rwa [hcount, (after_of_not_issued hx).1]
  | some x =>
    obtain ⟨clock, hgoes⟩ := goes_of_issued hnode hx
    have hlow := (after_of_issued hs hr hx).1.holds.1
    have hmono := Int64.le_iff_toInt_le.1 hgoes.millis_le
    rw [waited, hx, Option.isSome_some, Bool.true_and] at hcount
    by_cases hk : 0 < t.pauses
    · have hlt := Int64.lt_iff_toInt_lt.1 (hgoes.millis_lt hk)
      rw [decide_eq_true hk, Bool.toNat_true] at hcount
      omega
    · rw [decide_eq_false hk, Bool.toNat_false] at hcount
      omega

lemma Run.waits_le (h : Run (ready node patience) log s) (hr : ReadsInRange log) :
    s.waits = 0 ∨ (s.waits : Int) ≤ s.millis.toInt + 2 ^ 45 + 1 := by
  induction h with
  | start => exact .inl rfl
  | @use log s h use ih =>
    exact Turn.waits_le_after (t := ⟨s, use⟩) (h.keeps_node rfl) (h.sound (sound_ready node patience) hr.of_cons.2)
      hr.of_cons.1 (ih hr.of_cons.2)

def Stalls (patience : Nat) (older : List (Turn γ)) (clock : γ) : Prop :=
  ∃ x, (older.filterMap Turn.issued).head? = some x ∧ x.sequence.toNat = Identifier.lastSequence ∧
    ∀ k ≤ patience, readingAfter clock k ≤ x.millis

structure Responds (patience : Nat) (older : List (Turn γ)) (s : Issuer) (clock : γ) : Prop where
  metered : s.issue (⟨clock, 0⟩ : Metered γ) =
    ((s.issue clock).1, (s.issue clock).2.1, ⟨(s.issue clock).2.2, s.pauses clock⟩)
  pauses_le : s.pauses clock ≤ patience
  now_le : ∀ x, (s.issue clock).1 = .ok x → Clock.now clock ≤ x.millis
  stalled_iff : (s.issue clock).1 = .error (.clockStalled patience) ↔ Stalls patience older clock
  of_error : ∀ e, (s.issue clock).1 = .error e → e = .clockStalled patience ∧ (s.issue clock).2.1 = s

lemma stalls_iff (h : Dense s older) (hle : s.sequence.toNat ≤ Identifier.lastSequence) : Stalls patience older clock ↔
    ¬ s.sequence.toNat < Identifier.lastSequence ∧ ∀ k ≤ patience, ¬ s.millis < readingAfter clock k := by
  simp only [Stalls, Int64.not_lt]
  constructor
  · rintro ⟨x, hx, hsequence, hnever⟩
    obtain ⟨hmillis, hsame, _⟩ := h.latest x hx
    rw [hmillis] at hnever
    rw [hsame] at hsequence
    exact ⟨Nat.not_lt.2 (Nat.le_of_eq hsequence.symm), hnever⟩
  · rintro ⟨hfull, hnever⟩
    cases hx : (older.filterMap Turn.issued).head? with
    | none =>
      rw [(h.unissued hx).2] at hfull
      exact absurd (by decide) hfull
    | some x =>
      obtain ⟨hmillis, hsame, _⟩ := h.latest x hx
      refine ⟨x, rfl, ?_, hmillis ▸ hnever⟩
      rw [hsame]
      exact Nat.le_antisymm hle (Nat.not_lt.1 hfull)

lemma Run.responds (h : Run (ready node patience) older s)
    (hr : ReadsInRange (⟨s, .issue clock⟩ :: older : List (Turn γ))) : Responds patience older s clock := by
  have hnode : s.node = some node := h.keeps_node rfl
  have hs := h.sound (sound_ready node patience) hr.of_cons.2
  obtain ⟨hgoes, hmetered⟩ := goes_issue hnode clock
  obtain ⟨hpatience, _⟩ := h.waits_eq
  subst hpatience
  refine ⟨hmetered, hgoes.pauses_le, fun x hx => ?_, ?_, fun e he => ?_⟩
  · have hadvanced := (issue_ok hs hr.of_cons.1 hx).1
    rw [hx] at hgoes
    rw [hgoes.eq_ofFields, Identifier.millis_ofFields node hadvanced.holds hadvanced.sound.sequence_le]
    exact hgoes.now_le
  · rw [hgoes.error_iff, stalls_iff (h.dense hr.of_cons.2) hs.sequence_le]
  · rw [he] at hgoes
    exact hgoes.of_error

theorem sequences_without_gap (h : Run (ready node patience) log s) (hr : ReadsInRange log) :
    (∀ millis, ∃ k ≤ 1024, sequencesOf log millis = List.range k) ∧
    (∀ newer before clock older, log = newer ++ ⟨before, .issue clock⟩ :: older →
      Responds patience older before clock) ∧
    s.waits = log.countP Turn.waited ∧ s.waits < 2 ^ 64 := by
  refine ⟨(h.dense hr).every, ?_, h.waits_eq.2, ?_⟩
  · rintro newer before clock older rfl
    obtain ⟨mid, hrun, _⟩ := h.of_append
    cases hrun with
    | use hrun => exact hrun.responds fun t ht => hr t (List.mem_append_right _ ht)
  · have hle := h.waits_le hr
    have hlt := (h.sound (sound_ready node patience) hr).millis_lt
    omega

section Draining

variable {n : Nat}

def drained (s : Issuer) (clock : γ) : Nat → Issuer
  | 0 => s
  | n + 1 => ((drained s clock n).issue clock).2.1

def drain (s : Issuer) (clock : γ) : Nat → List (Turn γ)
  | 0 => []
  | n + 1 => ⟨drained s clock n, .issue clock⟩ :: drain s clock n

lemma run_drain (s : Issuer) (clock : γ) (n : Nat) : Run s (s.drain clock n) (s.drained clock n) := by
  induction n with
  | zero => exact .start
  | succ n ih => exact ih.use (.issue clock)

lemma toNat_ofNat_lt (hn : n < Identifier.lastSequence) : (UInt16.ofNat n).toNat < Identifier.lastSequence := by
  rwa [toNat_ofNat_of_le (Nat.le_succ_of_le (Nat.le_of_lt hn))]

lemma drained_ready (hnow : Int64.minValue < Clock.now clock) (hn : n ≤ Identifier.lastSequence) :
    (ready node patience).drained clock (n + 1) = ⟨some node, Clock.now clock, .ofNat n, ∅, patience, 0⟩ := by
  induction n with
  | zero => simp [drained, issue, advance, ready, hnow, enter]
  | succ n ih =>
    rw [drained, ih (Nat.le_of_succ_le hn), issue_eq rfl, advance, if_neg Int64.lt_irrefl, if_pos (toNat_ofNat_lt hn),
      UInt16.ofNat_add]
    rfl

lemma readings_drain (hnow : Int64.minValue < Clock.now clock) (hn : n ≤ Identifier.lastSequence + 1) :
    ∀ t ∈ (ready node patience).drain clock n, t.readings = [Clock.now clock] := by
  induction n with
  | zero => nofun
  | succ n ih =>
    intro t ht
    rcases List.mem_cons.1 ht with rfl | ht
    · cases n with
      | zero => simp [Turn.readings, readings, drained, ready, hnow]
      | succ n =>
        rw [drained_ready hnow (Nat.le_of_succ_le (Nat.le_of_succ_le_succ hn)), Turn.readings]
        exact if_pos (.inr (toNat_ofNat_lt (Nat.le_of_succ_le_succ hn)))
    · exact ih (Nat.le_of_succ_le hn) t ht

end Draining

theorem sequences_without_gap_drained : (ofPatience 200).assignNode 2 = .ok (2, ready 2 4) ∧
    ∃ (log : List (Turn SteppingClock)) (s : Issuer), Run (ready 2 4) log s ∧ ReadsInRange log ∧
      (∀ millis, ∃ k ≤ 1024, sequencesOf log millis = List.range k) ∧
      Stalls 4 ((ready 2 4).drain ⟨7, 0⟩ 1024) (⟨7, 0⟩ : SteppingClock) ∧ log.countP Turn.waited = 1 := by
  let clock : SteppingClock := ⟨7, 0⟩
  let full : Issuer := ⟨some 2, 7, .ofNat 1023, ∅, 4, 0⟩
  have hfull : (ready 2 4).drained clock 1024 = full := drained_ready (by decide) (Nat.le_refl _)
  have hdrain := hfull ▸ run_drain (ready 2 4) clock 1024
  have hstall : (full.issue clock).1 = .error (.clockStalled 4) := by decide
  have hafter : (⟨full, .issue clock⟩ : Turn SteppingClock).after = full := issue_error hstall
  have hrun := (hafter ▸ hdrain.use (.issue clock)).use (.issue (⟨7, 1⟩ : SteppingClock))
  have hlast : ReadsInRange [(⟨full, .issue ⟨7, 1⟩⟩ : Turn SteppingClock), ⟨full, .issue clock⟩] := by decide
  have hrange : ReadsInRange ([⟨full, .issue ⟨7, 1⟩⟩, ⟨full, .issue clock⟩] ++ (ready 2 4).drain clock 1024) := by
    refine List.forall_mem_append.2 ⟨hlast, fun t ht r hr => ?_⟩
    rw [readings_drain (by decide) (Nat.le_refl _) t ht] at hr
    exact List.mem_singleton.1 hr ▸ by decide
  obtain ⟨hdense, hresponds, hwaits, _⟩ := sequences_without_gap hrun hrange
  refine ⟨assignNode_ofPatience 200 (by decide), _, _, hrun, hrange, hdense, ?_, ?_⟩
  · exact (hresponds [⟨full, .issue ⟨7, 1⟩⟩] full clock _ rfl).stalled_iff.1 hstall
  · rw [← hwaits]
    decide

end Chronicle.Issuer
