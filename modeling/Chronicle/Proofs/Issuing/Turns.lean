import Mathlib.Tactic.Lemma
import Chronicle.Issuer
import Chronicle.Proofs.Identifier.Fields

namespace Chronicle.Issuer

variable {γ : Type} [Clock γ]

inductive Use (γ : Type) where
  | issue (clock : γ)
  | issueAt (millis : Int64)
  | assignNode (node : Node)

structure Turn (γ : Type) where
  before : Issuer
  use : Use γ

def awaited (last : Int64) : Nat → γ → List Int64
  | pauses, clock =>
    Clock.now clock ::
      if last < Clock.now clock then []
      else
        match pauses with
        | 0 => []
        | pauses + 1 => awaited last pauses (Clock.pause clock)

def readings (s : Issuer) (clock : γ) : List Int64 :=
  match s.node with
  | none => []
  | some _ =>
    if s.millis < Clock.now clock ∨ s.sequence.toNat < Identifier.lastSequence then [Clock.now clock]
    else awaited s.millis s.patience clock

namespace Turn

def after (t : Turn γ) : Issuer :=
  match t.use with
  | .issue clock => (t.before.issue clock).2.1
  | .issueAt millis => ((t.before.issueAt millis).toOption.map (·.2)).getD t.before
  | .assignNode node => ((t.before.assignNode node).toOption.map (·.2)).getD t.before

def issued (t : Turn γ) : Option Identifier :=
  match t.use with
  | .issue clock => (t.before.issue clock).1.toOption
  | _ => none

def assigned (t : Turn γ) : Option Node :=
  match t.use with
  | .assignNode node => (t.before.assignNode node).toOption.map fun _ => node
  | _ => none

def readings (t : Turn γ) : List Int64 :=
  match t.use with
  | .issue clock => t.before.readings clock
  | _ => []

end Turn

inductive Run (start : Issuer) : List (Turn γ) → Issuer → Prop where
  | start : Run start [] start
  | use {log : List (Turn γ)} {s : Issuer} (h : Run start log s) (use : Use γ) :
      Run start (⟨s, use⟩ :: log) (Turn.mk s use).after

def ReadsInRange (log : List (Turn γ)) : Prop :=
  ∀ t ∈ log, ∀ r ∈ t.readings, Identifier.HoldsMillis r

instance (log : List (Turn γ)) : Decidable (ReadsInRange log) := Identifier.decidableHoldsMillis Turn.readings log

def mark (s : Issuer) : Int := s.millis.toInt * 1024 + s.sequence.toNat

/-- What holds of every issuer whose clock has kept to the milliseconds that identifiers hold. -/
structure Sound (s : Issuer) : Prop where
  sequence_le : s.sequence.toNat ≤ Identifier.lastSequence
  millis_lt : s.millis.toInt < 2 ^ 45

lemma sound_ofPatience (micros : Nat) : (ofPatience micros).Sound where
  sequence_le := by simp [ofPatience]
  millis_lt := by
    rw [ofPatience, Int64.toInt_minValue]
    omega

lemma awaitAfter_some {last millis : Int64} {pauses : Nat} {clock clock' : γ}
    (h : awaitAfter last pauses clock = (some millis, clock')) :
    last < millis ∧ millis ∈ awaited last pauses clock := by
  induction pauses generalizing clock with
  | zero =>
    rw [awaitAfter] at h
    rw [awaited]
    split at h
    · next hlt =>
      obtain ⟨rfl, rfl⟩ := by simpa using h
      exact ⟨hlt, List.mem_cons_self⟩
    · simp at h
  | succ pauses ih =>
    rw [awaitAfter] at h
    rw [awaited]
    split at h
    · next hlt =>
      obtain ⟨rfl, rfl⟩ := by simpa using h
      exact ⟨hlt, List.mem_cons_self⟩
    · next hlt =>
      obtain ⟨hm, hmem⟩ := ih h
      rw [if_neg hlt]
      exact ⟨hm, List.mem_cons_of_mem _ hmem⟩

structure Advanced (s t : Issuer) : Prop where
  sound : t.Sound
  holds : Identifier.HoldsMillis t.millis
  mark_lt : s.mark < t.mark
  node_eq : t.node = s.node

lemma advanced_enter {s : Issuer} (hs : s.Sound) {millis : Int64} (hm : s.millis < millis)
    (hr : Identifier.HoldsMillis millis) : Advanced s (s.enter millis) := by
  have hlt := Int64.lt_iff_toInt_lt.1 hm
  have hle := hs.sequence_le
  simp only [Identifier.lastSequence] at hle
  refine ⟨⟨by simp [enter], hr.2⟩, hr, ?_, rfl⟩
  simp only [mark, enter, UInt16.toNat_zero]
  omega

lemma toNat_add_one_of_le {sequence : UInt16} (h : sequence.toNat ≤ Identifier.lastSequence) :
    (sequence + 1).toNat = sequence.toNat + 1 := by
  simp only [Identifier.lastSequence] at h
  rw [UInt16.toNat_add, UInt16.toNat_one, Nat.mod_eq_of_lt (by omega)]

lemma advanced_succ {s : Issuer} (hs : s.Sound) {now : Int64} (hm : ¬ s.millis < now)
    (hr : Identifier.HoldsMillis now) (hlt : s.sequence.toNat < Identifier.lastSequence) :
    Advanced s { s with sequence := s.sequence + 1 } := by
  have hle : now.toInt ≤ s.millis.toInt := by
    rw [Int64.lt_iff_toInt_lt] at hm
    omega
  have hsucc := toNat_add_one_of_le (Nat.le_of_lt hlt)
  refine ⟨⟨?_, hs.millis_lt⟩, ⟨Int.le_trans hr.1 hle, hs.millis_lt⟩, ?_, rfl⟩
  · change (s.sequence + 1).toNat ≤ _
    omega
  · simp only [mark, hsucc]
    omega

lemma advanced_of_advance {s t : Issuer} {n : Node} {clock clock' : γ} (hs : s.Sound) (hn : s.node = some n)
    (hr : ∀ r ∈ s.readings clock, Identifier.HoldsMillis r) (h : s.advance clock = (.ok t, clock')) :
    Advanced s t := by
  simp only [readings, hn] at hr
  unfold advance at h
  split at h
  · next hm =>
    obtain ⟨rfl, rfl⟩ := by simpa using h
    exact advanced_enter hs hm (hr _ (by simp [hm]))
  · next hm =>
    split at h
    · next hlt =>
      obtain ⟨rfl, rfl⟩ := by simpa using h
      exact advanced_succ hs hm (hr _ (by simp [hlt])) hlt
    · next hlt =>
      rw [if_neg (not_or.2 ⟨hm, hlt⟩)] at hr
      split at h
      · next millis clock₁ hw =>
        obtain ⟨rfl, rfl⟩ := by simpa using h
        obtain ⟨hlast, hmem⟩ := awaitAfter_some hw
        have ha := advanced_enter hs hlast (hr _ hmem)
        exact ⟨⟨ha.sound.1, ha.sound.2⟩, ha.holds, ha.mark_lt, ha.node_eq⟩
      · simp at h

lemma issue_ok {s : Issuer} {x : Identifier} {clock : γ} (hs : s.Sound)
    (hr : ∀ r ∈ s.readings clock, Identifier.HoldsMillis r) (h : (s.issue clock).1 = .ok x) :
    Advanced s (s.issue clock).2.1 ∧ x.slot = (s.issue clock).2.1.mark ∧ s.node = some x.node := by
  unfold issue at h ⊢
  split at h
  · simp at h
  · next n hn =>
    split at h
    · next t clock₁ ha =>
      obtain rfl := by simpa using h
      have had := advanced_of_advance hs hn hr ha
      refine ⟨had, Identifier.slot_ofFields n had.holds had.sound.sequence_le, ?_⟩
      rw [Identifier.node_ofFields]
      exact hn
    · simp at h

lemma assignNode_ok {s t : Issuer} {n inForce : Node} (h : s.assignNode n = .ok (inForce, t)) :
    inForce = s.node.getD n ∧ t = { s with node := some inForce } := by
  unfold assignNode at h
  split at h
  · cases h
    exact ⟨rfl, rfl⟩
  · cases h

lemma issue_error {s : Issuer} {e : Error} {clock : γ} (h : (s.issue clock).1 = .error e) :
    (s.issue clock).2.1 = s := by
  unfold issue at h ⊢
  split at h
  · rfl
  · split at h
    · simp at h
    · simp [*]

lemma error_of_issue {s : Issuer} {clock : γ} {e : Error} (h : (s.issue clock).1 = .error e) :
    e = .noNode ∨ e = .clockStalled s.patience := by
  unfold issue at h
  split at h
  · cases h
    exact .inl rfl
  · split at h
    · cases h
    · next ha =>
      cases h
      unfold advance at ha
      split at ha
      · cases ha
      · split at ha
        · cases ha
        · split at ha
          · cases ha
          · cases ha
            exact .inr rfl

end Chronicle.Issuer
