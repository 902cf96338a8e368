import Mathlib.Logic.Function.Iterate
import Chronicle.Proofs.Issuing.Turns

namespace Chronicle

structure Metered (γ : Type) where
  clock : γ
  pauses : Nat

instance {γ : Type} [Clock γ] : Clock (Metered γ) where
  now m := Clock.now m.clock
  pause m := ⟨Clock.pause m.clock, m.pauses + 1⟩
  elapse m := { m with clock := Clock.elapse m.clock }

namespace Issuer

variable {γ : Type} [Clock γ] {s : Issuer} {clock : γ} {node : Node} {x : Identifier}

def readingAfter (clock : γ) (pauses : Nat) : Int64 := Clock.now (Clock.pause^[pauses] clock)

def pauses (s : Issuer) (clock : γ) : Nat := (s.issue (⟨clock, 0⟩ : Metered γ)).2.2.pauses

lemma awaitAfter_cases (last : Int64) (n : Nat) (clock : γ) (m : Nat) :
    (∃ k ≤ n, last < readingAfter clock k ∧
      awaitAfter last n clock = (some (readingAfter clock k), Clock.pause^[k] clock) ∧
      awaitAfter last n (⟨clock, m⟩ : Metered γ) = (some (readingAfter clock k), ⟨Clock.pause^[k] clock, m + k⟩)) ∨
    (∀ k ≤ n, ¬ last < readingAfter clock k) ∧ awaitAfter last n clock = (none, Clock.pause^[n] clock) ∧
      awaitAfter last n (⟨clock, m⟩ : Metered γ) = (none, ⟨Clock.pause^[n] clock, m + n⟩) := by
  induction n generalizing clock m with
  | zero =>
    rw [awaitAfter, awaitAfter]
    by_cases h : last < Clock.now clock
    · exact .inl ⟨0, Nat.le_refl _, h, if_pos h, if_pos h⟩
    · refine .inr ⟨fun k hk => ?_, if_neg h, if_neg h⟩
      obtain rfl := Nat.le_zero.1 hk
      exact h
  | succ n ih =>
    rw [awaitAfter, awaitAfter]
    by_cases h : last < Clock.now clock
    · exact .inl ⟨0, Nat.zero_le _, h, if_pos h, if_pos h⟩
    · have hmetered : ¬ last < Clock.now (⟨clock, m⟩ : Metered γ) := h
      rw [if_neg h, if_neg hmetered]
      rcases ih (Clock.pause clock) (m + 1) with ⟨k, hk, hlast, hplain, hcount⟩ | ⟨hnever, hplain, hcount⟩
      · exact .inl ⟨k + 1, Nat.succ_le_succ hk, hlast, hplain, hcount.trans (by rw [Nat.add_right_comm]; rfl)⟩
      · refine .inr ⟨fun k hk => ?_, hplain, hcount.trans (by rw [Nat.add_right_comm]; rfl)⟩
        cases k with
        | zero => exact h
        | succ k => exact hnever k (Nat.le_of_succ_le_succ hk)

/-- How a call of `issue` of a node goes: what it answers, how it leaves the issuer, and how often it pauses. -/
inductive Goes (node : Node) (s : Issuer) (clock : γ) : Except Error Identifier → Issuer → Nat → Prop
  | later (passed : s.millis < Clock.now clock) :
      Goes node s clock (.ok (.ofFields (Clock.now clock) 0 node)) (s.enter (Clock.now clock)) 0
  | next (notPassed : ¬ s.millis < Clock.now clock) (left : s.sequence.toNat < Identifier.lastSequence) :
      Goes node s clock (.ok (.ofFields s.millis (s.sequence + 1) node)) { s with sequence := s.sequence + 1 } 0
  | waited (notPassed : ¬ s.millis < Clock.now clock) (full : ¬ s.sequence.toNat < Identifier.lastSequence) {k : Nat}
      (pauses_le : k ≤ s.patience) (passed : s.millis < readingAfter clock k) :
      Goes node s clock (.ok (.ofFields (readingAfter clock k) 0 node))
        { s.enter (readingAfter clock k) with waits := s.waits + 1 } k
  | stalled (full : ¬ s.sequence.toNat < Identifier.lastSequence)
      (never : ∀ k ≤ s.patience, ¬ s.millis < readingAfter clock k) :
      Goes node s clock (.error (.clockStalled s.patience)) s s.patience

lemma issue_eq (hnode : s.node = some node) (clock : γ) : s.issue clock =
    match s.advance clock with
    | (.ok t, clock) => (.ok (.ofFields t.millis t.sequence node), t, clock)
    | (.error e, clock) => (.error e, s, clock) := by
  obtain ⟨_, _, _, _, _, _⟩ := s
  obtain rfl : _ = some node := hnode
  rfl

lemma goes (hnode : s.node = some node) (clock : γ) : ∃ answer after k, Goes node s clock answer after k ∧
    s.issue clock = (answer, after, Clock.pause^[k] clock) ∧
    s.issue (⟨clock, 0⟩ : Metered γ) = (answer, after, ⟨Clock.pause^[k] clock, k⟩) := by
  have hmetered : Clock.now (⟨clock, 0⟩ : Metered γ) = Clock.now clock := rfl
  simp only [issue_eq hnode, advance, hmetered]
  by_cases hpassed : s.millis < Clock.now clock
  · simp only [if_pos hpassed]
    exact ⟨_, _, 0, .later hpassed, rfl, rfl⟩
  · by_cases hleft : s.sequence.toNat < Identifier.lastSequence
    · simp only [if_neg hpassed, if_pos hleft]
      exact ⟨_, _, 0, .next hpassed hleft, rfl, rfl⟩
    · simp only [if_neg hpassed, if_neg hleft]
      rcases awaitAfter_cases s.millis s.patience clock 0 with ⟨k, hk, hlast, hplain, hcount⟩ | ⟨hnever, hplain, hcount⟩
      · rw [hplain, hcount, Nat.zero_add]
        exact ⟨_, _, k, .waited hpassed hleft hk hlast, rfl, rfl⟩
      · rw [hplain, hcount, Nat.zero_add]
        exact ⟨_, _, _, .stalled hleft hnever, rfl, rfl⟩

lemma goes_issue (hnode : s.node = some node) (clock : γ) :
    Goes node s clock (s.issue clock).1 (s.issue clock).2.1 (s.pauses clock) ∧ s.issue (⟨clock, 0⟩ : Metered γ) =
      ((s.issue clock).1, (s.issue clock).2.1, ⟨(s.issue clock).2.2, s.pauses clock⟩) := by
  obtain ⟨answer, after, k, hgoes, hplain, hcount⟩ := goes hnode clock
  rw [pauses, hplain, hcount]
  exact ⟨hgoes, rfl⟩

namespace Goes

variable {answer : Except Error Identifier} {after : Issuer} {k : Nat}

lemma eq_ofFields (h : Goes node s clock (.ok x) after k) : x = .ofFields after.millis after.sequence node := by
  cases h <;> rfl

lemma now_le (h : Goes node s clock (.ok x) after k) : Clock.now clock ≤ after.millis := by
  cases h with
  | later passed => exact Int64.le_refl _
  | next notPassed left => exact Int64.not_lt.1 notPassed
  | waited notPassed full pauses_le passed => exact Int64.le_trans (Int64.not_lt.1 notPassed) (Int64.le_of_lt passed)

lemma millis_lt (h : Goes node s clock (.ok x) after k) (hk : 0 < k) : s.millis < after.millis := by
  cases h with
  | later | next => cases hk
  | waited _ _ _ passed => exact passed

lemma millis_le (h : Goes node s clock (.ok x) after k) : s.millis ≤ after.millis := by
  cases h with
  | later passed => exact Int64.le_of_lt passed
  | next => exact Int64.le_refl _
  | waited _ _ _ passed => exact Int64.le_of_lt passed

lemma pauses_le (h : Goes node s clock answer after k) : k ≤ s.patience := by
  cases h with
  | later | next => exact Nat.zero_le _
  | waited _ _ pauses_le => exact pauses_le
  | stalled => exact Nat.le_refl _

lemma of_error {e : Error} (h : Goes node s clock (.error e) after k) : e = .clockStalled s.patience ∧ after = s := by
  cases h with
  | stalled => exact ⟨rfl, rfl⟩

lemma error_iff (h : Goes node s clock answer after k) : answer = .error (.clockStalled s.patience) ↔
    ¬ s.sequence.toNat < Identifier.lastSequence ∧ ∀ k ≤ s.patience, ¬ s.millis < readingAfter clock k := by
  cases h with
  | later passed => exact ⟨nofun, fun ⟨_, never⟩ => absurd passed (never 0 (Nat.zero_le _))⟩
  | next _ left => exact ⟨nofun, fun ⟨full, _⟩ => absurd left full⟩
  | waited _ _ pauses_le passed => exact ⟨nofun, fun ⟨_, never⟩ => absurd passed (never _ pauses_le)⟩
  | stalled full never => exact ⟨fun _ => ⟨full, never⟩, fun _ => rfl⟩

lemma enters_or_follows (h : Goes node s clock (.ok x) after k) : s.millis < after.millis ∧ after.sequence = 0 ∨
    after.millis = s.millis ∧ after.sequence.toNat = s.sequence.toNat + 1 := by
  cases h with
  | later passed => exact .inl ⟨passed, rfl⟩
  | next _ left => exact .inr ⟨rfl, toNat_add_one_of_le (Nat.le_of_lt left)⟩
  | waited _ _ _ passed => exact .inl ⟨passed, rfl⟩

lemma waits_eq (h : Goes node s clock answer after k) :
    after.waits = s.waits + (answer.toOption.isSome && decide (0 < k)).toNat ∧ after.patience = s.patience := by
  cases h with
  | later | next | stalled => exact ⟨rfl, rfl⟩
  | @waited notPassed _ k _ passed =>
    have hpos : 0 < k := by
      refine Nat.pos_of_ne_zero ?_
      rintro rfl
      exact notPassed passed
    simp [hpos, Except.toOption]
    rfl

end Goes

end Issuer

end Chronicle
