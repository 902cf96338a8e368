import Mathlib.Data.List.Induction
import Chronicle.Proofs.Lease.Keyed
import Chronicle.Proofs.Lease.Memory

namespace Chronicle

inductive LeaseCall where
  | claim (l : Lease)
  | renew (l : Lease)
  | release (n : Node)
deriving DecidableEq

namespace LeaseCall

section

variable {σ : Type} [LeaseBook σ]

def after (b : σ) : LeaseCall → σ
  | claim l => ((LeaseBook.claim b l).toOption.map (·.2)).getD b
  | renew l => (LeaseBook.renew b l).toOption.getD b
  | release n => ((LeaseBook.release b n).toOption.map (·.2)).getD b

def entered (b : σ) : LeaseCall → Option Lease
  | claim l => if (LeaseBook.claim b l).toOption.any (·.1) then some l else none
  | renew l => (LeaseBook.renew b l).toOption.map fun _ => l
  | release _ => none

def run (b : σ) (calls : List LeaseCall) : σ := calls.foldl after b

def entries (b : σ) : List LeaseCall → List Lease
  | [] => []
  | c :: cs => (c.entered b).toList ++ entries (c.after b) cs

lemma run_concat (b : σ) (calls : List LeaseCall) (c : LeaseCall) : run b (calls ++ [c]) = c.after (run b calls) := by
  rw [run, List.foldl_append]
  rfl

lemma entries_concat (b : σ) (calls : List LeaseCall) (c : LeaseCall) :
    entries b (calls ++ [c]) = entries b calls ++ (c.entered (run b calls)).toList := by
  induction calls generalizing b with
  | nil => simp [entries, run]
  | cons d calls ih => simp only [List.cons_append, entries, ih, List.append_assoc, run, List.foldl_cons]

def Recorded (Room : Nat → Prop) (b : σ) (c : LeaseCall) : Prop :=
  match c.entered b with
  | some l => Lease.TrailGrows Room b (c.after b) l
  | none => ∀ n, LeaseBook.trail (c.after b) n = LeaseBook.trail b n

lemma trail_run {Room : Nat → Prop} {start : σ} (hstart : ∀ n, LeaseBook.trail start n = .ok []) {calls : List LeaseCall}
    (hrecorded : ∀ before c rest, calls = before ++ c :: rest → c.Recorded Room (run start before)) (n : Node)
    (hroom : ∀ rows < ((entries start calls).filter (·.node = n)).length, Room rows) :
    LeaseBook.trail (run start calls) n = .ok ((entries start calls).filter (·.node = n)) := by
  induction calls using List.reverseRecOn with
  | nil => exact hstart n
  | append_singleton calls c ih =>
    have hlast := hrecorded calls c [] rfl
    rw [entries_concat, List.filter_append] at hroom ⊢
    have hbefore := ih (fun before d rest h => hrecorded before d (rest ++ [c]) (by simp [h]))
      fun rows hrows => hroom rows (by rw [List.length_append]; omega)
    rw [run_concat]
    unfold Recorded at hlast
    split at hlast
    · next l hentered =>
      rw [hentered] at hroom ⊢
      by_cases hn : n = l.node
      · subst hn
        simp only [Option.toList_some, List.filter_singleton, decide_true, cond_true, List.length_append,
          List.length_singleton] at hroom ⊢
        exact hlast.own _ hbefore (hroom _ (Nat.lt_succ_self _))
      · rw [hlast.other n hn, hbefore]
        simp [Ne.symm hn]
    · next hentered =>
      rw [hentered, hlast n, hbefore]
      simp

end

def Fits : LeaseCall → Prop
  | claim l | renew l => (Bytes.ofText l.identity).Fits
  | release _ => True

instance : (c : LeaseCall) → Decidable c.Fits
  | claim l | renew l => inferInstanceAs (Decidable (Bytes.ofText l.identity).Fits)
  | release _ => inferInstanceAs (Decidable True)

end LeaseCall

namespace MemoryLeases

open LeaseCall

lemma recorded (b : MemoryLeases) (c : LeaseCall) : c.Recorded (fun _ => True) b := by
  cases c with
  | claim l =>
    rw [Recorded, entered, after, claim_eq]
    cases b.active.contains l.node with
    | true => exact fun _ => rfl
    | false => exact ⟨(trailGrows_enter (b.note l) l).own, (trailGrows_enter (b.note l) l).other⟩
  | renew l => exact trailGrows_enter b l
  | release n =>
    rw [Recorded, entered, after, release_eq]
    cases b.active.get? n with
    | none => exact fun _ => rfl
    | some l => exact fun _ => rfl

end MemoryLeases

namespace KeyedLeases

open LeaseCall

variable {b : KeyedLeases} {c : LeaseCall} {calls : List LeaseCall}

lemma after_cases (b : KeyedLeases) (c : LeaseCall) :
    (∃ l, (c = .claim l ∨ c = .renew l) ∧ c.entered b = some l ∧ c.after b = b.enter l) ∨
      c.entered b = none ∧ (c.after b).trails = b.trails := by
  cases c with
  | claim l =>
    have hclaim : LeaseBook.claim b l =
        .ok (if b.active.contains (Key.lease l.node) then (false, b) else (true, b.enter l)) := rfl
    simp only [entered, after, hclaim]
    cases b.active.contains (Key.lease l.node) with
    | true => exact .inr ⟨rfl, rfl⟩
    | false => exact .inl ⟨l, .inl rfl, rfl, rfl⟩
  | renew l => exact .inl ⟨l, .inr rfl, rfl, rfl⟩
  | release n =>
    refine .inr ⟨rfl, ?_⟩
    rw [after, release_eq]
    cases b.ofNode? n with
    | error e => rfl
    | ok found => cases found <;> rfl

lemma numbered_after (h : b.Numbered) (hf : c.Fits) : (c.after b).Numbered := by
  rcases after_cases b c with ⟨l, hc, _, hafter⟩ | ⟨_, htrails⟩
  · rw [hafter]
    rcases hc with rfl | rfl <;> exact h.enter hf
  · intro n
    rw [storedTrail, htrails]
    exact h n

lemma numbered_run (hf : ∀ c ∈ calls, c.Fits) : (run KeyedLeases.empty calls).Numbered := by
  induction calls using List.reverseRecOn with
  | nil => exact fun _ _ he => nomatch he
  | append_singleton calls c ih =>
    rw [run_concat]
    exact numbered_after (ih fun d hd => hf d (List.mem_append_left _ hd))
      (hf c (List.mem_append_right _ List.mem_cons_self))

lemma recorded (h : b.Numbered) (hf : c.Fits) : c.Recorded (· < UInt64.size) b := by
  unfold Recorded
  rcases after_cases b c with ⟨l, hc, hentered, hafter⟩ | ⟨hentered, htrails⟩
  · rw [hentered, hafter]
    rcases hc with rfl | rfl <;> exact trailGrows_enter h hf
  · rw [hentered]
    intro n
    change ((c.after b).storedTrail n).mapM _ = (b.storedTrail n).mapM _
    rw [storedTrail, htrails]
    rfl

end KeyedLeases

namespace LeaseCall

theorem trail_lists_entries (calls : List LeaseCall) (n : Node) :
    LeaseBook.trail (run MemoryLeases.empty calls) n =
        .ok ((entries MemoryLeases.empty calls).filter (·.node = n)) ∧
      ((∀ c ∈ calls, c.Fits) → ((entries KeyedLeases.empty calls).filter (·.node = n)).length ≤ UInt64.size →
        LeaseBook.trail (run KeyedLeases.empty calls) n =
          .ok ((entries KeyedLeases.empty calls).filter (·.node = n))) := by
  refine ⟨trail_run (fun _ => rfl) (fun _ c _ _ => MemoryLeases.recorded _ c) n fun _ _ => trivial, fun hf hroom => ?_⟩
  refine trail_run (fun _ => rfl) (fun before c rest hsplit => ?_) n fun rows hrows => Nat.lt_of_lt_of_le hrows hroom
  subst hsplit
  exact KeyedLeases.recorded (KeyedLeases.numbered_run fun d hd => hf d (List.mem_append_left _ hd))
    (hf c (List.mem_append_right _ List.mem_cons_self))

def reuse : List LeaseCall :=
  [.claim ⟨7, "a", 10⟩, .renew ⟨7, "a", 10⟩, .claim ⟨7, "b", 10⟩, .claim ⟨-128, "a", 10⟩, .release 7, .release 7,
    .claim ⟨7, "b", 10⟩]

theorem trail_lists_entries_reuse :
    (∀ c ∈ reuse, c.Fits) ∧ ((entries KeyedLeases.empty reuse).filter (·.node = 7)).length ≤ UInt64.size ∧
      LeaseBook.trail (run KeyedLeases.empty reuse) 7 = .ok [⟨7, "a", 10⟩, ⟨7, "a", 10⟩, ⟨7, "b", 10⟩] := by
  have hf : ∀ c ∈ reuse, c.Fits := by decide +kernel
  have hentries : (entries KeyedLeases.empty reuse).filter (·.node = 7) =
      [⟨7, "a", 10⟩, ⟨7, "a", 10⟩, ⟨7, "b", 10⟩] := by decide +kernel
  have hroom : ((entries KeyedLeases.empty reuse).filter (·.node = 7)).length ≤ UInt64.size := by
    rw [hentries]
    decide
  exact ⟨hf, hroom, hentries ▸ (trail_lists_entries reuse 7).2 hf hroom⟩

end LeaseCall

end Chronicle
