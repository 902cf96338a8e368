import Chronicle.Proofs.Issuing.Increase
import Chronicle.Proofs.Lease.Acquire
import Chronicle.Proofs.Lease.Keyed
import Chronicle.Proofs.Lease.Memory
import Mathlib.Data.Bool.AllAny
import Mathlib.Logic.Function.Basic

/-! No two identifiers of a cluster are equal, of whichever processes. -/

namespace Chronicle

structure Cluster (ι σ : Type) where
  book : σ
  issuers : ι → Issuer

namespace Cluster

open Lease

section

variable {ι σ γ : Type} [LeaseBook σ] [Clock γ]

def fresh (book : σ) (micros : ι → Nat) : Cluster ι σ := ⟨book, fun i => .ofPatience (micros i)⟩

variable [DecidableEq ι]

def join (c : Cluster ι σ) (i : ι) (identity : String) (hidden : List Node) (clock : γ) (attempts : Nat)
    (chance : Chance) : Cluster ι σ :=
  let (_, lagging, issuer) := Lease.join (⟨c.book, hidden⟩ : Lagging σ) (c.issuers i) clock attempts chance identity
  ⟨lagging.book, Function.update c.issuers i issuer⟩

def issue (c : Cluster ι σ) (i : ι) (clock : γ) : Option Identifier × Cluster ι σ :=
  let (answer, issuer, _) := (c.issuers i).issue clock
  (answer.toOption, { c with issuers := Function.update c.issuers i issuer })

/-- The identifiers that processes issue on the way from `start`, the latest first. Each process joins and issues when
it likes, and its clock is read within the milliseconds that identifiers hold. -/
inductive Run (identity : ι → String) (start : Cluster ι σ) : List (ι × Identifier) → Cluster ι σ → Prop where
  | start : Run identity start [] start
  | join {γ : Type} [Clock γ] {log : List (ι × Identifier)} {c : Cluster ι σ} (h : Run identity start log c) (i : ι)
      (hidden : List Node) (clock : γ) (attempts : Nat) (chance : Chance) :
      Run identity start log (c.join i (identity i) hidden clock attempts chance)
  | issue {γ : Type} [Clock γ] {log : List (ι × Identifier)} {c : Cluster ι σ} (h : Run identity start log c) (i : ι)
      (clock : γ) (inRange : ∀ r ∈ (c.issuers i).readings clock, Identifier.HoldsMillis r) :
      Run identity start ((c.issue i clock).1.toList.map (i, ·) ++ log) (c.issue i clock).2

end

structure Member (active : OrderedMap Node Lease) (identity : String) (Issued : Identifier → Prop) (s : Issuer) :
    Prop where
  sound : s.Sound
  leased : ∀ n, s.node = some n → HeldBy active n identity
  issued : ∀ x, Issued x → s.node = some x.node ∧ x.slot ≤ s.mark

section

variable {σ γ : Type} [LeaseBook σ] [LawfulBook σ] [Clock γ] {active active' : OrderedMap Node Lease} {name : String}
  {Issued : Identifier → Prop} {s : Issuer} {clock : γ}

open LawfulBook (Keeps)

lemma HeldBy.unique {n : Node} {name' : String} (h : HeldBy active n name) (h' : HeldBy active n name') :
    name = name' := by
  obtain ⟨l, hget, rfl⟩ := h
  obtain ⟨l', hget', rfl⟩ := h'
  rw [Option.some.inj (hget.symm.trans hget')]

lemma Member.mono (h : Member active name Issued s)
    (hgrows : ∀ n name', HeldBy active n name' → HeldBy active' n name') : Member active' name Issued s where
  sound := h.sound
  leased n hn := hgrows n name (h.leased n hn)
  issued := h.issued

lemma Member.assignNode (h : Member active name Issued s) {n inForce : Node} {s' : Issuer}
    (hn : HeldBy active n name) (hassign : s.assignNode n = .ok (inForce, s')) : Member active name Issued s' := by
  obtain ⟨rfl, rfl⟩ := Issuer.assignNode_ok hassign
  refine ⟨⟨h.sound.sequence_le, h.sound.millis_lt⟩, fun m hm => ?_, fun x hx => ?_⟩
  · cases hnode : s.node with
    | none =>
      rw [hnode, Option.getD_none] at hm
      exact Option.some.inj hm ▸ hn
    | some k =>
      rw [hnode, Option.getD_some] at hm
      exact h.leased m (hnode.trans hm)
  · obtain ⟨hnode, hmark⟩ := h.issued x hx
    refine ⟨?_, hmark⟩
    change some (s.node.getD n) = _
    rw [hnode, Option.getD_some]

lemma Member.join {b : σ} (h : Member active name Issued s) (hb : Keeps b active)
    (hfits : (Bytes.ofText name).Fits) (hidden : List Node) (clock : γ) (attempts : Nat) (chance : Chance) :
    ∃ active', Keeps (Lease.join (⟨b, hidden⟩ : Lagging σ) s clock attempts chance name).2.1.book active' ∧
      (∀ n name', HeldBy active n name' → HeldBy active' n name') ∧
      Member active' name Issued (Lease.join (⟨b, hidden⟩ : Lagging σ) s clock attempts chance name).2.2 := by
  obtain ⟨active', hkeeps, hgrows, hheld⟩ := (acquisition_outcome hb hfits hidden clock attempts chance).keeps hb
  refine ⟨active', ?_⟩
  unfold Lease.join
  split
  · next hacquired =>
    rw [hacquired] at hkeeps
    exact ⟨hkeeps, hgrows, h.mono hgrows⟩
  · next n b' hacquired =>
    rw [hacquired] at hkeeps hheld
    split
    · exact ⟨hkeeps, hgrows, h.mono hgrows⟩
    · next hassigned => exact ⟨hkeeps, hgrows, (h.mono hgrows).assignNode (hheld n rfl) hassigned⟩

lemma Member.issue {x : Identifier} (h : Member active name Issued s)
    (hr : ∀ r ∈ s.readings clock, Identifier.HoldsMillis r) (hx : (s.issue clock).1 = .ok x) :
    Member active name (fun y => y = x ∨ Issued y) (s.issue clock).2.1 := by
  obtain ⟨hadvanced, hslot, hnode⟩ := Issuer.issue_ok h.sound hr hx
  refine ⟨hadvanced.sound, fun n hn => h.leased n (hadvanced.node_eq.symm.trans hn), ?_⟩
  intro y hy
  rcases hy with rfl | hy
  · exact ⟨hadvanced.node_eq.trans hnode, Int.le_of_eq hslot⟩
  · obtain ⟨hnode', hmark⟩ := h.issued y hy
    exact ⟨hadvanced.node_eq.trans hnode', Int.le_trans hmark (Int.le_of_lt hadvanced.mark_lt)⟩

end

section

variable {ι σ γ : Type} [LeaseBook σ] [LawfulBook σ] {identity : ι → String} {start c : Cluster ι σ}
  {log : List (ι × Identifier)} {active : OrderedMap Node Lease}

open LawfulBook (Keeps)

structure Settled (identity : ι → String) (log : List (ι × Identifier)) (c : Cluster ι σ)
    (active : OrderedMap Node Lease) : Prop where
  keeps : Keeps c.book active
  member : ∀ i, Member active (identity i) (fun x => (i, x) ∈ log) (c.issuers i)
  distinct : (log.map Prod.snd).Nodup

lemma settled_fresh {book : σ} (micros : ι → Nat) (h : Keeps book active) :
    Settled identity [] (fresh book micros) active where
  keeps := h
  member i := ⟨Issuer.sound_ofPatience (micros i), fun _ hn => (nomatch hn), fun _ hx => nomatch hx⟩
  distinct := List.nodup_nil

lemma Settled.not_mem_issued (hinjective : Function.Injective identity) (h : Settled identity log c active) {i : ι}
    {x : Identifier} (hnode : (c.issuers i).node = some x.node) (hmark : (c.issuers i).mark < x.slot) :
    x ∉ log.map Prod.snd := by
  intro hx
  obtain ⟨⟨j, y⟩, he, rfl⟩ := List.mem_map.1 hx
  obtain ⟨hnode', hmark'⟩ := (h.member j).issued y he
  have hsame : identity j = identity i := HeldBy.unique ((h.member j).leased _ hnode') ((h.member i).leased _ hnode)
  obtain rfl := hinjective hsame
  exact absurd hmark (Int.not_lt.2 hmark')

variable [DecidableEq ι] [Clock γ]

lemma Settled.join (h : Settled identity log c active) (i : ι) (hfits : (Bytes.ofText (identity i)).Fits)
    (hidden : List Node) (clock : γ) (attempts : Nat) (chance : Chance) :
    ∃ active', Settled identity log (c.join i (identity i) hidden clock attempts chance) active' := by
  obtain ⟨active', hkeeps, hgrows, hmember⟩ := (h.member i).join h.keeps hfits hidden clock attempts chance
  refine ⟨active', hkeeps, ?_, h.distinct⟩
  exact Function.forall_update_iff c.issuers (fun j s => Member active' (identity j) (fun x => (j, x) ∈ log) s) |>.2
    ⟨hmember, fun j _ => (h.member j).mono hgrows⟩

lemma Settled.issue (hinjective : Function.Injective identity) (h : Settled identity log c active) (i : ι) (clock : γ)
    (hr : ∀ r ∈ (c.issuers i).readings clock, Identifier.HoldsMillis r) :
    Settled identity ((c.issue i clock).1.toList.map (i, ·) ++ log) (c.issue i clock).2 active := by
  change Settled identity (((c.issuers i).issue clock).1.toOption.toList.map (i, ·) ++ log)
    { c with issuers := Function.update c.issuers i ((c.issuers i).issue clock).2.1 } active
  cases hanswer : ((c.issuers i).issue clock).1 with
  | error e =>
    rw [Issuer.issue_error hanswer, Function.update_eq_self]
    exact h
  | ok x =>
    obtain ⟨hadvanced, hslot, hnode⟩ := Issuer.issue_ok (h.member i).sound hr hanswer
    have hnew : x ∉ log.map Prod.snd := h.not_mem_issued hinjective hnode (hslot ▸ hadvanced.mark_lt)
    refine ⟨h.keeps, ?_, List.nodup_cons.2 ⟨hnew, h.distinct⟩⟩
    refine Function.forall_update_iff c.issuers
      (fun j s => Member active (identity j) (fun y => (j, y) ∈ (i, x) :: log) s) |>.2 ⟨?_, fun j hj => ?_⟩
    · have hmember := (h.member i).issue hr hanswer
      exact ⟨hmember.sound, hmember.leased, fun y hy => hmember.issued y (by simpa using hy)⟩
    · have hmember := h.member j
      exact ⟨hmember.sound, hmember.leased, fun y hy => hmember.issued y (by simpa [hj] using hy)⟩

lemma Run.settled (hinjective : Function.Injective identity) (hfits : ∀ i, (Bytes.ofText (identity i)).Fits)
    (hrun : Run identity start log c) (h : Settled identity [] start active) :
    ∃ active, Settled identity log c active := by
  induction hrun with
  | start => exact ⟨active, h⟩
  | join _ i hidden clock attempts chance ih =>
    obtain ⟨_, hc⟩ := ih
    exact hc.join i (hfits i) hidden clock attempts chance
  | issue _ i clock inRange ih =>
    obtain ⟨active', hc⟩ := ih
    exact ⟨active', hc.issue hinjective i clock inRange⟩

end

theorem issued_distinct {ι : Type} [DecidableEq ι] {identity : ι → String}
    (hinjective : Function.Injective identity) (hfits : ∀ i, (Bytes.ofText (identity i)).Fits) (micros : ι → Nat)
    (log : List (ι × Identifier)) :
    (∀ c, Run identity (fresh MemoryLeases.empty micros) log c → (log.map Prod.snd).Nodup) ∧
      ∀ c, Run identity (fresh KeyedLeases.empty micros) log c → (log.map Prod.snd).Nodup := by
  refine ⟨fun c hrun => ?_, fun c hrun => ?_⟩
  · obtain ⟨_, hc⟩ := hrun.settled hinjective hfits (settled_fresh micros MemoryLeases.keeps_empty)
    exact hc.distinct
  · obtain ⟨_, hc⟩ := hrun.settled hinjective hfits (settled_fresh micros KeyedLeases.keeps_empty)
    exact hc.distinct

theorem issued_distinct_hidden_lease :
    ∃ (log : List (Bool × Identifier)) (c : Cluster Bool KeyedLeases),
      Run (fun i => if i then "second" else "first") (fresh .empty fun _ => 0) log c ∧
      log.map (·.2.raw) = [1835137, 1835135] ∧ (log.map Prod.snd).Nodup := by
  have joined : Run (fun i : Bool => if i then "second" else "first") (fresh KeyedLeases.empty fun _ => 0) [] _ :=
    (Run.start.join false [] (⟨7, 0⟩ : SteppingClock) 8 fun _ => 0).join true [127] (⟨7, 0⟩ : SteppingClock) 8
      fun _ => 0
  -- readings are gone through as a list, for words could be gone through one by one as well
  have issued := (joined.issue false (⟨7, 0⟩ : SteppingClock) (List.all_iff_forall_prop.1 (by decide +kernel))).issue
    true (⟨7, 0⟩ : SteppingClock) (List.all_iff_forall_prop.1 (by decide +kernel))
  have hinjective : ∀ i j : Bool, (if i then "second" else "first") = (if j then "second" else "first") → i = j := by
    decide
  exact ⟨_, _, issued, by decide +kernel,
    (issued_distinct (fun i j => hinjective i j) (by decide +kernel) _ _).2 _ issued⟩

end Cluster

end Chronicle
