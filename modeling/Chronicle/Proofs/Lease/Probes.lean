import Mathlib.Data.List.Perm.Basic
import Mathlib.Data.List.Perm.Subperm
import Chronicle.Proofs.Lease.Acquire
import Chronicle.Proofs.Lease.Lookup

/-! The nodes that an acquisition claims in turn. -/

namespace Chronicle

structure Watched (σ : Type) where
  book : σ
  claims : List Node

instance {σ : Type} [LeaseBook σ] : LeaseBook (Watched σ) where
  ofNode? w := LeaseBook.ofNode? w.book
  ofIdentity? w := LeaseBook.ofIdentity? w.book
  listing w := LeaseBook.listing w.book
  claim w lease := do
    let (entered, book) ← LeaseBook.claim w.book lease
    return (entered, ⟨book, w.claims ++ [lease.node]⟩)
  renew w lease := do
    let book ← LeaseBook.renew w.book lease
    return { w with book }
  release w node := do
    let (struck, book) ← LeaseBook.release w.book node
    return (struck, { w with book })
  trail w := LeaseBook.trail w.book

namespace Lease

/-- How an acquisition went on a book that showed some leases: the nodes it claimed, in order, and what it answered. -/
structure Probes {σ : Type} [LeaseBook σ] (b : σ) (shown : List Lease) (attempts : Nat) (claims : List Node)
    (answer : Except Error Node) : Prop where
  distinct : claims.Nodup
  looks_free : ∀ n ∈ claims, n ∈ freeNodes shown
  few : claims.length ≤ min (max attempts 1) (freeNodes shown).length
  refused : ∀ n ∈ claims, answer ≠ .ok n → ∃ l, LeaseBook.ofNode? b n = .ok (some l)
  leased : ∀ n, answer = .ok n → n.IsAssignable ∧ LeaseBook.ofNode? b n = .ok none ∧ claims.getLast? = some n
  taken : ∀ n, answer = .error (.nodeTaken n) → 0 < (freeNodes shown).length ∧
    claims.length = min (max attempts 1) (freeNodes shown).length ∧ claims.getLast? = some n
  failed : ∀ e, answer = .error e → (∃ n, e = .nodeTaken n) ∨ e = .noFreeNode ∧ freeNodes shown = []
  finds : (freeNodes shown).length ≤ attempts → ∀ n : Node, n.IsAssignable → LeaseBook.ofNode? b n = .ok none →
    ∃ m, answer = .ok m

def ShowsProbes {σ γ : Type} [LeaseBook σ] [Clock γ] (b : σ) (hidden : List Node) (clock : γ) (attempts : Nat)
    (chance : Chance) (identity : String) : Prop :=
  let plain := acquisition (⟨b, hidden⟩ : Lagging σ) clock attempts chance identity
  let watched := acquisition (⟨⟨b, hidden⟩, []⟩ : Watched (Lagging σ)) clock attempts chance identity
  watched.1 = plain.1 ∧ watched.2.book = plain.2 ∧
    ∃ shown, LeaseBook.listing (⟨b, hidden⟩ : Lagging σ) = .ok shown ∧ Probes b shown attempts watched.2.claims plain.1

section

variable {σ γ : Type} [LeaseBook σ] [Clock γ] {b : σ} {active : OrderedMap Node Lease} {hidden : List Node}
  {identity : String} {now : Int64} {chance : Chance} {attempts : Nat} {free claims : List Node} {n : Node}
  {refused : Option Node} {answer : Except Error Node}

lemma claim_watched (w : Watched σ) (l : Lease) : LeaseBook.claim w l =
    (LeaseBook.claim w.book l).map fun r => (r.1, (⟨r.2, w.claims ++ [l.node]⟩ : Watched σ)) := by
  change LeaseBook.claim w.book l >>= _ = _
  cases LeaseBook.claim w.book l <;> rfl

lemma claimOneOf_watched (w : Watched σ) (identity : String) (now : Int64) (chance : Chance) (draw attempts : Nat)
    (free : List Node) (refused : Option Node) :
    (claimOneOf w identity now chance draw attempts free refused).map id Watched.book =
      claimOneOf w.book identity now chance draw attempts free refused := by
  induction attempts generalizing w draw free refused with
  | zero => rfl
  | succ attempts ih =>
    simp only [claimOneOf]
    cases free[chance draw % free.length]? with
    | none => rfl
    | some n =>
      simp only [claim_watched]
      rcases LeaseBook.claim w.book ⟨n, identity, now⟩ with e | ⟨_ | _, b⟩
      · rfl
      · exact ih ..
      · rfl

lemma acquisition_watched (w : Watched σ) (clock : γ) (attempts : Nat) (chance : Chance) (identity : String) :
    (acquisition w clock attempts chance identity).map id Watched.book =
      acquisition w.book clock attempts chance identity := by
  have hlookup : LeaseBook.ofIdentity? w identity = LeaseBook.ofIdentity? w.book identity := rfl
  have hlisting : LeaseBook.listing w = LeaseBook.listing w.book := rfl
  have hrenew (l : Lease) : LeaseBook.renew w l =
      (LeaseBook.renew w.book l).map fun b => ({ w with book := b } : Watched σ) := by
    change LeaseBook.renew w.book l >>= _ = _
    cases LeaseBook.renew w.book l <;> rfl
  unfold acquisition
  split
  · rfl
  · rw [hlookup, hlisting]
    rcases LeaseBook.ofIdentity? w.book identity with e | _ | l
    · rfl
    · cases LeaseBook.listing w.book with
      | error e => rfl
      | ok listing => exact claimOneOf_watched ..
    · simp only [hrenew]
      cases LeaseBook.renew w.book { l with since := Clock.now clock } <;> rfl

lemma takeOut_perm {α : Type} {xs : List α} {i : Nat} {x : α} (h : xs[i]? = some x) : (x :: takeOut xs i).Perm xs := by
  obtain ⟨hi, hx⟩ := List.getElem?_eq_some_iff.1 h
  obtain ⟨init, last, rfl⟩ : ∃ init last, xs = init ++ [last] := by
    rcases List.eq_nil_or_concat xs with rfl | ⟨init, last, hxs⟩
    · cases hi
    · exact ⟨init, last, hxs.trans List.concat_eq_append⟩
  rw [takeOut, List.getLast?_concat]
  simp only
  rw [List.length_append, List.length_singleton] at hi
  rcases Nat.lt_succ_iff_lt_or_eq.1 hi with hlt | rfl
  · rw [List.getElem_append_left hlt] at hx
    rw [List.set_append_left _ _ hlt, List.dropLast_concat]
    -- the last element stands in the place of the one taken out
    calc (x :: init.set i last).Perm (x :: last :: init.eraseIdx i) := (List.set_perm_cons_eraseIdx hlt last).cons x
      _ |>.Perm (last :: x :: init.eraseIdx i) := .swap ..
      _ |>.Perm (last :: init) := (hx ▸ List.getElem_cons_eraseIdx_perm hlt).cons last
      _ |>.Perm (init ++ [last]) := (List.perm_append_singleton last init).symm
  · obtain rfl : last = x := by simpa using hx
    simpa using (List.perm_append_singleton last init).symm

lemma nodup_freeNodes (shown : List Lease) : (freeNodes shown).Nodup := by
  refine (List.Nodup.map_on (fun i hi j hj hij => ?_) List.nodup_range).filter _
  have hi := List.mem_range.1 hi
  have hj := List.mem_range.1 hj
  rw [← Int8.toInt_inj, Int8.toInt_ofInt_of_le, Int8.toInt_ofInt_of_le] at hij <;> omega

structure Serves (b : σ) (active : OrderedMap Node Lease) : Prop where
  sited : LeaseCall.Sited active
  ofNode?_eq : ∀ n, LeaseBook.ofNode? b n = .ok (active.get? n)
  listing_eq : LeaseBook.listing b = .ok active.values
  claim_eq : ∀ l, ∃ b', LeaseBook.claim b l = .ok (if active.contains l.node then (false, b) else (true, b'))

structure Tried (active : OrderedMap Node Lease) (attempts : Nat) (free : List Node) (refused : Option Node)
    (claims : List Node) (answer : Except Error Node) : Prop where
  subperm : claims.Subperm free
  few : claims.length ≤ attempts
  taken : ∀ n ∈ claims, answer ≠ .ok n → active.contains n = true
  ended : (∃ n, answer = .ok n ∧ claims.getLast? = some n ∧ active.contains n = false) ∨
    answer = .error ((claims.getLast?.or refused).elim .noFreeNode .nodeTaken) ∧
      claims.length = min attempts free.length

lemma Tried.exhausted (hend : attempts = 0 ∨ free = []) :
    Tried active attempts free refused [] (.error (refused.elim .noFreeNode .nodeTaken)) where
  subperm := List.nil_subperm
  few := Nat.zero_le _
  taken _ hn := nomatch hn
  ended := .inr ⟨rfl, by rcases hend with rfl | rfl <;> simp⟩

lemma Tried.one (hn : n ∈ free) (hfree : active.contains n = false) :
    Tried active (attempts + 1) free refused [n] (.ok n) where
  subperm := List.singleton_subperm_iff.2 hn
  few := Nat.le_add_left ..
  taken _ hm hne := absurd (congrArg _ (List.mem_singleton.1 hm).symm) hne
  ended := .inl ⟨n, rfl, rfl, hfree⟩

lemma Tried.cons {i : Nat} (hn : free[i]? = some n) (htaken : active.contains n = true)
    (h : Tried active attempts (takeOut free i) (some n) claims answer) :
    Tried active (attempts + 1) free refused (n :: claims) answer where
  subperm := ((List.subperm_cons n).2 h.subperm).trans (takeOut_perm hn).subperm
  few := Nat.succ_le_succ h.few
  taken m hm hne := by
    rcases List.mem_cons.1 hm with rfl | hm
    · exact htaken
    · exact h.taken m hm hne
  ended := by
    have hlength := (takeOut_perm hn).length_eq
    rw [List.length_cons] at hlength
    have hlast : (n :: claims).getLast? = claims.getLast?.or (some n) := by
      rw [List.getLast?_cons]
      cases claims.getLast? <;> rfl
    rcases h.ended with ⟨m, hanswer, hlast', hfree⟩ | ⟨hanswer, hcount⟩
    · exact .inl ⟨m, hanswer, by rw [hlast, hlast', Option.some_or], hfree⟩
    · refine .inr ⟨?_, ?_⟩
      · rw [hanswer, hlast, Option.or_assoc, Option.some_or]
      · rw [List.length_cons, hcount]
        omega

lemma claimOneOf_tried (h : Serves b active) (hidden before : List Node) (identity : String) (now : Int64)
    (chance : Chance) (draw attempts : Nat) (free : List Node) (refused : Option Node) :
    let r := claimOneOf (⟨⟨b, hidden⟩, before⟩ : Watched (Lagging σ)) identity now chance draw attempts free refused
    ∃ claims, r.2.claims = before ++ claims ∧ Tried active attempts free refused claims r.1 := by
  induction attempts generalizing before draw free refused with
  | zero => exact ⟨[], (List.append_nil _).symm, .exhausted (.inl rfl)⟩
  | succ attempts ih =>
    simp only [claimOneOf]
    cases hn : free[chance draw % free.length]? with
    | none =>
      -- a remainder by the length is an index, unless there are no candidates
      refine ⟨[], (List.append_nil _).symm, .exhausted (.inr (List.length_eq_zero_iff.1 ?_))⟩
      have hle := List.getElem?_eq_none_iff.1 hn
      rcases Nat.eq_zero_or_pos free.length with hzero | hpos
      · exact hzero
      · exact absurd (Nat.mod_lt (chance draw) hpos) (by omega)
    | some n =>
      obtain ⟨b', hclaim⟩ := h.claim_eq ⟨n, identity, now⟩
      cases htaken : active.contains n with
      | true =>
        rw [htaken, if_pos rfl] at hclaim
        simp only [claim_watched, claim_lagging hclaim, Except.map]
        obtain ⟨claims, hclaims, htried⟩ :=
          ih (before ++ [n]) (draw + 1) (takeOut free (chance draw % free.length)) (some n)
        exact ⟨n :: claims, by rw [hclaims, List.append_assoc]; rfl, htried.cons hn htaken⟩
      | false =>
        rw [htaken, if_neg Bool.false_ne_true] at hclaim
        simp only [claim_watched, claim_lagging hclaim, Except.map]
        exact ⟨[n], rfl, .one (List.mem_of_getElem? hn) htaken⟩

lemma Serves.looks_free (h : Serves b active) (hn : n.IsAssignable) (hfree : active.contains n = false)
    (hidden : List Node) : n ∈ freeNodes (visible active hidden) := by
  refine mem_freeNodes_iff.2 ⟨hn, fun hshown => ?_⟩
  obtain ⟨l, hl, rfl⟩ := List.mem_map.1 hshown
  obtain ⟨⟨m, l⟩, hmem, rfl⟩ := List.mem_map.1 (List.mem_filter.1 hl).1
  have hget := OrderedMap.get?_eq_some_iff.2 hmem
  rw [OrderedMap.contains, h.sited m l hget, hget] at hfree
  cases hfree

lemma Serves.leased_iff (h : Serves b active) :
    (∃ l, LeaseBook.ofNode? b n = .ok (some l)) ↔ active.contains n = true := by
  simp only [h.ofNode?_eq, Except.ok.injEq, OrderedMap.contains, Option.isSome_iff_exists]

lemma Serves.free_iff (h : Serves b active) : LeaseBook.ofNode? b n = .ok none ↔ active.contains n = false := by
  rw [h.ofNode?_eq, Except.ok.injEq, OrderedMap.contains, Option.isSome_eq_false_iff, Option.isNone_iff_eq_none]

lemma Tried.probes (h : Serves b active)
    (htried : Tried active (max attempts 1) (freeNodes (visible active hidden)) none claims answer) :
    Probes b (visible active hidden) attempts claims answer where
  distinct := by
    obtain ⟨_, hperm, hsublist⟩ := htried.subperm
    exact hperm.nodup_iff.1 (hsublist.nodup (nodup_freeNodes _))
  looks_free _ hn := htried.subperm.subset hn
  few := Nat.le_min.2 ⟨htried.few, htried.subperm.length_le⟩
  refused n hn hne := h.leased_iff.2 (htried.taken n hn hne)
  leased n hanswer := by
    rcases htried.ended with ⟨m, hm, hlast, hfree⟩ | ⟨herror, _⟩
    · obtain rfl : m = n := Except.ok.inj (hm.symm.trans hanswer)
      have hlooks := htried.subperm.subset (List.mem_of_getLast? hlast)
      exact ⟨(mem_freeNodes_iff.1 hlooks).1, h.free_iff.2 hfree, hlast⟩
    · cases herror.symm.trans hanswer
  taken n hanswer := by
    rcases htried.ended with ⟨m, hm, _⟩ | ⟨herror, hcount⟩
    · cases hm.symm.trans hanswer
    · cases hlast : claims.getLast? with
      | none =>
        rw [hlast] at herror
        cases herror.symm.trans hanswer
      | some m =>
        rw [hlast] at herror
        obtain rfl : m = n := by cases herror.symm.trans hanswer; rfl
        exact ⟨List.length_pos_of_mem (htried.subperm.subset (List.mem_of_getLast? hlast)), hcount, rfl⟩
  failed e hanswer := by
    rcases htried.ended with ⟨m, hm, _⟩ | ⟨herror, hcount⟩
    · cases hm.symm.trans hanswer
    · obtain rfl := Except.error.inj (hanswer.symm.trans herror)
      cases hlast : claims.getLast? with
      | none =>
        rw [List.getLast?_eq_none_iff.1 hlast, List.length_nil] at hcount
        exact .inr ⟨rfl, List.length_eq_zero_iff.1 (by omega)⟩
      | some m => exact .inl ⟨m, rfl⟩
  finds hall n hn hfree := by
    have hfree := h.free_iff.1 hfree
    rcases htried.ended with ⟨m, hm, _⟩ | ⟨herror, hcount⟩
    · exact ⟨m, hm⟩
    · -- then all that look free were claimed, this node too
      have hperm := htried.subperm.perm_of_length_le (by omega)
      have htaken := htried.taken n (hperm.mem_iff.2 (h.looks_free hn hfree hidden)) (herror ▸ nofun)
      cases hfree.symm.trans htaken

lemma acquisition_newcomer {shown : List Lease} (hnamed : identity ≠ "")
    (hnew : LeaseBook.ofIdentity? b identity = .ok none) (hshown : LeaseBook.listing b = .ok shown) (clock : γ)
    (attempts : Nat) (chance : Chance) : acquisition b clock attempts chance identity =
      claimOneOf b identity (Clock.now clock) chance 0 (max attempts 1) (freeNodes shown) none := by
  rw [acquisition, if_neg fun hempty => hnamed (String.isEmpty_iff.1 hempty)]
  simp only [hnew, hshown]

lemma Serves.showsProbes (h : Serves b active) (hnamed : identity ≠ "")
    (hnew : LeaseBook.ofIdentity? b identity = .ok none) (hidden : List Node) (clock : γ) (attempts : Nat)
    (chance : Chance) : ShowsProbes b hidden clock attempts chance identity := by
  have hplain := acquisition_watched (⟨⟨b, hidden⟩, []⟩ : Watched (Lagging σ)) clock attempts chance identity
  have hshown := listing_lagging h.listing_eq hidden
  have hwatched := acquisition_newcomer (b := (⟨⟨b, hidden⟩, []⟩ : Watched (Lagging σ))) hnamed hnew hshown clock
    attempts chance
  obtain ⟨claims, hclaims, htried⟩ := claimOneOf_tried h hidden [] identity (Clock.now clock) chance 0 (max attempts 1)
    (freeNodes (visible active hidden)) none
  refine ⟨congrArg Prod.fst hplain, congrArg Prod.snd hplain, _, hshown, ?_⟩
  rw [← hplain, hwatched]
  exact hclaims ▸ htried.probes h

end

end Lease

namespace MemoryLeases

open Lease LeaseCall

lemma serves_run (calls : List LeaseCall) : Serves (run empty calls) (leases ∅ calls) where
  sited := sited_leases sited_empty calls
  ofNode?_eq := ofNode?_run calls
  listing_eq := congrArg (fun active => Except.ok active.values) (active_run empty calls)
  claim_eq l := ⟨_, by rw [claim_eq, active_run]; rfl⟩

end MemoryLeases

namespace KeyedLeases

open Lease LeaseCall

lemma serves_run {calls : List LeaseCall} (hf : ∀ c ∈ calls, c.Fits) : Serves (run empty calls) (leases ∅ calls) := by
  obtain ⟨_, hholds, _⟩ := Holds.empty.run hf
  exact ⟨sited_leases sited_empty calls, hholds.ofNode?_eq, hholds.listing_eq, fun l => ⟨_, hholds.claim_eq l⟩⟩

end KeyedLeases

namespace Lease

open LeaseCall

variable {σ γ : Type} [LeaseBook σ] [Clock γ] {b : σ} {calls : List LeaseCall} {identity : String}

def Unleased (b : σ) (identity : String) : Prop :=
  ∀ n l, LeaseBook.ofNode? b n = .ok (some l) → l.identity ≠ identity

lemma Unleased.ofIdentity?_eq (h : Unleased b identity) (hactive : FindsActive b identity) (hown : FindsOwn b identity) :
    LeaseBook.ofIdentity? b identity = .ok none := by
  obtain ⟨found, hfound, hnode⟩ := hactive
  cases found with
  | none => exact hfound
  | some l => exact absurd (hown l hfound) (h l.node l (hnode l rfl))

theorem acquisition_shows_probes (hnamed : identity ≠ "") (calls : List LeaseCall) (hidden : List Node) (clock : γ)
    (attempts : Nat) (chance : Chance) :
    (LeaseBook.ofIdentity? (run MemoryLeases.empty calls) identity = .ok none ∨
        Unleased (run MemoryLeases.empty calls) identity ∧ Throughout (KeepsHolder identity) ∅ calls →
      ShowsProbes (run MemoryLeases.empty calls) hidden clock attempts chance identity) ∧
    ((∀ c ∈ calls, c.Fits) →
      LeaseBook.ofIdentity? (run KeyedLeases.empty calls) identity = .ok none ∨
        Unleased (run KeyedLeases.empty calls) identity →
      ShowsProbes (run KeyedLeases.empty calls) hidden clock attempts chance identity) := by
  constructor
  · intro hnew
    refine (MemoryLeases.serves_run calls).showsProbes hnamed ?_ hidden clock attempts chance
    rcases hnew with hnew | ⟨hnew, hkept⟩
    · exact hnew
    · exact hnew.ofIdentity?_eq (MemoryLeases.findsActive_run calls identity) (MemoryLeases.findsOwn_run hkept)
  · intro hf hnew
    obtain ⟨_, hholds, _⟩ := KeyedLeases.Holds.empty.run hf
    refine (KeyedLeases.serves_run hf).showsProbes hnamed ?_ hidden clock attempts chance
    rcases hnew with hnew | hnew
    · exact hnew
    · exact hnew.ofIdentity?_eq (hholds.findsActive (sited_leases sited_empty calls) identity) (hholds.findsOwn identity)

def twoLeases : List LeaseCall := [.claim ⟨127, "a", 5⟩, .claim ⟨126, "b", 6⟩]

theorem acquisition_shows_probes_two_hidden :
    let memory := run MemoryLeases.empty twoLeases
    let keyed := run KeyedLeases.empty twoLeases
    let clock : SteppingClock := ⟨9, 0⟩
    "c" ≠ "" ∧ (∀ c ∈ twoLeases, c.Fits) ∧ LeaseBook.ofIdentity? memory "c" = .ok none ∧
      LeaseBook.ofIdentity? keyed "c" = .ok none ∧
      ShowsProbes memory [126, 127] clock 2 id "c" ∧ ShowsProbes keyed [126, 127] clock 3 id "c" ∧
      (acquisition (⟨memory, [126, 127]⟩ : Lagging _) clock 2 id "c").1 = .error (.nodeTaken 126) ∧
      (acquisition (⟨keyed, [126, 127]⟩ : Lagging _) clock 3 id "c").1 = .ok 125 := by
  have hnamed : "c" ≠ "" := by decide
  have hf : ∀ c ∈ twoLeases, c.Fits := by decide +kernel
  have hmemory : LeaseBook.ofIdentity? (run MemoryLeases.empty twoLeases) "c" = .ok none := by decide +kernel
  have hkeyed : LeaseBook.ofIdentity? (run KeyedLeases.empty twoLeases) "c" = .ok none := by decide +kernel
  have hshows (attempts : Nat) :=
    acquisition_shows_probes hnamed twoLeases [126, 127] (⟨9, 0⟩ : SteppingClock) attempts id
  refine ⟨hnamed, hf, hmemory, hkeyed, (hshows 2).1 (.inl hmemory), (hshows 3).2 hf (.inl hkeyed), ?_, ?_⟩ <;>
    decide +kernel

def renamedLease : List LeaseCall := [.claim ⟨1, "a", 5⟩, .renew ⟨1, "b", 6⟩]

/-- An identity without a lease is given the node of another one: in memory it is still on file with the node that it
had before the renewal. -/
theorem acquisition_yields_leased_node :
    let b := run MemoryLeases.empty renamedLease
    let acquired := (acquisition (⟨b, []⟩ : Lagging _) (⟨9, 0⟩ : SteppingClock) 8 id "a").1
    Unleased b "a" ∧ acquired = .ok 1 ∧ LeaseBook.ofNode? b 1 = .ok (some ⟨1, "b", 6⟩) := by
  refine ⟨fun n l hget => ?_, by decide +kernel, by decide +kernel⟩
  have hrows : ∀ row ∈ (run MemoryLeases.empty renamedLease).active.entries, row.2.identity ≠ "a" := by
    decide +kernel
  exact hrows (n, l) (OrderedMap.get?_eq_some_iff.1 (Except.ok.inj hget))

end Lease

end Chronicle
