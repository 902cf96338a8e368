import Chronicle.Proofs.Lease.Trails

/-! Look-up by identity, over any calls on a book of leases. -/

namespace Chronicle

namespace LeaseCall

def change (active : OrderedMap Node Lease) : LeaseCall → OrderedMap Node Lease
  | claim l => if active.contains l.node then active else active.insert l.node l
  | renew l => active.insert l.node l
  | release n => active.erase n

def leases (active : OrderedMap Node Lease) (calls : List LeaseCall) : OrderedMap Node Lease := calls.foldl change active

def Throughout (P : OrderedMap Node Lease → LeaseCall → Prop) : OrderedMap Node Lease → List LeaseCall → Prop
  | _, [] => True
  | active, c :: cs => P active c ∧ Throughout P (c.change active) cs

instance {P : OrderedMap Node Lease → LeaseCall → Prop} [∀ active c, Decidable (P active c)] :
    (active : OrderedMap Node Lease) → (calls : List LeaseCall) → Decidable (Throughout P active calls)
  | _, [] => inferInstanceAs (Decidable True)
  | active, c :: cs =>
    have : Decidable (Throughout P (c.change active) cs) := instDecidableThroughout _ cs
    inferInstanceAs (Decidable (P active c ∧ _))

def Lone (identity : String) (active : OrderedMap Node Lease) : Prop :=
  ∀ m n l l', active.get? m = some l → active.get? n = some l' → l.identity = identity → l'.identity = identity → m = n

instance (identity : String) (active : OrderedMap Node Lease) : Decidable (Lone identity active) :=
  decidable_of_iff (∀ e ∈ active.entries, ∀ d ∈ active.entries, e.2.identity = identity → d.2.identity = identity →
    e.1 = d.1) (by
      simp only [Lone, OrderedMap.get?_eq_some_iff, Prod.forall]
      exact ⟨fun h m n l l' hl hl' => h m l hl n l' hl', fun h m l hl n l' hl' => h m n l l' hl hl'⟩)

def StaysLone (identity : String) (active : OrderedMap Node Lease) (c : LeaseCall) : Prop :=
  Lone identity (c.change active)

instance (identity : String) (active : OrderedMap Node Lease) (c : LeaseCall) :
    Decidable (StaysLone identity active c) := inferInstanceAs (Decidable (Lone _ _))

/-- A call is no renewal by which an identity comes by a node or is parted from one. -/
def KeepsHolder (identity : String) (active : OrderedMap Node Lease) : LeaseCall → Prop
  | renew l => l.identity = identity ↔ ∃ l' ∈ active.get? l.node, l'.identity = identity
  | claim _ | release _ => True

instance (identity : String) (active : OrderedMap Node Lease) :
    (c : LeaseCall) → Decidable (KeepsHolder identity active c)
  | renew l => inferInstanceAs (Decidable (l.identity = identity ↔ ∃ l' ∈ active.get? l.node, l'.identity = identity))
  | claim _ | release _ => inferInstanceAs (Decidable True)

section

variable {identity : String} {active : OrderedMap Node Lease} {holders holders' : OrderedMap String Node} {l : Lease}
  {n : Node}

def Sited (active : OrderedMap Node Lease) : Prop := ∀ n l, active.get? n = some l → l.node = n

def Honest (identity : String) (holders : OrderedMap String Node) (active : OrderedMap Node Lease) : Prop :=
  ∀ n, holders.get? identity = some n → ∃ l ∈ active.get? n, l.identity = identity

def Filed (identity : String) (holders : OrderedMap String Node) (active : OrderedMap Node Lease) : Prop :=
  ∀ n l, active.get? n = some l → l.identity = identity → holders.get? identity = some n

lemma sited_empty : Sited ∅ := fun _ _ hget => by cases hget

lemma lone_empty : Lone identity ∅ := fun _ _ _ _ hget => by cases hget

lemma honest_empty : Honest identity ∅ ∅ := fun _ hn => by cases hn

lemma filed_empty : Filed identity ∅ ∅ := fun _ _ hget => by cases hget

lemma Sited.insert (h : Sited active) (l : Lease) : Sited (active.insert l.node l) := by
  intro n l' hget
  rw [OrderedMap.get?_insert] at hget
  split at hget
  · next hn => exact Option.some.inj hget ▸ hn.symm
  · exact h n l' hget

lemma Sited.change (h : Sited active) (c : LeaseCall) : Sited (c.change active) := by
  cases c with
  | claim l =>
    rw [LeaseCall.change]
    split
    · exact h
    · exact h.insert l
  | renew l => exact h.insert l
  | release n =>
    intro m l hget
    rw [LeaseCall.change, OrderedMap.get?_erase] at hget
    split at hget
    · cases hget
    · exact h m l hget

lemma sited_leases (h : Sited active) (calls : List LeaseCall) : Sited (leases active calls) := by
  induction calls generalizing active with
  | nil => exact h
  | cons c calls ih => exact ih (h.change c)

lemma Honest.insert (h : Honest identity holders active) (hfree : active.get? l.node = none) :
    Honest identity (holders.insert l.identity l.node) (active.insert l.node l) := by
  intro n hn
  rw [OrderedMap.get?_insert] at hn ⊢
  split at hn
  · next hidentity => exact ⟨l, if_pos (Option.some.inj hn).symm, hidentity.symm⟩
  · obtain ⟨l', hget, hidentity⟩ := h n hn
    refine ⟨l', ?_, hidentity⟩
    rw [if_neg]
    · exact hget
    · rintro rfl
      exact nomatch hfree.symm.trans hget

lemma Honest.renew (h : Honest identity holders active)
    (hkept : (∃ l' ∈ active.get? l.node, l'.identity = identity) → l.identity = identity) :
    Honest identity holders (active.insert l.node l) := by
  intro n hn
  obtain ⟨l', hget, hidentity⟩ := h n hn
  rw [OrderedMap.get?_insert]
  split
  · next heq => exact ⟨l, rfl, hkept ⟨l', heq ▸ hget, hidentity⟩⟩
  · exact ⟨l', hget, hidentity⟩

lemma Honest.erase (h : Honest identity holders active) (hless : ∀ m, holders'.get? identity = some m →
    holders.get? identity = some m ∧ m ≠ n) : Honest identity holders' (active.erase n) := by
  intro m hm
  obtain ⟨hm, hne⟩ := hless m hm
  rw [OrderedMap.get?_erase, if_neg hne]
  exact h m hm

lemma Filed.insert (h : Filed identity holders active) (hlone : Lone identity (active.insert l.node l)) :
    Filed identity (holders.insert l.identity l.node) (active.insert l.node l) := by
  intro n l' hget hidentity
  rw [OrderedMap.get?_insert]
  split
  · next heq =>
    have hself : (active.insert l.node l).get? l.node = some l := by rw [OrderedMap.get?_insert, if_pos rfl]
    rw [hlone n l.node l' l hget hself hidentity heq.symm]
  · next hne =>
    rw [OrderedMap.get?_insert] at hget
    split at hget
    · exact absurd (Option.some.inj hget ▸ hidentity.symm) hne
    · exact h n l' hget hidentity

lemma Filed.renew (h : Filed identity holders active)
    (hkept : l.identity = identity → ∃ l' ∈ active.get? l.node, l'.identity = identity) :
    Filed identity holders (active.insert l.node l) := by
  intro n l' hget hidentity
  rw [OrderedMap.get?_insert] at hget
  split at hget
  · next hn =>
    obtain ⟨l₀, hget₀, hidentity₀⟩ := hkept (Option.some.inj hget ▸ hidentity)
    exact hn ▸ h l.node l₀ hget₀ hidentity₀
  · exact h n l' hget hidentity

lemma Filed.erase (h : Filed identity holders active) (hlone : Lone identity active) (hget : active.get? n = some l)
    (hother : identity ≠ l.identity → holders'.get? identity = holders.get? identity) :
    Filed identity holders' (active.erase n) := by
  intro m l' hget' hidentity
  rw [OrderedMap.get?_erase] at hget'
  split at hget'
  · cases hget'
  · next hm =>
    by_cases heq : identity = l.identity
    · exact absurd (hlone m n l' l hget' hget hidentity heq.symm) hm
    · rw [hother heq]
      exact h m l' hget' hidentity

end

def FindsActive {σ : Type} [LeaseBook σ] (b : σ) (identity : String) : Prop :=
  ∃ found, LeaseBook.ofIdentity? b identity = .ok found ∧
    ∀ l, found = some l → LeaseBook.ofNode? b l.node = .ok (some l)

def FindsOwn {σ : Type} [LeaseBook σ] (b : σ) (identity : String) : Prop :=
  ∀ l, LeaseBook.ofIdentity? b identity = .ok (some l) → l.identity = identity

def MissesNone {σ : Type} [LeaseBook σ] (b : σ) (identity : String) : Prop :=
  ∀ n l, LeaseBook.ofNode? b n = .ok (some l) → l.identity = identity → LeaseBook.ofIdentity? b identity = .ok (some l)

end LeaseCall

namespace MemoryLeases

open LeaseCall

variable {b : MemoryLeases} {c : LeaseCall} {calls : List LeaseCall} {identity : String} {active : OrderedMap Node Lease}

lemma after_claim (b : MemoryLeases) (l : Lease) :
    (claim l).after b = if b.active.contains l.node then b else (b.note l).enter l := by
  rw [after, claim_eq]
  cases b.active.contains l.node <;> rfl

lemma after_release (b : MemoryLeases) (n : Node) :
    (release n).after b = (match b.active.get? n with
      | none => b
      | some l => b.strike l n) := by
  rw [after, release_eq]
  cases b.active.get? n <;> rfl

lemma active_after (b : MemoryLeases) (c : LeaseCall) : (c.after b).active = c.change b.active := by
  cases c with
  | claim l =>
    rw [after_claim, change]
    split <;> rfl
  | renew l => rfl
  | release n =>
    rw [after_release, change]
    cases hget : b.active.get? n with
    | none => exact (OrderedMap.erase_of_get?_eq_none hget).symm
    | some l => rfl

lemma active_run (b : MemoryLeases) (calls : List LeaseCall) : (run b calls).active = leases b.active calls := by
  induction calls generalizing b with
  | nil => rfl
  | cons c calls ih => exact (ih (c.after b)).trans (by rw [active_after]; rfl)

lemma get?_holders_strike (b : MemoryLeases) (l : Lease) (n : Node) (identity : String) :
    (b.strike l n).holders.get? identity =
      if identity = l.identity ∧ b.holders.get? identity = some n then none else b.holders.get? identity := by
  change OrderedMap.get? (if b.holders.get? l.identity = some n then _ else _) _ = _
  by_cases hpoints : b.holders.get? l.identity = some n
  · rw [if_pos hpoints, OrderedMap.get?_erase]
    by_cases hidentity : identity = l.identity
    · simp [hidentity, hpoints]
    · simp [hidentity]
  · have hnot : ¬(identity = l.identity ∧ b.holders.get? identity = some n) := by
      rintro ⟨rfl, hget⟩
      exact hpoints hget
    rw [if_neg hpoints, if_neg hnot]

lemma honest_after (h : Honest identity b.holders b.active) (hkept : KeepsHolder identity b.active c) :
    Honest identity (c.after b).holders (c.after b).active := by
  cases c with
  | claim l =>
    rw [after_claim]
    split
    · exact h
    · next hfree => exact h.insert (Option.not_isSome_iff_eq_none.1 hfree)
  | renew l => exact h.renew hkept.2
  | release n =>
    rw [after_release]
    cases hget : b.active.get? n with
    | none => exact h
    | some l =>
      refine h.erase fun m hm => ?_
      rw [get?_holders_strike] at hm
      split at hm
      · cases hm
      · next hpoints =>
        refine ⟨hm, ?_⟩
        rintro rfl
        obtain ⟨l', hget', hidentity⟩ := h m hm
        obtain rfl : l' = l := Option.some.inj (hget'.symm.trans hget)
        exact hpoints ⟨hidentity.symm, hm⟩

lemma filed_after (h : Filed identity b.holders b.active) (hkept : KeepsHolder identity b.active c)
    (hlone : Lone identity b.active) (hstays : StaysLone identity b.active c) :
    Filed identity (c.after b).holders (c.after b).active := by
  cases c with
  | claim l =>
    rw [after_claim]
    rw [StaysLone, change] at hstays
    split at hstays
    · next htaken => rwa [if_pos htaken]
    · next hfree =>
      rw [if_neg hfree]
      exact h.insert hstays
  | renew l => exact h.renew hkept.1
  | release n =>
    rw [after_release]
    cases hget : b.active.get? n with
    | none => exact h
    | some l => exact h.erase hlone hget fun hne => by rw [get?_holders_strike, if_neg fun h => hne h.1]

lemma honest_run (h : Honest identity b.holders b.active) (hkept : Throughout (KeepsHolder identity) b.active calls) :
    Honest identity (run b calls).holders (run b calls).active := by
  induction calls generalizing b with
  | nil => exact h
  | cons c calls ih => exact ih (honest_after h hkept.1) (by rw [active_after]; exact hkept.2)

lemma filed_run (h : Filed identity b.holders b.active) (hkept : Throughout (KeepsHolder identity) b.active calls)
    (hlone : Lone identity b.active) (hstays : Throughout (StaysLone identity) b.active calls) :
    Filed identity (run b calls).holders (run b calls).active := by
  induction calls generalizing b with
  | nil => exact h
  | cons c calls ih =>
    refine ih (filed_after h hkept.1 hlone hstays.1) ?_ ?_ ?_ <;> rw [active_after]
    · exact hkept.2
    · exact hstays.1
    · exact hstays.2

lemma ofIdentity?_run_eq_some_iff {l : Lease} :
    LeaseBook.ofIdentity? (run empty calls) identity = .ok (some l) ↔
      ∃ n, (run empty calls).holders.get? identity = some n ∧ (run empty calls).active.get? n = some l := by
  change Except.ok ((run empty calls).ofIdentity? identity) = _ ↔ _
  rw [Except.ok.injEq, ofIdentity?, Option.bind_eq_some_iff]

lemma ofNode?_run (calls : List LeaseCall) (n : Node) :
    LeaseBook.ofNode? (run empty calls) n = .ok ((leases ∅ calls).get? n) :=
  congrArg (fun active => Except.ok (active.get? n)) (active_run empty calls)

lemma findsActive_run (calls : List LeaseCall) (identity : String) : FindsActive (run empty calls) identity := by
  refine ⟨_, rfl, fun l hfound => ?_⟩
  obtain ⟨n, _, hget⟩ := ofIdentity?_run_eq_some_iff.1 (congrArg Except.ok hfound)
  rw [active_run] at hget
  rw [ofNode?_run, sited_leases sited_empty calls n l hget]
  exact congrArg Except.ok hget

lemma findsOwn_run (hkept : Throughout (KeepsHolder identity) ∅ calls) : FindsOwn (run empty calls) identity := by
  intro l hfound
  obtain ⟨n, hn, hget⟩ := ofIdentity?_run_eq_some_iff.1 hfound
  obtain ⟨l', hget', hidentity⟩ := honest_run honest_empty hkept n hn
  exact Option.some.inj (hget'.symm.trans hget) ▸ hidentity

lemma missesNone_run (hkept : Throughout (KeepsHolder identity) ∅ calls)
    (hstays : Throughout (StaysLone identity) ∅ calls) : MissesNone (run empty calls) identity := by
  intro n l hn hidentity
  have hget : (run empty calls).active.get? n = some l := Except.ok.inj hn
  exact ofIdentity?_run_eq_some_iff.2 ⟨n, filed_run filed_empty hkept lone_empty hstays n l hget hidentity, hget⟩

end MemoryLeases

namespace KeyedLeases

open LeaseCall

variable {b : KeyedLeases} {c : LeaseCall} {calls : List LeaseCall} {active : OrderedMap Node Lease}
  {holders : OrderedMap String Node}

lemma Holds.after_claim (h : b.Holds active holders) (l : Lease) :
    (claim l).after b = if active.contains l.node then b else b.enter l := by
  rw [LeaseCall.after, h.claim_eq]
  cases active.contains l.node <;> rfl

lemma Holds.after_release (h : b.Holds active holders) (n : Node) :
    (release n).after b = (match active.get? n with
      | none => b
      | some l => b.strike l n) := by
  rw [LeaseCall.after, h.release_eq]
  cases active.get? n <;> rfl

lemma Holds.after (h : b.Holds active holders) (hf : c.Fits) :
    ∃ holders', (c.after b).Holds (c.change active) holders' ∧ ∀ identity, Filed identity holders active →
      Lone identity active → StaysLone identity active c → Filed identity holders' (c.change active) := by
  cases c with
  | claim l =>
    rw [h.after_claim, change]
    split
    · exact ⟨holders, h, fun _ hfiled _ _ => hfiled⟩
    · next hfree =>
      refine ⟨_, h.enter hf, fun identity hfiled _ hstays => hfiled.insert ?_⟩
      rwa [StaysLone, change, if_neg hfree] at hstays
  | renew l => exact ⟨_, h.enter hf, fun identity hfiled _ hstays => hfiled.insert hstays⟩
  | release n =>
    rw [h.after_release, change]
    cases hget : active.get? n with
    | none =>
      rw [OrderedMap.erase_of_get?_eq_none hget]
      exact ⟨holders, h, fun _ hfiled _ _ => hfiled⟩
    | some l =>
      refine ⟨_, h.strike l n, fun identity hfiled hlone _ => hfiled.erase hlone hget fun hne => ?_⟩
      rw [OrderedMap.get?_erase, if_neg hne]

lemma Holds.run (h : b.Holds active holders) (hf : ∀ c ∈ calls, c.Fits) :
    ∃ holders', (run b calls).Holds (leases active calls) holders' ∧ ∀ identity, Filed identity holders active →
      Lone identity active → Throughout (StaysLone identity) active calls →
        Filed identity holders' (leases active calls) := by
  induction calls generalizing b active holders with
  | nil => exact ⟨holders, h, fun _ hfiled _ _ => hfiled⟩
  | cons c calls ih =>
    obtain ⟨holders', h', hfiled'⟩ := h.after (hf c List.mem_cons_self)
    obtain ⟨holders'', h'', hfiled''⟩ := ih h' fun d hd => hf d (List.mem_cons_of_mem _ hd)
    exact ⟨holders'', h'', fun identity hfiled hlone hstays =>
      hfiled'' identity (hfiled' identity hfiled hlone hstays.1) hstays.1 hstays.2⟩

lemma Holds.ofIdentity?_eq_some_iff {identity : String} {l : Lease} (h : b.Holds active holders) :
    LeaseBook.ofIdentity? b identity = .ok (some l) ↔
      (∃ n, holders.get? identity = some n ∧ active.get? n = some l) ∧ l.identity = identity := by
  rw [h.ofIdentity?_eq, Except.ok.injEq, Option.filter_eq_some_iff, Option.bind_eq_some_iff, beq_iff_eq]

lemma Holds.findsActive (h : b.Holds active holders) (hsited : Sited active) (identity : String) :
    FindsActive b identity := by
  refine ⟨_, h.ofIdentity?_eq identity, fun l hfound => ?_⟩
  obtain ⟨⟨n, _, hget⟩, _⟩ := h.ofIdentity?_eq_some_iff.1 ((h.ofIdentity?_eq identity).trans (congrArg _ hfound))
  obtain rfl := hsited n l hget
  exact (h.ofNode?_eq l.node).trans (congrArg _ hget)

lemma Holds.findsOwn (h : b.Holds active holders) (identity : String) : FindsOwn b identity :=
  fun _ hfound => (h.ofIdentity?_eq_some_iff.1 hfound).2

lemma Holds.missesNone {identity : String} (h : b.Holds active holders) (hfiled : Filed identity holders active) :
    MissesNone b identity := by
  intro n l hn hidentity
  have hget : active.get? n = some l := Except.ok.inj ((h.ofNode?_eq n).symm.trans hn)
  exact h.ofIdentity?_eq_some_iff.2 ⟨⟨n, hfiled n l hget hidentity, hget⟩, hidentity⟩

end KeyedLeases

namespace LeaseCall

theorem lookup_finds_active (calls : List LeaseCall) (identity : String) :
    ((∀ n, LeaseBook.ofNode? (run MemoryLeases.empty calls) n = .ok ((leases ∅ calls).get? n)) ∧
      FindsActive (run MemoryLeases.empty calls) identity ∧
      (Throughout (KeepsHolder identity) ∅ calls → FindsOwn (run MemoryLeases.empty calls) identity ∧
        (Throughout (StaysLone identity) ∅ calls → MissesNone (run MemoryLeases.empty calls) identity))) ∧
    ((∀ c ∈ calls, c.Fits) →
      (∀ n, LeaseBook.ofNode? (run KeyedLeases.empty calls) n = .ok ((leases ∅ calls).get? n)) ∧
      FindsActive (run KeyedLeases.empty calls) identity ∧ FindsOwn (run KeyedLeases.empty calls) identity ∧
      (Throughout (StaysLone identity) ∅ calls → MissesNone (run KeyedLeases.empty calls) identity)) := by
  constructor
  · exact ⟨MemoryLeases.ofNode?_run calls, MemoryLeases.findsActive_run calls identity, fun hkept =>
      ⟨MemoryLeases.findsOwn_run hkept, MemoryLeases.missesNone_run hkept⟩⟩
  · intro hf
    obtain ⟨holders, hholds, hfiled⟩ := KeyedLeases.Holds.empty.run hf
    exact ⟨hholds.ofNode?_eq, hholds.findsActive (sited_leases sited_empty calls) identity, hholds.findsOwn identity,
      fun hstays => hholds.missesNone (hfiled identity filed_empty lone_empty hstays)⟩

def moveNode : List LeaseCall :=
  [.claim ⟨1, "a", 5⟩, .claim ⟨2, "b", 6⟩, .renew ⟨1, "a", 7⟩, .release 1, .claim ⟨-128, "a", 8⟩, .claim ⟨2, "a", 9⟩]

theorem lookup_finds_active_moved :
    Throughout (KeepsHolder "a") ∅ moveNode ∧ Throughout (StaysLone "a") ∅ moveNode ∧ (∀ c ∈ moveNode, c.Fits) ∧
      LeaseBook.ofIdentity? (run MemoryLeases.empty moveNode) "a" = .ok (some ⟨-128, "a", 8⟩) ∧
      LeaseBook.ofIdentity? (run KeyedLeases.empty moveNode) "a" = .ok (some ⟨-128, "a", 8⟩) := by
  have hkept : Throughout (KeepsHolder "a") ∅ moveNode := by decide +kernel
  have hstays : Throughout (StaysLone "a") ∅ moveNode := by decide +kernel
  have hf : ∀ c ∈ moveNode, c.Fits := by decide +kernel
  obtain ⟨⟨hmemory, _, hown⟩, hkeyed⟩ := lookup_finds_active moveNode "a"
  obtain ⟨hkeyed, _, _, hmissesNone⟩ := hkeyed hf
  have hactive : (leases ∅ moveNode).get? (-128) = some ⟨-128, "a", 8⟩ := by decide +kernel
  exact ⟨hkept, hstays, hf, (hown hkept).2 hstays (-128) _ ((hmemory _).trans (congrArg _ hactive)) rfl,
    hmissesNone hstays (-128) _ ((hkeyed _).trans (congrArg _ hactive)) rfl⟩

/-- Of two nodes that are leased to one identity the first is released. In flat byte maps the file of the identity goes
with it, and the second node is found no more. In memory, a node that is renewed for another identity stays on the file
of the first. -/
theorem lookup_loses_active :
    let released : List LeaseCall := [.claim ⟨1, "a", 5⟩, .claim ⟨2, "a", 6⟩, .release 1]
    let renamed : List LeaseCall := [.claim ⟨1, "a", 5⟩, .renew ⟨1, "b", 6⟩]
    LeaseBook.ofNode? (run KeyedLeases.empty released) 2 = .ok (some ⟨2, "a", 6⟩) ∧
      LeaseBook.ofIdentity? (run KeyedLeases.empty released) "a" = .ok none ∧
      LeaseBook.ofIdentity? (run MemoryLeases.empty released) "a" = .ok (some ⟨2, "a", 6⟩) ∧
      LeaseBook.ofNode? (run MemoryLeases.empty renamed) 1 = .ok (some ⟨1, "b", 6⟩) ∧
      LeaseBook.ofIdentity? (run MemoryLeases.empty renamed) "a" = .ok (some ⟨1, "b", 6⟩) ∧
      LeaseBook.ofIdentity? (run MemoryLeases.empty renamed) "b" = .ok none ∧
      LeaseBook.ofIdentity? (run KeyedLeases.empty renamed) "b" = .ok (some ⟨1, "b", 6⟩) := by
  decide +kernel

end LeaseCall

end Chronicle
