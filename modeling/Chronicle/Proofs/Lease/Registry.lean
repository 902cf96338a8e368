import Chronicle.Proofs.Lease.Acquire
import Chronicle.Proofs.Lease.Keyed
import Chronicle.Proofs.Lease.Memory

/-! Nodes leased and released in any order, from an empty book. -/

namespace Chronicle.Lease

section

variable {σ γ : Type} [LeaseBook σ] [Clock γ] {start b b' : σ} {active : OrderedMap Node Lease} {hidden : List Node}
  {identity : String} {now : Int64}

/-- Books that acquisitions and releases lead to. Each acquisition has a clock and chance of its own, and a listing
that hides what it likes. -/
inductive Reachable (start : σ) : σ → Prop where
  | start : Reachable start start
  | acquire {γ : Type} [Clock γ] {b : σ} (h : Reachable start b) (hidden : List Node) (clock : γ) (attempts : Nat)
      (chance : Chance) {identity : String} (fits : (Bytes.ofText identity).Fits) :
      Reachable start (acquisition (⟨b, hidden⟩ : Lagging σ) clock attempts chance identity).2.book
  | release {b b' : σ} (h : Reachable start b) {n : Node} {struck : Option Lease}
      (released : LeaseBook.release b n = .ok (struck, b')) : Reachable start b'

/-- Nodes and identities are one to one, and the leases of an identity and of the listing are those of the nodes. No
question is left without an answer. -/
structure Coherent (b : σ) : Prop where
  answers : ∀ n, ∃ found, LeaseBook.ofNode? b n = .ok found
  of_node : ∀ n l, LeaseBook.ofNode? b n = .ok (some l) → l.node = n ∧ n.IsAssignable ∧ l.identity ≠ ""
  one_to_one : ∀ n m l l', LeaseBook.ofNode? b n = .ok (some l) → LeaseBook.ofNode? b m = .ok (some l') →
    (n = m ↔ l.identity = l'.identity)
  of_identity : ∀ identity, ∃ found, LeaseBook.ofIdentity? b identity = .ok found ∧
    ∀ l, found = some l ↔ LeaseBook.ofNode? b l.node = .ok (some l) ∧ l.identity = identity
  of_listing : ∃ leases, LeaseBook.listing b = .ok leases ∧
    ∀ l, l ∈ leases ↔ LeaseBook.ofNode? b l.node = .ok (some l)
  of_trail : ∀ n, ∃ rows, LeaseBook.trail b n = .ok rows

structure Entered (Room : Nat → Prop) (b b' : σ) (l : Lease) : Prop extends TrailGrows Room b b' l where
  of_self : LeaseBook.ofNode? b' l.node = .ok (some l)
  of_other : ∀ n, n ≠ l.node → LeaseBook.ofNode? b' n = LeaseBook.ofNode? b n

structure Acquires (Room : Nat → Prop) (b : σ) (hidden : List Node) (identity : String) (now : Int64)
    (result : Except Error Node × Lagging σ) : Prop where
  holder : ∀ l, LeaseBook.ofIdentity? b identity = .ok (some l) →
    result.1 = .ok l.node ∧ Entered Room b result.2.book { l with since := now }
  newcomer : ∀ n, LeaseBook.ofIdentity? b identity = .ok none → result.1 = .ok n →
    LeaseBook.ofNode? b n = .ok none ∧ Entered Room b result.2.book ⟨n, identity, now⟩
  failed : ∀ e, result.1 = .error e → result.2.book = b
  exhausted : result.1 = .error .noFreeNode ↔ identity ≠ "" ∧ LeaseBook.ofIdentity? b identity = .ok none ∧
    ∃ shown, LeaseBook.listing (⟨b, hidden⟩ : Lagging σ) = .ok shown ∧
      ∀ n : Node, n.IsAssignable → n ∈ shown.map (·.node)

def InOrder (Room : Nat → Prop) (b : σ) : Prop :=
  Coherent b ∧ ∀ {γ : Type} [Clock γ] (hidden : List Node) (clock : γ) (attempts : Nat) (chance : Chance)
    (identity : String), (Bytes.ofText identity).Fits →
    Acquires Room b hidden identity (Clock.now clock)
      (acquisition (⟨b, hidden⟩ : Lagging σ) clock attempts chance identity)

variable [LawfulBook σ]

open LawfulBook (Keeps)

lemma Reachable.keeps (h : Reachable start b) (hstart : Keeps start active) : ∃ active, Keeps b active := by
  induction h with
  | start => exact ⟨active, hstart⟩
  | acquire _ hidden clock attempts chance fits ih =>
    obtain ⟨active', hkeeps⟩ := ih
    obtain ⟨active', hkeeps', _⟩ := (acquisition_outcome hkeeps fits hidden clock attempts chance).keeps hkeeps
    exact ⟨active', hkeeps'⟩
  | @release b b' _ n struck released ih =>
    obtain ⟨active', hkeeps⟩ := ih
    obtain ⟨b'', hrelease, hkeeps', _⟩ := LawfulBook.release hkeeps n
    obtain rfl : b' = b'' := congrArg Prod.snd (Except.ok.inj (released.symm.trans hrelease))
    exact ⟨_, hkeeps'⟩

lemma ofNode?_eq_some_iff (h : Keeps b active) {n : Node} {l : Lease} :
    LeaseBook.ofNode? b n = .ok (some l) ↔ active.get? n = some l := by
  rw [LawfulBook.ofNode?_eq h, Except.ok.injEq]

lemma coherent_of_keeps (h : Keeps b active) : Coherent b where
  answers n := ⟨_, LawfulBook.ofNode?_eq h n⟩
  of_node n l hl := by
    have hget := (ofNode?_eq_some_iff h).1 hl
    have hproper := LawfulBook.proper h
    exact ⟨hproper.node_eq n l hget, hproper.assignable n l hget, hproper.named n l hget⟩
  one_to_one n m l l' hl hl' := by
    have hget := (ofNode?_eq_some_iff h).1 hl
    have hget' := (ofNode?_eq_some_iff h).1 hl'
    constructor
    · rintro rfl
      rw [Option.some.inj (hget.symm.trans hget')]
    · exact (LawfulBook.proper h).identity_injective n m l l' hget hget'
  of_identity identity := by
    refine ⟨_, LawfulBook.ofIdentity?_eq h identity, fun l => ?_⟩
    rw [ofNode?_eq_some_iff h]
    exact held_eq_some_iff (LawfulBook.proper h)
  of_listing := by
    refine ⟨_, LawfulBook.listing_eq h, fun l => ?_⟩
    rw [ofNode?_eq_some_iff h]
    exact mem_values (LawfulBook.proper h)
  of_trail n := LawfulBook.trail_ok h n

lemma entered_of_keeps {l : Lease} (h : Keeps b active) (h' : Keeps b' (active.insert l.node l))
    (hgrows : TrailGrows (LawfulBook.Room σ) b b' l) : Entered (LawfulBook.Room σ) b b' l where
  toTrailGrows := hgrows
  of_self := by rw [LawfulBook.ofNode?_eq h', OrderedMap.get?_insert, if_pos rfl]
  of_other n hn := by
    rw [LawfulBook.ofNode?_eq h', LawfulBook.ofNode?_eq h, OrderedMap.get?_insert, if_neg hn]

lemma freeNodes_eq_nil_iff {shown : List Lease} :
    freeNodes shown = [] ↔ ∀ n : Node, n.IsAssignable → n ∈ shown.map (·.node) := by
  simp only [List.eq_nil_iff_forall_not_mem, mem_freeNodes_iff, not_and, Decidable.not_not]

lemma acquires_of_keeps {result : Except Error Node × Lagging σ} (h : Keeps b active)
    (holder : ∀ l, held active identity = some l →
      result.1 = .ok l.node ∧ Entered (LawfulBook.Room σ) b result.2.book { l with since := now })
    (newcomer : ∀ n, held active identity = none → result.1 = .ok n →
      active.get? n = none ∧ Entered (LawfulBook.Room σ) b result.2.book ⟨n, identity, now⟩)
    (failed : ∀ e, result.1 = .error e → result.2.book = b)
    (exhausted : result.1 = .error .noFreeNode ↔
      identity ≠ "" ∧ held active identity = none ∧ freeNodes (visible active hidden) = []) :
    Acquires (LawfulBook.Room σ) b hidden identity now result where
  holder l hl := by
    rw [LawfulBook.ofIdentity?_eq h, Except.ok.injEq] at hl
    exact holder l hl
  newcomer n hnone hok := by
    rw [LawfulBook.ofIdentity?_eq h, Except.ok.injEq] at hnone
    rw [LawfulBook.ofNode?_eq h, Except.ok.injEq]
    exact newcomer n hnone hok
  failed := failed
  exhausted := by
    rw [exhausted, freeNodes_eq_nil_iff, LawfulBook.ofIdentity?_eq h,
      listing_lagging (LawfulBook.listing_eq h), Except.ok.injEq]
    simp only [Except.ok.injEq, exists_eq_left']

lemma Outcome.acquires {result : Except Error Node × Lagging σ} (h : Keeps b active)
    (ho : Outcome active b hidden identity now result) :
    Acquires (LawfulBook.Room σ) b hidden identity now result := by
  cases ho with
  | unnamed hempty =>
    have hheld : held active identity = none :=
      (held_eq_none_iff (LawfulBook.proper h)).2 fun n l hget => hempty ▸ (LawfulBook.proper h).named n l hget
    refine acquires_of_keeps h (fun l hl => ?_) (fun n _ hok => nomatch hok) (fun _ _ => rfl) ?_
    · exact nomatch hheld.symm.trans hl
    · exact iff_of_false (fun he => nomatch he) fun he => he.1 hempty
  | @renewed l b' hheld keeps grows =>
    refine acquires_of_keeps h (fun l' hl' => ?_) (fun n hnone _ => ?_) (fun e he => nomatch he) ?_
    · obtain rfl : l = l' := Option.some.inj (hheld.symm.trans hl')
      exact ⟨rfl, entered_of_keeps h keeps grows⟩
    · exact nomatch hheld.symm.trans hnone
    · exact iff_of_false (fun he => nomatch he) fun he => nomatch hheld.symm.trans he.2.1
  | exhausted hnamed hheld none_free =>
    refine acquires_of_keeps h (fun l hl => ?_) (fun n _ hok => nomatch hok) (fun _ _ => rfl) ?_
    · exact nomatch hheld.symm.trans hl
    · exact iff_of_true rfl ⟨hnamed, hheld, none_free⟩
  | @leased n b' hnamed hheld looks_free free keeps grows =>
    refine acquires_of_keeps h (fun l hl => ?_) (fun m _ hok => ?_) (fun e he => nomatch he) ?_
    · exact nomatch hheld.symm.trans hl
    · obtain rfl : n = m := Except.ok.inj hok
      exact ⟨free, entered_of_keeps h keeps grows⟩
    · exact iff_of_false (fun he => nomatch he) fun he => List.ne_nil_of_mem looks_free he.2.2
  | @taken n hnamed hheld looks_free taken =>
    refine acquires_of_keeps h (fun l hl => ?_) (fun m _ hok => nomatch hok) (fun _ _ => rfl) ?_
    · exact nomatch hheld.symm.trans hl
    · exact iff_of_false (fun he => nomatch he) fun he => List.ne_nil_of_mem looks_free he.2.2

lemma Reachable.inOrder (h : Reachable start b) (hstart : Keeps start active) : InOrder (LawfulBook.Room σ) b := by
  obtain ⟨active', hkeeps⟩ := h.keeps hstart
  refine ⟨coherent_of_keeps hkeeps, fun hidden clock attempts chance identity hfits => ?_⟩
  exact (acquisition_outcome hkeeps hfits hidden clock attempts chance).acquires hkeeps

end

theorem reachable_inOrder :
    (∀ b : MemoryLeases, Reachable .empty b → InOrder (fun _ => True) b) ∧
      ∀ b : KeyedLeases, Reachable .empty b → InOrder (· < UInt64.size) b :=
  ⟨fun _ h => h.inOrder MemoryLeases.keeps_empty, fun _ h => h.inOrder KeyedLeases.keeps_empty⟩

theorem reachable_inOrder_lagging : ∃ b : KeyedLeases, Reachable .empty b ∧
    LeaseBook.ofIdentity? b "second" = .ok (some ⟨-127, "second", 9⟩) ∧ InOrder (· < UInt64.size) b := by
  have first : Reachable KeyedLeases.empty _ := Reachable.start.acquire [] (⟨7, 0⟩ : SteppingClock) 8 (fun _ => 0)
    (show (Bytes.ofText "first").Fits by decide)
  have second : Reachable KeyedLeases.empty _ := first.acquire [127] (⟨9, 0⟩ : SteppingClock) 8 (fun _ => 0)
    (show (Bytes.ofText "second").Fits by decide)
  exact ⟨_, second, by decide +kernel, reachable_inOrder.2 _ second⟩

end Chronicle.Lease
