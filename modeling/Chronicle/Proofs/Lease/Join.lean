import Chronicle.Proofs.Issuing.Repeats
import Chronicle.Proofs.Lease.Registry

namespace Chronicle

namespace Issuer

variable {γ : Type} [Clock γ] {start s : Issuer} {n : Node}

lemma Turn.node_of_given {t : Turn γ} {x : Identifier} (hx : t.given = some x) : t.before.node = some x.node := by
  obtain ⟨s, use⟩ := t
  cases use with
  | assignNode node => cases hx
  | issueAt millis =>
    cases h : s.issueAt millis with
    | error e => simp [given, h, Except.toOption] at hx
    | ok p =>
      obtain ⟨y, t⟩ := p
      obtain rfl : y = x := by simpa [given, h, Except.toOption] using hx
      obtain ⟨node, next, hnode, _, _, rfl, _⟩ := issueAt_ok h
      rw [Identifier.node_ofFields]
      exact hnode
  | issue clock =>
    simp only [given, issue] at hx
    split at hx
    · cases hx
    · next node hnode =>
      split at hx
      · obtain rfl := Option.some.inj hx
        rw [Identifier.node_ofFields]
        exact hnode
      · cases hx

lemma Run.node_of_given {log : List (Turn γ)} (h : Run start log s) (hn : start.node = some n) :
    ∀ t ∈ log, ∀ x, t.given = some x → x.node = n := by
  induction h with
  | start => exact fun t ht => nomatch ht
  | @use log s h use ih =>
    refine List.forall_mem_cons.2 ⟨fun x hx => ?_, ih⟩
    exact Option.some.inj ((Turn.node_of_given hx).symm.trans (h.keeps_node hn))

end Issuer

namespace Lease

open Issuer (Turn Run)

section

variable {σ γ : Type} [LeaseBook σ] [Clock γ] {s s' : Issuer} {identity : String} {n : Node} {b : σ}

def Leased (b : σ) (n : Node) (identity : String) : Prop :=
  ∃ l, LeaseBook.ofNode? b n = .ok (some l) ∧ l.identity = identity

structure Joined (s : Issuer) (identity : String) (n : Node) (b : σ) (s' : Issuer) : Prop where
  in_force : s'.node = some n
  leases : ∃ m, n = s.node.getD m ∧ Leased b m identity ∧ (Leased b n identity ↔ n = m)
  gives : ∀ {γ : Type} [Clock γ] {log : List (Turn γ)} {s'' : Issuer}, Run s' log s'' →
    ∀ t ∈ log, ∀ x, t.given = some x → x.node = n

def Joins (b : σ) : Prop :=
  ∀ {γ : Type} [Clock γ] (hidden : List Node) (s : Issuer) (clock : γ) (attempts : Nat) (chance : Chance)
    (identity : String) (n : Node) (lagging : Lagging σ) (s' : Issuer), (Bytes.ofText identity).Fits →
    join (⟨b, hidden⟩ : Lagging σ) s clock attempts chance identity = (.ok n, lagging, s') →
    Joined s identity n lagging.book s'

lemma join_ok {book after : σ} {clock : γ} {attempts : Nat} {chance : Chance}
    (h : join book s clock attempts chance identity = (.ok n, after, s')) :
    ∃ m, acquisition book clock attempts chance identity = (.ok m, after) ∧ n = s.node.getD m ∧
      s' = { s with node := some n } := by
  unfold join at h
  split at h
  · cases h
  · next m after' hacquired =>
    split at h
    · cases h
    · next inForce t hassigned =>
      obtain ⟨hn, ht⟩ := Issuer.assignNode_ok hassigned
      cases h
      exact ⟨m, hacquired, hn, ht⟩

variable [LawfulBook σ]

open LawfulBook (Keeps)

lemma leased_iff {active : OrderedMap Node Lease} (h : Keeps b active) : Leased b n identity ↔ HeldBy active n identity :=
  exists_congr fun _ => and_congr_left' (ofNode?_eq_some_iff h)

lemma Reachable.joins {start : σ} {active : OrderedMap Node Lease} (h : Reachable start b) (hstart : Keeps start active) :
    Joins b := by
  intro γ _ hidden s clock attempts chance identity n lagging s' hfits hjoin
  obtain ⟨m, hacquired, hn, rfl⟩ := join_ok hjoin
  obtain ⟨active₀, hkeeps₀⟩ := h.keeps hstart
  obtain ⟨active', hkeeps, _, hheld⟩ := (acquisition_outcome hkeeps₀ hfits hidden clock attempts chance).keeps hkeeps₀
  rw [hacquired] at hkeeps hheld
  refine ⟨rfl, ⟨m, hn, (leased_iff hkeeps).2 (hheld m rfl), ?_⟩, fun hrun => hrun.node_of_given rfl⟩
  rw [leased_iff hkeeps]
  constructor
  · rintro ⟨l, hget, hidentity⟩
    obtain ⟨l', hget', hidentity'⟩ := hheld m rfl
    exact (LawfulBook.proper hkeeps).identity_injective n m l l' hget hget' (hidentity.trans hidentity'.symm)
  · rintro rfl
    exact hheld n rfl

end

theorem joins_of_reachable :
    (∀ b : MemoryLeases, Reachable .empty b → Joins b) ∧ ∀ b : KeyedLeases, Reachable .empty b → Joins b :=
  ⟨fun _ h => h.joins MemoryLeases.keeps_empty, fun _ h => h.joins KeyedLeases.keeps_empty⟩

theorem joins_of_reachable_lagging : ∃ (b : KeyedLeases) (lagging : Lagging KeyedLeases) (s' : Issuer),
    Reachable .empty b ∧ (Bytes.ofText "second").Fits ∧
    join (⟨b, [127]⟩ : Lagging KeyedLeases) (.ofPatience 0) (⟨9, 0⟩ : SteppingClock) 8 (fun _ => 0) "second" =
      (.ok (-127), lagging, s') ∧ Joined (.ofPatience 0) "second" (-127) lagging.book s' := by
  have first : Reachable KeyedLeases.empty _ := Reachable.start.acquire [] (⟨7, 0⟩ : SteppingClock) 8 (fun _ => 0)
    (show (Bytes.ofText "first").Fits by decide)
  have hfits : (Bytes.ofText "second").Fits := by decide
  have hanswer : (join (⟨(acquisition (⟨.empty, []⟩ : Lagging KeyedLeases) (⟨7, 0⟩ : SteppingClock) 8 (fun _ => 0)
      "first").2.book, [127]⟩ : Lagging KeyedLeases) (.ofPatience 0) (⟨9, 0⟩ : SteppingClock) 8 (fun _ => 0)
      "second").1 = .ok (-127) := by decide +kernel
  have hpair : ∀ joined : Except Error Node × Lagging KeyedLeases × Issuer, joined.1 = .ok (-127) →
      ∃ lagging s', joined = (.ok (-127), lagging, s') := by
    rintro ⟨_, lagging, s'⟩ rfl
    exact ⟨lagging, s', rfl⟩
  obtain ⟨lagging, s', hjoin⟩ := hpair _ hanswer
  exact ⟨_, lagging, s', first, hfits, hjoin, joins_of_reachable.2 _ first [127] _ _ _ _ _ _ _ _ hfits hjoin⟩

/-- An issuer that was assigned node 5 before keeps it. The process leases node 9, is answered 5, and gives out
identifiers of a node that nobody has leased. -/
theorem join_keeps_unleased_node : ∃ b : MemoryLeases, Reachable .empty b ∧
    let s : Issuer := { Issuer.ofPatience 0 with node := some 5 }
    let joined := join (⟨b, []⟩ : Lagging MemoryLeases) s (⟨7, 0⟩ : SteppingClock) 8 (fun _ => 0) "a"
    joined.1 = .ok 5 ∧ LeaseBook.ofNode? joined.2.1.book 5 = .ok none ∧
      LeaseBook.ofNode? joined.2.1.book 9 = .ok (some ⟨9, "a", 7⟩) ∧
      ((joined.2.2.issue (⟨7, 0⟩ : SteppingClock)).1.toOption.map Identifier.node) = some 5 := by
  have leased : Reachable MemoryLeases.empty _ := Reachable.start.acquire [] (⟨0, 0⟩ : SteppingClock) 8 (fun _ => 118)
    (show (Bytes.ofText "a").Fits by decide)
  exact ⟨_, leased, by decide +kernel⟩

end Lease

end Chronicle
