import Chronicle.Lease.Acquire
import Chronicle.Proofs.Lease.Book

namespace Chronicle

lemma Node.mem_pool_iff {n : Node} : n ∈ pool ↔ n.IsAssignable := by
  have hlow : IsAssignable n ↔ -127 ≤ n.toInt := Int8.le_iff_toInt_le
  have hmax := n.toInt_lt
  rw [hlow, pool, List.mem_map]
  constructor
  · rintro ⟨i, hi, rfl⟩
    have hi := List.mem_range.1 hi
    rw [Int8.toInt_ofInt_of_le] <;> omega
  · intro h
    refine ⟨(127 - n.toInt).toNat, List.mem_range.2 (by omega), ?_⟩
    rw [← Int8.toInt_inj, Int8.toInt_ofInt_of_le] <;> omega

namespace Lease

variable {σ γ : Type} [LeaseBook σ] [Clock γ] {b b' : σ} {active : OrderedMap Node Lease} {hidden : List Node}
  {identity : String} {n : Node} {l : Lease}

lemma mem_takeOut {α : Type} {xs : List α} {i : Nat} {x : α} (h : x ∈ takeOut xs i) : x ∈ xs := by
  unfold takeOut at h
  split at h
  · cases h
  · next last hlast =>
    rcases List.mem_or_eq_of_mem_set (List.dropLast_subset _ h) with h | rfl
    · exact h
    · exact List.mem_of_getLast? hlast

def visible (active : OrderedMap Node Lease) (hidden : List Node) : List Lease :=
  active.values.filter fun l => !hidden.contains l.node

lemma mem_freeNodes_iff {listing : List Lease} :
    n ∈ freeNodes listing ↔ n.IsAssignable ∧ n ∉ listing.map (·.node) := by
  simp [freeNodes, Node.mem_pool_iff]

lemma claim_lagging {entered : Bool} (h : LeaseBook.claim b l = .ok (entered, b')) (hidden : List Node) :
    LeaseBook.claim (⟨b, hidden⟩ : Lagging σ) l = .ok (entered, ⟨b', hidden⟩) := by
  simp only [LeaseBook.claim, h]
  rfl

lemma listing_lagging (h : LeaseBook.listing b = .ok active.values) (hidden : List Node) :
    LeaseBook.listing (⟨b, hidden⟩ : Lagging σ) = .ok (visible active hidden) := by
  change (do let all ← LeaseBook.listing b; return all.filter fun l : Lease => !hidden.contains l.node) = _
  rw [h]
  rfl

variable [LawfulBook σ]

open LawfulBook (Keeps)

inductive Outcome (active : OrderedMap Node Lease) (b : σ) (hidden : List Node) (identity : String) (now : Int64) :
    Except Error Node × Lagging σ → Prop where
  | unnamed (unnamed : identity = "") :
      Outcome active b hidden identity now (.error (.argument .emptyIdentity), ⟨b, hidden⟩)
  | renewed {l : Lease} {b' : σ} (held_eq : held active identity = some l)
      (keeps : Keeps b' (active.insert l.node { l with since := now }))
      (grows : TrailGrows (LawfulBook.Room σ) b b' { l with since := now }) :
      Outcome active b hidden identity now (.ok l.node, ⟨b', hidden⟩)
  | exhausted (named : identity ≠ "") (held_eq : held active identity = none)
      (none_free : freeNodes (visible active hidden) = []) :
      Outcome active b hidden identity now (.error .noFreeNode, ⟨b, hidden⟩)
  | leased {n : Node} {b' : σ} (named : identity ≠ "") (held_eq : held active identity = none)
      (looks_free : n ∈ freeNodes (visible active hidden)) (free : active.get? n = none)
      (keeps : Keeps b' (active.insert n ⟨n, identity, now⟩))
      (grows : TrailGrows (LawfulBook.Room σ) b b' ⟨n, identity, now⟩) :
      Outcome active b hidden identity now (.ok n, ⟨b', hidden⟩)
  | taken {n : Node} (named : identity ≠ "") (held_eq : held active identity = none)
      (looks_free : n ∈ freeNodes (visible active hidden)) (taken : (active.get? n).isSome) :
      Outcome active b hidden identity now (.error (.nodeTaken n), ⟨b, hidden⟩)

lemma claimOneOf_cases (h : Keeps b active) (hidden : List Node) (hnamed : identity ≠ "")
    (hfits : (Bytes.ofText identity).Fits) (hheld : held active identity = none) (now : Int64) (chance : Chance)
    (attempts draw : Nat) (free : List Node) (refused : Option Node) (hfree : ∀ n ∈ free, n.IsAssignable) :
    let r := claimOneOf (⟨b, hidden⟩ : Lagging σ) identity now chance draw attempts free refused
    (attempts = 0 ∨ free = []) ∧ r = (.error (refused.elim .noFreeNode .nodeTaken), ⟨b, hidden⟩) ∨
    (∃ n ∈ free, (active.get? n).isSome ∧ r = (.error (.nodeTaken n), ⟨b, hidden⟩)) ∨
    ∃ n ∈ free, active.get? n = none ∧ ∃ b', r = (.ok n, ⟨b', hidden⟩) ∧
      Keeps b' (active.insert n ⟨n, identity, now⟩) ∧ TrailGrows (LawfulBook.Room σ) b b' ⟨n, identity, now⟩ := by
  induction attempts generalizing draw free refused with
  | zero => exact .inl ⟨.inl rfl, rfl⟩
  | succ attempts ih =>
    simp only [claimOneOf]
    split
    · next hnone =>
      refine .inl ⟨.inr (List.length_eq_zero_iff.1 ?_), rfl⟩
      have hle := List.getElem?_eq_none_iff.1 hnone
      rcases Nat.eq_zero_or_pos free.length with hzero | hpos
      · exact hzero
      · exact absurd (Nat.mod_lt (chance draw) hpos) (by omega)
    · next n hsome =>
      have hn : n ∈ free := List.mem_of_getElem? hsome
      right
      cases hget : active.get? n with
      | none =>
        have hl : Admitted active ⟨n, identity, now⟩ :=
          admitted_of_free (l := ⟨n, identity, now⟩) (LawfulBook.proper h) (hfree n hn) hnamed hfits hget hheld
        obtain ⟨b', hclaim, hkeeps, hgrows⟩ := LawfulBook.claim_free (l := ⟨n, identity, now⟩) h hget hl
        rw [claim_lagging hclaim]
        exact .inr ⟨n, hn, hget, b', rfl, hkeeps, hgrows⟩
      | some l =>
        have htaken : (active.get? n).isSome := Option.isSome_of_eq_some hget
        have hclaim : LeaseBook.claim b ⟨n, identity, now⟩ = .ok (false, b) :=
          LawfulBook.claim_taken (l := ⟨n, identity, now⟩) h htaken
        rw [claim_lagging hclaim]
        rcases ih (draw + 1) (takeOut free (chance draw % free.length)) (some n)
            (fun m hm => hfree m (mem_takeOut hm)) with ⟨_, hr⟩ | ⟨m, hm, htaken, hr⟩ | ⟨m, hm, hleased⟩
        · exact .inl ⟨n, hn, htaken, hr⟩
        · exact .inl ⟨m, mem_takeOut hm, htaken, hr⟩
        · exact .inr ⟨m, mem_takeOut hm, hleased⟩

lemma acquisition_outcome (h : Keeps b active) (hfits : (Bytes.ofText identity).Fits) (hidden : List Node) (clock : γ)
    (attempts : Nat) (chance : Chance) :
    Outcome active b hidden identity (Clock.now clock)
      (acquisition (⟨b, hidden⟩ : Lagging σ) clock attempts chance identity) := by
  have hproper := LawfulBook.proper h
  unfold acquisition
  split
  · next hempty => exact .unnamed (String.isEmpty_iff.1 hempty)
  · next hempty =>
    have hnamed : identity ≠ "" := fun he => hempty (String.isEmpty_iff.2 he)
    have hlookup : LeaseBook.ofIdentity? (⟨b, hidden⟩ : Lagging σ) identity = .ok (held active identity) :=
      LawfulBook.ofIdentity?_eq h identity
    rw [hlookup]
    cases hheld : held active identity with
    | some l =>
      have hget := ((held_eq_some_iff hproper).1 hheld).1
      obtain ⟨b', hrenew, hkeeps, hgrows⟩ := LawfulBook.renew (l := { l with since := Clock.now clock }) h
        (Option.isSome_of_eq_some hget) (admitted_of_held hproper hget (Clock.now clock))
      have hrenew' : LeaseBook.renew (⟨b, hidden⟩ : Lagging σ) { l with since := Clock.now clock } =
          .ok ⟨b', hidden⟩ := by
        change (do let book ← LeaseBook.renew b _; return (⟨book, hidden⟩ : Lagging σ)) = _
        rw [hrenew]
        rfl
      simp only [hrenew']
      exact .renewed hheld hkeeps hgrows
    | none =>
      simp only [listing_lagging (LawfulBook.listing_eq h)]
      rcases claimOneOf_cases h hidden hnamed hfits hheld (Clock.now clock) chance (max attempts 1) 0
          (freeNodes (visible active hidden)) none (fun n hn => (mem_freeNodes_iff.1 hn).1) with
        ⟨hnone | hnone, hr⟩ | ⟨n, hn, htaken, hr⟩ | ⟨n, hn, hfree, b', hr, hkeeps, hgrows⟩
      · omega
      · rw [hr]
        exact .exhausted hnamed hheld hnone
      · rw [hr]
        exact .taken hnamed hheld hn htaken
      · rw [hr]
        exact .leased hnamed hheld hn hfree hkeeps hgrows

def HeldBy (active : OrderedMap Node Lease) (n : Node) (identity : String) : Prop :=
  ∃ l, active.get? n = some l ∧ l.identity = identity

lemma HeldBy.insert {m : Node} {name : String} (h : HeldBy active m name) (hl : m = l.node → l.identity = name) :
    HeldBy (active.insert l.node l) m name := by
  obtain ⟨l', hget, hname⟩ := h
  by_cases hm : m = l.node
  · exact ⟨l, by rw [OrderedMap.get?_insert, if_pos hm], hl hm⟩
  · exact ⟨l', by rw [OrderedMap.get?_insert, if_neg hm, hget], hname⟩

lemma Outcome.keeps {result : Except Error Node × Lagging σ} {now : Int64} (h : Keeps b active)
    (ho : Outcome active b hidden identity now result) :
    ∃ active', Keeps result.2.book active' ∧ (∀ m name, HeldBy active m name → HeldBy active' m name) ∧
      ∀ m, result.1 = .ok m → HeldBy active' m identity := by
  cases ho with
  | unnamed | exhausted | taken => exact ⟨active, h, fun _ _ hm => hm, fun _ hok => nomatch hok⟩
  | @renewed l b' hheld keeps _ =>
    obtain ⟨hget, hidentity⟩ := (held_eq_some_iff (LawfulBook.proper h)).1 hheld
    refine ⟨_, keeps, fun m name hm => ?_, fun m hok => ?_⟩
    · refine hm.insert (l := { l with since := now }) fun hml => ?_
      obtain ⟨l', hget', hname⟩ := hm
      rw [hml, hget] at hget'
      rw [← hname, ← Option.some.inj hget']
    · obtain rfl : l.node = m := Except.ok.inj hok
      exact ⟨{ l with since := now }, by rw [OrderedMap.get?_insert, if_pos rfl], hidentity⟩
  | @leased n b' _ _ _ free keeps _ =>
    refine ⟨_, keeps, fun m name hm => ?_, fun m hok => ?_⟩
    · refine hm.insert (l := ⟨n, identity, now⟩) fun hmn => ?_
      obtain ⟨l', hget', _⟩ := hm
      rw [hmn, free] at hget'
      cases hget'
    · obtain rfl : n = m := Except.ok.inj hok
      exact ⟨_, by rw [OrderedMap.get?_insert, if_pos rfl], rfl⟩

end Lease

end Chronicle
