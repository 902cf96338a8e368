import Chronicle.Lease.Basic
import Chronicle.Proofs.Codec.ReadBack
import Chronicle.Proofs.OrderedMap.Scan

namespace Chronicle

namespace Lease

variable {active : OrderedMap Node Lease} {l : Lease} {n : Node}

structure Proper (active : OrderedMap Node Lease) : Prop where
  node_eq : ∀ n l, active.get? n = some l → l.node = n
  assignable : ∀ n l, active.get? n = some l → n.IsAssignable
  named : ∀ n l, active.get? n = some l → l.identity ≠ ""
  fits : ∀ n l, active.get? n = some l → (Bytes.ofText l.identity).Fits
  identity_injective : ∀ n m l l', active.get? n = some l → active.get? m = some l' → l.identity = l'.identity → n = m

structure Admitted (active : OrderedMap Node Lease) (l : Lease) : Prop where
  assignable : l.node.IsAssignable
  named : l.identity ≠ ""
  fits : (Bytes.ofText l.identity).Fits
  apart : ∀ n l', active.get? n = some l' → (n = l.node ↔ l'.identity = l.identity)

def held (active : OrderedMap Node Lease) (identity : String) : Option Lease :=
  active.values.find? fun l => l.identity == identity

def Tells (holders : OrderedMap String Node) (active : OrderedMap Node Lease) : Prop :=
  ∀ identity n, holders.get? identity = some n ↔ ∃ l, active.get? n = some l ∧ l.identity = identity

lemma mem_values (h : Proper active) : l ∈ active.values ↔ active.get? l.node = some l := by
  rw [OrderedMap.values, List.mem_map]
  constructor
  · rintro ⟨⟨n, l'⟩, hmem, rfl⟩
    have hget := OrderedMap.get?_eq_some_iff.2 hmem
    rw [h.node_eq n l' hget]
    exact hget
  · intro hget
    exact ⟨(l.node, l), OrderedMap.get?_eq_some_iff.1 hget, rfl⟩

lemma held_eq_some_iff (h : Proper active) {identity : String} :
    held active identity = some l ↔ active.get? l.node = some l ∧ l.identity = identity := by
  constructor
  · intro hheld
    refine ⟨(mem_values h).1 (List.mem_of_find?_eq_some hheld), ?_⟩
    simpa using List.find?_some hheld
  · rintro ⟨hget, rfl⟩
    cases hheld : held active l.identity with
    | none =>
      have hnone := List.find?_eq_none.1 hheld l ((mem_values h).2 hget)
      simp at hnone
    | some l' =>
      have hget' := (mem_values h).1 (List.mem_of_find?_eq_some hheld)
      have hidentity : l'.identity = l.identity := by simpa using List.find?_some hheld
      have hnode := h.identity_injective _ _ _ _ hget' hget hidentity
      rw [hnode, hget] at hget'
      exact hget'.symm

lemma held_eq_none_iff (h : Proper active) {identity : String} :
    held active identity = none ↔ ∀ n l, active.get? n = some l → l.identity ≠ identity := by
  rw [← Option.not_isSome_iff_eq_none, Option.isSome_iff_exists]
  simp only [held_eq_some_iff h, not_exists, not_and]
  constructor
  · intro hnone n l hget
    have hnode := h.node_eq n l hget
    exact hnone l (hnode ▸ hget)
  · intro hnone l hget
    exact hnone _ l hget

lemma admitted_of_free (h : Proper active) (hassignable : l.node.IsAssignable) (hnamed : l.identity ≠ "")
    (hfits : (Bytes.ofText l.identity).Fits) (hfree : active.get? l.node = none)
    (hheld : held active l.identity = none) : Admitted active l where
  assignable := hassignable
  named := hnamed
  fits := hfits
  apart n l' hget := by
    constructor
    · rintro rfl
      rw [hfree] at hget
      cases hget
    · intro hidentity
      exact absurd hidentity ((held_eq_none_iff h).1 hheld n l' hget)

lemma admitted_of_held (h : Proper active) (hget : active.get? l.node = some l) (since : Int64) :
    Admitted active { l with since } where
  assignable := h.assignable _ _ hget
  named := h.named _ l hget
  fits := h.fits _ l hget
  apart n l' hget' := by
    constructor
    · rintro rfl
      rw [hget] at hget'
      rw [Option.some.inj hget']
    · exact h.identity_injective _ _ _ l hget' hget

namespace Proper

lemma empty : Proper ∅ where
  node_eq _ _ hget := by cases hget
  assignable _ _ hget := by cases hget
  named _ _ hget := by cases hget
  fits _ _ hget := by cases hget
  identity_injective _ _ _ _ hget := by cases hget

lemma insert (h : Proper active) (hl : Admitted active l) : Proper (active.insert l.node l) where
  node_eq n l' hget := by
    rw [OrderedMap.get?_insert] at hget
    split at hget
    · next hn => rw [← Option.some.inj hget, hn]
    · exact h.node_eq n l' hget
  assignable n l' hget := by
    rw [OrderedMap.get?_insert] at hget
    split at hget
    · next hn => exact hn ▸ hl.assignable
    · exact h.assignable n l' hget
  named n l' hget := by
    rw [OrderedMap.get?_insert] at hget
    split at hget
    · exact Option.some.inj hget ▸ hl.named
    · exact h.named n l' hget
  fits n l' hget := by
    rw [OrderedMap.get?_insert] at hget
    split at hget
    · exact Option.some.inj hget ▸ hl.fits
    · exact h.fits n l' hget
  identity_injective n m l₁ l₂ hn hm hidentity := by
    rw [OrderedMap.get?_insert] at hn hm
    split at hn <;> split at hm
    · next hn' hm' => exact hn'.trans hm'.symm
    · next hn' _ =>
      obtain rfl := Option.some.inj hn
      exact hn'.trans ((hl.apart m l₂ hm).2 hidentity.symm).symm
    · next _ hm' =>
      obtain rfl := Option.some.inj hm
      exact ((hl.apart n l₁ hn).2 hidentity).trans hm'.symm
    · exact h.identity_injective n m l₁ l₂ hn hm hidentity

lemma erase (h : Proper active) (n : Node) : Proper (active.erase n) := by
  have hsub : ∀ m l, (active.erase n).get? m = some l → active.get? m = some l := by
    intro m l hget
    rw [OrderedMap.get?_erase] at hget
    split at hget
    · cases hget
    · exact hget
  exact ⟨fun m l hget => h.node_eq m l (hsub m l hget), fun m l hget => h.assignable m l (hsub m l hget),
    fun m l hget => h.named m l (hsub m l hget), fun m l hget => h.fits m l (hsub m l hget),
    fun m m' l l' hm hm' => h.identity_injective m m' l l' (hsub m l hm) (hsub m' l' hm')⟩

end Proper

namespace Tells

variable {holders : OrderedMap String Node}

lemma empty : Tells ∅ ∅ := fun _ _ => ⟨nofun, nofun⟩

lemma insert_of_held (h : Tells holders active) (hl : Admitted active l) (hheld : (active.get? l.node).isSome) :
    Tells holders (active.insert l.node l) := by
  obtain ⟨l₀, hl₀⟩ := Option.isSome_iff_exists.1 hheld
  have hidentity := (hl.apart _ l₀ hl₀).1 rfl
  intro identity n
  rw [h identity n, OrderedMap.get?_insert]
  by_cases hn : n = l.node
  · subst hn
    simp [hl₀, hidentity]
  · rw [if_neg hn]

lemma insert (h : Tells holders active) (hl : Admitted active l) :
    Tells (holders.insert l.identity l.node) (active.insert l.node l) := by
  intro identity n
  rw [OrderedMap.get?_insert, OrderedMap.get?_insert]
  by_cases hidentity : identity = l.identity
  · subst hidentity
    rw [if_pos rfl]
    by_cases hn : n = l.node
    · simp [hn]
    · rw [if_neg hn]
      constructor
      · intro heq
        exact absurd (Option.some.inj heq).symm hn
      · rintro ⟨l', hget, heq⟩
        exact absurd ((hl.apart n l' hget).2 heq) hn
  · rw [if_neg hidentity, h identity n]
    by_cases hn : n = l.node
    · subst hn
      rw [if_pos rfl]
      constructor
      · rintro ⟨l', hget, rfl⟩
        exact absurd ((hl.apart _ l' hget).1 rfl) hidentity
      · rintro ⟨l', heq, rfl⟩
        obtain rfl := Option.some.inj heq
        exact absurd rfl hidentity
    · rw [if_neg hn]

lemma erase (h : Tells holders active) (hproper : Proper active) (hget : active.get? n = some l) :
    Tells (holders.erase l.identity) (active.erase n) := by
  intro identity m
  rw [OrderedMap.get?_erase, OrderedMap.get?_erase]
  by_cases hidentity : identity = l.identity
  · subst hidentity
    rw [if_pos rfl]
    refine iff_of_false (by simp) ?_
    rintro ⟨l', hget', heq⟩
    split at hget'
    · cases hget'
    · next hm => exact hm (hproper.identity_injective _ _ _ _ hget' hget heq)
  · rw [if_neg hidentity, h identity m]
    by_cases hm : m = n
    · subst hm
      rw [if_pos rfl]
      refine iff_of_false ?_ (by simp)
      rintro ⟨l', hget', rfl⟩
      rw [hget] at hget'
      exact hidentity (congrArg Lease.identity (Option.some.inj hget').symm)
    · rw [if_neg hm]

end Tells

structure TrailGrows {σ : Type} [LeaseBook σ] (Room : Nat → Prop) (b b' : σ) (l : Lease) : Prop where
  own : ∀ rows, LeaseBook.trail b l.node = .ok rows → Room rows.length →
    LeaseBook.trail b' l.node = .ok (rows ++ [l])
  other : ∀ n, n ≠ l.node → LeaseBook.trail b' n = LeaseBook.trail b n

end Lease

open Lease in
/-- A book that keeps to a map of active leases. -/
class LawfulBook (σ : Type) [LeaseBook σ] where
  Keeps : σ → OrderedMap Node Lease → Prop
  /-- How many rows a trail may have for the next one to find a place of its own. -/
  Room : Nat → Prop
  proper {b : σ} {active : OrderedMap Node Lease} : Keeps b active → Proper active
  ofNode?_eq {b : σ} {active : OrderedMap Node Lease} (h : Keeps b active) (n : Node) :
    LeaseBook.ofNode? b n = .ok (active.get? n)
  ofIdentity?_eq {b : σ} {active : OrderedMap Node Lease} (h : Keeps b active) (identity : String) :
    LeaseBook.ofIdentity? b identity = .ok (held active identity)
  listing_eq {b : σ} {active : OrderedMap Node Lease} (h : Keeps b active) : LeaseBook.listing b = .ok active.values
  claim_taken {b : σ} {active : OrderedMap Node Lease} {l : Lease} (h : Keeps b active)
    (htaken : (active.get? l.node).isSome) : LeaseBook.claim b l = .ok (false, b)
  claim_free {b : σ} {active : OrderedMap Node Lease} {l : Lease} (h : Keeps b active)
    (hfree : active.get? l.node = none) (hl : Admitted active l) :
    ∃ b', LeaseBook.claim b l = .ok (true, b') ∧ Keeps b' (active.insert l.node l) ∧ TrailGrows Room b b' l
  renew {b : σ} {active : OrderedMap Node Lease} {l : Lease} (h : Keeps b active)
    (htaken : (active.get? l.node).isSome) (hl : Admitted active l) :
    ∃ b', LeaseBook.renew b l = .ok b' ∧ Keeps b' (active.insert l.node l) ∧ TrailGrows Room b b' l
  release {b : σ} {active : OrderedMap Node Lease} (h : Keeps b active) (n : Node) :
    ∃ b', LeaseBook.release b n = .ok (active.get? n, b') ∧ Keeps b' (active.erase n) ∧
      ∀ m, LeaseBook.trail b' m = LeaseBook.trail b m
  trail_ok {b : σ} {active : OrderedMap Node Lease} (h : Keeps b active) (n : Node) :
    ∃ rows, LeaseBook.trail b n = .ok rows

end Chronicle
