import Chronicle.Bytes
import Chronicle.Proofs.OrderedMap.Scan

/-! A typed map and a byte map that hold the same. -/

namespace Chronicle

/-- How entries of a typed map are laid out in a byte map: byte keys that differ for different keys, as far as keys are
valid, and byte forms of what they hold. -/
structure Layout (κ α : Type) where
  key : κ → Bytes
  form : α → Bytes
  Valid : κ → Prop
  injective : ∀ {k k' : κ}, Valid k → Valid k' → key k = key k' → k = k'

namespace Layout

variable {κ α : Type} [Ord κ] {l : Layout κ α} {m : OrderedMap κ α} {b : OrderedMap Bytes Bytes} {k : κ} {a : α}

structure Represents (l : Layout κ α) (m : OrderedMap κ α) (b : OrderedMap Bytes Bytes) : Prop where
  get?_eq_some_iff : ∀ bs w, b.get? bs = some w ↔ ∃ k a, m.get? k = some a ∧ l.key k = bs ∧ l.form a = w
  valid : ∀ k a, m.get? k = some a → l.Valid k

namespace Represents

lemma empty : l.Represents ∅ ∅ where
  get?_eq_some_iff _ _ := ⟨nofun, nofun⟩
  valid _ _ := nofun

lemma get?_key (h : l.Represents m b) (hk : l.Valid k) : b.get? (l.key k) = (m.get? k).map l.form := by
  apply Option.ext
  intro w
  rw [h.get?_eq_some_iff, Option.map_eq_some_iff]
  constructor
  · rintro ⟨k', a, hget, hkey, rfl⟩
    obtain rfl := l.injective (h.valid k' a hget) hk hkey
    exact ⟨a, hget, rfl⟩
  · rintro ⟨a, hget, rfl⟩
    exact ⟨k, a, hget, rfl, rfl⟩

lemma exists_iff (h : l.Represents m b) (hk : l.Valid k) : (∃ w, b.get? (l.key k) = some w) ↔ ∃ a, m.get? k = some a := by
  rw [h.get?_key hk]
  cases m.get? k <;> simp

lemma read_iff {ε : Type} {read : Bytes → Except ε α} (h : l.Represents m b) (hk : l.Valid k)
    (hread : ∀ a, read (l.form a) = .ok a) : (∃ w, b.get? (l.key k) = some w ∧ read w = .ok a) ↔ m.get? k = some a := by
  rw [h.get?_key hk]
  cases m.get? k <;> simp [hread]

variable [Std.TransOrd κ] [Std.LawfulEqOrd κ]

lemma filter (h : l.Represents m b) {p : κ → α → Bool} {q : Bytes → Bytes → Bool}
    (hpq : ∀ k a, m.get? k = some a → q (l.key k) (l.form a) = p k a) :
    l.Represents (m.filter p) (b.filter q) where
  get?_eq_some_iff bs w := by
    simp only [OrderedMap.get?_filter, Option.filter_eq_some_iff, h.get?_eq_some_iff]
    constructor
    · rintro ⟨⟨k, a, hget, rfl, rfl⟩, hq⟩
      exact ⟨k, a, ⟨hget, by rw [← hpq k a hget]; exact hq⟩, rfl, rfl⟩
    · rintro ⟨k, a, ⟨hget, hp⟩, rfl, rfl⟩
      exact ⟨⟨k, a, hget, rfl, rfl⟩, by rw [hpq k a hget]; exact hp⟩
  valid k a hget := by
    rw [OrderedMap.get?_filter, Option.filter_eq_some_iff] at hget
    exact h.valid k a hget.1

lemma filter_key (h : l.Represents m b) (q : Bytes → Bool) :
    l.Represents (m.filter fun k _ => q (l.key k)) (b.filter fun k _ => q k) :=
  h.filter fun _ _ _ => rfl

lemma scan (h : l.Represents m b) {p : κ → Bool} {q : Bytes → Bool}
    (hpq : ∀ k, l.Valid k → q (l.key k) = p k)
    (hlt : ∀ k k', p k = true → p k' = true → compare k k' = .lt → compare (l.key k) (l.key k') = .lt) :
    b.scan q = (m.scan p).map fun e => (l.key e.1, l.form e.2) := by
  apply OrderedMap.eq_of_mem_iff (b.pairwise_scan q)
  · rw [List.pairwise_map]
    refine (m.pairwise_scan p).imp_of_mem fun {e e'} he he' hee' => ?_
    exact hlt _ _ (OrderedMap.mem_scan.1 he).2 (OrderedMap.mem_scan.1 he').2 hee'
  · rintro ⟨bs, w⟩
    simp only [OrderedMap.mem_scan, List.mem_map, ← OrderedMap.get?_eq_some_iff, h.get?_eq_some_iff]
    constructor
    · rintro ⟨⟨k, a, hget, rfl, rfl⟩, hq⟩
      exact ⟨(k, a), ⟨OrderedMap.get?_eq_some_iff.1 hget, by rw [← hpq k (h.valid k a hget)]; exact hq⟩, rfl⟩
    · rintro ⟨⟨k, a⟩, ⟨hmem, hp⟩, heq⟩
      obtain ⟨rfl, rfl⟩ := Prod.mk.inj heq
      have hget := OrderedMap.get?_eq_some_iff.2 hmem
      exact ⟨⟨k, a, hget, rfl, rfl⟩, by rw [hpq k (h.valid k a hget)]; exact hp⟩

variable [DecidableEq κ]

lemma insert (h : l.Represents m b) (hk : l.Valid k) (a : α) :
    l.Represents (m.insert k a) (b.insert (l.key k) (l.form a)) where
  get?_eq_some_iff bs w := by
    rw [OrderedMap.get?_insert]
    split
    · next hbs =>
      subst hbs
      constructor
      · intro hw
        exact ⟨k, a, by rw [OrderedMap.get?_insert, if_pos rfl], rfl, Option.some.inj hw⟩
      · rintro ⟨k', a', hget, hkey, rfl⟩
        rw [OrderedMap.get?_insert] at hget
        split at hget
        · rw [Option.some.inj hget]
        · next hne => exact absurd (l.injective (h.valid k' a' hget) hk hkey) hne
    · next hne =>
      rw [h.get?_eq_some_iff]
      refine exists_congr fun k' => exists_congr fun a' => and_congr_left fun hk' => ?_
      rw [OrderedMap.get?_insert, if_neg]
      rintro rfl
      exact hne hk'.1.symm
  valid k' a' hget := by
    rw [OrderedMap.get?_insert] at hget
    split at hget
    · next heq => exact heq ▸ hk
    · exact h.valid k' a' hget

lemma erase (h : l.Represents m b) (hk : l.Valid k) : l.Represents (m.erase k) (b.erase (l.key k)) := by
  refine h.filter fun k' a' hget => ?_
  by_cases heq : k' = k
  · subst heq
    simp
  · have hcompare : compare k' k ≠ .eq := fun hc => heq (Std.LawfulEqOrd.eq_of_compare hc)
    have hkeys : compare (l.key k') (l.key k) ≠ .eq :=
      fun hc => heq (l.injective (h.valid k' a' hget) hk (Std.LawfulEqOrd.eq_of_compare hc))
    rw [bne_iff_ne.2 hcompare, bne_iff_ne.2 hkeys]

end Represents

end Layout

end Chronicle
