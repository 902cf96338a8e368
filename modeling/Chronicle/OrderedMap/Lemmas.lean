import Chronicle.OrderedMap.Basic

namespace Chronicle.OrderedMap

variable {κ : Type u} {α : Type v} [Ord κ]

theorem ext {m n : OrderedMap κ α} (h : m.entries = n.entries) : m = n := by
  cases m
  cases n
  simp_all

theorem get?_eq_some_iff [Std.TransOrd κ] [Std.LawfulEqOrd κ] {m : OrderedMap κ α} {k : κ} {a : α} :
    m.get? k = some a ↔ (k, a) ∈ m.entries := by
  obtain ⟨es, hes⟩ := m
  simp only [get?]
  induction es with
  | nil => simp
  | cons e es ih =>
    obtain ⟨he, hes⟩ := List.pairwise_cons.1 hes
    simp only [List.find?_cons, List.mem_cons]
    split
    · next hk =>
      have hek : e.1 = k := Std.LawfulEqOrd.eq_of_compare (by simpa using hk)
      subst hek
      constructor
      · rintro h
        left
        simp only [Option.map_some, Option.some.injEq] at h
        rw [← h]
      · rintro (h | h)
        · exact congrArg (fun x => some x.2) h.symm
        · have := he _ h
          simp at this
    · next hk =>
      rw [ih hes]
      constructor
      · exact .inr
      · rintro (h | h)
        · have hek : e.1 = k := congrArg (·.1) h.symm
          simp [hek] at hk
        · exact h

theorem get?_insert [Std.TransOrd κ] [Std.LawfulEqOrd κ] [DecidableEq κ] (m : OrderedMap κ α)
    (k k' : κ) (a : α) : (m.insert k a).get? k' = if k' = k then some a else m.get? k' := by
  obtain ⟨es, hes⟩ := m
  simp only [get?, insert]
  clear hes
  induction es with
  | nil =>
    by_cases h : k' = k
    · simp [insertEntry, h]
    · simp [insertEntry, h, Ne.symm h]
  | cons e es ih =>
    simp only [insertEntry]
    split
    · next hk =>
      by_cases h : k' = k
      · simp [h]
      · simp [List.find?_cons, h, Ne.symm h]
    · next hk =>
      have hek : k = e.1 := Std.LawfulEqOrd.eq_of_compare hk
      by_cases h : k' = k
      · simp [h]
      · simp [h, Ne.symm h, ← hek]
    · next hk =>
      simp only [List.find?_cons]
      split
      · next hk' =>
        have hek : e.1 = k' := Std.LawfulEqOrd.eq_of_compare (by simpa using hk')
        have hne : k' ≠ k := by
          rintro rfl
          simp [hek] at hk
        simp [hne]
      · exact ih

theorem get?_filter [Std.TransOrd κ] [Std.LawfulEqOrd κ] (m : OrderedMap κ α) (p : κ → α → Bool)
    (k : κ) : (m.filter p).get? k = (m.get? k).filter (p k) := by
  apply Option.ext
  intro a
  simp only [get?_eq_some_iff, Option.filter_eq_some_iff, filter, List.mem_filter]

theorem get?_erase [Std.TransOrd κ] [Std.LawfulEqOrd κ] [DecidableEq κ] (m : OrderedMap κ α)
    (k k' : κ) : (m.erase k).get? k' = if k' = k then none else m.get? k' := by
  rw [erase, get?_filter]
  by_cases h : k' = k
  · subst h
    simp
  · rw [if_neg h]
    cases m.get? k' <;> simp [h]

theorem get?_eraseMin [Std.TransOrd κ] [Std.LawfulEqOrd κ] [DecidableEq κ] (m : OrderedMap κ α) (k : κ) :
    m.eraseMin.get? k = if m.entries.head?.map (·.1) = some k then none else m.get? k := by
  obtain ⟨es, hes⟩ := m
  cases es with
  | nil => simp [get?, eraseMin]
  | cons e es =>
    obtain ⟨he, -⟩ := List.pairwise_cons.1 hes
    simp only [get?, eraseMin, List.tail_cons, List.head?_cons, Option.map_some, Option.some.injEq, List.find?_cons]
    split
    · next hek =>
      have hnone : es.find? (fun d => compare d.1 k == .eq) = none := by
        rw [List.find?_eq_none]
        intro d hd
        have hlt := he d hd
        rw [hek] at hlt
        rw [Std.OrientedCmp.gt_of_lt hlt]
        decide
      rw [hnone, Option.map_none]
    · next hek =>
      have hne : (compare e.1 k == .eq) = false := by simpa using hek
      rw [hne]

theorem contains_eq_false_of_forall_lt [Std.TransOrd κ] [Std.LawfulEqOrd κ] {m : OrderedMap κ α} {k : κ}
    (h : ∀ e ∈ m.entries, compare e.1 k = .lt) : m.contains k = false := by
  rw [contains, Option.isSome_eq_false_iff, Option.isNone_iff_eq_none]
  refine Option.eq_none_iff_forall_not_mem.2 fun a ha => ?_
  have hlt := h _ (get?_eq_some_iff.1 ha)
  rw [(Std.ReflCmp.compare_self : compare k k = .eq)] at hlt
  cases hlt

theorem ext_get? [Std.TransOrd κ] [Std.LawfulEqOrd κ] {m n : OrderedMap κ α}
    (h : ∀ k, m.get? k = n.get? k) : m = n := by
  apply ext
  have hmem : ∀ e, e ∈ m.entries ↔ e ∈ n.entries := fun e => by
    rw [← get?_eq_some_iff, ← get?_eq_some_iff, h]
  obtain ⟨ms, hms⟩ := m
  obtain ⟨ns, hns⟩ := n
  simp only at hmem ⊢
  clear h
  induction ms generalizing ns with
  | nil =>
    cases ns with
    | nil => rfl
    | cons e ns => simpa using hmem e
  | cons e ms ih =>
    cases ns with
    | nil => simpa using hmem e
    | cons d ns =>
      obtain ⟨he, hms⟩ := List.pairwise_cons.1 hms
      obtain ⟨hd, hns'⟩ := List.pairwise_cons.1 hns
      have hed : e = d := by
        rcases List.mem_cons.1 ((hmem e).1 (List.mem_cons_self ..)) with h | h
        · exact h
        · rcases List.mem_cons.1 ((hmem d).2 (List.mem_cons_self ..)) with h' | h'
          · exact h'.symm
          · have h₁ := he d h'
            have h₂ := hd e h
            rw [Std.OrientedCmp.gt_of_lt h₁] at h₂
            cases h₂
      subst hed
      congr 1
      refine ih hms ns hns' fun x => ?_
      constructor
      · intro hx
        rcases List.mem_cons.1 ((hmem x).1 (List.mem_cons_of_mem _ hx)) with h | h
        · subst h
          have := he _ hx
          simp at this
        · exact h
      · intro hx
        rcases List.mem_cons.1 ((hmem x).2 (List.mem_cons_of_mem _ hx)) with h | h
        · subst h
          have := hd _ hx
          simp at this
        · exact h

section

variable [Std.TransOrd κ] [Std.LawfulEqOrd κ] [DecidableEq κ]

theorem insert_insert (m : OrderedMap κ α) (k : κ) (a a' : α) : (m.insert k a).insert k a' = m.insert k a' := by
  apply ext_get?
  intro k'
  simp only [get?_insert]
  split <;> rfl

theorem insert_comm (m : OrderedMap κ α) {k k' : κ} {a a' : α} (h : k = k' → a = a') :
    (m.insert k a).insert k' a' = (m.insert k' a').insert k a := by
  apply ext_get?
  intro j
  simp only [get?_insert]
  by_cases hj : j = k'
  · subst hj
    rw [if_pos rfl, if_pos rfl]
    split
    · next hk => rw [h hk.symm]
    · rfl
  · rw [if_neg hj, if_neg hj]

theorem insert_erase_comm (m : OrderedMap κ α) {k k' : κ} (h : k ≠ k') (a : α) :
    (m.insert k a).erase k' = (m.erase k').insert k a := by
  apply ext_get?
  intro j
  simp only [get?_insert, get?_erase]
  by_cases hj : j = k'
  · subst hj
    rw [if_pos rfl, if_neg h.symm, if_pos rfl]
  · rw [if_neg hj, if_neg hj]

theorem erase_comm (m : OrderedMap κ α) (k k' : κ) : (m.erase k).erase k' = (m.erase k').erase k := by
  apply ext_get?
  intro j
  simp only [get?_erase]
  split <;> split <;> rfl

end

end Chronicle.OrderedMap
