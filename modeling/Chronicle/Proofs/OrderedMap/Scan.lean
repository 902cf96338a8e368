import Mathlib.Data.List.Nodup
import Mathlib.Tactic.Lemma
import Chronicle.OrderedMap.Lemmas

namespace Chronicle.OrderedMap

universe u v

variable {κ : Type u} {α : Type v} [Ord κ] {m : OrderedMap κ α} {k : κ} {a : α} {p : κ → Bool}

lemma mem_scan {e : κ × α} : e ∈ m.scan p ↔ e ∈ m.entries ∧ p e.1 = true := List.mem_filter

lemma pairwise_scan (m : OrderedMap κ α) (p : κ → Bool) :
    (m.scan p).Pairwise fun a b => compare a.1 b.1 = .lt := m.ascending.filter _

lemma entries_filter (q : κ → α → Bool) : (m.filter q).entries = m.entries.filter fun e => q e.1 e.2 := rfl

lemma scan_filter (q : κ → α → Bool) : (m.filter q).scan p = (m.scan p).filter fun e => q e.1 e.2 := by
  simp only [scan, filter, List.filter_filter]
  congr 1
  funext e
  exact Bool.and_comm ..

lemma entries_insert_of_forall_lt [Std.TransOrd κ] [Std.LawfulEqOrd κ]
    (h : ∀ e ∈ m.entries, compare e.1 k = .lt) : (m.insert k a).entries = m.entries ++ [(k, a)] := by
  obtain ⟨es, hes⟩ := m
  simp only [insert] at h ⊢
  clear hes
  induction es with
  | nil => rfl
  | cons e es ih =>
    have he : compare k e.1 = .gt := Std.OrientedCmp.gt_of_lt (h e List.mem_cons_self)
    rw [insertEntry, he]
    simp only [List.cons_append]
    rw [ih fun d hd => h d (List.mem_cons_of_mem _ hd)]

lemma length_le_insertEntry (es : List (κ × α)) : es.length ≤ (insertEntry k a es).length := by
  induction es with
  | nil => exact Nat.zero_le _
  | cons e es ih =>
    rw [insertEntry]
    split <;> simp only [List.length_cons] <;> omega

variable [Std.TransOrd κ] [Std.LawfulEqOrd κ]

lemma eq_of_mem_iff {es ds : List (κ × α)} (hes : es.Pairwise fun a b => compare a.1 b.1 = .lt)
    (hds : ds.Pairwise fun a b => compare a.1 b.1 = .lt) (h : ∀ e, e ∈ es ↔ e ∈ ds) : es = ds := by
  have hmap : (⟨es, hes⟩ : OrderedMap κ α) = ⟨ds, hds⟩ := by
    apply ext_get?
    intro k
    apply Option.ext
    intro a
    rw [get?_eq_some_iff, get?_eq_some_iff]
    exact h (k, a)
  exact congrArg entries hmap

lemma mem_keys_iff : k ∈ m.keys ↔ m.contains k = true := by
  rw [contains, Option.isSome_iff_exists]
  simp [get?_eq_some_iff, keys]

omit [Std.TransOrd κ] in
lemma nodup_keys (m : OrderedMap κ α) : m.keys.Nodup := by
  refine List.pairwise_map.2 (m.ascending.imp fun {a b} hlt heq => ?_)
  rw [heq, (Std.ReflCmp.compare_self : compare b.1 b.1 = .eq)] at hlt
  cases hlt

variable [DecidableEq κ]

lemma erase_of_get?_eq_none (h : m.get? k = none) : m.erase k = m := by
  apply ext_get?
  intro k'
  rw [get?_erase]
  split
  · next hk => rw [hk, h]
  · rfl

lemma filter_insert (hp : p k = true) :
    (m.insert k a).filter (fun k' _ => p k') = (m.filter fun k' _ => p k').insert k a := by
  apply ext_get?
  intro k'
  rw [get?_filter, get?_insert, get?_insert, get?_filter]
  by_cases h : k' = k
  · simp [h, hp]
  · simp [h]

lemma scan_insert_of_forall_lt (hp : p k = true) (h : ∀ e ∈ m.scan p, compare e.1 k = .lt) :
    (m.insert k a).scan p = m.scan p ++ [(k, a)] := by
  change ((m.insert k a).filter fun k' _ => p k').entries = _
  rw [filter_insert hp, entries_insert_of_forall_lt h]
  rfl

lemma scan_insert_of_not (hp : p k = false) : (m.insert k a).scan p = m.scan p := by
  change ((m.insert k a).filter fun k' _ => p k').entries = (m.filter fun k' _ => p k').entries
  congr 1
  apply ext_get?
  intro k'
  rw [get?_filter, get?_filter, get?_insert]
  by_cases h : k' = k
  · simp [h, hp]
  · simp [h]

omit [DecidableEq κ] in
lemma mem_scan_insert {e : κ × α} (h : e ∈ (m.insert k a).scan p) : e = (k, a) ∨ e ∈ m.scan p := by
  obtain ⟨hmem, hp⟩ := mem_scan.1 h
  exact (mem_insertEntry hmem).imp_right fun hmem => mem_scan.2 ⟨hmem, hp⟩

lemma length_scan_le_insert : (m.scan p).length ≤ ((m.insert k a).scan p).length := by
  cases hp : p k with
  | true =>
    change _ ≤ ((m.insert k a).filter fun k' _ => p k').entries.length
    rw [filter_insert hp]
    exact length_le_insertEntry (m.scan p)
  | false => exact Nat.le_of_eq (congrArg List.length (scan_insert_of_not hp)).symm

lemma size_insert (m : OrderedMap κ α) (k : κ) (a : α) :
    (m.insert k a).size = if m.contains k then m.size else m.size + 1 := by
  have hsize (m : OrderedMap κ α) : m.size = m.keys.length := (List.length_map _).symm
  have hmem (k' : κ) : k' ∈ (m.insert k a).keys ↔ k' = k ∨ k' ∈ m.keys := by
    rw [mem_keys_iff, mem_keys_iff, contains, contains, get?_insert]
    by_cases hk : k' = k <;> simp [hk]
  rw [hsize, hsize]
  split
  · next hk =>
    refine List.Perm.length_eq ((List.perm_ext_iff_of_nodup (nodup_keys _) (nodup_keys m)).2 fun k' => ?_)
    rw [hmem, or_iff_right_of_imp]
    rintro rfl
    exact mem_keys_iff.2 hk
  · next hk =>
    have hnodup : (k :: m.keys).Nodup := List.nodup_cons.2 ⟨fun h => hk (mem_keys_iff.1 h), nodup_keys m⟩
    refine List.Perm.length_eq ((List.perm_ext_iff_of_nodup (nodup_keys _) hnodup).2 fun k' => ?_)
    rw [hmem, List.mem_cons]

end Chronicle.OrderedMap
