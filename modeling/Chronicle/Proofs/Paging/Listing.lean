import Mathlib.Tactic.Lemma
import Chronicle.Page

namespace Chronicle

lemma Grows.trans {κ : Type} [Cursor κ] {after : Option κ} {c d : κ} (h : Grows after c) (h' : Grows (some c) d) :
    Grows after d :=
  fun b hb => Int64.lt_trans (h b hb) (h' c rfl)

namespace Source

variable {α κ β : Type} [Cursor κ] {s : Source α κ} {rows : List α}

def rowsAfter (s : Source α κ) (rows : List α) (after : Option κ) : List α :=
  rows.filter fun a => Grows after (s.cursor a)

structure Lists (s : Source α κ) (rows : List α) : Prop where
  ascending : rows.Pairwise fun a b => Cursor.word (s.cursor a) < Cursor.word (s.cursor b)
  fetch_eq : ∀ after limit, s.fetch after limit = .ok ((s.rowsAfter rows after).take limit)

lemma rowsAfter_none : s.rowsAfter rows none = rows :=
  List.filter_eq_self.2 fun a _ => by simp [Grows]

lemma rowsAfter_cursor (h : s.Lists rows) {after : Option κ} {as bs : List α} {a : α}
    (hsplit : s.rowsAfter rows after = as ++ a :: bs) : s.rowsAfter rows (some (s.cursor a)) = bs := by
  have hmem : a ∈ s.rowsAfter rows after := by simp [hsplit]
  have hgrows : Grows after (s.cursor a) := by simpa using (List.mem_filter.1 hmem).2
  have hagain : s.rowsAfter rows (some (s.cursor a)) =
      (s.rowsAfter rows after).filter fun b => Grows (some (s.cursor a)) (s.cursor b) := by
    rw [rowsAfter, rowsAfter, List.filter_filter]
    apply List.filter_congr
    intro b _
    by_cases hb : Grows (some (s.cursor a)) (s.cursor b)
    · simp [hb, hgrows.trans hb]
    · simp [hb]
  have hasc : (s.rowsAfter rows after).Pairwise fun a b => Cursor.word (s.cursor a) < Cursor.word (s.cursor b) :=
    h.ascending.filter _
  rw [hsplit] at hagain hasc
  obtain ⟨_, htail, hcross⟩ := List.pairwise_append.1 hasc
  obtain ⟨hlt, _⟩ := List.pairwise_cons.1 htail
  have hnot : ∀ b ∈ as ++ [a], ¬ Grows (some (s.cursor a)) (s.cursor b) := by
    intro b hb hg
    have hab := hg _ rfl
    rcases List.mem_append.1 hb with hb | hb
    · exact Int64.lt_irrefl (Int64.lt_trans hab (hcross b hb a List.mem_cons_self))
    · obtain rfl := by simpa using hb
      exact Int64.lt_irrefl hab
  rw [hagain, ← List.singleton_append, ← List.append_assoc, List.filter_append,
    List.filter_eq_nil_iff.2 (by simpa using hnot), List.nil_append]
  exact List.filter_eq_self.2 fun b hb => by simpa [Grows] using hlt b hb

lemma rowsAfter_suffix (h : s.Lists rows) {after after' : Option κ} (hle : ∀ c, Grows after' c → Grows after c) :
    s.rowsAfter rows after' <:+ s.rowsAfter rows after := by
  have hagain : s.rowsAfter rows after' =
      (s.rowsAfter rows after).filter fun b => Grows after' (s.cursor b) := by
    rw [rowsAfter, rowsAfter, List.filter_filter]
    apply List.filter_congr
    intro b _
    by_cases hb : Grows after' (s.cursor b)
    · simp [hb, hle _ hb]
    · simp [hb]
  have hasc : (s.rowsAfter rows after).Pairwise fun a b => Cursor.word (s.cursor a) < Cursor.word (s.cursor b) :=
    h.ascending.filter _
  rw [hagain]
  generalize s.rowsAfter rows after = bs at hasc
  clear hagain
  induction bs with
  | nil => exact List.suffix_refl _
  | cons b bs ih =>
    obtain ⟨hlt, hrest⟩ := List.pairwise_cons.1 hasc
    by_cases hb : Grows after' (s.cursor b)
    · have hall : ∀ d ∈ b :: bs, decide (Grows after' (s.cursor d)) = true := by
        refine List.forall_mem_cons.2 ⟨decide_eq_true hb, fun d hd => decide_eq_true fun c hc => ?_⟩
        exact Int64.lt_trans (hb c hc) (hlt d hd)
      exact ⟨[], List.filter_eq_self.2 hall⟩
    · rw [List.filter_cons_of_neg (by simpa using hb)]
      exact (ih hrest).trans (List.suffix_cons ..)

lemma page_eq (h : s.Lists rows) {limit : Nat} (hl : 0 < limit) (after : Option κ) :
    ∃ next, s.page limit after = .ok ⟨(s.rowsAfter rows after).take limit, next⟩ ∧
      match next with
      | none => (s.rowsAfter rows after).drop limit = []
      | some c => Grows after c ∧ s.rowsAfter rows (some c) = (s.rowsAfter rows after).drop limit := by
  have hne : limit ≠ 0 := by omega
  have hpage : s.page limit after = .ok ⟨(s.rowsAfter rows after).take limit,
      if ((s.rowsAfter rows after).take limit).length = limit then
        ((s.rowsAfter rows after).take limit).getLast?.map s.cursor
      else none⟩ := by
    simp only [page, hne, if_false, h.fetch_eq]
    rfl
  refine ⟨_, hpage, ?_⟩
  by_cases hlen : ((s.rowsAfter rows after).take limit).length = limit
  · obtain ⟨items, a, hitems⟩ := List.eq_nil_or_concat ((s.rowsAfter rows after).take limit) |>.resolve_left
      (by intro hnil; rw [hnil] at hlen; exact hne hlen.symm)
    rw [if_pos hlen, hitems]
    simp only [List.concat_eq_append, List.getLast?_append, List.getLast?_singleton, Option.some_or,
      Option.map_some]
    have hsplit : s.rowsAfter rows after = items ++ a :: (s.rowsAfter rows after).drop limit := by
      refine (List.take_append_drop limit _).symm.trans ?_
      rw [hitems]
      simp
    have hmem : a ∈ s.rowsAfter rows after := by rw [hsplit]; simp
    exact ⟨by simpa using (List.mem_filter.1 hmem).2, rowsAfter_cursor h hsplit⟩
  · rw [if_neg hlen]
    have hshort : (s.rowsAfter rows after).length < limit := by
      rw [List.length_take] at hlen
      omega
    exact List.drop_eq_nil_of_le (Nat.le_of_lt hshort)

lemma firstSome_append (f : α → Except Error (Option β)) (as bs : List α) :
    firstSome f (as ++ bs) =
      match firstSome f as with
      | .ok none => firstSome f bs
      | r => r := by
  induction as with
  | nil => rfl
  | cons a as ih =>
    simp only [List.cons_append, firstSome]
    cases f a with
    | error e => rfl
    | ok o =>
      cases o with
      | some b => rfl
      | none => exact ih

lemma search_eq (h : s.Lists rows) {limit : Nat} (hl : 0 < limit) (f : α → Except Error (Option β))
    (after : Option κ) : s.search limit f after = firstSome f (s.rowsAfter rows after) := by
  induction hn : remaining after using Nat.strongRecOn generalizing after with
  | ind n ih =>
    obtain ⟨next, hpage, hnext⟩ := page_eq h hl after
    have hfirst := firstSome_append f ((s.rowsAfter rows after).take limit) ((s.rowsAfter rows after).drop limit)
    rw [List.take_append_drop] at hfirst
    rw [search, hpage, hfirst]
    simp only
    cases firstSome f ((s.rowsAfter rows after).take limit) with
    | error e => rfl
    | ok o =>
      cases o with
      | some b => rfl
      | none =>
        cases next with
        | none =>
          simp only at hnext ⊢
          rw [hnext]
          rfl
        | some c =>
          obtain ⟨hgrows, hrest⟩ := hnext
          simp only [hgrows, ↓reduceDIte]
          rw [ih _ (hn ▸ remaining_lt_of_grows hgrows) (some c) rfl, hrest]

lemma exists_of_firstSome {f : α → Except Error (Option β)} {as : List α} {b : β}
    (h : firstSome f as = .ok (some b)) : ∃ a ∈ as, f a = .ok (some b) := by
  induction as with
  | nil => simp [firstSome] at h
  | cons a as ih =>
    simp only [firstSome] at h
    cases hf : f a with
    | error e => rw [hf] at h; cases h
    | ok o =>
      rw [hf] at h
      cases o with
      | some b' =>
        obtain rfl : b' = b := by cases h; rfl
        exact ⟨a, List.mem_cons_self, hf⟩
      | none =>
        obtain ⟨a', ha', hfa'⟩ := ih h
        exact ⟨a', List.mem_cons_of_mem _ ha', hfa'⟩

lemma exists_of_firstSome_error {f : α → Except Error (Option β)} {as : List α} {err : Error}
    (h : firstSome f as = .error err) : ∃ a ∈ as, f a = .error err := by
  induction as with
  | nil => cases h
  | cons a as ih =>
    simp only [firstSome] at h
    cases hf : f a with
    | error err' =>
      rw [hf] at h
      cases h
      exact ⟨a, List.mem_cons_self, hf⟩
    | ok o =>
      rw [hf] at h
      cases o with
      | some b => cases h
      | none =>
        obtain ⟨a', ha', hfa'⟩ := ih h
        exact ⟨a', List.mem_cons_of_mem _ ha', hfa'⟩

lemma firstSome_eq {f : α → Except Error (Option β)} {g : α → Option β} {as : List α}
    (hf : ∀ a ∈ as, f a = .ok (g a)) : firstSome f as = .ok (as.findSome? g) := by
  induction as with
  | nil => rfl
  | cons a as ih =>
    obtain ⟨ha, has⟩ := List.forall_mem_cons.1 hf
    rw [firstSome, ha, List.findSome?_cons]
    cases g a with
    | some b => rfl
    | none => exact ih has

lemma firstSome_isSome_iff {f : α → Except Error (Option β)} {g : α → Option β} (as : List α)
    (hf : ∀ a ∈ as, f a = .ok (g a)) :
    ∃ o, firstSome f as = .ok o ∧ (o.isSome ↔ ∃ a ∈ as, (g a).isSome) :=
  ⟨_, firstSome_eq hf, List.findSome?_isSome_iff⟩

lemma firstSome_filter (f : α → Except Error (Option β)) (p : α → Bool) (as : List α) :
    firstSome f (as.filter p) = firstSome (fun a => if p a then f a else .ok none) as := by
  induction as with
  | nil => rfl
  | cons a as ih =>
    rw [List.filter_cons, firstSome]
    cases p a with
    | true =>
      rw [if_pos rfl, if_pos rfl, firstSome, ih]
    | false => exact ih

end Source

end Chronicle
