import Chronicle.Proofs.Paging.Listing

/-! Walks through a listing that may change from page to page. -/

namespace Chronicle.Source

variable {α κ : Type}

lemma length_of_page {s : Source α κ} {limit : Nat} {after : Option κ} {items : List α} {c : κ}
    (h : s.page limit after = .ok ⟨items, some c⟩) : items.length = limit := by
  unfold page at h
  split at h
  · cases h
  · cases hfetch : s.fetch after limit with
    | error err => rw [hfetch] at h; cases h
    | ok fetched =>
      rw [hfetch] at h
      obtain ⟨rfl, hnext⟩ := Page.mk.inj (Except.ok.inj h)
      split at hnext
      · assumption
      · cases hnext

/-- The pages from the `n`-th on, each read from its own source after the cursor that the page before has left, until
one leaves none. -/
inductive Walk (source : Nat → Source α κ) (limit : Nat) : Nat → Option κ → List (List α) → Prop where
  | last {n : Nat} {after : Option κ} {items : List α} (hpage : (source n).page limit after = .ok ⟨items, none⟩) :
      Walk source limit n after [items]
  | next {n : Nat} {after : Option κ} {items : List α} {c : κ} {pages : List (List α)}
      (hpage : (source n).page limit after = .ok ⟨items, some c⟩) (rest : Walk source limit (n + 1) (some c) pages) :
      Walk source limit n after (items :: pages)

lemma Walk.full {source : Nat → Source α κ} {limit n : Nat} {after : Option κ} {pages : List (List α)}
    (hw : Walk source limit n after pages) : ∀ page ∈ pages.dropLast, page.length = limit := by
  induction hw with
  | last => exact fun page hmem => nomatch hmem
  | next hpage rest ih =>
    rw [List.dropLast_cons_of_ne_nil (by cases rest <;> simp)]
    exact List.forall_mem_cons.2 ⟨length_of_page hpage, ih⟩

inductive Searches {β : Type} (s : Source α κ) (limit : Nat) (answer : List α → Except Error (Option β)) :
    Option κ → Except Error (Option β) → Prop where
  | refused {after : Option κ} {err : Error} (hpage : s.page limit after = .error err) :
      Searches s limit answer after (.error err)
  | failed {after : Option κ} {page : Page α κ} {err : Error} (hpage : s.page limit after = .ok page)
      (hanswer : answer page.items = .error err) : Searches s limit answer after (.error err)
  | found {after : Option κ} {page : Page α κ} {b : β} (hpage : s.page limit after = .ok page)
      (hanswer : answer page.items = .ok (some b)) : Searches s limit answer after (.ok (some b))
  | exhausted {after : Option κ} {items : List α} (hpage : s.page limit after = .ok ⟨items, none⟩)
      (hanswer : answer items = .ok none) : Searches s limit answer after (.ok none)
  | further {after : Option κ} {items : List α} {c : κ} {result : Except Error (Option β)}
      (hpage : s.page limit after = .ok ⟨items, some c⟩) (hanswer : answer items = .ok none)
      (rest : Searches s limit answer (some c) result) : Searches s limit answer after result

lemma Searches.unique {β : Type} {s : Source α κ} {limit : Nat} {answer : List α → Except Error (Option β)}
    {after : Option κ} {r r' : Except Error (Option β)} (h : s.Searches limit answer after r)
    (h' : s.Searches limit answer after r') : r = r' := by
  induction h with
  | refused | failed | found | exhausted => cases h' <;> grind
  | further _ _ _ ih => cases h' <;> grind

variable [Cursor κ] {s : Source α κ} {source : Nat → Source α κ} {cursor : α → κ} {limit n : Nat} {after : Option κ}
  {items : List α} {pages : List (List α)} {c : κ}

structure Ascends (cursor : α → κ) (after : Option κ) (items : List α) : Prop where
  pairwise : items.Pairwise fun a b => Cursor.word (cursor a) < Cursor.word (cursor b)
  grows : ∀ a ∈ items, Grows after (cursor a)

lemma Ascends.append {as bs : List α} (has : Ascends cursor after as) (hbs : Ascends cursor (some c) bs)
    (hc : Grows after c) (hle : ∀ a ∈ as, ¬ Grows (some c) (cursor a)) : Ascends cursor after (as ++ bs) where
  pairwise := by
    refine List.pairwise_append.2 ⟨has.pairwise, hbs.pairwise, fun a ha b hb => ?_⟩
    have hac : ¬ Cursor.word c < Cursor.word (cursor a) := by simpa [Grows] using hle a ha
    have hcb := hbs.grows b hb c rfl
    rw [Int64.lt_iff_toInt_lt] at hac hcb ⊢
    omega
  grows a ha := by
    rcases List.mem_append.1 ha with ha | ha
    · exact has.grows a ha
    · exact hc.trans (hbs.grows a ha)

lemma Ascends.countP_eq_one (h : Ascends cursor after items) {a : α} (ha : a ∈ items) :
    items.countP (fun b => Cursor.word (cursor b) = Cursor.word (cursor a)) = 1 := by
  obtain ⟨as, bs, rfl⟩ := List.append_of_mem ha
  obtain ⟨_, htail, hcross⟩ := List.pairwise_append.1 h.pairwise
  obtain ⟨hlt, _⟩ := List.pairwise_cons.1 htail
  have has : as.countP (fun b => Cursor.word (cursor b) = Cursor.word (cursor a)) = 0 := by
    refine List.countP_eq_zero.2 fun b hb => ?_
    have hba := hcross b hb a List.mem_cons_self
    simpa using (Int64.ne_of_lt hba)
  have hbs : bs.countP (fun b => Cursor.word (cursor b) = Cursor.word (cursor a)) = 0 := by
    refine List.countP_eq_zero.2 fun b hb => ?_
    simpa using (Int64.ne_of_lt (hlt b hb)).symm
  rw [List.countP_append, List.countP_cons_of_pos (by simp), has, hbs]

structure Lists.Yields (s : Source α κ) (rows : List α) (limit : Nat) (after : Option κ) (items : List α)
    (next : Option κ) : Prop where
  ascends : Ascends s.cursor after items
  length_le : items.length ≤ limit
  mem : ∀ a ∈ items, a ∈ rows
  grows : ∀ c ∈ next, Grows after c ∧ ∀ a ∈ items, ¬ Grows (some c) (s.cursor a)
  rest : s.rowsAfter rows after = items ++ next.elim [] fun c => s.rowsAfter rows (some c)

lemma Lists.of_page {rows : List α} (h : s.Lists rows) (hl : 0 < limit) {next : Option κ}
    (hpage : s.page limit after = .ok ⟨items, next⟩) : Lists.Yields s rows limit after items next := by
  obtain ⟨next', hpage', hnext⟩ := page_eq h hl after
  obtain ⟨rfl, rfl⟩ := Page.mk.inj (Except.ok.inj (hpage'.symm.trans hpage))
  have hasc : (s.rowsAfter rows after).Pairwise fun a b => Cursor.word (s.cursor a) < Cursor.word (s.cursor b) :=
    h.ascending.filter _
  have hmem : ∀ a ∈ (s.rowsAfter rows after).take limit, a ∈ rows ∧ Grows after (s.cursor a) := by
    intro a ha
    simpa [rowsAfter] using List.mem_of_mem_take ha
  refine ⟨⟨hasc.sublist (List.take_sublist ..), fun a ha => (hmem a ha).2⟩, List.length_take_le ..,
    fun a ha => (hmem a ha).1, ?_, ?_⟩
  · rintro c hc
    obtain rfl : next' = some c := hc
    refine ⟨hnext.1, fun a ha hgrows => ?_⟩
    -- such an item would stand among those that the page has left
    have hdrop : a ∈ (s.rowsAfter rows after).drop limit := by
      rw [← hnext.2]
      exact List.mem_filter.2 ⟨(hmem a ha).1, by simpa using hgrows⟩
    rw [← List.take_append_drop limit (s.rowsAfter rows after)] at hasc
    exact Int64.lt_irrefl ((List.pairwise_append.1 hasc).2.2 a ha a hdrop)
  · cases next' with
    | none => rw [Option.elim_none, ← show _ = [] from hnext, List.take_append_drop]
    | some c => rw [Option.elim_some, hnext.2, List.take_append_drop]

section

variable {rows : Nat → List α} (h : ∀ n, (source n).Lists (rows n)) (hl : 0 < limit)

include h hl

lemma exists_walk (n : Nat) (after : Option κ) : ∃ pages, Walk source limit n after pages := by
  induction hr : remaining after using Nat.strongRecOn generalizing n after with
  | ind r ih =>
    obtain ⟨next, hpage, hnext⟩ := page_eq (h n) hl after
    cases next with
    | none => exact ⟨_, .last hpage⟩
    | some c =>
      obtain ⟨pages, hwalk⟩ := ih _ (hr ▸ remaining_lt_of_grows hnext.1) (n + 1) (some c) rfl
      exact ⟨_, .next hpage hwalk⟩

lemma Walk.length_le (hw : Walk source limit n after pages) : ∀ page ∈ pages, page.length ≤ limit := by
  induction hw with
  | last hpage => exact fun page hmem => List.mem_singleton.1 hmem ▸ ((h _).of_page hl hpage).length_le
  | next hpage _ ih => exact List.forall_mem_cons.2 ⟨((h _).of_page hl hpage).length_le, ih⟩

lemma Walk.mem_rows (hw : Walk source limit n after pages) {i : Nat} {page : List α} (hi : pages[i]? = some page) :
    ∀ a ∈ page, a ∈ rows (n + i) := by
  induction hw generalizing i with
  | last hpage =>
    cases i with
    | zero => exact Option.some.inj hi ▸ ((h _).of_page hl hpage).mem
    | succ i => cases hi
  | @next n _ _ _ _ hpage _ ih =>
    cases i with
    | zero => exact Option.some.inj hi ▸ ((h _).of_page hl hpage).mem
    | succ i =>
      exact Nat.add_right_comm n 1 i ▸ ih hi

variable (hcursor : ∀ n, (source n).cursor = cursor)

include hcursor

lemma Walk.ascends (hw : Walk source limit n after pages) : Ascends cursor after pages.flatten := by
  induction hw with
  | last hpage =>
    rw [List.flatten_singleton, ← hcursor]
    exact ((h _).of_page hl hpage).ascends
  | next hpage _ ih =>
    have hyields := (h _).of_page hl hpage
    obtain ⟨hgrows, hle⟩ := hyields.grows _ rfl
    have hascends := hyields.ascends
    rw [hcursor] at hle hascends
    exact hascends.append ih hgrows hle

lemma Walk.exists_of_present (hw : Walk source limit n after pages) (hc : Grows after c)
    (hpresent : ∀ i < pages.length, ∃ a ∈ rows (n + i), cursor a = c) : ∃ a ∈ pages.flatten, cursor a = c := by
  induction hw with
  | @last n after items hpage =>
    obtain ⟨a, ha, rfl⟩ := hpresent 0 (by simp)
    have hmem : a ∈ (source n).rowsAfter (rows n) after := List.mem_filter.2 ⟨ha, by simpa [hcursor] using hc⟩
    rw [((h n).of_page hl hpage).rest] at hmem
    exact ⟨a, by simpa using hmem, rfl⟩
  | @next n after items d pages hpage _ ih =>
    obtain ⟨a, ha, rfl⟩ := hpresent 0 (by simp)
    have hmem : a ∈ (source n).rowsAfter (rows n) after := List.mem_filter.2 ⟨ha, by simpa [hcursor] using hc⟩
    rw [((h n).of_page hl hpage).rest] at hmem
    rcases List.mem_append.1 hmem with hmem | hmem
    · exact ⟨a, List.mem_append_left _ hmem, rfl⟩
    · have hgrows : Grows (some d) (cursor a) := by simpa [hcursor] using (List.mem_filter.1 hmem).2
      have hlater : ∀ i < pages.length, ∃ b ∈ rows (n + 1 + i), cursor b = cursor a := by
        intro i hi
        rw [Nat.add_right_comm]
        exact hpresent (i + 1) (Nat.succ_lt_succ hi)
      obtain ⟨b, hb, hcb⟩ := ih hgrows hlater
      exact ⟨b, List.mem_append_right _ hb, hcb⟩

end

section

variable {rows : List α} (h : s.Lists rows) (hl : 0 < limit)

include h hl

lemma Walk.flatten_eq (hw : Walk (fun _ => s) limit n after pages) : pages.flatten = s.rowsAfter rows after := by
  induction hw with
  | last hpage =>
    rw [(h.of_page hl hpage).rest]
    rfl
  | next hpage _ ih =>
    rw [(h.of_page hl hpage).rest, List.flatten_cons, ih]
    rfl

lemma Lists.pages_eq (after : Option κ) : ∃ pages : List (List α), s.pages limit after = pages.map .ok ∧
    pages.flatten = s.rowsAfter rows after ∧ (∀ page ∈ pages, page ≠ [] ∧ page.length ≤ limit) ∧
    ∀ page ∈ pages.dropLast, page.length = limit := by
  induction hr : remaining after using Nat.strongRecOn generalizing after with
  | ind r ih =>
    obtain ⟨next, hpage, _⟩ := page_eq h hl after
    have hyields := h.of_page hl hpage
    generalize (s.rowsAfter rows after).take limit = items at hpage hyields
    have hrest := hyields.rest
    rw [Source.pages, hpage]
    simp only
    cases next with
    | none =>
      rw [Option.elim_none, List.append_nil] at hrest
      cases items with
      | nil => exact ⟨[], rfl, hrest.symm, by simp, by simp⟩
      | cons a items =>
        exact ⟨[a :: items], rfl, by rw [hrest, List.flatten_singleton], by simpa using hyields.length_le, by simp⟩
    | some c =>
      have hlength := length_of_page hpage
      obtain ⟨hgrows, _⟩ := hyields.grows c rfl
      obtain ⟨pages, heq, hflatten, hfull, hlast⟩ := ih _ (hr ▸ remaining_lt_of_grows hgrows) (some c) rfl
      have hne : items ≠ [] := by
        rintro rfl
        simp at hlength
        omega
      refine ⟨items :: pages, ?_, ?_, List.forall_mem_cons.2 ⟨⟨hne, Nat.le_of_eq hlength⟩, hfull⟩, ?_⟩
      · simp [hne, hgrows, heq]
      · rw [List.flatten_cons, hflatten, hrest]
        rfl
      · cases pages with
        | nil => simp
        | cons page pages =>
          rw [List.dropLast_cons_cons]
          exact List.forall_mem_cons.2 ⟨hlength, hlast⟩

lemma Lists.searches {β : Type} (f : α → Except Error (Option β)) (after : Option κ) :
    s.Searches limit (firstSome f) after (s.search limit f after) := by
  induction hr : remaining after using Nat.strongRecOn generalizing after with
  | ind r ih =>
    obtain ⟨next, hpage, hnext⟩ := page_eq h hl after
    rw [search, hpage]
    simp only
    cases hfirst : firstSome f ((s.rowsAfter rows after).take limit) with
    | error err => exact .failed hpage hfirst
    | ok o =>
      cases o with
      | some b => exact .found hpage hfirst
      | none =>
        cases next with
        | none => exact .exhausted hpage hfirst
        | some c =>
          obtain ⟨hgrows, _⟩ := hnext
          simp only [hgrows, ↓reduceDIte]
          exact .further hpage hfirst (ih _ (hr ▸ remaining_lt_of_grows hgrows) (some c) rfl)

end

end Chronicle.Source
