import Chronicle.Proofs.Paging.Walk
import Chronicle.Proofs.Store.Starts
import Chronicle.Proofs.Table.Listings

namespace Chronicle.Collection

variable {ε : Type} [Entity ε] {c : Collection ε} {t : MemoryTables} {found : Identifier → Option ε}
  {after : Option Identifier} {limit : Nat}

inductive ListWalk (list : Option Identifier → Except Error (List ε)) (limit : Nat) :
    Option Identifier → List (List ε) → Prop where
  | last {after : Option Identifier} {page : List ε} (hpage : list after = .ok page) (hshort : page.length < limit) :
      ListWalk list limit after [page]
  | next {after : Option Identifier} {page : List ε} {e : ε} {pages : List (List ε)} (hpage : list after = .ok page)
      (hfull : page.length = limit) (hlast : page.getLast? = some e) (rest : ListWalk list limit (Entity.id e) pages) :
      ListWalk list limit after (page :: pages)

structure ListsLive (c : Collection ε) (t : MemoryTables) (found : Identifier → Option ε) (after : Option Identifier)
    (live : List Identifier) : Prop where
  ascending : live.Pairwise (· < ·)
  mem_iff : ∀ id, id ∈ live ↔ (∀ cursor ∈ after, cursor < id) ∧ (found id).isSome
  page : ∀ limit, limit ≠ 0 → ∃ es, c.list t after limit = .ok es ∧ es.map some = (live.take limit).map found ∧
    ∀ ids, ids.Perm (live.take limit) → c.currentMany t ids idLe = .ok es
  ends : ∀ limit, limit ≠ 0 → ∃ pages, ListWalk (c.list t · limit) limit after pages
  walk : ∀ limit pages, limit ≠ 0 → ListWalk (c.list t · limit) limit after pages →
    pages.flatten.map some = live.map found

structure ReadsMany (c : Collection ε) (t : MemoryTables) (found : Identifier → Option ε) : Prop where
  current : ∀ id, c.current t id = .ok (found id)
  latest : ∀ id, ∀ e ∈ found id, ∃ u, c.IsLatest t id e u
  missing : ∀ id, found id = none ↔ ∀ u, t.versions.get? ⟨c.table, id, u⟩ = none
  list : ∀ after, ∃ live, c.ListsLive t found after live
  currentMany : ∀ ids ids' le, ids'.Perm ids → ∃ es, c.currentMany t ids' le = .ok es ∧ es.Perm (ids.filterMap found) ∧
    ((∀ a b d, le a b → le b d → le a d) → (∀ a b, le a b || le b a) → es.Pairwise fun a b => le a b)

omit [Entity ε] in
lemma map_some_filterMap {ids : List Identifier} (h : ∀ id ∈ ids, (found id).isSome) :
    (ids.filterMap found).map some = ids.map found := by
  induction ids with
  | nil => rfl
  | cons id ids ih =>
    obtain ⟨hid, hids⟩ := List.forall_mem_cons.1 h
    obtain ⟨e, he⟩ := Option.isSome_iff_exists.1 hid
    rw [List.filterMap_cons_some he, List.map_cons, ih hids, List.map_cons, he]

lemma idLe_eq {a b : ε} {x y : Identifier} (ha : Entity.id a = some x) (hb : Entity.id b = some y) :
    idLe a b = decide (x ≤ y) := by
  rw [idLe, ha, hb]

lemma idLe_trans (a b d : ε) (hab : idLe a b = true) (hbd : idLe b d = true) : idLe a d = true := by
  cases ha : Entity.id a with
  | none => rw [idLe, ha]
  | some x =>
    cases hb : Entity.id b with
    | none => simp [idLe, ha, hb] at hab
    | some y =>
      cases hd : Entity.id d with
      | none => simp [idLe, hb, hd] at hbd
      | some z =>
        rw [idLe_eq ha hb, decide_eq_true_eq] at hab
        rw [idLe_eq hb hd, decide_eq_true_eq] at hbd
        rw [idLe_eq ha hd, decide_eq_true_eq]
        exact Int64.le_trans hab hbd

lemma idLe_total (a b : ε) : (idLe a b || idLe b a) = true := by
  cases ha : Entity.id a with
  | none => simp [idLe, ha]
  | some x =>
    cases hb : Entity.id b with
    | none => simp [idLe, hb]
    | some y =>
      rw [idLe_eq ha hb, idLe_eq hb ha, Bool.or_eq_true, decide_eq_true_eq, decide_eq_true_eq]
      exact Int64.le_total x.raw y.raw

lemma mergeSort_idLe {ids ids' : List Identifier} (hown : ∀ id, ∀ e ∈ found id, Entity.id e = some id)
    (hasc : ids.Pairwise (· < ·)) (hperm : ids'.Perm ids) :
    (ids'.filterMap found).mergeSort idLe = ids.filterMap found := by
  have hsame (a b : ε) (ha : a ∈ (ids'.filterMap found).mergeSort idLe) (hb : b ∈ ids.filterMap found)
      (hab : idLe a b = true) (hba : idLe b a = true) : a = b := by
    obtain ⟨x, _, hx⟩ := List.mem_filterMap.1 (List.mem_mergeSort.1 ha)
    obtain ⟨y, _, hy⟩ := List.mem_filterMap.1 hb
    rw [idLe_eq (hown x a hx) (hown y b hy), decide_eq_true_eq] at hab
    rw [idLe_eq (hown y b hy) (hown x a hx), decide_eq_true_eq] at hba
    obtain rfl : x = y := congrArg Identifier.mk (Int64.le_antisymm hab hba)
    exact Option.some.inj (hx.symm.trans hy)
  have hids : (ids.filterMap found).Pairwise fun a b => idLe a b = true := by
    refine List.pairwise_filterMap.2 (hasc.imp fun {x y} hlt a ha b hb => ?_)
    rw [idLe_eq (hown x a ha) (hown y b hb), decide_eq_true_eq]
    exact Int64.le_of_lt hlt
  exact ((List.mergeSort_perm ..).trans (hperm.filterMap found)).eq_of_pairwise hsame
    (List.pairwise_mergeSort idLe_trans idLe_total _) hids

section

variable (hcurrent : ∀ id, c.current t id = .ok (found id))

include hcurrent

lemma currentMany_eq (ids : List Identifier) (le : ε → ε → Bool) :
    c.currentMany t ids le = .ok ((ids.filterMap found).mergeSort le) := by
  rw [currentMany, mapM_ok fun id _ => hcurrent id]
  change Except.ok (((ids.map found).filterMap id).mergeSort le) = _
  rw [List.filterMap_map]
  rfl

lemma found_eq_none_iff (id : Identifier) : found id = none ↔ ∀ u, t.versions.get? ⟨c.table, id, u⟩ = none := by
  rw [← current_eq_none_iff, hcurrent, Except.ok.injEq]

lemma mem_idsAfter_iff (id : Identifier) :
    id ∈ t.idsAfter c.table after ↔ (∀ cursor ∈ after, cursor < id) ∧ (found id).isSome := by
  rw [MemoryTables.mem_idsAfter, isAfter_iff, MemoryTables.chain_ne_nil_iff, ← Option.ne_none_iff_isSome, Ne,
    found_eq_none_iff hcurrent]
  simp only [not_forall, ← Option.ne_none_iff_exists', ne_eq]

variable (hown : ∀ id, ∀ e ∈ found id, Entity.id e = some id)

include hown

lemma currentMany_take (limit : Nat) {ids : List Identifier} (h : ids.Perm ((t.idsAfter c.table after).take limit)) :
    c.currentMany t ids idLe = .ok (((t.idsAfter c.table after).take limit).filterMap found) := by
  rw [currentMany_eq hcurrent, mergeSort_idLe hown ((t.pairwise_idsAfter c.table after).sublist (List.take_sublist ..)) h]

lemma list_eq (hlimit : limit ≠ 0) (after : Option Identifier) :
    c.list t after limit = .ok (((t.idsAfter c.table after).take limit).filterMap found) := by
  rw [list, ids_eq c t after hlimit]
  exact currentMany_take hcurrent hown limit (.refl _)

lemma exists_idPage (hlimit : limit ≠ 0) (after : Option Identifier) :
    ∃ ids next page, (Source.ofTable t c.table).page limit after = .ok ⟨ids, next⟩ ∧ c.list t after limit = .ok page ∧
      page.map some = ids.map found ∧ (page.length < limit ∧ next = none ∨
        ∃ e id, page.length = limit ∧ page.getLast? = some e ∧ Entity.id e = some id ∧ next = some id) := by
  have hpage : (Source.ofTable t c.table).page limit after = .ok ⟨(t.idsAfter c.table after).take limit,
      if ((t.idsAfter c.table after).take limit).length = limit then
        ((t.idsAfter c.table after).take limit).getLast?
      else none⟩ := by
    simp only [Source.page, hlimit, if_false]
    change Except.ok (Page.mk _ _) = _
    simp [Source.ofTable]
  have hmap : (((t.idsAfter c.table after).take limit).filterMap found).map some =
      ((t.idsAfter c.table after).take limit).map found :=
    map_some_filterMap fun id hid => ((mem_idsAfter_iff hcurrent id).1 (List.mem_of_mem_take hid)).2
  have hle : ((t.idsAfter c.table after).take limit).length ≤ limit := List.length_take_le ..
  refine ⟨_, _, _, hpage, list_eq hcurrent hown hlimit after, hmap, ?_⟩
  generalize (t.idsAfter c.table after).take limit = ids at *
  have hlength : (ids.filterMap found).length = ids.length := by simpa using congrArg List.length hmap
  rw [hlength]
  by_cases hfull : ids.length = limit
  · obtain ⟨before, id, rfl⟩ := List.eq_nil_or_concat ids |>.resolve_left
      (by rintro rfl; exact hlimit hfull.symm)
    have hlast := congrArg List.getLast? hmap
    rw [List.concat_eq_append, List.getLast?_map, List.getLast?_map, List.getLast?_concat] at hlast
    obtain ⟨e, he, hfound⟩ := Option.map_eq_some_iff.1 hlast
    refine .inr ⟨e, id, hfull, ?_, hown id e hfound.symm, ?_⟩
    · rw [List.concat_eq_append, he]
    · rw [if_pos hfull, List.concat_eq_append, List.getLast?_concat]
  · exact .inl ⟨by omega, if_neg hfull⟩

lemma ListWalk.exists_idPages {pages : List (List ε)} (hlimit : limit ≠ 0)
    (hw : ListWalk (c.list t · limit) limit after pages) (n : Nat) :
    ∃ idPages, Source.Walk (fun _ => Source.ofTable t c.table) limit n after idPages ∧
      pages.flatten.map some = idPages.flatten.map found := by
  induction hw generalizing n with
  | @last after page hlist hshort =>
    obtain ⟨ids, next, page', hpage, hlist', hmap, hnext⟩ := exists_idPage hcurrent hown hlimit after
    obtain rfl := Except.ok.inj (hlist.symm.trans hlist')
    rcases hnext with ⟨_, rfl⟩ | ⟨_, _, hfull, _⟩
    · exact ⟨[ids], .last hpage, by simpa using hmap⟩
    · exact absurd hfull (Nat.ne_of_lt hshort)
  | @next after page e pages hlist hfull hlast _ ih =>
    obtain ⟨ids, next, page', hpage, hlist', hmap, hnext⟩ := exists_idPage hcurrent hown hlimit after
    obtain rfl := Except.ok.inj (hlist.symm.trans hlist')
    rcases hnext with ⟨hshort, _⟩ | ⟨e', id, _, hlast', hid, rfl⟩
    · exact absurd hfull (Nat.ne_of_lt hshort)
    · obtain rfl := Option.some.inj (hlast.symm.trans hlast')
      obtain ⟨idPages, hwalk, hrest⟩ := ih (n + 1)
      refine ⟨ids :: idPages, .next hpage (hid ▸ hwalk), ?_⟩
      rw [List.flatten_cons, List.flatten_cons, List.map_append, List.map_append, hmap, hrest]

lemma exists_listWalk {n : Nat} {idPages : List (List Identifier)} (hlimit : limit ≠ 0)
    (hw : Source.Walk (fun _ => Source.ofTable t c.table) limit n after idPages) :
    ∃ pages, ListWalk (c.list t · limit) limit after pages := by
  induction hw with
  | @last n after items hpage =>
    obtain ⟨ids, next, page, hpage', hlist, _, hnext⟩ := exists_idPage hcurrent hown hlimit after
    obtain ⟨rfl, rfl⟩ := Page.mk.inj (Except.ok.inj (hpage.symm.trans hpage'))
    rcases hnext with ⟨hshort, _⟩ | ⟨_, _, _, _, _, hsome⟩
    · exact ⟨[page], .last hlist hshort⟩
    · cases hsome
  | @next n after items id idPages hpage _ ih =>
    obtain ⟨ids, next, page, hpage', hlist, _, hnext⟩ := exists_idPage hcurrent hown hlimit after
    obtain ⟨rfl, rfl⟩ := Page.mk.inj (Except.ok.inj (hpage.symm.trans hpage'))
    obtain ⟨pages, hrest⟩ := ih
    rcases hnext with ⟨_, hnone⟩ | ⟨e, id', hfull, hlast, hid, hsome⟩
    · cases hnone
    · obtain rfl := Option.some.inj hsome
      exact ⟨page :: pages, .next hlist hfull hlast (hid ▸ hrest)⟩

lemma listsLive (after : Option Identifier) : c.ListsLive t found after (t.idsAfter c.table after) where
  ascending := t.pairwise_idsAfter c.table after
  mem_iff := mem_idsAfter_iff hcurrent
  page limit hlimit :=
    ⟨_, list_eq hcurrent hown hlimit after,
      map_some_filterMap fun id hid => ((mem_idsAfter_iff hcurrent id).1 (List.mem_of_mem_take hid)).2,
      fun _ => currentMany_take hcurrent hown limit⟩
  ends limit hlimit := by
    obtain ⟨idPages, hwalk⟩ := Source.exists_walk (fun _ => t.lists_ofTable c.table) (Nat.pos_of_ne_zero hlimit) 0 after
    exact exists_listWalk hcurrent hown hlimit hwalk
  walk limit pages hlimit hw := by
    obtain ⟨idPages, hwalk, hmap⟩ := hw.exists_idPages hcurrent hown hlimit 0
    rw [hmap, hwalk.flatten_eq (t.lists_ofTable c.table) (Nat.pos_of_ne_zero hlimit), t.rowsAfter_ofTable]

end

lemma RowsRead.readsMany (h : c.RowsRead t) : ∃ found, c.ReadsMany t found := by
  choose found hcurrent hlatest using h.current_ok
  have hown (id : Identifier) (e : ε) (he : e ∈ found id) : Entity.id e = some id := by
    obtain ⟨u, hu⟩ := hlatest id e he
    obtain ⟨v, _, hv⟩ := hu.stored
    exact hv.entity_id
  refine ⟨found, hcurrent, hlatest, found_eq_none_iff hcurrent, fun after => ⟨_, listsLive hcurrent hown after⟩,
    fun ids ids' le hperm => ⟨_, currentMany_eq hcurrent ids' le, ?_, fun htrans htotal => ?_⟩⟩
  · exact (List.mergeSort_perm ..).trans (hperm.filterMap found)
  · exact List.pairwise_mergeSort htrans htotal _

end Chronicle.Collection

namespace Chronicle.Store

variable {ε γ : Type} [Entity ε] [LawfulEntity ε] [Clock γ] {c : Collection ε} {start s : Store MemoryTables γ}
  {log : List (Call ε MemoryTables γ)}

lemma DriftRun.table_eq (h : DriftRun c SameVersions start log s) (hs : start.tables = .empty) (hf : EntitiesFit log) :
    ∀ k v, s.tables.versions.get? k = some v → k.table = c.table := by
  induction h with
  | start =>
    rw [hs]
    intro _ _ hget
    cases hget
  | @call log s tables h drifts clock request ih =>
    have hih := ih fun y hy => hf y (List.mem_cons_of_mem _ hy)
    rw [← show tables.versions = s.tables.versions from drifts] at hih
    intro k v hget
    rcases (Call.step c ⟨{ s with clock, tables }, request⟩).versions (hf _ List.mem_cons_self) with
      heq | ⟨w, e, _, heq, _⟩ | ⟨id, heq⟩
    · exact hih k v (heq ▸ hget)
    · rw [heq, MemoryTables.get?_put] at hget
      split at hget
      · next hk => rw [hk]
      · exact hih k v hget
    · rw [heq, MemoryTables.get?_dropChain] at hget
      split at hget
      · cases hget
      · exact hih k v hget

end Chronicle.Store
