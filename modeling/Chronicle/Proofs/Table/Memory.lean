import Chronicle.Delivery
import Chronicle.Proofs.OrderedMap.Scan
import Chronicle.Table.Memory

namespace Chronicle

lemma Identifier.compare_eq_lt_iff {x y : Identifier} : compare x y = .lt ↔ x < y :=
  Std.compare_eq_lt (α := Int64)

lemma isAfter_iff {after : Option Identifier} {id : Identifier} :
    isAfter after id = true ↔ ∀ cursor ∈ after, cursor < id := by
  cases after <;> simp [isAfter, Identifier.compare_eq_lt_iff]

lemma VersionKey.compare_mk (table : String) (id u v : Identifier) :
    compare (VersionKey.mk table id u) ⟨table, id, v⟩ = compare u v := by
  change (compare table table).then ((compare id id).then (compare u v)) = _
  rw [(Std.ReflCmp.compare_self : compare table table = .eq), (Std.ReflCmp.compare_self : compare id id = .eq)]
  rfl

lemma NamedKey.compare_mk {ν : Type} [Ord ν] (name value : String) (m n : ν) :
    compare (NamedKey.mk name value m) ⟨name, value, n⟩ = compare m n := by
  change (compare name name).then ((compare value value).then (compare m n)) = _
  rw [(Std.ReflCmp.compare_self : compare name name = .eq), (Std.ReflCmp.compare_self : compare value value = .eq)]
  rfl

lemma mem_distinctRuns {id : Identifier} {ids : List Identifier} : id ∈ distinctRuns ids ↔ id ∈ ids := by
  fun_induction distinctRuns ids with
  | case1 => rfl
  | case2 => rfl
  | case3 x rest ih =>
    rw [ih]
    simp
  | case4 x y rest hne ih => rw [List.mem_cons, ih, List.mem_cons (a := id) (l := y :: rest)]

lemma pairwise_distinctRuns {ids : List Identifier} (h : ids.Pairwise fun x y => x = y ∨ x < y) :
    (distinctRuns ids).Pairwise (· < ·) := by
  fun_induction distinctRuns ids with
  | case1 => exact .nil
  | case2 => exact List.pairwise_singleton ..
  | case3 x rest ih => exact ih (List.pairwise_cons.1 h).2
  | case4 x y rest hne ih =>
    obtain ⟨hx, hrest⟩ := List.pairwise_cons.1 h
    refine List.pairwise_cons.2 ⟨fun z hz => ?_, ih hrest⟩
    have hxy := (hx y List.mem_cons_self).resolve_left hne
    rcases List.mem_cons.1 (mem_distinctRuns.1 hz) with rfl | hz
    · exact hxy
    · rcases (List.pairwise_cons.1 hrest).1 z hz with rfl | hyz
      · exact hxy
      · exact Int64.lt_trans hxy hyz

lemma deliver_frame {σ τ : Type} [Tables σ] {f : σ → τ}
    (hwrite : ∀ {t t' : σ} {w : IndexWrite}, Tables.write t w = .ok t' → f t' = f t)
    (htogether : ∀ {t t' : σ} {ws : List IndexWrite}, Tables.writeTogether t ws = .ok t' → f t' = f t)
    (delivery : Delivery) (t : σ) (plan : WritePlan) : f (deliver delivery t plan).1 = f t := by
  have hrun (tasks : List (IndexWrite × Nat)) : ∀ (t : σ) met, f (runTasks t met tasks).1 = f t := by
    induction tasks with
    | nil => exact fun t met => rfl
    | cons task tasks ih =>
      intro t met
      rw [runTasks]
      split
      · next t' h => exact (ih t' _).trans (hwrite h)
      · exact ih t _
  cases delivery with
  | independent schedule => exact hrun _ t _
  | batched =>
    change f (deliverTogether t plan.indexWrites).1 = _
    rw [deliverTogether]
    split
    · next t' h => exact htogether h
    · rfl

def IndexEntry.key (entry : IndexEntry) : NamedKey Identifier := ⟨entry.index, entry.value, entry.place⟩

namespace MemoryTables

variable {t : MemoryTables} {table : String} {id : Identifier} {v : StoredVersion}

lemma mem_chain : v ∈ t.chain table id ↔ ∃ u, t.versions.get? ⟨table, id, u⟩ = some v := by
  simp only [chain, List.mem_map, OrderedMap.mem_scan, Bool.and_eq_true, beq_iff_eq]
  constructor
  · rintro ⟨⟨⟨_, _, u⟩, w⟩, ⟨he, rfl, rfl⟩, rfl⟩
    exact ⟨u, OrderedMap.get?_eq_some_iff.2 he⟩
  · rintro ⟨u, hu⟩
    exact ⟨(⟨table, id, u⟩, v), ⟨OrderedMap.get?_eq_some_iff.1 hu, rfl, rfl⟩, rfl⟩

lemma chain_eq_nil (h : ∀ u, t.versions.get? ⟨table, id, u⟩ = none) : t.chain table id = [] := by
  apply List.eq_nil_iff_forall_not_mem.2
  intro v hv
  obtain ⟨u, hu⟩ := mem_chain.1 hv
  rw [h u] at hu
  cases hu

lemma get?_put (k : VersionKey) :
    (t.put table v).versions.get? k = if k = ⟨table, v.id, v.update⟩ then some v else t.versions.get? k :=
  OrderedMap.get?_insert ..

lemma get?_dropChain (k : VersionKey) :
    (t.dropChain table id).versions.get? k =
      if k.table = table ∧ k.id = id then none else t.versions.get? k := by
  rw [dropChain, OrderedMap.get?_filter]
  split
  · next h => simp [h]
  · next h =>
    cases t.versions.get? k with
    | none => rfl
    | some w => simpa using Decidable.not_and_iff_not_or_not.1 h

lemma chain_put_self (h : ∀ u w, t.versions.get? ⟨table, v.id, u⟩ = some w → u < v.update) :
    (t.put table v).chain table v.id = t.chain table v.id ++ [v] := by
  rw [chain, put, OrderedMap.scan_insert_of_forall_lt (by simp), List.map_append]
  · rfl
  · rintro ⟨⟨table', id', u⟩, w⟩ he
    obtain ⟨hmem, hk⟩ := OrderedMap.mem_scan.1 he
    obtain ⟨rfl, rfl⟩ : table' = table ∧ id' = v.id := by simpa using hk
    rw [VersionKey.compare_mk, Identifier.compare_eq_lt_iff]
    exact h u w (OrderedMap.get?_eq_some_iff.2 hmem)

lemma chain_put_of_ne {id' : Identifier} (h : v.id ≠ id') : (t.put table v).chain table id' = t.chain table id' := by
  rw [chain, put, OrderedMap.scan_insert_of_not (by simp [h])]
  rfl

lemma chain_dropChain_self : (t.dropChain table id).chain table id = [] := by
  apply List.eq_nil_iff_forall_not_mem.2
  intro v hv
  obtain ⟨u, hu⟩ := mem_chain.1 hv
  rw [get?_dropChain] at hu
  simp at hu

lemma chain_dropChain_of_ne {id' : Identifier} (h : id ≠ id') :
    (t.dropChain table id).chain table id' = t.chain table id' := by
  rw [chain, dropChain, OrderedMap.scan_filter, List.filter_eq_self.2]
  · rfl
  · rintro ⟨⟨table', u⟩, w⟩ he
    obtain ⟨_, hk⟩ := OrderedMap.mem_scan.1 he
    have hid : u = id' := by simpa using (by simpa using hk : _ ∧ _).2
    simp [hid, Ne.symm h]

lemma last_of_getLast?_chain (h : (t.chain table id).getLast? = some v) :
    ∃ u, t.versions.get? ⟨table, id, u⟩ = some v ∧
      ∀ w x, t.versions.get? ⟨table, id, w⟩ = some x → w = u ∨ w < u := by
  rw [chain, List.getLast?_map] at h
  obtain ⟨⟨⟨table', id', u⟩, v'⟩, hlast, rfl⟩ := Option.map_eq_some_iff.1 h
  obtain ⟨hmem, hk⟩ := OrderedMap.mem_scan.1 (List.mem_of_getLast? hlast)
  obtain ⟨rfl, rfl⟩ : table' = table ∧ id' = id := by simpa using hk
  refine ⟨u, OrderedMap.get?_eq_some_iff.2 hmem, fun w x hw => ?_⟩
  obtain ⟨before, hsplit⟩ := List.getLast?_eq_some_iff.1 hlast
  have hasc := t.versions.pairwise_scan fun k => k.table == table' && k.id == id'
  have hw : (⟨table', id', w⟩, x) ∈ t.versions.scan fun k => k.table == table' && k.id == id' :=
    OrderedMap.mem_scan.2 ⟨OrderedMap.get?_eq_some_iff.1 hw, by simp⟩
  rw [hsplit] at hasc hw
  rcases List.mem_append.1 hw with hw | hw
  · have hlt := (List.pairwise_append.1 hasc).2.2 _ hw _ List.mem_cons_self
    rw [VersionKey.compare_mk, Identifier.compare_eq_lt_iff] at hlt
    exact .inr hlt
  · obtain ⟨rfl, _⟩ : w = u ∧ x = v' := by simpa using hw
    exact .inl rfl

lemma pairwise_chain_entries (t : MemoryTables) (table : String) (id : Identifier) :
    (t.versions.scan fun k => k.table == table && k.id == id).Pairwise fun a b => a.1.update < b.1.update := by
  refine (t.versions.pairwise_scan _).imp_of_mem fun {a b} ha hb hlt => ?_
  obtain ⟨⟨table₁, id₁, u⟩, v⟩ := a
  obtain ⟨⟨table₂, id₂, w⟩, x⟩ := b
  obtain ⟨rfl, rfl⟩ : table₁ = table ∧ id₁ = id := by simpa using (OrderedMap.mem_scan.1 ha).2
  obtain ⟨rfl, rfl⟩ : table₂ = table₁ ∧ id₂ = id₁ := by simpa using (OrderedMap.mem_scan.1 hb).2
  rwa [VersionKey.compare_mk, Identifier.compare_eq_lt_iff] at hlt

lemma chain_ne_nil_iff : t.chain table id ≠ [] ↔ ∃ u v, t.versions.get? ⟨table, id, u⟩ = some v := by
  constructor
  · intro hne
    obtain ⟨v, hv⟩ := List.exists_mem_of_ne_nil _ hne
    obtain ⟨u, hu⟩ := mem_chain.1 hv
    exact ⟨u, v, hu⟩
  · rintro ⟨u, v, hu⟩
    exact List.ne_nil_of_mem (mem_chain.2 ⟨u, hu⟩)

lemma mem_idsAfter {after : Option Identifier} :
    id ∈ t.idsAfter table after ↔ isAfter after id = true ∧ t.chain table id ≠ [] := by
  rw [chain_ne_nil_iff, idsAfter, mem_distinctRuns]
  simp only [List.mem_map, OrderedMap.mem_scan, Bool.and_eq_true, beq_iff_eq]
  constructor
  · rintro ⟨⟨⟨_, _, u⟩, v⟩, ⟨he, rfl, hafter⟩, rfl⟩
    exact ⟨hafter, u, v, OrderedMap.get?_eq_some_iff.2 he⟩
  · rintro ⟨hafter, u, v, hget⟩
    exact ⟨(⟨table, id, u⟩, v), ⟨OrderedMap.get?_eq_some_iff.1 hget, rfl, hafter⟩, rfl⟩

lemma pairwise_idsAfter (t : MemoryTables) (table : String) (after : Option Identifier) :
    (t.idsAfter table after).Pairwise (· < ·) := by
  refine pairwise_distinctRuns (List.pairwise_map.2 ((t.versions.pairwise_scan _).imp_of_mem fun {a b} ha hb hlt => ?_))
  obtain ⟨⟨table₁, x, u⟩, v⟩ := a
  obtain ⟨⟨table₂, y, w⟩, v'⟩ := b
  obtain ⟨rfl, _⟩ : table₁ = table ∧ _ := by simpa using (OrderedMap.mem_scan.1 ha).2
  obtain ⟨rfl, _⟩ : table₂ = table₁ ∧ _ := by simpa using (OrderedMap.mem_scan.1 hb).2
  change (compare table₂ table₂).then ((compare x y).then (compare u w)) = .lt at hlt
  rw [(Std.ReflCmp.compare_self : compare table₂ table₂ = .eq), Ordering.eq_then] at hlt
  rcases Ordering.then_eq_lt.1 hlt with hxy | ⟨hxy, _⟩
  · exact .inr (Identifier.compare_eq_lt_iff.1 hxy)
  · exact .inl (Std.LawfulEqOrd.eq_of_compare hxy)

@[simp]
lemma versions_write (w : IndexWrite) : (t.write w).versions = t.versions := by cases w <;> rfl

@[simp]
lemma versions_foldl_write (ws : List IndexWrite) : (ws.foldl write t).versions = t.versions := by
  induction ws generalizing t with
  | nil => rfl
  | cons w ws ih => rw [List.foldl_cons, ih, versions_write]

lemma get?_foldl_insert (entries : List IndexEntry) (expires : Option Int64) (hid : ∀ e ∈ entries, e.entity = id)
    (k : NamedKey Identifier) :
    ((entries.map fun e => .insert e expires).foldl write t).indexes.get? k =
      if k ∈ entries.map IndexEntry.key then some ⟨id, expires⟩ else t.indexes.get? k := by
  induction entries generalizing t with
  | nil => simp
  | cons e es ih =>
    have he : e.entity = id := hid e List.mem_cons_self
    have hkey : (t.write (.insert e expires)).indexes.get? k =
        if k = e.key then some ⟨id, expires⟩ else t.indexes.get? k := by
      simp only [write, he]
      exact OrderedMap.get?_insert ..
    rw [List.map_cons, List.foldl_cons, ih fun d hd => hid d (List.mem_cons_of_mem _ hd), hkey]
    by_cases hmem : k ∈ es.map IndexEntry.key <;> by_cases hk : k = e.key <;> simp_all

lemma get?_foldl_retract (entries : List IndexEntry) (k : NamedKey Identifier) :
    ((entries.map .retract).foldl write t).indexes.get? k =
      if k ∈ entries.map IndexEntry.key then none else t.indexes.get? k := by
  induction entries generalizing t with
  | nil => simp
  | cons e es ih =>
    have hkey : (t.write (.retract e)).indexes.get? k = if k = e.key then none else t.indexes.get? k :=
      OrderedMap.get?_erase ..
    rw [List.map_cons, List.foldl_cons, ih, hkey]
    by_cases hmem : k ∈ es.map IndexEntry.key <;> by_cases hk : k = e.key <;> simp_all

lemma indexes_foldl_increment (incs : List Increment) :
    ((incs.map .increment).foldl write t).indexes = t.indexes := by
  induction incs generalizing t with
  | nil => rfl
  | cons inc incs ih => rw [List.map_cons, List.foldl_cons, ih]; rfl

lemma write_ok {w : IndexWrite} {t' : MemoryTables} (h : Tables.write t w = .ok t') : t' = t.write w := by
  change (do w.check; return t.write w : Except Error MemoryTables) = .ok t' at h
  cases hc : w.check with
  | error e => rw [hc] at h; cases h
  | ok u => rw [hc] at h; cases h; rfl

lemma writeTogether_ok {ws : List IndexWrite} {t' : MemoryTables} (h : Tables.writeTogether t ws = .ok t') :
    t' = ws.foldl write t := by
  change (do ws.forM IndexWrite.check; return ws.foldl write t : Except Error MemoryTables) = .ok t' at h
  cases hc : ws.forM IndexWrite.check with
  | error e => rw [hc] at h; cases h
  | ok u => rw [hc] at h; cases h; rfl

lemma versions_deliver (delivery : Delivery) (plan : WritePlan) :
    (deliver delivery t plan).1.versions = t.versions := by
  refine deliver_frame (fun h => ?_) (fun h => ?_) delivery t plan
  · rw [write_ok h, versions_write]
  · rw [writeTogether_ok h, versions_foldl_write]

end MemoryTables

end Chronicle
