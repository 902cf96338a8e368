import Chronicle.Proofs.Table.Mirror

namespace Chronicle

section Named

variable {ν α : Type} [Ord ν] [Std.TransOrd ν] [Std.LawfulEqOrd ν] {word : ν → Int64}
  {hword : ∀ m n, word m = word n → m = n} {form : α → Bytes} {m : OrderedMap (NamedKey ν) α} {b : ByteMap}
  {name value : String}

lemma range_named (h : (Layout.named word hword form).Represents m b)
    (hcompare : ∀ m n, compare (word m) (word n) = compare m n) (hname : NulFree name) (hvalue : NulFree value)
    {x : Bytes} {p : ν → Bool}
    (hp : ∀ n, (compare x (Key.ordered (word n))).isLE = p n) :
    b.range (Key.texts [name, value] ++ x) (Key.pastPrefix (Key.texts [name, value])) =
      (m.scan fun k => k.name == name && k.value == value && p k.number).map fun e =>
        (Key.texts [name, value] ++ Key.ordered (word e.1.number), form e.2) := by
  have hscan := h.scan (p := fun k => k.name == name && k.value == value && p k.number)
    (q := fun k => (compare (Key.texts [name, value] ++ x) k).isLE &&
      compare k (Key.pastPrefix (Key.texts [name, value])) == .lt) ?_ ?_
  · refine hscan.trans (List.map_congr_left ?_)
    rintro ⟨⟨name', value', n⟩, a⟩ he
    obtain ⟨⟨rfl, rfl⟩, _⟩ : (name' = name ∧ value' = value) ∧ p n = true := by
      simpa using (OrderedMap.mem_scan.1 he).2
    rfl
  · rintro ⟨name', value', n⟩ ⟨hname', hvalue'⟩
    have hlength : [name, value].length = [name', value'].length := rfl
    have hnot := Key.not_continues_of_nulFree hlength (by simp [hname, hvalue])
    have hrange := Key.range_iff (show [name, value] ≠ [] by simp) hlength hnot (by simpa using ⟨hname', hvalue'⟩) x
      (Key.ordered (word n))
    rw [Bool.eq_iff_iff]
    simp only [Bool.and_eq_true, beq_iff_eq]
    refine hrange.trans ?_
    simp [hp, and_assoc]
  · rintro ⟨name', value', n⟩ ⟨name'', value'', n'⟩ hk hk' hlt
    obtain ⟨⟨rfl, rfl⟩, _⟩ : (name' = name ∧ value' = value) ∧ p n = true := by simpa using hk
    obtain ⟨⟨rfl, rfl⟩, _⟩ : (name'' = name' ∧ value'' = value') ∧ p n' = true := by simpa using hk'
    rw [NamedKey.compare_mk] at hlt
    change compare (Key.texts _ ++ _) (Key.texts _ ++ _) = _
    rw [Bytes.compare_append_left, Key.compare_ordered, hcompare, hlt]

lemma entriesAfter_eq (h : (Layout.named word hword form).Represents m b)
    (hcompare : ∀ m n, compare (word m) (word n) = compare m n) (hname : NulFree name) (hvalue : NulFree value)
    (after : Option ν) :
    KeyedTables.entriesAfter b (Key.texts [name, value]) (after.map word) =
      (m.scan fun k => k.name == name && k.value == value && isAfter after k.number).map fun e =>
        (Key.texts [name, value] ++ Key.ordered (word e.1.number), form e.2) := by
  cases after with
  | none =>
    have hrange := range_named h hcompare hname hvalue (x := []) (p := fun _ => true)
      fun n => List.isLE_compare_nil_left
    rw [List.append_nil] at hrange
    exact hrange
  | some a =>
    change (if word a = Int64.maxValue then [] else _) = _
    split
    · next hmax =>
      have hnone : ∀ n, isAfter (some a) n = false := by
        intro n
        rw [isAfter, beq_eq_false_iff_ne, ← hcompare, ne_eq, Std.compare_eq_lt, hmax, Int64.not_lt]
        exact Int64.le_maxValue _
      simp [hnone, OrderedMap.scan]
    · next hmax =>
      refine range_named h hcompare hname hvalue fun n => ?_
      rw [Bool.eq_iff_iff, Key.isLE_ordered_succ_iff hmax, isAfter, beq_iff_eq, ← hcompare, Std.compare_eq_lt]

end Named

def runsAfter : Option Identifier → List Identifier → List Identifier
  | none, ids => distinctRuns ids
  | some x, ids => (distinctRuns (x :: ids)).tail

lemma distinctRuns_cons (x : Identifier) (ids : List Identifier) :
    distinctRuns (x :: ids) = x :: runsAfter (some x) ids := by
  induction ids with
  | nil => rfl
  | cons y ids ih =>
    rw [runsAfter, distinctRuns]
    split
    · next heq => rw [← heq, ih, List.tail_cons]
    · rfl

lemma runsAfter_cons_self (x : Identifier) (ids : List Identifier) :
    runsAfter (some x) (x :: ids) = runsAfter (some x) ids := by
  rw [runsAfter, distinctRuns, if_pos rfl]
  rfl

lemma runsAfter_cons_of_ne {last : Option Identifier} {x : Identifier} (h : last ≠ some x) (ids : List Identifier) :
    runsAfter last (x :: ids) = x :: runsAfter (some x) ids := by
  cases last with
  | none => exact distinctRuns_cons x ids
  | some y =>
    have hne : y ≠ x := fun heq => h (congrArg some heq)
    rw [runsAfter, distinctRuns, if_neg hne, List.tail_cons, distinctRuns_cons]

lemma collectIds_eq {α : Type} {skipped : Nat} {key : α → Bytes} (id : α → Identifier) {as : List α}
    (h : ∀ a ∈ as, Key.readVersionId (key a) skipped = .ok (id a)) (last : Option Identifier) (limit : Nat) :
    KeyedTables.collectIds skipped last limit (as.map key) = .ok ((runsAfter last (as.map id)).take limit) := by
  induction as generalizing last limit with
  | nil => cases last <;> simp [KeyedTables.collectIds, runsAfter, distinctRuns]
  | cons a as ih =>
    have has := fun last => ih (fun a' ha' => h a' (List.mem_cons_of_mem _ ha')) last
    rw [List.map_cons, List.map_cons, KeyedTables.collectIds, h a List.mem_cons_self]
    change (if last = some (id a) then _ else _) = _
    split
    · next heq => rw [heq, runsAfter_cons_self, has]
    · next hne =>
      rw [runsAfter_cons_of_ne hne]
      cases limit with
      | zero => rfl
      | succ limit =>
        change (do return id a :: (← KeyedTables.collectIds skipped (some (id a)) limit (as.map key))) = _
        rw [has]
        rfl

namespace KeyedTables

lemma readVersionId_version (table : String) (id u : Identifier) :
    Key.readVersionId (Key.version table id u) (Key.tablePrefix table).length = .ok id := by
  rw [Key.readVersionId, if_pos (by simp [Key.version, Key.tablePrefix]), Key.version, Key.tablePrefix,
    List.append_assoc, List.drop_left, List.take_left' (Key.length_ordered _), Key.readOrdered_ordered]
  rfl

lemma readRef_index (index value : String) (place : Identifier) (cell : IndexCell) :
    readRef (Key.texts [index, value]).length (Key.index index value place, Codec.indexCell.encode cell) =
      .ok ⟨place, cell.entity⟩ := by
  change (do
    let place ← Key.readOrdered ((Key.texts [index, value] ++ Key.ordered place.raw).drop _)
    let cell ← Codec.readStored Codec.indexCell (Codec.indexCell.encode cell)
    return (⟨⟨place⟩, cell.entity⟩ : IndexRef)) = _
  rw [List.drop_left, Key.readOrdered_ordered, Codec.readStored, Codec.readsBack_indexCell.read? trivial]
  rfl

lemma readBucket_counter (counter key : String) (bucket : Int64) (count : UInt64) :
    readBucket (Key.texts [counter, key]).length (Key.counter counter key bucket, Codec.encodeCount count) =
      .ok (bucket, count) := by
  change (do
    let bucket ← Key.readOrdered ((Key.texts [counter, key] ++ Key.ordered bucket).drop _)
    let count ← Codec.readCount (Codec.encodeCount count)
    return (bucket, count)) = _
  rw [List.drop_left, Key.readOrdered_ordered, Codec.readCount_encodeCount]
  rfl

lemma exists_mem_range_of_mem_entriesAfter {m : ByteMap} {first : Bytes} {after : Option Int64} {e : Bytes × Bytes}
    (he : e ∈ entriesAfter m first after) : ∃ x, e ∈ m.range (first ++ x) (Key.pastPrefix first) := by
  unfold entriesAfter at he
  split at he
  · exact ⟨[], by rwa [List.append_nil]⟩
  · split at he
    · cases he
    · exact ⟨_, he⟩

variable {t : MemoryTables} {b : KeyedTables}

lemma countsAfter_eq (h : Layout.counters.Represents t.counters b.counters) {counter key : String}
    (hcounter : NulFree counter) (hkey : NulFree key) (after : Option Int64) (limit : Nat) :
    Tables.countsAfter b counter key after limit = Tables.countsAfter t counter key after limit := by
  change ((entriesAfter b.counters (Key.texts [counter, key]) after).take limit).mapM
    (readBucket (Key.texts [counter, key]).length) = .ok ((t.countsAfter counter key after).take limit)
  have hentries := entriesAfter_eq h (fun _ _ => rfl) hcounter hkey after
  rw [Option.map_id, id_eq] at hentries
  rw [hentries, ← List.map_take, List.mapM_map, MemoryTables.countsAfter, ← List.map_take]
  apply mapM_ok
  rintro ⟨k, count⟩ _
  exact readBucket_counter counter key k.number count

end KeyedTables

namespace Mirrors

open KeyedTables (readVersionId_version readRef_index)

variable {t : MemoryTables} {b : KeyedTables} {table : String}

lemma range_versions (h : Mirrors t b) (htable : NulFree table) {x : Bytes} {p : Identifier → Bool}
    (hp : ∀ id u : Identifier, (compare x (Key.ordered id.raw ++ Key.ordered u.raw)).isLE = p id) :
    b.versions.range (Key.tablePrefix table ++ x) (Key.pastPrefix (Key.tablePrefix table)) =
      (t.versions.scan fun k => k.table == table && p k.id).map fun e =>
        (Layout.versions.key e.1, Layout.versions.form e.2) := by
  apply h.versions.scan
  · rintro ⟨table', id, u⟩ hk
    have hlength : [table].length = [table'].length := rfl
    have hnot := Key.not_continues_of_nulFree hlength (by simpa using htable)
    have hrange := Key.range_iff (show [table] ≠ [] by simp) hlength hnot
      (by simpa using (Layout.valid_versions table' id u).1 hk) x (Key.ordered id.raw ++ Key.ordered u.raw)
    rw [← List.append_assoc (Key.texts [table'])] at hrange
    rw [Bool.eq_iff_iff]
    simp only [Bool.and_eq_true, beq_iff_eq]
    refine hrange.trans ?_
    simp [hp]
  · rintro ⟨table', id, u⟩ ⟨table'', id', u'⟩ hk hk' hlt
    obtain ⟨rfl, _⟩ : table' = table ∧ p id = true := by simpa using hk
    obtain ⟨rfl, _⟩ : table'' = table' ∧ p id' = true := by simpa using hk'
    rwa [Layout.compare_versions]

lemma versionKeysAfter_eq (h : Mirrors t b) (htable : NulFree table) (after : Option Identifier) :
    b.versionKeysAfter table after =
      (t.versions.scan fun k => k.table == table && isAfter after k.id).map fun e => Layout.versions.key e.1 := by
  have hkeys : ∀ x : Bytes, (∀ id u : Identifier,
      (compare x (Key.ordered id.raw ++ Key.ordered u.raw)).isLE = isAfter after id) →
      (b.versions.range (Key.tablePrefix table ++ x) (Key.pastPrefix (Key.tablePrefix table))).map (·.1) =
        (t.versions.scan fun k => k.table == table && isAfter after k.id).map fun e => Layout.versions.key e.1 := by
    intro x hx
    rw [h.range_versions htable hx, List.map_map]
    rfl
  cases after with
  | none =>
    have hnil := hkeys [] fun id u => List.isLE_compare_nil_left
    rw [List.append_nil] at hnil
    exact hnil
  | some a =>
    have hpast := hkeys (Key.ordered a.raw ++ List.replicate 9 0xFF) fun id u => by
      rw [Bool.eq_iff_iff, Key.isLE_pastEntity_iff, isAfter, beq_iff_eq, Identifier.compare_eq_lt_iff]
    rw [← List.append_assoc] at hpast
    exact hpast

lemma idsAfter_eq (h : Mirrors t b) (htable : NulFree table) (after : Option Identifier) (limit : Nat) :
    Tables.idsAfter b table after limit = Tables.idsAfter t table after limit := by
  change KeyedTables.collectIds _ none limit (b.versionKeysAfter table after) =
    .ok ((t.idsAfter table after).take limit)
  rw [h.versionKeysAfter_eq htable]
  refine collectIds_eq (fun e : VersionKey × StoredVersion => e.1.id) ?_ none limit
  rintro ⟨⟨table', id, u⟩, v⟩ he
  obtain ⟨rfl, _⟩ : table' = table ∧ isAfter after id = true := by simpa using (OrderedMap.mem_scan.1 he).2
  exact readVersionId_version table' id u

lemma refsAfter_eq (h : Mirrors t b) {index value : String} (hindex : NulFree index) (hvalue : NulFree value)
    (after : Option Identifier) (limit : Nat) :
    Tables.refsAfter b index value after limit = Tables.refsAfter t index value after limit := by
  change ((KeyedTables.entriesAfter b.indexes (Key.texts [index, value]) (after.map (·.raw))).take limit).mapM
    (KeyedTables.readRef (Key.texts [index, value]).length) = .ok ((t.refsAfter index value after).take limit)
  rw [entriesAfter_eq h.indexes (fun _ _ => rfl) hindex hvalue, ← List.map_take, List.mapM_map, MemoryTables.refsAfter,
    ← List.map_take]
  apply mapM_ok
  rintro ⟨k, cell⟩ _
  exact readRef_index index value k.number cell

end Mirrors

end Chronicle
