import Mathlib.Data.List.Sort
import Chronicle.Proofs.Paging.Listing
import Chronicle.Proofs.Table.Memory

namespace Chronicle

lemma isAfter_iff_grows {ν : Type} [Ord ν] [Cursor ν]
    (hcompare : ∀ m n : ν, compare m n = .lt ↔ Cursor.word m < Cursor.word n) (after : Option ν) (n : ν) :
    isAfter after n = decide (Grows after n) := by
  cases after with
  | none => simp [isAfter, Grows]
  | some c =>
    rw [Bool.eq_iff_iff, isAfter, beq_iff_eq, hcompare, decide_eq_true_eq]
    simp [Grows]

lemma Identifier.compare_eq_lt_iff_word (x y : Identifier) : compare x y = .lt ↔ Cursor.word x < Cursor.word y :=
  Identifier.compare_eq_lt_iff

section

variable {ν α β : Type} [Ord ν] [Cursor ν] {m : OrderedMap (NamedKey ν) α} {name value : String}

lemma lists_named (hcompare : ∀ m n : ν, compare m n = .lt ↔ Cursor.word m < Cursor.word n) (s : Source β ν)
    (row : NamedKey ν × α → β) (hcursor : ∀ e, s.cursor (row e) = e.1.number)
    (hfetch : ∀ after limit, s.fetch after limit = .ok
      (((m.scan fun k => k.name == name && k.value == value && isAfter after k.number).map row).take limit)) :
    s.Lists ((m.scan fun k => k.name == name && k.value == value && isAfter none k.number).map row) where
  ascending := by
    rw [List.pairwise_map]
    refine (m.pairwise_scan _).imp_of_mem fun {a b} ha hb hab => ?_
    obtain ⟨⟨name', value', n⟩, _⟩ := a
    obtain ⟨⟨name'', value'', n'⟩, _⟩ := b
    obtain ⟨⟨rfl, rfl⟩, _⟩ : (name' = name ∧ value' = value) ∧ _ := by simpa using (OrderedMap.mem_scan.1 ha).2
    obtain ⟨⟨rfl, rfl⟩, _⟩ : (name'' = name' ∧ value'' = value') ∧ _ := by simpa using (OrderedMap.mem_scan.1 hb).2
    rw [NamedKey.compare_mk, hcompare] at hab
    rwa [hcursor, hcursor]
  fetch_eq after limit := by
    rw [hfetch]
    congr 2
    simp only [Source.rowsAfter, List.filter_map, OrderedMap.scan, List.filter_filter]
    congr 1
    apply List.filter_congr
    intro e _
    simp only [isAfter_iff_grows hcompare, Function.comp_apply, hcursor]
    simp [Grows, Bool.and_comm]

end

namespace MemoryTables

variable {t : MemoryTables} {index value counter key table : String}

lemma mem_refsAfter {ref : IndexRef} :
    ref ∈ t.refsAfter index value none ↔
      ∃ expires, t.indexes.get? ⟨index, value, ref.place⟩ = some ⟨ref.entity, expires⟩ := by
  simp only [refsAfter, List.mem_map, OrderedMap.mem_scan, Bool.and_eq_true, beq_iff_eq]
  constructor
  · rintro ⟨⟨⟨_, _, place⟩, ⟨entity, expires⟩⟩, ⟨he, ⟨rfl, rfl⟩, _⟩, rfl⟩
    exact ⟨expires, OrderedMap.get?_eq_some_iff.2 he⟩
  · rintro ⟨expires, hget⟩
    exact ⟨_, ⟨OrderedMap.get?_eq_some_iff.1 hget, ⟨rfl, rfl⟩, rfl⟩, rfl⟩

lemma mem_countsAfter {bucket : Int64} {count : UInt64} :
    (bucket, count) ∈ t.countsAfter counter key none ↔ t.counters.get? ⟨counter, key, bucket⟩ = some count := by
  simp only [countsAfter, List.mem_map, OrderedMap.mem_scan, Bool.and_eq_true, beq_iff_eq]
  constructor
  · rintro ⟨⟨⟨_, _, n⟩, m⟩, ⟨he, ⟨rfl, rfl⟩, _⟩, heq⟩
    obtain ⟨rfl, rfl⟩ := Prod.mk.inj heq
    exact OrderedMap.get?_eq_some_iff.2 he
  · intro hget
    exact ⟨_, ⟨OrderedMap.get?_eq_some_iff.1 hget, ⟨rfl, rfl⟩, rfl⟩, rfl⟩

lemma mem_idsAfter_none {id : Identifier} :
    id ∈ t.idsAfter table none ↔ ∃ u v, t.versions.get? ⟨table, id, u⟩ = some v := by
  rw [mem_idsAfter, chain_ne_nil_iff]
  exact and_iff_right rfl

lemma lists_ofIndex (t : MemoryTables) (index value : String) :
    (Source.ofIndex t index value).Lists (t.refsAfter index value none) :=
  lists_named (m := t.indexes) Identifier.compare_eq_lt_iff_word _
    (fun e => (⟨e.1.number, e.2.entity⟩ : IndexRef)) (fun _ => rfl) fun _ _ => rfl

lemma lists_ofCounter (t : MemoryTables) (counter key : String) :
    (Source.ofCounter t counter key).Lists (t.countsAfter counter key none) :=
  lists_named (m := t.counters) (fun _ _ => Std.compare_eq_lt) _ (fun e => (e.1.number, e.2)) (fun _ => rfl)
    fun _ _ => rfl

lemma rowsAfter_ofTable (t : MemoryTables) (table : String) (after : Option Identifier) :
    (Source.ofTable t table).rowsAfter (t.idsAfter table none) after = t.idsAfter table after := by
  have hasymm : Std.Asymm fun x y : Identifier => x < y :=
    ⟨fun _ _ h h' => Int64.lt_irrefl (Int64.lt_trans h h')⟩
  refine ((t.pairwise_idsAfter table none).filter _).eq_of_mem_iff (t.pairwise_idsAfter table after) fun id => ?_
  rw [List.mem_filter, mem_idsAfter, mem_idsAfter, isAfter_iff_grows Identifier.compare_eq_lt_iff_word,
    isAfter_iff_grows Identifier.compare_eq_lt_iff_word]
  simp [Source.ofTable, Grows, and_comm]

lemma lists_ofTable (t : MemoryTables) (table : String) :
    (Source.ofTable t table).Lists (t.idsAfter table none) where
  ascending := t.pairwise_idsAfter table none
  fetch_eq after limit := by
    rw [rowsAfter_ofTable]
    rfl

end MemoryTables

end Chronicle
