import Chronicle.Proofs.Table.KeyOrder
import Chronicle.Proofs.Table.Layout
import Chronicle.Proofs.Table.Memory
import Chronicle.Proofs.Traversal

namespace Chronicle

lemma Codec.readCount_encodeCount (n : UInt64) : readCount (encodeCount n) = .ok n := by
  rw [readCount, encodeCount, if_pos (Bytes.length_bigEndian ..), Bytes.ofBigEndian_bigEndian n.toNat_lt,
    UInt64.ofNat_toNat]

namespace Layout

def versions : Layout VersionKey StoredVersion where
  key k := Key.version k.table k.id k.update
  form := Codec.storedVersion.encode
  Valid k := NulFree k.table
  injective hk hk' := Key.embedsOrder_versions.injective _ _ (by simpa using hk) (by simpa using hk')

def named {ν α : Type} (word : ν → Int64) (hword : ∀ m n, word m = word n → m = n) (form : α → Bytes) :
    Layout (NamedKey ν) α where
  key k := Key.texts [k.name, k.value] ++ Key.ordered (word k.number)
  form := form
  Valid k := NulFree k.name ∧ NulFree k.value
  injective hk hk' := (Key.embedsOrder_named word hword).injective _ _ (by simpa using hk) (by simpa using hk')

lemma versions_key (table : String) (id u : Identifier) :
    versions.key ⟨table, id, u⟩ = Key.version table id u := rfl

lemma valid_versions (table : String) (id u : Identifier) : versions.Valid ⟨table, id, u⟩ ↔ NulFree table := Iff.rfl

lemma compare_versions (table : String) (id u id' u' : Identifier) :
    compare (versions.key ⟨table, id, u⟩) (versions.key ⟨table, id', u'⟩) =
      compare (VersionKey.mk table id u) ⟨table, id', u'⟩ := by
  rw [versions_key, versions_key, Key.version, Key.version, List.append_assoc, List.append_assoc,
    Bytes.compare_append_left, Bytes.compare_append_of_length_eq (by simp), Key.compare_ordered, Key.compare_ordered]
  change _ = (compare table table).then ((compare id id').then (compare u u'))
  rw [(Std.ReflCmp.compare_self : compare table table = .eq)]
  rfl

def indexes : Layout (NamedKey Identifier) IndexCell :=
  named Identifier.raw (fun ⟨_⟩ ⟨_⟩ h => congrArg Identifier.mk h) Codec.indexCell.encode

def counters : Layout (NamedKey Int64) UInt64 := named id (fun _ _ h => h) Codec.encodeCount

lemma valid_indexes (k : NamedKey Identifier) : indexes.Valid k ↔ NulFree k.name ∧ NulFree k.value := Iff.rfl

lemma valid_counters (k : NamedKey Int64) : counters.Valid k ↔ NulFree k.name ∧ NulFree k.value := Iff.rfl

end Layout

/-- Keyed tables hold the rows of typed tables and no others, and the length of every payload can be told. -/
structure Mirrors (t : MemoryTables) (b : KeyedTables) : Prop where
  versions : Layout.versions.Represents t.versions b.versions
  indexes : Layout.indexes.Represents t.indexes b.indexes
  counters : Layout.counters.Represents t.counters b.counters
  fits : ∀ k v, t.versions.get? k = some v → v.payload.Fits

namespace Mirrors

variable {t : MemoryTables} {b : KeyedTables} {table : String} {id u : Identifier}

lemma empty : Mirrors .empty .empty :=
  ⟨Layout.Represents.empty, Layout.Represents.empty, Layout.Represents.empty, fun _ _ h => by cases h⟩

lemma readVersion_encode {v : StoredVersion} (h : v.payload.Fits) :
    KeyedTables.readVersion (Codec.storedVersion.encode v) = .ok v := by
  rw [KeyedTables.readVersion, Codec.readStored, Codec.readsBack_storedVersion.read? h]

lemma version?_eq (h : Mirrors t b) (htable : NulFree table) (id u : Identifier) :
    Tables.version? b table id u = Tables.version? t table id u := by
  change (b.versions.get? (Key.version table id u)).mapM KeyedTables.readVersion = .ok (t.versions.get? ⟨table, id, u⟩)
  rw [← Layout.versions_key, h.versions.get?_key ((Layout.valid_versions table id u).2 htable)]
  cases hv : t.versions.get? ⟨table, id, u⟩ with
  | none => rfl
  | some v => exact mapM_some (readVersion_encode (h.fits _ v hv))

lemma storedChain_eq (h : Mirrors t b) (htable : NulFree table) (id : Identifier) :
    b.storedChain table id = (t.versions.scan fun k => k.table == table && k.id == id).map fun e =>
      (Layout.versions.key e.1, Layout.versions.form e.2) := by
  apply h.versions.scan
  · rintro ⟨table', id', u⟩ hk
    have hnot : ¬ Key.Continues [table] [table'] := Key.not_continues_of_nulFree rfl (by simpa using htable)
    rw [Bool.eq_iff_iff, List.isPrefixOf_iff_prefix]
    rw [Layout.versions_key, Key.versionPrefix_prefix_iff hnot ((Layout.valid_versions table' id' u).1 hk)]
    simp
  · rintro ⟨table', id', u⟩ ⟨table'', id'', u'⟩ hp hp' hlt
    obtain ⟨rfl, rfl⟩ : table' = table ∧ id' = id := by simpa using hp
    obtain ⟨rfl, rfl⟩ : table'' = table' ∧ id'' = id' := by simpa using hp'
    rwa [Layout.compare_versions]

lemma readVersion_of_mem (h : Mirrors t b) {p : VersionKey → Bool} {e : VersionKey × StoredVersion}
    (he : e ∈ t.versions.scan p) : KeyedTables.readVersion (Layout.versions.form e.2) = .ok e.2 :=
  readVersion_encode (h.fits e.1 e.2 (OrderedMap.get?_eq_some_iff.2 (OrderedMap.mem_scan.1 he).1))

lemma chain_eq (h : Mirrors t b) (htable : NulFree table) (id : Identifier) :
    Tables.chain b table id = Tables.chain t table id := by
  change (b.storedChain table id).mapM (fun e => KeyedTables.readVersion e.2) = .ok (t.chain table id)
  rw [h.storedChain_eq htable, List.mapM_map]
  exact mapM_ok fun e he => h.readVersion_of_mem he

lemma latest?_eq (h : Mirrors t b) (htable : NulFree table) (id : Identifier) :
    Tables.latest? b table id = Tables.latest? t table id := by
  change (b.storedChain table id).getLast?.mapM (fun e => KeyedTables.readVersion e.2) = .ok (t.chain table id).getLast?
  rw [h.storedChain_eq htable, MemoryTables.chain, List.getLast?_map, List.getLast?_map]
  cases hl : (t.versions.scan fun k => k.table == table && k.id == id).getLast? with
  | none => rfl
  | some e => exact mapM_some (h.readVersion_of_mem (List.mem_of_getLast? hl))

end Mirrors

end Chronicle
