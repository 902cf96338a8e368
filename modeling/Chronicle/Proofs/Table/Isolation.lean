import Chronicle.Proofs.Table.Origins

/-! What names keep apart in keyed tables. -/

namespace Chronicle

namespace KeyedTables

variable {b : KeyedTables} {s : Space} {key bs : Bytes}

lemma remove_of_commit {cs : List Change} (h : (b.space s).get? key = some bs)
    (hgone : ((b.commit cs).space s).get? key = none) : .remove s key ∈ cs := by
  induction cs generalizing b bs with
  | nil => exact nomatch h.symm.trans hgone
  | cons c cs ih =>
    cases hrow : ((b.change c).space s).get? key with
    | some bs' => exact List.mem_cons_of_mem _ (ih hrow hgone)
    | none =>
      refine List.mem_cons.2 (.inl ?_)
      cases c with
      | put s' k v =>
        rw [space_put] at hrow
        split at hrow
        · rw [OrderedMap.get?_insert] at hrow
          split at hrow
          · cases hrow
          · exact nomatch h.symm.trans hrow
        · exact nomatch h.symm.trans hrow
      | remove s' k =>
        rw [space_remove] at hrow
        split at hrow
        · next hs =>
          rw [OrderedMap.get?_erase] at hrow
          split at hrow
          · next hk => rw [hs, hk]
          · exact nomatch h.symm.trans hrow
        · exact nomatch h.symm.trans hrow

lemma retract_of_writeAll {ws : List IndexWrite} {b' : KeyedTables} (hw : b.writeAll ws = .ok b')
    (h : b.indexes.get? key = some bs) (hgone : b'.indexes.get? key = none) :
    ∃ e, .retract e ∈ ws ∧ key = Key.index e.index e.value e.place := by
  obtain ⟨staged, hstaged, heq⟩ := exists_of_bind_ok hw
  cases heq
  obtain ⟨cs, hcs, hremove⟩ := List.mem_flatten.1 (remove_of_commit (s := .indexes) h hgone)
  obtain ⟨w, hmem, hstage⟩ := exists_of_mem_right (forall₂_of_mapM hstaged) hcs
  obtain ⟨_, _, hstage⟩ := exists_of_bind_ok hstage
  cases w with
  | insert e expires =>
    cases hstage
    rcases List.mem_append.1 hremove with hremove | hremove
    · obtain ⟨_, _, heq⟩ := List.mem_map.1 hremove
      cases heq
    · cases List.mem_singleton.1 hremove
  | retract e =>
    cases hstage
    have hmem : .retract e ∈ (gatherIncrements ws).filter touchesIndex := List.mem_filter.2 ⟨hmem, rfl⟩
    rw [filter_gatherIncrements] at hmem
    exact ⟨e, (List.mem_filter.1 hmem).1, (Change.remove.inj (List.mem_singleton.1 hremove)).2⟩
  | increment inc =>
    obtain ⟨_, _, hstage⟩ := exists_of_bind_ok hstage
    cases hstage
    cases List.mem_singleton.1 hremove

lemma exists_collectIds_ok {P : Identifier → Prop} {skipped : Nat} {keys : List Bytes}
    (h : ∀ key ∈ keys, ∃ id, Key.readVersionId key skipped = .ok id ∧ P id) (last : Option Identifier) (limit : Nat) :
    ∃ ids, collectIds skipped last limit keys = .ok ids ∧ ∀ id ∈ ids, P id := by
  induction keys generalizing last limit with
  | nil => exact ⟨[], by simp [collectIds], fun id hid => nomatch hid⟩
  | cons key keys ih =>
    obtain ⟨id, hid, hP⟩ := h key List.mem_cons_self
    have hrest := ih fun k hk => h k (List.mem_cons_of_mem _ hk)
    rw [collectIds, hid]
    change ∃ ids, (if last = some id then _ else _) = Except.ok ids ∧ _
    split
    · exact hrest last limit
    · cases limit with
      | zero => exact ⟨[], rfl, fun id hid => nomatch hid⟩
      | succ limit =>
        obtain ⟨ids, hids, hall⟩ := hrest (some id) limit
        refine ⟨id :: ids, ?_, List.forall_mem_cons.2 ⟨hP, hall⟩⟩
        change (do return id :: (← collectIds skipped (some id) limit keys)) = _
        rw [hids]
        rfl

lemma names_eq_of_mem_range {m : ByteMap} {ps qs : List String} {x r : Bytes} {e : Bytes × Bytes} (hne : ps ≠ [])
    (h : ps.length = qs.length) (hp : ¬ Key.Continues ps qs) (hq : ∀ q ∈ qs, NulFree q) (hkey : e.1 = Key.texts qs ++ r)
    (he : e ∈ m.range (Key.texts ps ++ x) (Key.pastPrefix (Key.texts ps))) : qs = ps := by
  have hrange := (OrderedMap.mem_scan.1 he).2
  simp only [hkey, Bool.and_eq_true, beq_iff_eq] at hrange
  exact ((Key.range_iff hne h hp hq x r).1 hrange).1

lemma exists_mem_range_of_mem_versionKeysAfter {table : String} {after : Option Identifier}
    (h : key ∈ b.versionKeysAfter table after) :
    ∃ x e, e ∈ b.versions.range (Key.texts [table] ++ x) (Key.pastPrefix (Key.texts [table])) ∧ e.1 = key := by
  obtain ⟨e, he, rfl⟩ := List.mem_map.1 h
  cases after with
  | none => exact ⟨[], e, by rwa [List.append_nil], rfl⟩
  | some a => exact ⟨_, e, by rwa [← List.append_assoc], rfl⟩

end KeyedTables

namespace TableCall

open KeyedTables

variable {calls : List TableCall} {key bs : Bytes} {table index value counter : String}

def Wrote (calls : List TableCall) (w : IndexWrite) : Prop := ∃ c, Succeeded calls c ∧ w ∈ c.indexWrites

def TableApart (calls : List TableCall) (table : String) : Prop :=
  ∀ other v, Succeeded calls (.put other v) → ¬ Key.Continues [table] [other]

def EntriesApart (calls : List TableCall) (index value : String) : Prop :=
  ∀ e expires, Wrote calls (.insert e expires) → ¬ Key.Continues [index, value] [e.index, e.value]

def CountsApart (calls : List TableCall) (counter key : String) : Prop :=
  ∀ inc, Wrote calls (.increment inc) → ¬ Key.Continues [counter, key] [inc.counter, inc.key]

/-- Rows of some names are found and removed under no others. Look-ups of one key need no condition for this; those of
several keys are asked under names that continue none that were written. -/
structure Isolated (calls : List TableCall) (b : KeyedTables) : Prop where
  version : ∀ table id u, ∃ found, Tables.version? b table id u = .ok found ∧
    ∀ v ∈ found, Succeeded calls (.put table v) ∧ v.id = id ∧ v.update = u
  latest : ∀ table id, TableApart calls table → ∃ found, Tables.latest? b table id = .ok found ∧
    ∀ v ∈ found, Succeeded calls (.put table v) ∧ v.id = id
  chain : ∀ table id, TableApart calls table → ∃ vs, Tables.chain b table id = .ok vs ∧
    ∀ v ∈ vs, Succeeded calls (.put table v) ∧ v.id = id
  ids : ∀ table after limit, TableApart calls table → ∃ ids, Tables.idsAfter b table after limit = .ok ids ∧
    ∀ id ∈ ids, ∃ v, Succeeded calls (.put table v) ∧ v.id = id
  refs : ∀ index value after limit, EntriesApart calls index value →
    ∃ refs, Tables.refsAfter b index value after limit = .ok refs ∧
      ∀ r ∈ refs, ∃ expires, Wrote calls (.insert ⟨index, value, r.place, r.entity⟩ expires)
  counts : ∀ counter key after limit, CountsApart calls counter key →
    ∃ counts, Tables.countsAfter b counter key after limit = .ok counts ∧
      ∀ e ∈ counts, ∃ amount, Wrote calls (.increment ⟨counter, key, e.1, amount⟩)
  drop : ∀ table id, TableApart calls table → ∃ n b', Tables.dropChain b table id = .ok (n, b') ∧
    (∀ s, s ≠ .versions → b'.space s = b.space s) ∧ ∀ key, b'.versions.get? key = b.versions.get? key ∨
      b'.versions.get? key = none ∧ ∃ v, Succeeded calls (.put table v) ∧ key = Key.version table id v.update ∧ v.id = id
  retract : ∀ e, ∃ b', Tables.write b (.retract e) = .ok b' ∧ (∀ s, s ≠ .indexes → b'.space s = b.space s) ∧
    ∀ key, b'.indexes.get? key = b.indexes.get? key ∨ b'.indexes.get? key = none ∧
      ∃ entity expires, key = Key.index e.index e.value e.place ∧ Wrote calls (.insert { e with entity } expires)
  retracted : ∀ ws b', Tables.writeTogether b ws = .ok b' → ∀ key bs, b.indexes.get? key = some bs →
    b'.indexes.get? key = none → ∃ e entity expires, .retract e ∈ ws ∧ key = Key.index e.index e.value e.place ∧
      Wrote calls (.insert { e with entity } expires)

lemma version_row (h : (run KeyedTables.empty calls).versions.get? key = some bs) :
    ∃ table v, Succeeded calls (.put table v) ∧ (∀ q ∈ [table], Chronicle.NulFree q) ∧
      key = Key.version table v.id v.update ∧ bs = Codec.storedVersion.encode v := by
  obtain ⟨c, hc, hputs⟩ := exists_puts (s := .versions) (by decide) h
  cases hputs with
  | @version table v free => exact ⟨table, v, hc, by simpa using free, rfl, rfl⟩

lemma entry_row (h : (run KeyedTables.empty calls).indexes.get? key = some bs) :
    ∃ e expires, Wrote calls (.insert e expires) ∧ (∀ q ∈ [e.index, e.value], Chronicle.NulFree q) ∧
      key = Key.index e.index e.value e.place ∧ bs = Codec.indexCell.encode ⟨e.entity, expires⟩ := by
  obtain ⟨c, hc, hputs⟩ := exists_puts (s := .indexes) (by decide) h
  cases hputs with
  | @entry _ e expires mem free =>
    exact ⟨e, expires, ⟨c, hc, mem⟩, by simpa [IndexWrite.NulFree] using free, rfl, rfl⟩

lemma count_row (h : (run KeyedTables.empty calls).counters.get? key = some bs) :
    ∃ inc n, Wrote calls (.increment inc) ∧ (∀ q ∈ [inc.counter, inc.key], Chronicle.NulFree q) ∧
      key = Key.counter inc.counter inc.key inc.bucket ∧ bs = Codec.encodeCount n := by
  obtain ⟨c, hc, hputs⟩ := exists_puts (s := .counters) (by decide) h
  cases hputs with
  | @count _ inc n mem free => exact ⟨inc, n, ⟨c, hc, mem⟩, by simpa [IndexWrite.NulFree] using free, rfl, rfl⟩

lemma entry_of_key {e : IndexEntry} (h : (run KeyedTables.empty calls).indexes.get? key = some bs)
    (hkey : key = Key.index e.index e.value e.place) :
    ∃ entity expires, Wrote calls (.insert { e with entity } expires) := by
  obtain ⟨e', expires, hwrote, hfree, hkey', _⟩ := entry_row h
  have hlength : [e.index, e.value].length = [e'.index, e'.value].length := rfl
  have heq : Key.texts [e.index, e.value] ++ Key.ordered e.place.raw =
      Key.texts [e'.index, e'.value] ++ Key.ordered e'.place.raw := hkey.symm.trans hkey'
  obtain ⟨hnames, hplace⟩ := Key.names_eq_of_key_eq hlength hfree (by simp) heq
  obtain ⟨hindex, hvalue⟩ : e.index = e'.index ∧ e.value = e'.value := by simpa using hnames
  obtain ⟨index, value, place, entity⟩ := e
  obtain ⟨index', value', place', entity'⟩ := e'
  obtain rfl : place = place' := Key.identifier_eq_of_ordered hplace
  obtain rfl : index = index' := hindex
  obtain rfl : value = value' := hvalue
  exact ⟨entity', expires, hwrote⟩

lemma row_of_mem_storedChain (hapart : TableApart calls table) {id : Identifier} {e : Bytes × Bytes}
    (he : e ∈ (run KeyedTables.empty calls).storedChain table id) :
    ∃ v, Succeeded calls (.put table v) ∧ v.id = id ∧
      e = (Key.version table id v.update, Codec.storedVersion.encode v) := by
  obtain ⟨key, bs⟩ := e
  obtain ⟨hmem, hbegin⟩ := OrderedMap.mem_scan.1 he
  obtain ⟨table', v, hput, hfree, rfl, rfl⟩ := version_row (OrderedMap.get?_eq_some_iff.2 hmem)
  obtain ⟨rfl, rfl⟩ := (Key.versionPrefix_prefix_iff (hapart table' v hput) (hfree table' (by simp)) id v.id v.update).1
    (List.isPrefixOf_iff_prefix.1 hbegin)
  exact ⟨v, hput, rfl, rfl⟩

lemma row_of_mem_versionKeysAfter (hapart : TableApart calls table) {after : Option Identifier}
    (hkey : key ∈ (run KeyedTables.empty calls).versionKeysAfter table after) :
    ∃ v, Succeeded calls (.put table v) ∧ key = Key.version table v.id v.update := by
  obtain ⟨x, ⟨key, bs⟩, he, rfl⟩ := exists_mem_range_of_mem_versionKeysAfter hkey
  obtain ⟨table', v, hput, hfree, rfl, _⟩ := version_row (OrderedMap.get?_eq_some_iff.2 (OrderedMap.mem_scan.1 he).1)
  have hnames : [table'] = [table] := names_eq_of_mem_range (by simp) rfl (hapart table' v hput) hfree
    (by rw [Key.version, List.append_assoc]) he
  obtain rfl : table' = table := by simpa using hnames
  exact ⟨v, hput, rfl⟩

lemma row_of_mem_indexEntriesAfter (hapart : EntriesApart calls index value) {after : Option Int64} {e : Bytes × Bytes}
    (he : e ∈ entriesAfter (run KeyedTables.empty calls).indexes (Key.texts [index, value]) after) :
    ∃ place entity expires, Wrote calls (.insert ⟨index, value, place, entity⟩ expires) ∧
      e = (Key.index index value place, Codec.indexCell.encode ⟨entity, expires⟩) := by
  obtain ⟨key, bs⟩ := e
  obtain ⟨x, he⟩ := exists_mem_range_of_mem_entriesAfter he
  obtain ⟨⟨index', value', place, entity⟩, expires, hwrote, hfree, rfl, rfl⟩ :=
    entry_row (OrderedMap.get?_eq_some_iff.2 (OrderedMap.mem_scan.1 he).1)
  have hnames : [index', value'] = [index, value] := names_eq_of_mem_range (by simp) rfl (hapart _ _ hwrote)
    hfree rfl he
  obtain ⟨rfl, rfl⟩ : index' = index ∧ value' = value := by simpa using hnames
  exact ⟨place, entity, expires, hwrote, rfl⟩

lemma row_of_mem_countEntriesAfter {name : String} (hapart : CountsApart calls counter name) {after : Option Int64}
    {e : Bytes × Bytes}
    (he : e ∈ entriesAfter (run KeyedTables.empty calls).counters (Key.texts [counter, name]) after) :
    ∃ bucket amount n, Wrote calls (.increment ⟨counter, name, bucket, amount⟩) ∧
      e = (Key.counter counter name bucket, Codec.encodeCount n) := by
  obtain ⟨key, bs⟩ := e
  obtain ⟨x, he⟩ := exists_mem_range_of_mem_entriesAfter he
  obtain ⟨⟨counter', name', bucket, amount⟩, n, hwrote, hfree, rfl, rfl⟩ :=
    count_row (OrderedMap.get?_eq_some_iff.2 (OrderedMap.mem_scan.1 he).1)
  have hnames : [counter', name'] = [counter, name] := names_eq_of_mem_range (by simp) rfl (hapart _ hwrote)
    hfree rfl he
  obtain ⟨rfl, rfl⟩ : counter' = counter ∧ name' = name := by simpa using hnames
  exact ⟨bucket, amount, n, hwrote, rfl⟩

lemma readVersion_of_put (hf : ∀ c ∈ calls, c.Fits) {v : StoredVersion} (hput : Succeeded calls (.put table v)) :
    readVersion (Codec.storedVersion.encode v) = .ok v := Mirrors.readVersion_encode (hf _ hput.mem)

lemma version_of_mem_storedChain (hf : ∀ c ∈ calls, c.Fits) (hapart : TableApart calls table) {id : Identifier}
    {e : Bytes × Bytes} (he : e ∈ (run KeyedTables.empty calls).storedChain table id) :
    ∃ v, readVersion e.2 = .ok v ∧ Succeeded calls (.put table v) ∧ v.id = id := by
  obtain ⟨v, hput, hid, rfl⟩ := row_of_mem_storedChain hapart he
  exact ⟨v, readVersion_of_put hf hput, hput, hid⟩

lemma isolated_version (hf : ∀ c ∈ calls, c.Fits) (table : String) (id u : Identifier) :
    ∃ found, Tables.version? (run KeyedTables.empty calls) table id u = .ok found ∧
      ∀ v ∈ found, Succeeded calls (.put table v) ∧ v.id = id ∧ v.update = u := by
  change ∃ found, ((run KeyedTables.empty calls).versions.get? (Key.version table id u)).mapM readVersion = .ok found ∧ _
  cases hget : (run KeyedTables.empty calls).versions.get? (Key.version table id u) with
  | none => exact ⟨none, rfl, fun v hv => nomatch hv⟩
  | some bs =>
    obtain ⟨table', v, hput, hfree, hkey, rfl⟩ := version_row hget
    rw [Key.version, Key.version, List.append_assoc, List.append_assoc] at hkey
    have hlength : [table].length = [table'].length := rfl
    obtain ⟨hnames, hids⟩ := Key.names_eq_of_key_eq hlength hfree (by simp) hkey
    obtain ⟨hid, hu⟩ := List.append_inj hids (by simp)
    obtain rfl : table = table' := by simpa using hnames
    refine ⟨some v, mapM_some (readVersion_of_put hf hput), ?_⟩
    rintro _ ⟨⟩
    exact ⟨hput, (Key.identifier_eq_of_ordered hid).symm, (Key.identifier_eq_of_ordered hu).symm⟩

lemma isolated_latest (hf : ∀ c ∈ calls, c.Fits) (hapart : TableApart calls table) (id : Identifier) :
    ∃ found, Tables.latest? (run KeyedTables.empty calls) table id = .ok found ∧
      ∀ v ∈ found, Succeeded calls (.put table v) ∧ v.id = id := by
  change ∃ found, ((run KeyedTables.empty calls).storedChain table id).getLast?.mapM (fun e => readVersion e.2) =
    .ok found ∧ _
  cases hlast : ((run KeyedTables.empty calls).storedChain table id).getLast? with
  | none => exact ⟨none, rfl, fun v hv => nomatch hv⟩
  | some e =>
    obtain ⟨v, hv, hrow⟩ := version_of_mem_storedChain hf hapart (List.mem_of_getLast? hlast)
    refine ⟨some v, mapM_some hv, ?_⟩
    rintro _ ⟨⟩
    exact hrow

lemma isolated_chain (hf : ∀ c ∈ calls, c.Fits) (hapart : TableApart calls table) (id : Identifier) :
    ∃ vs, Tables.chain (run KeyedTables.empty calls) table id = .ok vs ∧
      ∀ v ∈ vs, Succeeded calls (.put table v) ∧ v.id = id :=
  exists_mapM_ok fun _ he => version_of_mem_storedChain hf hapart he

lemma isolated_ids (hapart : TableApart calls table) (after : Option Identifier) (limit : Nat) :
    ∃ ids, Tables.idsAfter (run KeyedTables.empty calls) table after limit = .ok ids ∧
      ∀ id ∈ ids, ∃ v, Succeeded calls (.put table v) ∧ v.id = id := by
  refine exists_collectIds_ok (fun key hkey => ?_) none limit
  obtain ⟨v, hput, rfl⟩ := row_of_mem_versionKeysAfter hapart hkey
  exact ⟨v.id, readVersionId_version table v.id v.update, v, hput, rfl⟩

lemma isolated_refs (hapart : EntriesApart calls index value) (after : Option Identifier) (limit : Nat) :
    ∃ refs, Tables.refsAfter (run KeyedTables.empty calls) index value after limit = .ok refs ∧
      ∀ r ∈ refs, ∃ expires, Wrote calls (.insert ⟨index, value, r.place, r.entity⟩ expires) := by
  refine exists_mapM_ok fun e he => ?_
  obtain ⟨place, entity, expires, hwrote, rfl⟩ := row_of_mem_indexEntriesAfter hapart (List.mem_of_mem_take he)
  exact ⟨⟨place, entity⟩, readRef_index index value place _, expires, hwrote⟩

lemma isolated_counts {name : String} (hapart : CountsApart calls counter name) (after : Option Int64) (limit : Nat) :
    ∃ counts, Tables.countsAfter (run KeyedTables.empty calls) counter name after limit = .ok counts ∧
      ∀ e ∈ counts, ∃ amount, Wrote calls (.increment ⟨counter, name, e.1, amount⟩) := by
  refine exists_mapM_ok fun e he => ?_
  obtain ⟨bucket, amount, n, hwrote, rfl⟩ := row_of_mem_countEntriesAfter hapart (List.mem_of_mem_take he)
  exact ⟨(bucket, n), readBucket_counter counter name bucket n, amount, hwrote⟩

lemma isolated_drop (hapart : TableApart calls table) (id : Identifier) :
    ∃ n b', Tables.dropChain (run KeyedTables.empty calls) table id = .ok (n, b') ∧
      (∀ s, s ≠ .versions → b'.space s = (run KeyedTables.empty calls).space s) ∧
      ∀ key, b'.versions.get? key = (run KeyedTables.empty calls).versions.get? key ∨ b'.versions.get? key = none ∧
        ∃ v, Succeeded calls (.put table v) ∧ key = Key.version table id v.update ∧ v.id = id := by
  refine ⟨_, _, rfl, fun s hs => Mirrors.space_droppedChain_of_ne hs, fun key => ?_⟩
  change ((KeyedTables.commit _ (Mirrors.droppedChain _ table id)).space .versions).get? key = _ ∨
    ((KeyedTables.commit _ (Mirrors.droppedChain _ table id)).space .versions).get? key = none ∧ _
  rw [Mirrors.space_droppedChain, OrderedMap.get?_filter]
  by_cases hdropped : .remove .versions key ∈ Mirrors.droppedChain (run KeyedTables.empty calls) table id
  · right
    obtain ⟨_, hkey, heq⟩ := List.mem_map.1 hdropped
    obtain ⟨e, he, rfl⟩ := List.mem_map.1 hkey
    obtain ⟨v, hput, hid, rfl⟩ := row_of_mem_storedChain hapart he
    refine ⟨?_, v, hput, (Change.remove.inj heq).2.symm, hid⟩
    simp [hdropped]
  · left
    change _ = ((run KeyedTables.empty calls).space .versions).get? key
    cases ((run KeyedTables.empty calls).space .versions).get? key <;> simp [hdropped]

lemma isolated_retract (calls : List TableCall) (e : IndexEntry) :
    ∃ b', Tables.write (run KeyedTables.empty calls) (.retract e) = .ok b' ∧
      (∀ s, s ≠ .indexes → b'.space s = (run KeyedTables.empty calls).space s) ∧
      ∀ key, b'.indexes.get? key = (run KeyedTables.empty calls).indexes.get? key ∨ b'.indexes.get? key = none ∧
        ∃ entity expires, key = Key.index e.index e.value e.place ∧ Wrote calls (.insert { e with entity } expires) := by
  let erased := (run KeyedTables.empty calls).change (.remove .indexes (Key.index e.index e.value e.place))
  refine ⟨erased, rfl, fun s hs => ?_, fun key => ?_⟩
  · rw [space_remove, if_neg hs]
  · change (erased.space .indexes).get? key = _ ∨ (erased.space .indexes).get? key = none ∧ _
    rw [space_remove, if_pos rfl, OrderedMap.get?_erase]
    split
    · next hkey =>
      cases hget : (run KeyedTables.empty calls).indexes.get? key with
      | none => exact .inl rfl
      | some bs =>
        obtain ⟨entity, expires, hwrote⟩ := entry_of_key hget hkey
        exact .inr ⟨rfl, entity, expires, hkey, hwrote⟩
    · exact .inl rfl

lemma isolated_retracted {ws : List IndexWrite} {b' : KeyedTables}
    (hw : Tables.writeTogether (run KeyedTables.empty calls) ws = .ok b')
    (hget : (run KeyedTables.empty calls).indexes.get? key = some bs) (hgone : b'.indexes.get? key = none) :
    ∃ e entity expires, .retract e ∈ ws ∧ key = Key.index e.index e.value e.place ∧
      Wrote calls (.insert { e with entity } expires) := by
  obtain ⟨e, hretract, hkey⟩ := retract_of_writeAll hw hget hgone
  obtain ⟨entity, expires, hwrote⟩ := entry_of_key hget hkey
  exact ⟨e, entity, expires, hretract, hkey, hwrote⟩

lemma isolated (hf : ∀ c ∈ calls, c.Fits) : Isolated calls (run KeyedTables.empty calls) where
  version := isolated_version hf
  latest _ id hapart := isolated_latest hf hapart id
  chain _ id hapart := isolated_chain hf hapart id
  ids _ after limit hapart := isolated_ids hapart after limit
  refs _ _ after limit hapart := isolated_refs hapart after limit
  counts _ _ after limit hapart := isolated_counts hapart after limit
  drop _ id hapart := isolated_drop hapart id
  retract := isolated_retract calls
  retracted _ _ hw _ _ hget hgone := isolated_retracted hw hget hgone

theorem rows_isolated {calls : List TableCall} (hf : ∀ c ∈ calls, c.Fits) :
    Isolated calls (run KeyedTables.empty calls) ∧ (∀ table, Chronicle.NulFree table → TableApart calls table) ∧
      (∀ index value, Chronicle.NulFree index → Chronicle.NulFree value → EntriesApart calls index value) ∧
      ∀ counter key, Chronicle.NulFree counter → Chronicle.NulFree key → CountsApart calls counter key := by
  refine ⟨isolated hf, fun table htable other v _ => ?_, fun index value hindex hvalue e _ _ => ?_,
    fun counter key hcounter hkey inc _ => ?_⟩
  · exact Key.not_continues_of_nulFree rfl (by simpa using htable)
  · exact Key.not_continues_of_nulFree rfl (by simp [hindex, hvalue])
  · exact Key.not_continues_of_nulFree rfl (by simp [hcounter, hkey])

def rowsOfAllKinds : List TableCall :=
  [.put "t" ⟨⟨-4521260802379792128⟩, ⟨2⟩, [7], none⟩, .write (.insert ⟨"i", "v", .least, ⟨1⟩⟩ none),
    .writeTogether [.increment ⟨"c", "k", Int64.minValue, 1⟩, .retract ⟨"i", "w", ⟨1⟩, ⟨1⟩⟩], .purge 9]

theorem rows_isolated_nul_in_front :
    (∀ c ∈ rowsOfAllKinds, c.Fits) ∧ TableApart rowsOfAllKinds "\x00t" ∧
      ∃ vs, Tables.chain (run KeyedTables.empty rowsOfAllKinds) "\x00t" ⟨2⟩ = .ok vs ∧
        ∀ v ∈ vs, Succeeded rowsOfAllKinds (.put "\x00t" v) ∧ v.id = ⟨2⟩ := by
  have hf : ∀ c ∈ rowsOfAllKinds, c.Fits := by decide +kernel
  have hapart : TableApart rowsOfAllKinds "\x00t" := by
    intro other v hput
    obtain ⟨rfl, rfl⟩ : other = "t" ∧ v = ⟨⟨-4521260802379792128⟩, ⟨2⟩, [7], none⟩ := by
      simpa [rowsOfAllKinds] using hput.mem
    decide +kernel
  exact ⟨hf, hapart, (rows_isolated hf).1.chain "\x00t" ⟨2⟩ hapart⟩

/-- Under a table that continues `t` a row of `t` is found and deleted, for the name ends in what its key goes on with.
Under a value and a key that continue others, a look-up fails at their rows. Typed tables find nothing. -/
theorem continued_names_reach_rows :
    let b := run KeyedTables.empty rowsOfAllKinds
    let t := run MemoryTables.empty rowsOfAllKinds
    Tables.chain b "t\x00AAAAAAA" ⟨2⟩ = .ok [⟨⟨-4521260802379792128⟩, ⟨2⟩, [7], none⟩] ∧
      Tables.idsAfter b "t\x00AAAAAAA" none 9 = .ok [⟨2⟩] ∧
      (Tables.dropChain b "t\x00AAAAAAA" ⟨2⟩).map (fun (n, b') => (n, b'.versions.size)) = .ok (1, 0) ∧
      Tables.refsAfter b "i" "v\x00" none 9 = .error (.storage .shortInteger) ∧
      Tables.countsAfter b "c" "k\x00" none 9 = .error (.storage .shortInteger) ∧
      Tables.chain t "t\x00AAAAAAA" ⟨2⟩ = .ok [] ∧ Tables.refsAfter t "i" "v\x00" none 9 = .ok [] := by
  decide +kernel

end TableCall

end Chronicle
