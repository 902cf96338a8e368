import Chronicle.Proofs.Table.Gathering
import Chronicle.Proofs.Table.Mirror

namespace Chronicle

lemma refuseNul_eq_ok_iff {kind : NameKind} {text : String} : refuseNul kind text = .ok () ↔ NulFree text := by
  rw [refuseNul_eq]
  split
  · next h => simp [h]
  · next h => simp [h]

namespace IndexWrite

def NulFree : IndexWrite → Prop
  | insert entry _ => Chronicle.NulFree entry.index ∧ Chronicle.NulFree entry.value
  | retract entry => Chronicle.NulFree entry.index ∧ Chronicle.NulFree entry.value
  | increment inc => Chronicle.NulFree inc.counter ∧ Chronicle.NulFree inc.key

instance : (w : IndexWrite) → Decidable w.NulFree
  | insert entry _ => inferInstanceAs (Decidable (Chronicle.NulFree entry.index ∧ Chronicle.NulFree entry.value))
  | retract entry => inferInstanceAs (Decidable (Chronicle.NulFree entry.index ∧ Chronicle.NulFree entry.value))
  | increment inc => inferInstanceAs (Decidable (Chronicle.NulFree inc.counter ∧ Chronicle.NulFree inc.key))

lemma nulFree_of_refuseNul {kind kind' : NameKind} {name name' : String}
    (h : (do refuseNul kind name; refuseNul kind' name' : Except Error Unit) = .ok ()) :
    Chronicle.NulFree name ∧ Chronicle.NulFree name' := by
  rw [refuseNul_eq] at h
  split at h
  · next hname => exact ⟨hname, refuseNul_eq_ok_iff.1 h⟩
  · cases h

lemma nulFree_of_check {w : IndexWrite} (hr : w.isRetract = true → w.NulFree) (h : w.check = .ok ()) : w.NulFree := by
  cases w with
  | insert entry expires => exact nulFree_of_refuseNul h
  | retract entry => exact hr rfl
  | increment inc => exact nulFree_of_refuseNul h

end IndexWrite

namespace KeyedTables

variable {b : KeyedTables}

def space (b : KeyedTables) : Space → ByteMap
  | .versions => b.versions
  | .indexes => b.indexes
  | .counters => b.counters
  | .expiries => b.expiries

lemma space_remove (b : KeyedTables) (s s' : Space) (k : Bytes) :
    (b.change (.remove s k)).space s' = if s' = s then (b.space s').erase k else b.space s' := by
  cases s <;> cases s' <;> rfl

lemma space_commit_removals {cs : List Change} (h : ∀ c ∈ cs, ∃ s k, c = .remove s k) (s : Space) :
    (b.commit cs).space s = (b.space s).filter fun k _ => decide (.remove s k ∉ cs) := by
  apply OrderedMap.ext_get?
  intro k
  rw [OrderedMap.get?_filter]
  induction cs generalizing b with
  | nil =>
    rw [commit, List.foldl_nil]
    cases (b.space s).get? k <;> rfl
  | cons c cs ih =>
    obtain ⟨s', k', rfl⟩ := h c List.mem_cons_self
    have hcommit : b.commit (.remove s' k' :: cs) = (b.change (.remove s' k')).commit cs := rfl
    rw [hcommit, ih fun c hc => h c (List.mem_cons_of_mem _ hc), space_remove]
    by_cases hs : s = s'
    · subst hs
      rw [if_pos rfl, OrderedMap.get?_erase]
      by_cases hk : k = k'
      · cases hget : (b.space s).get? k <;> simp [hk]
      · simp [hk]
    · simp [hs]

def announced (m : ByteMap) (expires : Option Int64) (target : Key.ExpiryTarget) (key : Bytes) : ByteMap :=
  match expires with
  | none => m
  | some e => m.insert (Key.expiry e target key) []

lemma commit_stageVersion (b : KeyedTables) (table : String) (v : StoredVersion) :
    b.commit (stageVersion table v) =
      { b with
        versions := b.versions.insert (Layout.versions.key ⟨table, v.id, v.update⟩) (Layout.versions.form v)
        expiries := announced b.expiries v.expires .version (Layout.versions.key ⟨table, v.id, v.update⟩) } := by
  rw [stageVersion]
  cases v.expires <;> rfl

def stagedWrite (t : MemoryTables) : IndexWrite → List Change
  | .insert entry expires =>
    let key := Layout.indexes.key entry.key
    announce expires .index key ++ [.put .indexes key (Layout.indexes.form ⟨entry.entity, expires⟩)]
  | .retract entry => [.remove .indexes (Layout.indexes.key entry.key)]
  | .increment inc =>
    let count := (t.counters.get? inc.bucketKey).getD 0
    [.put .counters (Layout.counters.key inc.bucketKey)
      (Layout.counters.form (Saturating.addCount count inc.amount))]

lemma commit_staged_insert (b : KeyedTables) (t : MemoryTables) (entry : IndexEntry) (expires : Option Int64) :
    b.commit (stagedWrite t (.insert entry expires)) =
      { b with
        indexes := b.indexes.insert (Layout.indexes.key entry.key) (Layout.indexes.form ⟨entry.entity, expires⟩)
        expiries := announced b.expiries expires .index (Layout.indexes.key entry.key) } := by
  cases expires <;> rfl

lemma readCounter_eq {t : MemoryTables} (h : Layout.counters.Represents t.counters b.counters) {inc : Increment}
    (hinc : (IndexWrite.increment inc).NulFree) :
    b.readCounter (Layout.counters.key inc.bucketKey) = .ok ((t.counters.get? inc.bucketKey).getD 0) := by
  rw [readCounter, h.get?_key ((Layout.valid_counters inc.bucketKey).2 hinc)]
  cases t.counters.get? inc.bucketKey with
  | none => rfl
  | some n => exact Codec.readCount_encodeCount n

end KeyedTables

namespace Mirrors

open KeyedTables

variable {t : MemoryTables} {b : KeyedTables} {table : String} {id : Identifier} {v : StoredVersion} {w : IndexWrite}

lemma put (h : Mirrors t b) (htable : NulFree table) (hv : v.payload.Fits) :
    Mirrors (t.put table v) (b.commit (stageVersion table v)) := by
  rw [commit_stageVersion]
  refine ⟨h.versions.insert ((Layout.valid_versions table v.id v.update).2 htable) v, h.indexes, h.counters, ?_⟩
  intro k v' hget
  rw [MemoryTables.get?_put] at hget
  split at hget
  · rwa [← Option.some.inj hget]
  · exact h.fits k v' hget

lemma length_storedChain (h : Mirrors t b) (htable : NulFree table) (id : Identifier) :
    (b.storedChain table id).length = (t.chain table id).length := by
  rw [h.storedChain_eq htable, MemoryTables.chain, List.length_map, List.length_map]

def droppedChain (b : KeyedTables) (table : String) (id : Identifier) : List Change :=
  ((b.storedChain table id).map (·.1)).map (.remove .versions)

lemma mem_droppedChain (h : Mirrors t b) (htable : NulFree table) {k : VersionKey} (hget : t.versions.get? k = some v) :
    .remove .versions (Layout.versions.key k) ∈ droppedChain b table id ↔ k.table = table ∧ k.id = id := by
  rw [droppedChain, h.storedChain_eq htable]
  simp only [List.map_map, List.mem_map, Function.comp, Change.remove.injEq, true_and, OrderedMap.mem_scan,
    Bool.and_eq_true, beq_iff_eq]
  constructor
  · rintro ⟨⟨k', v'⟩, ⟨hmem, hk'⟩, hkey⟩
    have hvalid := h.versions.valid k' v' (OrderedMap.get?_eq_some_iff.2 hmem)
    rwa [← Layout.versions.injective hvalid (h.versions.valid k v hget) hkey]
  · intro hk
    exact ⟨(k, v), ⟨OrderedMap.get?_eq_some_iff.1 hget, hk⟩, rfl⟩

lemma space_droppedChain (b : KeyedTables) (table : String) (id : Identifier) (s : Space) :
    (b.commit (droppedChain b table id)).space s =
      (b.space s).filter fun k _ => decide (.remove s k ∉ droppedChain b table id) := by
  apply space_commit_removals
  intro c hc
  obtain ⟨k, _, rfl⟩ := List.mem_map.1 hc
  exact ⟨.versions, k, rfl⟩

lemma space_droppedChain_of_ne {s : Space} (hs : s ≠ .versions) :
    (b.commit (droppedChain b table id)).space s = b.space s := by
  rw [space_droppedChain]
  apply OrderedMap.ext
  exact List.filter_eq_self.2 fun e _ => by simp [droppedChain, hs.symm]

lemma dropChain (h : Mirrors t b) (htable : NulFree table) (id : Identifier) :
    Mirrors (t.dropChain table id) (b.commit (droppedChain b table id)) := by
  refine ⟨?_, ?_, ?_, ?_⟩
  · change Layout.versions.Represents _ ((b.commit (droppedChain b table id)).space .versions)
    rw [space_droppedChain]
    change Layout.versions.Represents (t.versions.filter fun k _ => !(k.table == table && k.id == id))
      (b.versions.filter _)
    refine h.versions.filter fun k v hget => ?_
    rw [Bool.eq_iff_iff]
    simp [h.mem_droppedChain htable hget]
  · change Layout.indexes.Represents _ ((b.commit (droppedChain b table id)).space .indexes)
    rw [space_droppedChain_of_ne (by decide)]
    exact h.indexes
  · change Layout.counters.Represents _ ((b.commit (droppedChain b table id)).space .counters)
    rw [space_droppedChain_of_ne (by decide)]
    exact h.counters
  · intro k v hget
    rw [MemoryTables.get?_dropChain] at hget
    split at hget
    · cases hget
    · exact h.fits k v hget

lemma stage_eq (h : Mirrors t b) (w : IndexWrite) : b.stage w = w.check.map fun _ => stagedWrite t w := by
  unfold stage
  cases hc : w.check with
  | error e => rfl
  | ok =>
    cases w with
    | increment inc =>
      change (do
        let count ← b.readCounter (Layout.counters.key inc.bucketKey)
        return [Change.put .counters (Layout.counters.key inc.bucketKey) _]) = _
      rw [readCounter_eq h.counters (IndexWrite.nulFree_of_check (fun hr => by cases hr) hc)]
      rfl
    | _ => rfl

lemma mapM_stage (h : Mirrors t b) (ws : List IndexWrite) :
    ws.mapM b.stage = (ws.forM IndexWrite.check).map fun _ => ws.map (stagedWrite t) := by
  induction ws with
  | nil => rfl
  | cons w ws ih =>
    rw [List.mapM_cons, h.stage_eq, ih]
    change _ = (w.check >>= fun _ => ws.forM IndexWrite.check).map _
    cases w.check with
    | error e => rfl
    | ok => cases ws.forM IndexWrite.check <;> rfl

def stagedBatch (t : MemoryTables) (ws : List IndexWrite) : List Change := (gatherIncrements ws).flatMap (stagedWrite t)

lemma writeAll_eq (h : Mirrors t b) (ws : List IndexWrite) :
    b.writeAll ws = (ws.forM IndexWrite.check).map fun _ => b.commit (stagedBatch t ws) := by
  rw [writeAll, h.mapM_stage, forM_check_gatherIncrements]
  cases ws.forM IndexWrite.check <;> rfl

lemma write (h : Mirrors t b) {start : MemoryTables} (hw : w.NulFree)
    (hcount : ∀ k, w.bucket? = some k → start.counters.get? k = t.counters.get? k) :
    Mirrors (t.write w) (b.commit (stagedWrite start w)) := by
  cases w with
  | insert entry expires =>
    rw [commit_staged_insert]
    exact ⟨h.versions, h.indexes.insert ((Layout.valid_indexes entry.key).2 hw) _, h.counters, h.fits⟩
  | retract entry => exact ⟨h.versions, h.indexes.erase ((Layout.valid_indexes entry.key).2 hw), h.counters, h.fits⟩
  | increment inc =>
    rw [stagedWrite, hcount _ rfl]
    exact ⟨h.versions, h.indexes, h.counters.insert ((Layout.valid_counters inc.bucketKey).2 hw) _, h.fits⟩

lemma foldl_write {ws : List IndexWrite} (h : Mirrors t b) {start : MemoryTables} (hd : DistinctBuckets ws)
    (hws : ∀ w ∈ ws, w.NulFree)
    (hcount : ∀ w ∈ ws, ∀ k, w.bucket? = some k → start.counters.get? k = t.counters.get? k) :
    Mirrors (ws.foldl MemoryTables.write t) (b.commit (ws.flatMap (stagedWrite start))) := by
  induction ws generalizing t b with
  | nil => exact h
  | cons w ws ih =>
    obtain ⟨hw, hd⟩ := List.pairwise_cons.1 hd
    have hfirst := h.write (hws w List.mem_cons_self) (hcount w List.mem_cons_self)
    rw [List.flatMap_cons, commit, List.foldl_append]
    refine ih hfirst hd (fun w' hw' => hws w' (List.mem_cons_of_mem _ hw')) fun w' hw' k hk => ?_
    rw [hcount w' (List.mem_cons_of_mem _ hw') k hk]
    exact (MemoryTables.get?_counters_write_of_ne fun hk' => hw w' hw' k hk' hk).symm

lemma writeTogether {ws : List IndexWrite} (h : Mirrors t b) (hc : ws.forM IndexWrite.check = .ok ())
    (hr : ∀ w ∈ ws, w.isRetract = true → w.NulFree) :
    Mirrors (ws.foldl MemoryTables.write t) (b.commit (stagedBatch t ws)) := by
  obtain ⟨hd, hwrites⟩ := gatherIncrements_spec ws
  rw [← hwrites MemoryTables.addsUp_write]
  refine h.foldl_write hd (fun w hw => ?_) fun _ _ _ _ => rfl
  rw [← forM_check_gatherIncrements] at hc
  refine IndexWrite.nulFree_of_check (fun hretract => ?_) (forM_eq_ok_iff.1 hc w hw)
  have hmem : w ∈ (gatherIncrements ws).filter touchesIndex := by
    refine List.mem_filter.2 ⟨hw, ?_⟩
    cases w with
    | retract entry => rfl
    | _ => cases hretract
  rw [filter_gatherIncrements] at hmem
  exact hr w (List.mem_filter.1 hmem).1 hretract

end Mirrors

end Chronicle
