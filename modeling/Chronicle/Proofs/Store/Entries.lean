import Chronicle.Proofs.Store.IndexRows

namespace Chronicle

namespace MemoryTables

variable {t : MemoryTables}

lemma row_of_attempt {w : IndexWrite} {k : NamedKey Identifier} {cell : IndexCell}
    (hget : (attempt t w).indexes.get? k = some cell) :
    t.indexes.get? k = some cell ∨ ∃ entry expires, w = .insert entry expires ∧ entry.key = k := by
  rw [attempt_eq, guarded] at hget
  cases hcheck : w.check with
  | error e =>
    rw [hcheck] at hget
    exact .inl hget
  | ok =>
    rw [hcheck] at hget
    cases w with
    | insert entry expires =>
      rw [show (t.write (.insert entry expires)).indexes = t.indexes.insert entry.key _ from rfl,
        OrderedMap.get?_insert] at hget
      split at hget
      · next hk => exact .inr ⟨entry, expires, rfl, hk.symm⟩
      · exact .inl hget
    | retract entry =>
      rw [show (t.write (.retract entry)).indexes = t.indexes.erase entry.key from rfl,
        OrderedMap.get?_erase] at hget
      split at hget
      · cases hget
      · exact .inl hget
    | increment inc => exact .inl hget

lemma row_of_foldl_attempt {ws : List IndexWrite} {k : NamedKey Identifier} {cell : IndexCell}
    (hget : (ws.foldl attempt t).indexes.get? k = some cell) :
    t.indexes.get? k = some cell ∨ ∃ entry expires, .insert entry expires ∈ ws ∧ entry.key = k := by
  induction ws generalizing t with
  | nil => exact .inl hget
  | cons w ws ih =>
    rcases ih hget with hget | ⟨entry, expires, hmem, hkey⟩
    · rcases row_of_attempt hget with hget | ⟨entry, expires, rfl, hkey⟩
      · exact .inl hget
      · exact .inr ⟨entry, expires, List.mem_cons_self, hkey⟩
    · exact .inr ⟨entry, expires, List.mem_cons_of_mem _ hmem, hkey⟩

lemma row_of_deliver {delivery : Delivery} {plan : WritePlan} {k : NamedKey Identifier} {cell : IndexCell}
    (hget : (deliver delivery t plan).1.indexes.get? k = some cell) :
    t.indexes.get? k = some cell ∨ ∃ entry expires, .insert entry expires ∈ plan.indexWrites ∧ entry.key = k := by
  rcases interchanges.deliver_eq_or delivery t plan with ⟨ws, hp, heq⟩ | heq
  · rw [heq] at hget
    simpa only [hp.mem_iff] using row_of_foldl_attempt hget
  · rw [heq] at hget
    exact .inl hget

end MemoryTables

namespace Collection

variable {ε : Type} [Entity ε] {c : Collection ε} {e : ε} {id u : Identifier} {stamps : Stamps} {entry : IndexEntry}
  {expires : Option Int64}

def EntriesMade (ε : Type) [Entity ε] (t : MemoryTables) : Prop :=
  ∀ k cell, t.indexes.get? k = some cell →
    ∃ (e : ε) (id u : Identifier), Entity.update e = some u ∧ k ∈ keys (Entity.attributes e) id u

lemma key_of_mem_createPlan (h : .insert entry expires ∈ (c.createPlan e id stamps).indexWrites) :
    entry.key ∈ keys (Entity.attributes e) id id := by
  simp only [createPlan, WritePlan.indexWrites, List.mem_append, List.mem_map] at h
  rcases h with (⟨a, ha, heq⟩ | hnil) | ⟨inc, _, heq⟩
  · obtain ⟨rfl, _⟩ := IndexWrite.insert.inj heq
    exact mem_keys.2 ⟨a, ha, rfl⟩
  · cases hnil
  · cases heq

lemma key_of_mem_updatePlan {previous : Option ε}
    (h : .insert entry expires ∈ (c.updatePlan previous e id u stamps).indexWrites) :
    entry.key ∈ keys (Entity.attributes e) id u := by
  simp only [updatePlan, WritePlan.indexWrites, List.mem_append, List.mem_map] at h
  rcases h with (⟨a, ha, heq⟩ | ⟨_, _, heq⟩) | hnil
  · obtain ⟨rfl, _⟩ := IndexWrite.insert.inj heq
    exact mem_keys.2 ⟨a, (List.mem_filter.1 ha).1, rfl⟩
  · cases heq
  · cases hnil

lemma not_mem_deletePlan {current : Option ε} : .insert entry expires ∉ (deletePlan current id).indexWrites := by
  cases current <;> simp [deletePlan, WritePlan.indexWrites]

end Collection

namespace Store

open Collection

variable {ε γ : Type} [Entity ε] [LawfulEntity ε] [Clock γ] {c : Collection ε} {start s : Store MemoryTables γ}
  {log : List (Call ε MemoryTables γ)} {x : Call ε MemoryTables γ} {t : MemoryTables} {r : Reply ε}

lemma Step.entriesMade (h : Step c x r t) (hbefore : EntriesMade ε x.before.tables) : EntriesMade ε t := by
  intro k cell hget
  cases h with
  | refused err => exact hbefore k cell hget
  | @created e id stamps tables receipt _ _ _ hput =>
    obtain rfl := MemoryTables.put_ok hput
    rcases MemoryTables.row_of_deliver hget with hget | ⟨entry, expires, hmem, rfl⟩
    · exact hbefore k cell hget
    · exact ⟨_, id, id, LawfulEntity.update_stamp, key_of_mem_createPlan hmem⟩
  | @updated e id u previous stamps tables receipt _ _ _ _ _ hput =>
    obtain rfl := MemoryTables.put_ok hput
    rcases MemoryTables.row_of_deliver hget with hget | ⟨entry, expires, hmem, rfl⟩
    · exact hbefore k cell hget
    · exact ⟨_, id, u, LawfulEntity.update_withUpdate .., key_of_mem_updatePlan hmem⟩
  | @deleted id current n tables receipt _ _ hdrop =>
    obtain rfl := MemoryTables.dropChain_ok hdrop
    rcases MemoryTables.row_of_deliver hget with hget | ⟨entry, expires, hmem, rfl⟩
    · exact hbefore k cell hget
    · exact absurd hmem not_mem_deletePlan

lemma Run.entriesMade (h : Run c start log s) (hs : start.tables = .empty) : EntriesMade ε s.tables := by
  induction h with
  | start =>
    rw [hs]
    intro _ _ hget
    cases hget
  | call _ clock request ih => exact (Call.step c _).entriesMade ih

end Store

end Chronicle
