import Chronicle.Proofs.Store.Histories

namespace Chronicle

structure Collection.Appends {ε : Type} [Entity ε] (c : Collection ε) (t t' : MemoryTables) (id u : Identifier)
    (e : ε) : Prop where
  absent : t.versions.get? ⟨c.table, id, u⟩ = none
  stored : c.Stores t' id u e
  kept : ∀ k, k ≠ ⟨c.table, id, u⟩ → t'.versions.get? k = t.versions.get? k
  current : c.current t' id = .ok (some e)

lemma Collection.RowsRead.appends_iff {ε : Type} [Entity ε] {c : Collection ε} {t t' : MemoryTables}
    {v : StoredVersion} {e : ε} (h : c.RowsRead t') (hv : c.ReadsAs v v.id v.update e)
    (heq : t'.versions = (t.put c.table v).versions) :
    c.Appends t t' v.id v.update e ↔ ∀ w row, t.versions.get? ⟨c.table, v.id, w⟩ = some row → w < v.update := by
  constructor
  · intro happends w row hrow
    have hne : w ≠ v.update := by
      rintro rfl
      rw [happends.absent] at hrow
      cases hrow
    have hkept := (happends.kept ⟨c.table, v.id, w⟩ (by simp [hne])).trans hrow
    obtain ⟨u, ⟨v', _, hr'⟩, hle⟩ := h.latest_of_current happends.current
    obtain rfl := Option.some.inj (hr'.entity_update.symm.trans hv.entity_update)
    exact (hle w row hkept).resolve_left hne
  · intro hless
    refine ⟨?_, hv.stores_put heq, fun k hk => by rw [hv.get?_put heq, if_neg hk], ?_⟩
    · cases hrow : t.versions.get? ⟨c.table, v.id, v.update⟩ with
      | none => rfl
      | some row => exact absurd (hless _ _ hrow) Int64.lt_irrefl
    · rw [current_congr heq]
      exact current_put_self hless hv.decode_eq

namespace Store

variable {ε γ : Type} [Entity ε] [LawfulEntity ε] [Clock γ] {c : Collection ε} {start s : Store MemoryTables γ}
  {log : List (Call ε MemoryTables γ)} {x : Call ε MemoryTables γ} {t : MemoryTables} {r : Reply ε}
  {id w : Identifier} {row : StoredVersion}

def Reply.value? : Reply ε → Option ε
  | .written receipt => some receipt.value
  | _ => none

omit [Entity ε] [LawfulEntity ε] in
lemma Reply.exists_of_value? {e : ε} (h : r.value? = some e) : ∃ receipt, r = .written receipt ∧ receipt.value = e := by
  cases r with
  | written receipt => exact ⟨receipt, rfl, Option.some.inj h⟩
  | _ => cases h

lemma Step.origin (h : Step c x r t) (hf : ∀ e ∈ x.request.entity?, LawfulEntity.Fits e)
    (hrow : t.versions.get? ⟨c.table, id, w⟩ = some row) :
    x.before.tables.versions.get? ⟨c.table, id, w⟩ = some row ∨ x.issued c = some w ∨
      w = id ∧ x.suppliedToCreate = some id := by
  cases r with
  | refused err =>
    cases h
    exact .inl hrow
  | written receipt =>
    obtain ⟨v, _, _, heq, hchosen⟩ := h.written hf
    rw [heq, MemoryTables.get?_put] at hrow
    split at hrow
    · next hk =>
      obtain ⟨_, rfl, rfl⟩ := VersionKey.mk.inj hk
      rcases hchosen with ⟨hsupplied, hu, _⟩ | hissued
      · exact .inr (.inr ⟨hu, hsupplied⟩)
      · exact .inr (.inl hissued)
    · exact .inl hrow
  | deleted receipt =>
    cases h with
    | deleted _ _ hdrop _ _ =>
      obtain rfl := MemoryTables.dropChain_ok hdrop
      rw [MemoryTables.versions_deliver, MemoryTables.get?_dropChain] at hrow
      split at hrow
      · cases hrow
      · exact .inl hrow

lemma DriftRun.origin (h : DriftRun c SameVersions start log s) (hs : start.Opened .empty) (hf : EntitiesFit log)
    (hrow : s.tables.versions.get? ⟨c.table, id, w⟩ = some row) :
    Issued c log w ∨ w = id ∧ ∃ y ∈ log, y.suppliedToCreate = some id := by
  induction h with
  | start =>
    rw [hs.tables_eq] at hrow
    cases hrow
  | @call log s tables h drifts clock request ih =>
    rcases (Call.step c _).origin (hf _ List.mem_cons_self) hrow with hbefore | hissued | ⟨hw, hsupplied⟩
    · rw [show tables.versions = s.tables.versions from drifts] at hbefore
      refine (ih (fun y hy => hf y (List.mem_cons_of_mem _ hy)) hbefore).imp (·.cons _) ?_
      rintro ⟨hw, y, hy, hsupplied⟩
      exact ⟨hw, y, List.mem_cons_of_mem _ hy, hsupplied⟩
    · exact .inl ⟨_, List.mem_cons_self, hissued⟩
    · exact .inr ⟨hw, _, List.mem_cons_self, hsupplied⟩

lemma DriftRun.above_or_supplied (h : DriftRun c SameVersions start log s) (hs : start.Opened .empty)
    (hf : EntitiesFit log) {tables : MemoryTables} (hdrift : SameVersions s.tables tables) {clock : γ}
    {request : Request ε} (hr : ∀ x ∈ (⟨{ s with clock, tables }, request⟩ : Call ε MemoryTables γ) :: log,
      ∀ r ∈ x.readings c, Identifier.HoldsMillis r)
    {u : Identifier} (hu : u ∈ Call.issued c ⟨{ s with clock, tables }, request⟩) :
    (∀ w row, tables.versions.get? ⟨c.table, id, w⟩ = some row → w < u) ∨
      u ≤ id ∧ ∃ y ∈ log, y.suppliedToCreate = some id := by
  by_cases hless : ∀ w row, tables.versions.get? ⟨c.table, id, w⟩ = some row → w < u
  · exact .inl hless
  · simp only [not_forall] at hless
    obtain ⟨w, row, hrow, hnot⟩ := hless
    rw [show tables.versions = s.tables.versions from hdrift] at hrow
    rcases h.origin hs hf hrow with hissued | ⟨rfl, hsupplied⟩
    · exact absurd (h.issued_lt hs.sound hr hu hissued) hnot
    · exact .inr ⟨Int64.not_lt.1 hnot, hsupplied⟩

end Store

end Chronicle
