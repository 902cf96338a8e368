import Chronicle.Proofs.Store.Runs
import Chronicle.Proofs.Table.Memory
import Chronicle.Proofs.Traversal

namespace Chronicle

namespace MemoryTables

lemma put_ok {t t' : MemoryTables} {table : String} {v : StoredVersion} (h : Tables.put t table v = .ok t') :
    t' = t.put table v := by
  change (do refuseNul .table table; return t.put table v : Except Error MemoryTables) = .ok t' at h
  cases hc : refuseNul .table table with
  | error e => rw [hc] at h; cases h
  | ok _ => rw [hc] at h; cases h; rfl

lemma error_of_put {t : MemoryTables} {table : String} {v : StoredVersion} {err : Error}
    (h : Tables.put t table v = .error err) : ∃ fault, err = .argument fault := by
  change (do refuseNul .table table; return t.put table v : Except Error MemoryTables) = .error err at h
  unfold refuseNul at h
  split at h
  · cases h
    exact ⟨_, rfl⟩
  · cases h

lemma dropChain_ok {t t' : MemoryTables} {table : String} {id : Identifier} {n : Nat}
    (h : Tables.dropChain t table id = .ok (n, t')) : t' = t.dropChain table id := by
  cases h
  rfl

lemma get?_of_latest?_none {t : MemoryTables} {table : String} {id : Identifier}
    (h : Tables.latest? t table id = .ok none) (u : Identifier) : t.versions.get? ⟨table, id, u⟩ = none := by
  have hnil : (t.chain table id).getLast? = none := Except.ok.inj h
  cases hget : t.versions.get? ⟨table, id, u⟩ with
  | none => rfl
  | some v =>
    have hmem := mem_chain.2 ⟨u, hget⟩
    rw [List.getLast?_eq_none_iff.1 hnil] at hmem
    cases hmem

end MemoryTables

namespace Collection

variable {ε : Type} [Entity ε] {c : Collection ε} {t t' : MemoryTables} {id id' u : Identifier} {e : ε}
  {v : StoredVersion}

lemma current_eq (c : Collection ε) (t : MemoryTables) (id : Identifier) :
    c.current t id = (t.chain c.table id).getLast?.mapM c.decode := rfl

lemma current_congr (h : t'.versions = t.versions) : c.current t' id = c.current t id := by
  rw [current_eq, current_eq, MemoryTables.chain, h]
  rfl

lemma current_of_chain_eq_nil (h : t.chain c.table id = []) : c.current t id = .ok none := by
  rw [current_eq, h]
  rfl

lemma exists_version_of_current (h : c.current t id = .ok (some e)) :
    ∃ u v, t.versions.get? ⟨c.table, id, u⟩ = some v := by
  rw [current_eq] at h
  cases hlast : (t.chain c.table id).getLast? with
  | none =>
    rw [hlast] at h
    cases h
  | some v =>
    obtain ⟨u, hu⟩ := MemoryTables.mem_chain.1 (List.mem_of_getLast? hlast)
    exact ⟨u, v, hu⟩

lemma current_put_self (h : ∀ u w, t.versions.get? ⟨c.table, v.id, u⟩ = some w → u < v.update)
    (hd : c.decode v = .ok e) : c.current (t.put c.table v) v.id = .ok (some e) := by
  rw [current_eq, MemoryTables.chain_put_self h, List.getLast?_concat]
  exact mapM_some hd

lemma current_put_of_ne (h : v.id ≠ id) : c.current (t.put c.table v) id = c.current t id := by
  rw [current_eq, current_eq, MemoryTables.chain_put_of_ne h]

lemma current_dropChain_self : c.current (t.dropChain c.table id) id = .ok none :=
  current_of_chain_eq_nil MemoryTables.chain_dropChain_self

lemma current_dropChain_of_ne (h : id ≠ id') : c.current (t.dropChain c.table id) id' = c.current t id' := by
  rw [current_eq, current_eq, MemoryTables.chain_dropChain_of_ne h]

structure ReadsAs (c : Collection ε) (v : StoredVersion) (id u : Identifier) (e : ε) : Prop where
  id_eq : v.id = id
  update_eq : v.update = u
  decode_eq : c.decode v = .ok e
  entity_id : Entity.id e = some id
  entity_update : Entity.update e = some u

def RowsRead (c : Collection ε) (t : MemoryTables) : Prop :=
  ∀ id u v, t.versions.get? ⟨c.table, id, u⟩ = some v → ∃ e, c.ReadsAs v id u e

def Stores (c : Collection ε) (t : MemoryTables) (id u : Identifier) (e : ε) : Prop :=
  ∃ v, t.versions.get? ⟨c.table, id, u⟩ = some v ∧ c.ReadsAs v id u e

lemma ReadsAs.unique {e' : ε} (h : c.ReadsAs v id u e) (h' : c.ReadsAs v id u e') : e = e' :=
  Except.ok.inj (h.decode_eq.symm.trans h'.decode_eq)

lemma Stores.unique {e' : ε} (h : c.Stores t id u e) (h' : c.Stores t id u e') : e = e' := by
  obtain ⟨v, hv, hr⟩ := h
  obtain ⟨v', hv', hr'⟩ := h'
  rw [hv] at hv'
  cases hv'
  exact hr.unique hr'

structure IsLatest (c : Collection ε) (t : MemoryTables) (id : Identifier) (e : ε) (u : Identifier) : Prop where
  stored : c.Stores t id u e
  le : ∀ w v, t.versions.get? ⟨c.table, id, w⟩ = some v → w = u ∨ w < u

namespace ReadsAs

variable (h : c.ReadsAs v id u e) (hv : t'.versions = (t.put c.table v).versions)
include h hv

lemma get?_put (k : VersionKey) :
    t'.versions.get? k = if k = ⟨c.table, id, u⟩ then some v else t.versions.get? k := by
  rw [hv, MemoryTables.get?_put, h.id_eq, h.update_eq]

lemma get?_put_of_ne (hne : id ≠ id') (w : Identifier) :
    t'.versions.get? ⟨c.table, id', w⟩ = t.versions.get? ⟨c.table, id', w⟩ := by
  rw [h.get?_put hv, if_neg fun hk => hne (VersionKey.mk.inj hk).2.1.symm]

lemma stores_put : c.Stores t' id u e := ⟨v, by rw [h.get?_put hv, if_pos rfl], h⟩

lemma isLatest_put (habove : ∀ w v', t.versions.get? ⟨c.table, id, w⟩ = some v' → w < u) : c.IsLatest t' id e u := by
  refine ⟨h.stores_put hv, fun w v' hw => ?_⟩
  rw [h.get?_put hv] at hw
  split at hw
  · next hk => exact .inl (VersionKey.mk.inj hk).2.2
  · exact .inr (habove w v' hw)

end ReadsAs

lemma RowsRead.current_ok (h : c.RowsRead t) (id : Identifier) :
    ∃ o, c.current t id = .ok o ∧ ∀ e ∈ o, ∃ u, c.IsLatest t id e u := by
  rw [current_eq]
  cases hl : (t.chain c.table id).getLast? with
  | none => exact ⟨none, rfl, by simp⟩
  | some v =>
    obtain ⟨u, hu, hle⟩ := MemoryTables.last_of_getLast?_chain hl
    obtain ⟨e, he⟩ := h id u v hu
    refine ⟨some e, mapM_some he.decode_eq, fun e' he' => ?_⟩
    obtain rfl : e = e' := by simpa using he'
    exact ⟨u, ⟨v, hu, he⟩, hle⟩

lemma RowsRead.latest_of_current (h : c.RowsRead t) (hcurrent : c.current t id = .ok (some e)) :
    ∃ u, c.IsLatest t id e u := by
  obtain ⟨o, ho, hlatest⟩ := h.current_ok id
  rw [hcurrent] at ho
  cases ho
  exact hlatest e rfl

lemma IsLatest.unique {w : Identifier} {e' : ε} (h : c.IsLatest t id e u) (h' : c.IsLatest t id e' w) : u = w := by
  obtain ⟨v, hv, _⟩ := h.stored
  obtain ⟨v', hv', _⟩ := h'.stored
  rcases h.le w v' hv' with rfl | hlt
  · rfl
  · rcases h'.le u v hv with rfl | hgt
    · rfl
    · exact absurd (Int64.lt_trans hlt hgt) Int64.lt_irrefl

lemma RowsRead.isLatest (h : c.RowsRead t) {o : Option ε} (hcurrent : c.current t id = .ok o)
    (hv : t.versions.get? ⟨c.table, id, u⟩ = some v) : ∃ e ∈ o, ∃ w, c.IsLatest t id e w := by
  obtain ⟨o', ho', hlatest⟩ := h.current_ok id
  rw [hcurrent] at ho'
  cases ho'
  cases o with
  | some e => exact ⟨e, rfl, hlatest e rfl⟩
  | none =>
    have hmem := MemoryTables.mem_chain.2 ⟨u, hv⟩
    rw [current_eq] at hcurrent
    cases hl : (t.chain c.table id).getLast? with
    | none =>
      rw [List.getLast?_eq_none_iff.1 hl] at hmem
      cases hmem
    | some w =>
      obtain ⟨u', hw, _⟩ := MemoryTables.last_of_getLast?_chain hl
      obtain ⟨e, he⟩ := h id u' w hw
      rw [hl, mapM_some he.decode_eq] at hcurrent
      cases hcurrent

lemma RowsRead.current_of_isLatest (h : c.RowsRead t) (hlatest : c.IsLatest t id e u) :
    c.current t id = .ok (some e) := by
  obtain ⟨v, hv, _⟩ := hlatest.stored
  obtain ⟨o, hcurrent, _⟩ := h.current_ok id
  obtain ⟨e', rfl, w, hlatest'⟩ := h.isLatest hcurrent hv
  obtain rfl := hlatest.unique hlatest'
  rw [hcurrent, hlatest.stored.unique hlatest'.stored]

lemma Stores.version_eq (h : c.Stores t id u e) : c.version t id u = .ok (some e) := by
  obtain ⟨v, hv, hr⟩ := h
  change (t.versions.get? ⟨c.table, id, u⟩).mapM c.decode = _
  rw [hv, mapM_some hr.decode_eq]

def VersionsWithin (t' t : MemoryTables) : Prop := ∀ k v, t'.versions.get? k = some v → t.versions.get? k = some v

lemma VersionsWithin.of_eq (h : t'.versions = t.versions) : VersionsWithin t' t := fun _ _ hget => h ▸ hget

lemma RowsRead.mono (h : c.RowsRead t) (hv : VersionsWithin t' t) : c.RowsRead t' :=
  fun id u v hget => h id u v (hv _ v hget)

lemma RowsRead.of_versions_eq (h : c.RowsRead t) (hv : t'.versions = t.versions) : c.RowsRead t' :=
  h.mono (.of_eq hv)

lemma RowsRead.put (h : c.RowsRead t) (hv : c.ReadsAs v v.id v.update e) : c.RowsRead (t.put c.table v) := by
  intro id u w hget
  rw [MemoryTables.get?_put] at hget
  split at hget
  · next hk =>
    obtain ⟨_, rfl, rfl⟩ := VersionKey.mk.inj hk
    obtain rfl : v = w := by simpa using hget
    exact ⟨e, hv⟩
  · exact h id u w hget

lemma RowsRead.dropChain (h : c.RowsRead t) (id : Identifier) : c.RowsRead (t.dropChain c.table id) := by
  intro id' u w hget
  rw [MemoryTables.get?_dropChain] at hget
  split at hget
  · simp at hget
  · exact h id' u w hget

variable [LawfulEntity ε]

lemma readsAs_newVersion (hf : LawfulEntity.Fits e) (hid : Entity.id e = some id) (hu : Entity.update e = some u)
    (stamps : Stamps) : c.ReadsAs (c.newVersion e id u stamps) id u e where
  id_eq := rfl
  update_eq := rfl
  decode_eq := by rw [decode, newVersion, LawfulEntity.readsBack_codec.read? hf]
  entity_id := hid
  entity_update := hu

end Collection

namespace Store

variable {ε γ : Type} [Entity ε] [Clock γ] {c : Collection ε} {start s : Store MemoryTables γ}
  {log : List (Call ε MemoryTables γ)} {x : Call ε MemoryTables γ} {t : MemoryTables} {r : Reply ε}

def RowsKnown (c : Collection ε) (log : List (Call ε MemoryTables γ)) (t : MemoryTables) : Prop :=
  ∀ id u v, t.versions.get? ⟨c.table, id, u⟩ = some v → Known c log id ∧ (u = id ∨ Issued c log u)

lemma RowsKnown.cons (h : RowsKnown c log t) (x : Call ε MemoryTables γ) : RowsKnown c (x :: log) t := by
  intro id u v hget
  obtain ⟨hid, hu⟩ := h id u v hget
  exact ⟨hid.cons x, hu.imp_right fun hu => hu.cons x⟩

lemma RowsKnown.mono {t' : MemoryTables} (h : RowsKnown c log t) (hv : Collection.VersionsWithin t' t) :
    RowsKnown c log t' :=
  fun id u v hget => h id u v (hv _ v hget)

lemma RowsKnown.update_known (h : RowsKnown c log t) {id u : Identifier} {v : StoredVersion}
    (hget : t.versions.get? ⟨c.table, id, u⟩ = some v) : Known c log u := by
  obtain ⟨hid, rfl | ⟨y, hy, hu⟩⟩ := h id u v hget
  · exact hid
  · exact ⟨y, hy, .inr hu⟩

variable [LawfulEntity ε]

lemma Step.versions (h : Step c x r t) (hf : ∀ e ∈ x.request.entity?, LawfulEntity.Fits e) :
    t.versions = x.before.tables.versions ∨
      (∃ v e, c.ReadsAs v v.id v.update e ∧ t.versions = (x.before.tables.put c.table v).versions ∧
        (v.id ∈ x.supplied ∨ v.id ∈ x.issued c) ∧ (v.update = v.id ∨ v.update ∈ x.issued c)) ∨
      ∃ id, t.versions = (x.before.tables.dropChain c.table id).versions := by
  cases h with
  | refused err => exact .inl rfl
  | @created e id stamps tables receipt hreq hchosen _ hput =>
    have hfit := LawfulEntity.fits_stamp id id (hf e (by rw [hreq]; rfl))
    obtain rfl := MemoryTables.put_ok hput
    refine .inr (.inl ⟨_, _, Collection.readsAs_newVersion hfit LawfulEntity.id_stamp LawfulEntity.update_stamp stamps,
      MemoryTables.versions_deliver .., ?_, .inl rfl⟩)
    rcases hchosen with ⟨hid, _⟩ | hissued
    · left
      rw [Call.supplied, hreq]
      exact hid
    · exact .inr hissued
  | @updated e id u previous stamps tables receipt hreq hid _ hissued _ hput =>
    have hfit := LawfulEntity.fits_withUpdate u (hf e (by rw [hreq]; rfl))
    obtain rfl := MemoryTables.put_ok hput
    refine .inr (.inl ⟨_, _, Collection.readsAs_newVersion hfit (by rw [LawfulEntity.id_withUpdate, hid])
      (LawfulEntity.update_withUpdate ..) stamps, MemoryTables.versions_deliver .., .inl ?_, .inr hissued⟩)
    rw [Call.supplied, hreq]
    exact hid
  | @deleted id current n tables receipt _ _ hdrop =>
    obtain rfl := MemoryTables.dropChain_ok hdrop
    exact .inr (.inr ⟨id, MemoryTables.versions_deliver ..⟩)

section

variable {Drift : MemoryTables → MemoryTables → Prop}
  (hdrift : ∀ t t', Drift t t' → Collection.VersionsWithin t' t)

include hdrift

lemma DriftRun.rowsRead_of_empty (h : DriftRun c Drift start log s) (hs : start.tables = .empty)
    (hf : EntitiesFit log) : c.RowsRead s.tables := by
  induction h with
  | start =>
    rw [hs]
    intro _ _ _ hget
    cases hget
  | @call log s tables h drifts clock request ih =>
    have hread := (ih fun y hy => hf y (List.mem_cons_of_mem _ hy)).mono (hdrift _ _ drifts)
    rcases (Call.step c _).versions (hf _ List.mem_cons_self) with heq | ⟨v, e, hv, heq, _⟩ | ⟨id, heq⟩
    · exact hread.of_versions_eq heq
    · exact (hread.put hv).of_versions_eq heq
    · exact (hread.dropChain id).of_versions_eq heq

lemma DriftRun.rowsRead (h : DriftRun c Drift start log s) (hs : start.Opened .empty) (hf : EntitiesFit log) :
    c.RowsRead s.tables :=
  h.rowsRead_of_empty hdrift hs.tables_eq hf

lemma DriftRun.rowsKnown (h : DriftRun c Drift start log s) (hs : start.Opened .empty) (hf : EntitiesFit log) :
    RowsKnown c log s.tables := by
  induction h with
  | start =>
    rw [hs.tables_eq]
    intro _ _ _ hget
    cases hget
  | @call log s tables h drifts clock request ih =>
    have hknown : RowsKnown c (⟨{ s with clock, tables }, request⟩ :: log) tables :=
      ((ih fun y hy => hf y (List.mem_cons_of_mem _ hy)).mono (hdrift _ _ drifts)).cons _
    intro id u w hget
    rcases (Call.step c ⟨{ s with clock, tables }, request⟩).versions (hf _ List.mem_cons_self) with
      heq | ⟨v, e, _, heq, hid, hu⟩ | ⟨id', heq⟩
    · exact hknown id u w (heq ▸ hget)
    · rw [heq, MemoryTables.get?_put] at hget
      split at hget
      · next hk =>
        obtain ⟨_, rfl, rfl⟩ := VersionKey.mk.inj hk
        exact ⟨⟨_, List.mem_cons_self, hid⟩, hu.imp_right fun hu => ⟨_, List.mem_cons_self, hu⟩⟩
      · exact hknown id u w hget
    · rw [heq, MemoryTables.get?_dropChain] at hget
      split at hget
      · simp at hget
      · exact hknown id u w hget

lemma DriftRun.stored_lt_issued (h : DriftRun c Drift start log s) (hs : start.Opened .empty) {tables : MemoryTables}
    (drifts : Drift s.tables tables) {clock : γ} {request : Request ε}
    (ho : Orderly c (⟨{ s with clock, tables }, request⟩ :: log)) (hf : EntitiesFit log) :
    ∀ v ∈ Call.issued c ⟨{ s with clock, tables }, request⟩, ∀ id u w,
      tables.versions.get? ⟨c.table, id, u⟩ = some w → id < v ∧ u < v := by
  intro v hv id u w hget
  have hknown := (h.rowsKnown hdrift hs hf).mono (hdrift _ _ drifts)
  exact ⟨h.known_lt hs.sound ho hv id (hknown id u w hget).1, h.known_lt hs.sound ho hv u (hknown.update_known hget)⟩

end

lemma Run.rowsRead (h : Run c start log s) (hs : start.Opened .empty) (hf : EntitiesFit log) : c.RowsRead s.tables :=
  h.drift.rowsRead (fun _ _ (heq : _ = _) => .of_eq (congrArg _ heq.symm)) hs hf

lemma Run.rowsKnown (h : Run c start log s) (hs : start.Opened .empty) (hf : EntitiesFit log) :
    RowsKnown c log s.tables :=
  h.drift.rowsKnown (fun _ _ (heq : _ = _) => .of_eq (congrArg _ heq.symm)) hs hf

end Store

end Chronicle
