import Chronicle.Proofs.Store.VersionRows

/-! The indexes of accounts over every run of creates, updates and deletes. -/

namespace Chronicle.Account

open Entity (HasAttribute)

variable {γ : Type} [Clock γ]

lemma hasAttribute_entity_iff {a : Account} {name value : String} :
    HasAttribute a .entity name value ↔
      name = "accounts_by_email" ∧ value = Text.lowercase a.email ∨ name = "accounts_by_state" ∧ value = a.state := by
  cases hu : a.update <;>
    simp [HasAttribute, Entity.attributes, attributes, Attribute.Matches, hu, eq_comm]

lemma hasAttribute_version_iff {a : Account} {name value : String} :
    HasAttribute a .version name value ↔ name = "accounts_by_day" ∧ ∃ u, a.update = some u ∧ value = u.dayText := by
  cases hu : a.update <;>
    simp [HasAttribute, Entity.attributes, attributes, Attribute.Matches, hu, eq_comm]

lemma entityRows {start s : Store MemoryTables γ} {log : List (Store.Call Account MemoryTables γ)}
    (h : Store.Run collection start log s) (hs : start.Opened .empty) (ho : Store.Orderly collection log)
    (hf : Store.EntitiesFit log) (hc : Store.AllComplete collection log) {name : String}
    (hname : name ≠ "accounts_by_day") : collection.EntityRows name s.tables :=
  h.entityRows hs ho hf hc (fun _ _ ha => hname (hasAttribute_version_iff.1 ha).1) rfl

theorem index_rows_exact {start s : Store MemoryTables γ} {log : List (Store.Call Account MemoryTables γ)}
    (h : Store.Run collection start log s) (hs : start.Opened .empty) (ho : Store.Orderly collection log)
    (hn : Store.CreatesAnew collection log) (hc : Store.AllComplete collection log) (hf : Store.EntitiesFit log) :
    (∀ name ∈ ["accounts_by_email", "accounts_by_state"], ∀ value id cell,
      s.tables.indexes.get? ⟨name, value, id⟩ = some cell ↔
        cell = ⟨id, none⟩ ∧ ∃ a, collection.current s.tables id = .ok (some a) ∧ HasAttribute a .entity name value) ∧
    (∀ id u v, s.tables.versions.get? ⟨collection.table, id, u⟩ = some v →
      s.tables.indexes.get? ⟨"accounts_by_day", u.dayText, u⟩ = some ⟨id, none⟩) ∧
    ∀ value u cell, s.tables.indexes.get? ⟨"accounts_by_day", value, u⟩ = some cell →
      value = u.dayText ∧ cell.expires = none ∧
        ((∃ v, s.tables.versions.get? ⟨collection.table, cell.entity, u⟩ = some v) ∨
          ∃ x ∈ log, ∃ a, x.Buries collection cell.entity u a) := by
  have hentity : ∀ (a : Account) value, ¬ HasAttribute a .entity "accounts_by_day" value := by
    intro a value ha
    simp [hasAttribute_entity_iff] at ha
  obtain ⟨_, hversion⟩ := h.versionRows hs ho hf hc hn hentity rfl
  refine ⟨fun name hname => ?_, fun id u v hv => ?_, fun value u cell hget => ?_⟩
  · exact entityRows h hs ho hf hc (by rintro rfl; simp at hname)
  · obtain ⟨a, ha⟩ := h.rowsRead hs hf id u v hv
    exact hversion.present id u a _ ⟨v, hv, ha⟩ (hasAttribute_version_iff.2 ⟨rfl, u, ha.entity_update, rfl⟩)
  · obtain ⟨hexpires, a, ha, hstored⟩ := hversion.explained value u cell hget
    obtain ⟨_, w, hw, rfl⟩ := hasAttribute_version_iff.1 ha
    rcases hstored with ⟨v, hv, hr⟩ | ⟨x, hx, hb⟩
    · obtain rfl : u = w := Option.some.inj (hr.entity_update.symm.trans hw)
      exact ⟨rfl, hexpires, .inl ⟨v, hv⟩⟩
    · obtain ⟨v, _, hr⟩ := hb.stored
      obtain rfl : u = w := Option.some.inj (hr.entity_update.symm.trans hw)
      exact ⟨rfl, hexpires, .inr ⟨x, hx, a, hb⟩⟩

def vacant : Store MemoryTables SteppingClock :=
  ⟨.empty, { Issuer.ofPatience 0 with node := some 5 }, ⟨0, 0⟩, .batched⟩

lemma opened_vacant : vacant.Opened .empty := Store.opened_assigned (by decide) ..

def shortRun : List (SteppingClock × Store.Request Account) :=
  [(⟨3, 0⟩, .delete ⟨1835013⟩), (⟨3, 0⟩, .update ⟨some ⟨1835013⟩, none, "b", "y"⟩), (⟨7, 0⟩, .create (.new "A" "x"))]

theorem index_rows_exact_after_deletion :
    let log := (Store.play collection vacant shortRun).1
    let tables := (Store.play collection vacant shortRun).2.tables
    Store.Orderly collection log ∧ Store.CreatesAnew collection log ∧ Store.AllComplete collection log ∧
      Store.EntitiesFit log ∧ tables.versions.size = 0 ∧
      tables.indexes.entries = [(⟨"accounts_by_day", "19700101", ⟨1835013⟩⟩, ⟨⟨1835013⟩, none⟩)] ∧
      ∃ x ∈ log, ∃ a, x.Buries collection ⟨1835013⟩ ⟨1835013⟩ a := by
  have ho : Store.Orderly collection (Store.play collection vacant shortRun).1 := by
    decide +kernel
  have hn : Store.CreatesAnew collection (Store.play collection vacant shortRun).1 := by
    decide +kernel
  have hc : Store.AllComplete collection (Store.play collection vacant shortRun).1 := by
    decide +kernel
  have hf : Store.EntitiesFit (Store.play collection vacant shortRun).1 := by
    decide +kernel
  have hrows := index_rows_exact (Store.run_play _ _ _) opened_vacant ho hn hc hf
  refine ⟨ho, hn, hc, hf, by decide +kernel, by decide +kernel, ?_⟩
  obtain ⟨_, _, ⟨v, hv⟩ | hburied⟩ := hrows.2.2 "19700101" ⟨1835013⟩ ⟨⟨1835013⟩, none⟩ (by decide +kernel)
  · revert hv
    have hnone : (Store.play collection vacant shortRun).2.tables.versions.get?
        ⟨collection.table, ⟨1835013⟩, ⟨1835013⟩⟩ = none := by decide +kernel
    simp [hnone]
  · exact hburied

end Chronicle.Account
