import Chronicle.Proofs.Event.Discovery
import Chronicle.Proofs.Store.BackedRows

namespace Chronicle.Event

open Entity (HasAttribute)
open MemoryTables (Purged)

variable {γ : Type} [Clock γ]

lemma hasAttribute_version_iff {e : Event} {name value : String} :
    HasAttribute e .version name value ↔ name = "events_by_day" ∧ ∃ u ∈ e.update, value = u.dayText := by
  cases hu : e.update <;>
    simp [HasAttribute, Entity.attributes, attributes, Attribute.Matches, hu, eq_comm]

lemma not_hasAttribute_entity (e : Event) (value : String) : ¬ HasAttribute e .entity "events_by_day" value := by
  rw [hasAttribute_entity_iff]
  simp

theorem no_row_left_behind {start s : Store MemoryTables γ} {log : List (Store.Call Event MemoryTables γ)}
    {tables : MemoryTables} (h : Store.DriftRun collection Purged start log s) (hs : start.Opened .empty)
    (hwrites : ∀ x ∈ log, x.request.entity?.isSome) (hsupplies : Store.SuppliesCreated collection log)
    (hr : Store.ReadsInRange collection log) (hclock : Store.ClockRises collection log)
    (hc : Store.AllComplete collection log) (hf : Store.EntitiesFit log) (hpurged : Purged s.tables tables) :
    (∀ kind place cell, tables.indexes.get? ⟨"events_by_kind", kind, place⟩ = some cell →
      cell.entity = place ∧ ∃ e, collection.current tables cell.entity = .ok (some e) ∧ e.kind = kind) ∧
    (∀ day u cell, tables.indexes.get? ⟨"events_by_day", day, u⟩ = some cell →
      ∃ e, collection.version tables cell.entity u = .ok (some e) ∧ u.dayText = day) ∧
    (∀ kind after limit, 0 < limit →
      ∃ page, collection.lookup tables "events_by_kind" kind after limit = .ok page ∧ page.stale = []) ∧
    ∀ day after limit, 0 < limit →
      ∃ page, collection.lookupVersions tables "events_by_day" day after limit = .ok page ∧ page.stale = [] := by
  have ho := h.orderly hs.sound hr hsupplies
  have hread : collection.RowsRead tables :=
    (h.rowsRead (fun _ _ => Purged.versionsWithin) hs hf).mono hpurged.versionsWithin
  have hkinds : ∀ kind place cell, tables.indexes.get? ⟨"events_by_kind", kind, place⟩ = some cell →
      cell.entity = place ∧ ∃ e, collection.current tables cell.entity = .ok (some e) ∧ e.kind = kind := by
    intro kind place cell hget
    have hbacked := ((h.backed hs ho hf hc hclock hwrites).1 not_hasAttribute_version).purged hpurged
    obtain ⟨rfl, u, v, e, hv, hlatest, ha, _⟩ := hbacked kind place cell hget
    exact ⟨rfl, e, hread.current_of_isLatest hlatest, (hasAttribute_entity_iff.1 ha).2.symm⟩
  have hdays : ∀ day u cell, tables.indexes.get? ⟨"events_by_day", day, u⟩ = some cell →
      ∃ e, collection.version tables cell.entity u = .ok (some e) ∧ u.dayText = day := by
    intro day u cell hget
    have hbacked := ((h.backed hs ho hf hc hclock hwrites).2 not_hasAttribute_entity).purged hpurged
    obtain ⟨v, e, hv, hreads, ha, _⟩ := hbacked day u cell hget
    obtain ⟨_, w, hw, rfl⟩ := hasAttribute_version_iff.1 ha
    obtain rfl := Option.some.inj (hreads.entity_update.symm.trans hw)
    exact ⟨e, Collection.Stores.version_eq ⟨v, hv, hreads⟩, rfl⟩
  refine ⟨hkinds, hdays, fun kind after limit hlimit => ?_, fun day after limit hlimit => ?_⟩
  · refine Collection.siftPage_of_found hlimit after fun place cell hget => ?_
    obtain ⟨_, e, hcurrent, rfl⟩ := hkinds kind place cell hget
    refine ⟨e, ?_⟩
    rw [Collection.confirm_of_current hcurrent]
    simp [Option.filter, carries_kind]
  · refine Collection.siftPage_of_found hlimit after fun place cell hget => ?_
    obtain ⟨e, hversion, _⟩ := hdays day place cell hget
    exact ⟨e, hversion⟩

theorem no_row_left_behind_changed :
    ∃ (log : List (Store.Call Event MemoryTables RunningClock)) (s : Store MemoryTables RunningClock)
      (tables : MemoryTables), Store.DriftRun collection Purged (vacant ⟨0, 1⟩) log s ∧
      (∀ x ∈ log, x.request.entity?.isSome) ∧ Store.SuppliesCreated collection log ∧
      Store.ReadsInRange collection log ∧ Store.ClockRises collection log ∧ Store.AllComplete collection log ∧
      Store.EntitiesFit log ∧ Purged s.tables tables ∧ tables.indexes.size = 2 ∧
      (∃ page, collection.lookup tables "events_by_kind" "b" none 8 = .ok page ∧ page.stale = []) ∧
      ∃ page, collection.lookupVersions tables "events_by_day" "19700101" none 8 = .ok page ∧ page.stale = [] := by
  have created : Store.DriftRun collection Purged (vacant (⟨0, 1⟩ : RunningClock)) _ _ :=
    Store.DriftRun.start.call .none ⟨0, 1⟩ (.create ⟨none, none, "a"⟩)
  have kept : Store.DriftRun collection Purged (vacant (⟨0, 1⟩ : RunningClock)) _ _ :=
    created.call .none ⟨1000, 1⟩ (.update ⟨some ⟨1⟩, none, "a"⟩)
  have second : Store.DriftRun collection Purged (vacant (⟨0, 1⟩ : RunningClock)) _ _ :=
    kept.call .none ⟨1000, 1⟩ (.create ⟨none, none, "a"⟩)
  have changed : Store.DriftRun collection Purged (vacant (⟨0, 1⟩ : RunningClock)) _ _ :=
    second.call (Purged.none.purge 3600500 rfl) ⟨3600600, 1⟩ (.update ⟨some ⟨1⟩, none, "b"⟩)
  have hafter := no_row_left_behind changed (opened_vacant _) ?writes ?supplies ?reads ?rises ?complete ?fit
    (Purged.none.purge 3601500 rfl)
  refine ⟨_, _, _, changed, ?writes, ?supplies, ?reads, ?rises, ?complete, ?fit, Purged.none.purge 3601500 rfl, ?size,
    hafter.2.2.1 "b" none 8 (by decide), hafter.2.2.2 "19700101" none 8 (by decide)⟩
  all_goals decide +kernel

end Chronicle.Event
