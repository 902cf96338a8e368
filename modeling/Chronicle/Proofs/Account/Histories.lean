import Chronicle.Proofs.Account.Indexes
import Chronicle.Proofs.Store.Histories

namespace Chronicle.Account

def unindexed (t : MemoryTables) : MemoryTables := { t with indexes := ∅ }

section

variable {γ : Type} [Clock γ] {start s : Store MemoryTables γ} {log : List (Store.Call Account MemoryTables γ)}
  {tables : MemoryTables}

theorem versions_refine_histories (h : Store.DriftRun collection Store.SameVersions start log s)
    (hs : start.Opened .empty) (ho : Store.Orderly collection log) (hf : Store.EntitiesFit log)
    (hdrift : Store.SameVersions s.tables tables) :
    collection.Shows tables (Store.written collection log) ∧
      ∀ x ∈ log, Store.Effect collection x (x.reply collection) (x.after collection).tables := by
  have heffects := h.effects hs ho hf
  have hread : collection.RowsRead s.tables := h.rowsRead (fun _ _ heq => .of_eq heq) hs hf
  refine ⟨(hread.of_versions_eq hdrift).shows fun id => ?_, heffects⟩
  rw [Collection.history_congr hdrift]
  exact h.history_eq hs heffects id

end

theorem versions_refine_histories_unindexed :
    ∃ (log : List (Store.Call Account MemoryTables SteppingClock)) (s : Store MemoryTables SteppingClock),
      Store.DriftRun collection Store.SameVersions vacant log s ∧ Store.Orderly collection log ∧
      Store.EntitiesFit log ∧ collection.Shows (unindexed s.tables) (Store.written collection log) ∧
      (Store.written collection log ⟨1835013⟩).map (·.email) = ["A", "b"] ∧
      (∀ x ∈ log, Store.Effect collection x (x.reply collection) (x.after collection).tables) := by
  have same : ∀ t : MemoryTables, Store.SameVersions t (unindexed t) := fun _ => rfl
  have created : Store.DriftRun collection Store.SameVersions vacant _ _ :=
    Store.DriftRun.start.call (same _) ⟨7, 0⟩ (.create (.new "A" "x"))
  have updated : Store.DriftRun collection Store.SameVersions vacant _ _ :=
    created.call (same _) ⟨3, 0⟩ (.update ⟨some ⟨1835013⟩, none, "b", "y"⟩)
  have refused : Store.DriftRun collection Store.SameVersions vacant _ _ :=
    updated.call (same _) ⟨3, 0⟩ (.create ⟨some ⟨1835013⟩, none, "c", "y"⟩)
  refine ⟨_, _, refused, ?orderly, ?fit,
    (versions_refine_histories refused opened_vacant ?orderly ?fit (same _)).1, by decide +kernel,
    (versions_refine_histories refused opened_vacant ?orderly ?fit (same _)).2⟩
  case orderly => decide +kernel
  case fit => decide +kernel

end Chronicle.Account
