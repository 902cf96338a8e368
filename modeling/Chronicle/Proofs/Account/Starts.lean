import Chronicle.Proofs.Account.Indexes
import Chronicle.Proofs.Store.Starts

namespace Chronicle.Account

open Store (Call)

variable {γ : Type} [Clock γ] {start s : Store MemoryTables γ} {log : List (Call Account MemoryTables γ)}

theorem chains_start (h : Store.DriftRun collection Store.SameVersions start log s) (hs : start.tables = .empty)
    (hf : Store.EntitiesFit log) (hown : ∀ x ∈ log, ∀ id ∈ x.supplied, ∀ u ∈ x.issued collection, id < u) :
    (∀ id, ∃ accounts, collection.history s.tables id = .ok accounts ∧ ∀ a ∈ accounts.head?, ∃ u, a.update = some u ∧
      (¬ Store.Revived collection log id → u = id) ∧ (Store.Revived collection log id → id < u)) ∧
    (∀ x ∈ log, ∀ id, collection.current x.before.tables id = .ok none →
      (x.created? collection = some id ∧
        ∃ a, collection.history (x.after collection).tables id = .ok [a] ∧ a.update = some id) ∨
      (x.Revives collection id ∧
        ∃ a u, collection.history (x.after collection).tables id = .ok [a] ∧ a.update = some u ∧ id < u) ∨
      x.created? collection ≠ some id ∧ ¬ x.Revives collection id ∧
        collection.history (x.after collection).tables id = .ok []) ∧
    ∀ later x earlier id, log = later ++ x :: earlier → x.Deletes collection id →
      (∀ y ∈ later, y.created? collection ≠ some id ∧ ¬ y.Revives collection id) →
      collection.current s.tables id = .ok none := by
  have hread : collection.RowsRead s.tables := h.rowsRead_of_empty (fun _ _ heq => .of_eq heq) hs hf
  refine ⟨fun id => ?_, fun x hx id hnone => ?_, fun later x earlier id hlog hdeletes hlater => ?_⟩
  · obtain ⟨accounts, haccounts⟩ := hread.history_ok id
    exact ⟨accounts, haccounts, fun a ha => hread.starts (h.rowsStart hs hown id) haccounts ha⟩
  · exact Call.history_after_none (hf x hx) (hown x hx) hnone
  · exact h.current_none_of_deletes hf hown hlog hdeletes hlater

def recreation : List (SteppingClock × Store.Request Account) :=
  [(⟨9, 0⟩, .create ⟨some ⟨1835013⟩, none, "b", "x"⟩), (⟨9, 0⟩, .delete ⟨1835013⟩), (⟨7, 0⟩, .create (.new "a" "x"))]

theorem chains_start_recreation :
    let log := (Store.play collection vacant recreation).1
    let tables := (Store.play collection vacant recreation).2.tables
    Store.EntitiesFit log ∧ (∀ x ∈ log, ∀ id ∈ x.supplied, ∀ u ∈ x.issued collection, id < u) ∧
      ¬ Store.Revived collection log ⟨1835013⟩ ∧
      ∃ a, collection.history tables ⟨1835013⟩ = .ok [a] ∧ a.update = some ⟨1835013⟩ := by
  have hf : Store.EntitiesFit (Store.play collection vacant recreation).1 := by
    decide +kernel
  have ho : Store.Orderly collection (Store.play collection vacant recreation).1 := by
    decide +kernel
  have hcreated : ∀ x ∈ (Store.play collection vacant recreation).1.head?, x.created? collection = some ⟨1835013⟩ := by
    decide +kernel
  have hnot : ¬ Store.Revived collection (Store.play collection vacant recreation).1 ⟨1835013⟩ := by
    rintro (⟨e, _, hrequest, _⟩ | ⟨_, _, hne⟩)
    · cases hrequest
    · exact hne (hcreated _ rfl)
  refine ⟨hf, ho.own, hnot, ?_⟩
  have hrun := (Store.run_play collection vacant recreation).sameVersions
  obtain ⟨accounts, haccounts, hfirst⟩ := (chains_start hrun rfl hf ho.own).1 ⟨1835013⟩
  have hlength : (collection.history (Store.play collection vacant recreation).2.tables ⟨1835013⟩).map List.length =
      .ok 1 := by decide +kernel
  rw [haccounts] at hlength ⊢
  obtain ⟨a, rfl⟩ := List.length_eq_one_iff.1 (Except.ok.inj hlength)
  obtain ⟨u, hu, hown, _⟩ := hfirst a rfl
  exact ⟨a, rfl, hown hnot ▸ hu⟩

def staleUpdate : List (SteppingClock × Store.Request Account) :=
  [(⟨7, 0⟩, .update ⟨some ⟨1835013⟩, some ⟨1835013⟩, "b", "x"⟩), (⟨7, 0⟩, .delete ⟨1835013⟩),
    (⟨7, 0⟩, .create (.new "a" "x"))]

/-- The chain begins at what the update has issued, although all ids that callers bring along are less than what is
issued from then on. -/
theorem stale_update_begins_chain :
    let log := (Store.play collection vacant staleUpdate).1
    let tables := (Store.play collection vacant staleUpdate).2.tables
    Store.Orderly collection log ∧
      collection.history tables ⟨1835013⟩ = .ok [⟨some ⟨1835013⟩, some ⟨1835269⟩, "b", "x"⟩] ∧
      collection.current tables ⟨1835013⟩ = .ok (some ⟨some ⟨1835013⟩, some ⟨1835269⟩, "b", "x"⟩) := by
  decide +kernel

end Chronicle.Account
