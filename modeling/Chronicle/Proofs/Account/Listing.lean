import Chronicle.Proofs.Account.Indexes
import Chronicle.Proofs.Store.Listing

/-! Lists of accounts show the current version of each live account once. -/

namespace Chronicle.Account

open Store (Call)

variable {γ : Type} [Clock γ] {start s : Store MemoryTables γ} {log : List (Call Account MemoryTables γ)}

theorem live_accounts_listed (h : Store.DriftRun collection Store.SameVersions start log s) (hs : start.tables = .empty)
    (hf : Store.EntitiesFit log) :
    (∀ k v, s.tables.versions.get? k = some v →
      k.table = collection.table ∧ ∃ a, collection.ReadsAs v k.id k.update a) ∧
    ∃ found, collection.ReadsMany s.tables found := by
  have hread : collection.RowsRead s.tables := h.rowsRead_of_empty (fun _ _ heq => .of_eq heq) hs hf
  refine ⟨fun k v hget => ?_, hread.readsMany⟩
  obtain ⟨table, id, u⟩ := k
  obtain rfl : table = collection.table := h.table_eq hs hf _ v hget
  exact ⟨rfl, hread id u v hget⟩

def chosenIds : List (SteppingClock × Store.Request Account) :=
  [(⟨9, 0⟩, .delete ⟨1835013⟩), (⟨8, 0⟩, .update ⟨some ⟨5⟩, none, "d", "y"⟩),
    (⟨8, 0⟩, .create ⟨some ⟨9000000⟩, none, "c", "x"⟩), (⟨7, 0⟩, .create ⟨some ⟨5⟩, none, "b", "x"⟩),
    (⟨7, 0⟩, .create (.new "a" "x"))]

def pagesOfChosenIds : List (List Account) :=
  [[⟨some ⟨5⟩, some ⟨2097157⟩, "d", "y"⟩], [⟨some ⟨9000000⟩, some ⟨9000000⟩, "c", "x"⟩], []]

theorem live_accounts_listed_chosen_ids :
    let log := (Store.play collection vacant chosenIds).1
    let tables := (Store.play collection vacant chosenIds).2.tables
    Store.EntitiesFit log ∧ ∃ found live,
      collection.ReadsMany tables found ∧ collection.ListsLive tables found none live ∧
      Collection.ListWalk (collection.list tables · 1) 1 none pagesOfChosenIds ∧
      pagesOfChosenIds.flatten.map some = live.map found := by
  have hf : Store.EntitiesFit (Store.play collection vacant chosenIds).1 := by
    decide +kernel
  obtain ⟨_, found, hmany⟩ := live_accounts_listed (Store.run_play collection vacant chosenIds).sameVersions rfl hf
  obtain ⟨live, hlive⟩ := hmany.list none
  have hwalk : Collection.ListWalk (collection.list (Store.play collection vacant chosenIds).2.tables · 1) 1 none
      pagesOfChosenIds :=
    .next (by decide +kernel) rfl rfl (.next (by decide +kernel) rfl rfl (.last (by decide +kernel) (by decide)))
  exact ⟨hf, found, live, hmany, hlive, hwalk, hlive.walk 1 _ (by decide) hwalk⟩

end Chronicle.Account
