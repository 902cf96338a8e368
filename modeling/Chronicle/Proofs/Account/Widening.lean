import Chronicle.Proofs.Account.Indexes
import Chronicle.Proofs.Store.Entries
import Chronicle.Proofs.Store.Widening

namespace Chronicle.Account

open Collection (windowStart)

variable {γ : Type} [Clock γ] {start s : Store MemoryTables γ} {log : List (Store.Call Account MemoryTables γ)}
  {t : MemoryTables}

lemma dated_of_entriesMade (h : Collection.EntriesMade Account t) : t.Dated "accounts_by_day" := by
  intro value ref href
  obtain ⟨expires, hget⟩ := MemoryTables.mem_refsAfter.1 href
  obtain ⟨a, id, u, hu, hkey⟩ := h _ _ hget
  rcases Collection.mem_keys_attributes.1 hkey with ⟨_, ha⟩ | ⟨hplace, ha⟩
  · simp [hasAttribute_entity_iff] at ha
  · obtain ⟨_, u', hu', rfl⟩ := hasAttribute_version_iff.1 ha
    obtain rfl := Option.some.inj (hu.symm.trans hu')
    rw [hplace]

theorem recent_grows_with_window (h : Store.Run collection start log s) (hs : start.tables = .empty)
    (hf : Store.EntitiesFit log) (clock : γ) (hnow : Identifier.HoldsMillis (Clock.now clock)) :
    (∀ narrow wide : Nat,
      windowStart (Clock.now clock) (Int64.ofNat wide) ≤ windowStart (Clock.now clock) (Int64.ofNat narrow) →
      ∀ limit, s.tables.versions.size ≤ limit →
      ∀ accounts, Store.recent { s with clock } collection "accounts_by_day" (Int64.ofNat narrow) limit = .ok accounts →
      ∃ accounts', Store.recent { s with clock } collection "accounts_by_day" (Int64.ofNat wide) limit = .ok accounts' ∧
        ∀ a ∈ accounts, a ∈ accounts') ∧
    (∀ narrow wide : Nat, narrow ≤ wide → wide ≤ (Clock.now clock).toInt + 2 ^ 45 →
      windowStart (Clock.now clock) (Int64.ofNat wide) ≤ windowStart (Clock.now clock) (Int64.ofNat narrow)) ∧
    ∀ (window : Nat) (limit : Nat), limit ≠ 0 →
      ∃ accounts, Store.recent { s with clock } collection "accounts_by_day" (Int64.ofNat window) limit = .ok accounts := by
  have hread : collection.RowsRead s.tables :=
    h.drift.rowsRead_of_empty (fun _ _ (heq : _ = _) => .of_eq (congrArg _ heq.symm)) hs hf
  have hdated := dated_of_entriesMade (h.entriesMade hs)
  refine ⟨fun narrow wide hstart limit hlimit accounts hrecent => ?_, fun narrow wide hle hwide => ?_,
    fun window limit hlimit => ?_⟩
  · exact hread.recent_widened hdated hnow hstart hlimit hrecent
  · exact Collection.windowStart_le hnow hle hwide
  · exact hread.recent_ok _ _ hlimit

def twoDays : List (SteppingClock × Store.Request Account) :=
  [(⟨86400000, 0⟩, .create (.new "B" "y")), (⟨7, 0⟩, .create (.new "A" "x"))]

theorem recent_grows_with_window_two_days :
    let s : Store MemoryTables SteppingClock :=
      { (Store.play collection vacant twoDays).2 with clock := ⟨86400001, 0⟩ }
    Store.EntitiesFit (Store.play collection vacant twoDays).1 ∧ s.tables.versions.size ≤ 2 ∧
      windowStart 86400001 (Int64.ofNat 35184458488833) ≤ windowStart 86400001 (Int64.ofNat 86399994) ∧
      ∃ accounts accounts', Store.recent s collection "accounts_by_day" (Int64.ofNat 86399994) 2 = .ok accounts ∧
        Store.recent s collection "accounts_by_day" (Int64.ofNat 35184458488833) 2 = .ok accounts' ∧
        accounts.length = 2 ∧ ∀ a ∈ accounts, a ∈ accounts' := by
  have hf : Store.EntitiesFit (Store.play collection vacant twoDays).1 := by
    decide +kernel
  obtain ⟨hgrows, hstart, hok⟩ := recent_grows_with_window (Store.run_play collection vacant twoDays) rfl hf
    (⟨86400001, 0⟩ : SteppingClock) (by decide)
  have hstart := hstart 86399994 35184458488833 (by decide) (by decide)
  have hsize : (Store.play collection vacant twoDays).2.tables.versions.size ≤ 2 := by decide +kernel
  obtain ⟨accounts, haccounts⟩ := hok 86399994 2 (by decide)
  obtain ⟨accounts', haccounts', hall⟩ := hgrows _ _ hstart 2 hsize accounts haccounts
  have hlength : (Store.recent { (Store.play collection vacant twoDays).2 with clock := (⟨86400001, 0⟩ : SteppingClock) }
      collection "accounts_by_day" (Int64.ofNat 86399994) 2).map List.length = .ok 2 := by decide +kernel
  rw [haccounts] at hlength
  exact ⟨hf, hsize, hstart, accounts, accounts', haccounts, haccounts', Except.ok.inj hlength, hall⟩

/-- A window of no length shows an account of the very millisecond. One that goes back beyond the least identifier
begins after it, and so does one of more milliseconds than a word holds. -/
theorem recent_shrinks_with_window :
    let log := (Store.play collection vacant [(⟨7, 0⟩, .create (.new "a" "x"))]).1
    let s := (Store.play collection vacant [(⟨7, 0⟩, .create (.new "a" "x"))]).2
    Store.AllComplete collection log ∧ (Clock.now s.clock).toInt = 7 ∧ s.tables.versions.size ≤ 10 ∧
      Store.recent s collection "accounts_by_day" (Int64.ofNat 0) 10 =
        .ok [⟨some ⟨1835013⟩, some ⟨1835013⟩, "a", "x"⟩] ∧
      Store.recent s collection "accounts_by_day" (Int64.ofNat 35184372088840) 10 = .ok [] ∧
      Store.recent s collection "accounts_by_day" (Int64.ofNat 18446744073709551615) 10 = .ok [] := by
  decide +kernel

end Chronicle.Account
