import Chronicle.Proofs.Account.Indexes
import Chronicle.Proofs.Store.Appending

namespace Chronicle.Account

open Store (Call Request)

variable {γ : Type} [Clock γ] {start s : Store MemoryTables γ} {log : List (Call Account MemoryTables γ)}
  {x : Call Account MemoryTables γ}

theorem written_appends_iff (h : Store.DriftRun collection Store.SameVersions start (x :: log) s)
    (hs : start.Opened .empty) (hf : Store.EntitiesFit (x :: log)) {receipt : Receipt Account}
    (hreply : x.reply collection = .written receipt) :
    ∃ id u, x.request.Asks id u receipt.value ∧
      (collection.Appends x.before.tables s.tables id u receipt.value ↔
        ∀ w row, x.before.tables.versions.get? ⟨collection.table, id, w⟩ = some row → w < u) ∧
      ((∀ y ∈ x :: log, ∀ r ∈ y.readings collection, Identifier.HoldsMillis r) →
        collection.Appends x.before.tables s.tables id u receipt.value ∨
          x.issued collection = some u ∧ u ≤ id ∧ ∃ y ∈ log, y.suppliedToCreate = some id) := by
  have hread : collection.RowsRead s.tables := h.rowsRead (fun _ _ heq => .of_eq heq) hs hf
  cases h with
  | @call _ s tables h hdrift clock request =>
    have hstep := Call.step collection ⟨{ s with clock, tables }, request⟩
    rw [hreply] at hstep
    obtain ⟨v, hasks, hv, heq, hchosen⟩ := hstep.written (hf _ List.mem_cons_self)
    have hiff := hread.appends_iff hv heq
    refine ⟨v.id, v.update, hasks, hiff, fun hr => ?_⟩
    rw [hiff]
    rcases hchosen with ⟨_, _, hnone⟩ | hissued
    · left
      intro w row hrow
      cases (hnone w).symm.trans hrow
    · have hf' : Store.EntitiesFit log := fun y hy => hf y (List.mem_cons_of_mem _ hy)
      exact (h.above_or_supplied hs hf' hdrift hr hissued).imp_right fun hsupplied => ⟨hissued, hsupplied⟩

def creation : Call Account MemoryTables SteppingClock :=
  ⟨{ vacant with clock := ⟨7, 0⟩ }, .create ⟨some ⟨2097157⟩, none, "a", "x"⟩⟩

def updateAt (millis : Int64) : Call Account MemoryTables SteppingClock :=
  ⟨{ creation.after collection with clock := ⟨millis, 0⟩ }, .update ⟨some ⟨2097157⟩, none, "b", "x"⟩⟩

theorem written_appends_iff_passed :
    let calls := [updateAt 9, creation]
    let s := (updateAt 9).after collection
    Store.DriftRun collection Store.SameVersions vacant calls s ∧ Store.EntitiesFit calls ∧
      (∀ y ∈ calls, ∀ r ∈ y.readings collection, Identifier.HoldsMillis r) ∧
      ∃ receipt, (updateAt 9).reply collection = .written receipt ∧
        collection.Appends (creation.after collection).tables s.tables ⟨2097157⟩ ⟨2359301⟩ receipt.value := by
  have same (t : MemoryTables) : Store.SameVersions t t := rfl
  have created : Store.DriftRun collection Store.SameVersions vacant [creation] (creation.after collection) :=
    Store.DriftRun.start.call (same _) _ _
  have updated : Store.DriftRun collection Store.SameVersions vacant [updateAt 9, creation]
      ((updateAt 9).after collection) := created.call (same _) _ _
  have hf : Store.EntitiesFit [updateAt 9, creation] := by
    decide +kernel
  have hupdate : (updateAt 9).readings collection = [9] := by decide +kernel
  have hcreation : creation.readings collection = [] := by decide +kernel
  have hr : ∀ y ∈ [updateAt 9, creation], ∀ r ∈ y.readings collection, Identifier.HoldsMillis r := by
    simp [hupdate, hcreation, Identifier.HoldsMillis]
  obtain ⟨receipt, hreply, hvalue⟩ := Store.Reply.exists_of_value? (r := (updateAt 9).reply collection)
    (e := ⟨some ⟨2097157⟩, some ⟨2359301⟩, "b", "x"⟩) (by decide +kernel)
  refine ⟨updated, hf, hr, receipt, hreply, ?_⟩
  obtain ⟨id, u, ⟨hasks, hid⟩, _, happends⟩ := written_appends_iff updated opened_vacant hf hreply
  obtain rfl : id = ⟨2097157⟩ := (Option.some.inj hid).symm
  obtain rfl : u = ⟨2359301⟩ := by
    rw [hvalue] at hasks
    exact (Option.some.inj (congrArg Account.update hasks)).symm
  exact (happends hr).resolve_right fun hbehind => absurd hbehind.2.1 (by decide)

/-- An update in the millisecond of the creation is written, but not current. An account that is created in the
millisecond of the id takes the place of the version that is there. -/
theorem supplied_ahead :
    let create : Call Account MemoryTables SteppingClock :=
      ⟨{ creation.after collection with clock := ⟨8, 0⟩ }, .create (.new "c" "x")⟩
    ((updateAt 7).reply collection).value? = some ⟨some ⟨2097157⟩, some ⟨1835013⟩, "b", "x"⟩ ∧
      collection.current ((updateAt 7).after collection).tables ⟨2097157⟩ =
        .ok (some ⟨some ⟨2097157⟩, some ⟨2097157⟩, "a", "x"⟩) ∧
      (create.reply collection).value? = some ⟨some ⟨2097157⟩, some ⟨2097157⟩, "c", "x"⟩ ∧
      collection.history (creation.after collection).tables ⟨2097157⟩ =
        .ok [⟨some ⟨2097157⟩, some ⟨2097157⟩, "a", "x"⟩] ∧
      collection.history (create.after collection).tables ⟨2097157⟩ =
        .ok [⟨some ⟨2097157⟩, some ⟨2097157⟩, "c", "x"⟩] := by
  decide +kernel

end Chronicle.Account
