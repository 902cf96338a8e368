import Chronicle.Entity.Account
import Chronicle.Proofs.Store.Agreement

namespace Chronicle.Collection

variable {ε : Type} [Entity ε] {c : Collection ε} {plan : WritePlan}

/-- The plans of a first version, of a later one with an update id of its own, and of a deletion. -/
inductive Plans (c : Collection ε) : WritePlan → Prop
  | create (e : ε) (id : Identifier) (stamps : Stamps) : Plans c (c.createPlan e id stamps)
  | update (previous : Option ε) (e : ε) {id u : Identifier} (hu : u ≠ id) (stamps : Stamps) :
    Plans c (c.updatePlan previous e id u stamps)
  | delete (current : Option ε) (id : Identifier) : Plans c (deletePlan current id)

lemma Plans.agrees (h : c.Plans plan) : ∀ w ∈ plan.indexWrites, ∀ w' ∈ plan.indexWrites, w.Agrees w' := by
  cases h with
  | create e id stamps => exact agrees_createPlan
  | update previous e hu stamps => exact agrees_updatePlan fun _ _ => hu
  | delete current id => exact agrees_deletePlan current

theorem plan_order_free (h : c.Plans plan) :
    (∀ t : MemoryTables, OrderFree t plan.indexWrites ∧
      ((∀ w ∈ plan.indexWrites, refusal? t w = none) → ∀ schedule,
        deliver .batched t plan = deliver (.independent schedule) t plan)) ∧
    ∀ t : KeyedTables, OrderFree t plan.indexWrites ∧
      ((∀ w ∈ plan.indexWrites, refusal? t w = none) → ∀ schedule,
        deliver .batched t plan = deliver (.independent schedule) t plan) := by
  refine ⟨fun t => ?_, fun t => ?_⟩
  · have hfree := MemoryTables.interchanges.orderFree h.agrees t
    exact ⟨hfree, hfree.deliver_eq⟩
  · have hfree := KeyedTables.interchanges.orderFree h.agrees t
    exact ⟨hfree, hfree.deliver_eq⟩

theorem plan_order_free_moved :
    let before : Account := ⟨some ⟨1⟩, some ⟨1⟩, "a", "x"⟩
    let plan := Account.collection.updatePlan (some before) ⟨some ⟨1⟩, some ⟨2⟩, "b", "x"⟩ ⟨1⟩ ⟨2⟩ ⟨0, 0⟩
    let t := (Account.collection.createPlan before ⟨1⟩ ⟨0, 0⟩).indexWrites.foldl MemoryTables.write .empty
    plan.indexWrites.length = 3 ∧ plan.indexWrites.reverse.foldl attempt t = plan.indexWrites.foldl attempt t ∧
      deliver .batched t plan = deliver (.independent .inOrder) t plan := by
  have hplans : Account.collection.Plans (Account.collection.updatePlan
      (some ⟨some ⟨1⟩, some ⟨1⟩, "a", "x"⟩) ⟨some ⟨1⟩, some ⟨2⟩, "b", "x"⟩ ⟨1⟩ ⟨2⟩ ⟨0, 0⟩) :=
    .update _ _ (by decide) _
  obtain ⟨hmemory, _⟩ := plan_order_free hplans
  have hnames : (Account.collection.updatePlan (some ⟨some ⟨1⟩, some ⟨1⟩, "a", "x"⟩) ⟨some ⟨1⟩, some ⟨2⟩, "b", "x"⟩
      ⟨1⟩ ⟨2⟩ ⟨0, 0⟩).indexWrites.forM IndexWrite.check = .ok () := by rfl
  exact ⟨by decide +kernel, (hmemory _).1.tables_eq _ (List.reverse_perm _), (hmemory _).2 (fun w hw =>
    MemoryTables.refusal?_eq_none_iff.2 (forM_eq_ok_iff.1 hnames w hw)) .inOrder⟩

end Chronicle.Collection
