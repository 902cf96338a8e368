import Chronicle.Proofs.Store.Agreement
import Chronicle.Proofs.Store.Runs
import Chronicle.Proofs.Table.Counting

namespace Chronicle.Store

variable {ε σ γ : Type} [Entity ε] [Tables σ] [Clock γ] {c : Collection ε} {start s : Store σ γ}
  {log : List (Call ε σ γ)} {x : Call ε σ γ} {t : σ}

def Call.creation? (c : Collection ε) (x : Call ε σ γ) : Option ε :=
  match x.request, x.reply c with
  | .create _, .written receipt => some receipt.value
  | _, _ => none

def creations (c : Collection ε) (log : List (Call ε σ γ)) : List ε := log.filterMap (Call.creation? c)

def gains (e : ε) : List Increment := (Entity.id e).toList.flatMap (Entity.increments e)

def ledger (c : Collection ε) (log : List (Call ε σ γ)) : List Increment := (creations c log).reverse.flatMap gains

lemma ledger_cons (x : Call ε σ γ) (log : List (Call ε σ γ)) :
    ledger c (x :: log) = ledger c log ++ (x.creation? c).toList.flatMap gains := by
  rw [ledger, creations, List.filterMap_cons]
  cases x.creation? c with
  | none => simp [ledger, creations]
  | some e => simp [ledger, creations]

section

variable {τ : Type} {counters : σ → τ} {Agree : τ → MemoryTables → Prop}

lemma increments_updatePlan (previous : Option ε) (e : ε) (id u : Identifier) (stamps : Stamps) :
    (c.updatePlan previous e id u stamps).indexWrites.filterMap IndexWrite.increment? = [] := by
  simp [Collection.updatePlan, WritePlan.indexWrites, List.filterMap_map, IndexWrite.increment?, Function.comp_def]

lemma increments_deletePlan (current : Option ε) (id : Identifier) :
    (Collection.deletePlan current id).indexWrites.filterMap IndexWrite.increment? = [] := by
  cases current <;>
    simp [Collection.deletePlan, WritePlan.indexWrites, List.filterMap_map, IndexWrite.increment?, Function.comp_def]

lemma increments_createPlan (e : ε) (id : Identifier) (stamps : Stamps) :
    (c.createPlan e id stamps).indexWrites.filterMap IndexWrite.increment? = Entity.increments e id := by
  simp [Collection.createPlan, WritePlan.indexWrites, List.filterMap_map, IndexWrite.increment?, Function.comp_def]

lemma Step.counters_of_no_creation (h : KeepsCounts counters Agree) (hstep : Step c x (x.reply c) t)
    (hnone : x.creation? c = none) : counters t = counters x.before.tables := by
  unfold Call.creation? at hnone
  generalize x.reply c = reply at hstep hnone
  cases hstep with
  | refused err => rfl
  | created hrequest => simp [hrequest] at hnone
  | updated _ _ _ _ _ hput => rw [h.deliver_spared (increments_updatePlan ..), h.put hput]
  | deleted _ _ hdrop => rw [h.deliver_spared (increments_deletePlan ..), h.dropChain hdrop]

lemma Step.counted [LawfulEntity ε] (h : KeepsCounts counters Agree) (hstep : Step c x (x.reply c) t)
    (hcomplete : ∀ report ∈ (x.reply c).report?, report.isComplete) {m : MemoryTables}
    (hm : Agree (counters x.before.tables) m) :
    Agree (counters t) (m.addAll ((x.creation? c).toList.flatMap gains)) := by
  cases hcreation : x.creation? c with
  | none =>
    rw [hstep.counters_of_no_creation h hcreation]
    exact hm
  | some e =>
    unfold Call.creation? at hcreation
    generalize x.reply c = reply at hstep hcomplete hcreation
    cases hstep with
    | refused err => cases hrequest : x.request <;> simp [hrequest] at hcreation
    | @created e' id stamps tables receipt hrequest _ _ hput hvalue hreport _ =>
      simp only [hrequest] at hcreation
      obtain rfl : Entity.stamp e' id id = e := hvalue.symm.trans (Option.some.inj hcreation)
      have hdelivered :
          (deliver x.before.delivery tables (c.createPlan (Entity.stamp e' id id) id stamps)).2.isComplete :=
        hreport ▸ hcomplete _ rfl
      have hadded := h.deliver_added Collection.agrees_createPlan hdelivered ((h.put hput).symm ▸ hm)
      rw [increments_createPlan] at hadded
      simpa [gains, LawfulEntity.id_stamp] using hadded
    | updated hrequest => simp [hrequest] at hcreation
    | deleted hrequest => simp [hrequest] at hcreation

lemma Run.counted [LawfulEntity ε] (h : KeepsCounts counters Agree) (hrun : Run c start log s)
    (hstart : Agree (counters start.tables) .empty) (hcomplete : AllComplete c log) :
    Agree (counters s.tables) (MemoryTables.empty.addAll (ledger c log)) := by
  induction hrun with
  | start => exact hstart
  | @call log s _ clock request ih =>
    obtain ⟨hx, hlog⟩ := List.forall_mem_cons.1 hcomplete
    rw [ledger_cons, MemoryTables.addAll_append]
    exact (Call.step c _).counted h hx (ih hlog)

end

end Chronicle.Store
