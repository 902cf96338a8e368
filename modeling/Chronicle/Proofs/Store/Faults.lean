import Chronicle.Entity.Account
import Chronicle.Proofs.Store.Runs
import Chronicle.Proofs.Table.Memory
import Chronicle.Proofs.Traversal
import Chronicle.Table.Failing

/-! A failure beside the primary table shows neither in the answer of a call nor in the versions. -/

namespace Chronicle

namespace FailingTables

variable {t t' : FailingTables MemoryTables}

lemma versions_write {w : IndexWrite} (h : Tables.write t w = .ok t') : t'.tables.versions = t.tables.versions := by
  obtain ⟨_, _, h⟩ := exists_of_bind_ok h
  obtain ⟨tables, htables, h⟩ := exists_of_bind_ok h
  cases h
  exact (congrArg MemoryTables.versions (MemoryTables.write_ok htables)).trans (MemoryTables.versions_write ..)

lemma versions_writeTogether {ws : List IndexWrite} (h : Tables.writeTogether t ws = .ok t') :
    t'.tables.versions = t.tables.versions := by
  obtain ⟨_, _, h⟩ := exists_of_bind_ok h
  obtain ⟨tables, htables, h⟩ := exists_of_bind_ok h
  cases h
  exact (congrArg MemoryTables.versions (MemoryTables.writeTogether_ok htables)).trans
    (MemoryTables.versions_foldl_write ..)

lemma versions_deliver (delivery : Delivery) (t : FailingTables MemoryTables) (plan : WritePlan) :
    (deliver delivery t plan).1.tables.versions = t.tables.versions :=
  deliver_frame (f := fun t : FailingTables MemoryTables => t.tables.versions) versions_write versions_writeTogether
    delivery t plan

section

variable {σ : Type} [Tables σ] {p : FailurePoint} (hp : p ≠ .primary) (t : σ) (table : String)
include hp

lemma checkPrimary_of_ne : p.checkPrimary = .ok () := by
  cases p with
  | primary => exact absurd rfl hp
  | none => rfl
  | on target => rfl

lemma put_of_ne (v : StoredVersion) :
    Tables.put (⟨t, p⟩ : FailingTables σ) table v = (Tables.put t table v).map (⟨·, p⟩) := by
  change (do p.checkPrimary; return (⟨t, p⟩ : FailingTables σ).withTables (← Tables.put t table v)) = _
  rw [checkPrimary_of_ne hp]
  cases Tables.put t table v <;> rfl

lemma dropChain_of_ne (id : Identifier) : Tables.dropChain (⟨t, p⟩ : FailingTables σ) table id =
    (Tables.dropChain t table id).map fun dropped => (dropped.1, ⟨dropped.2, p⟩) := by
  change (do
    p.checkPrimary
    let dropped ← Tables.dropChain t table id
    return (dropped.1, (⟨t, p⟩ : FailingTables σ).withTables dropped.2)) = _
  rw [checkPrimary_of_ne hp]
  cases Tables.dropChain t table id <;> rfl

end

end FailingTables

namespace Store

variable {ε σ γ : Type}

def failingAt (point : FailurePoint) (s : Store σ γ) : Store (FailingTables σ) γ :=
  ⟨⟨s.tables, point⟩, s.issuer, s.clock, s.delivery⟩

structure SamePrimary (s s' : Store (FailingTables MemoryTables) γ) : Prop where
  versions : s.tables.tables.versions = s'.tables.tables.versions
  issuer : s.issuer = s'.issuer
  clock : s.clock = s'.clock

inductive SameOutcome {α : Type} : (x x' : Except Error (Receipt α) × Store (FailingTables MemoryTables) γ) → Prop where
  | refused {s s' : Store (FailingTables MemoryTables) γ} (err : Error) (primary : SamePrimary s s') :
      SameOutcome (.error err, s) (.error err, s')
  | done {s s' : Store (FailingTables MemoryTables) γ} {receipt receipt' : Receipt α}
      (value : receipt.value = receipt'.value) (planned : receipt.planned = receipt'.planned)
      (primary : SamePrimary s s') : SameOutcome (.ok receipt, s) (.ok receipt', s')

variable {p q : FailurePoint} {s : Store MemoryTables γ}

lemma samePrimary_failingAt (s : Store MemoryTables γ) : SamePrimary (s.failingAt p) (s.failingAt q) :=
  ⟨rfl, rfl, rfl⟩

lemma changePrimary_failing [Tables σ] (hp : p ≠ .primary) (t : σ) (table : String) (plan : WritePlan) :
    changePrimary (⟨t, p⟩ : FailingTables σ) table plan = (changePrimary t table plan).map (⟨·, p⟩) := by
  unfold changePrimary
  split
  · exact FailingTables.put_of_ne hp t table _
  · rw [FailingTables.dropChain_of_ne hp]
    cases Tables.dropChain t table plan.id <;> rfl

lemma carryOut_failing {α : Type} (hp : p ≠ .primary) (hq : q ≠ .primary) (table : String)
    (planned : Except Error (α × WritePlan)) :
    SameOutcome ((s.failingAt p).carryOut table planned) ((s.failingAt q).carryOut table planned) := by
  rw [carryOut_eq, carryOut_eq]
  cases planned with
  | error err => exact .refused err (samePrimary_failingAt s)
  | ok done =>
    obtain ⟨value, plan⟩ := done
    simp only [failingAt, changePrimary_failing hp, changePrimary_failing hq]
    cases changePrimary s.tables table plan with
    | error err => exact .refused err (samePrimary_failingAt s)
    | ok tables =>
      refine .done rfl rfl ⟨?_, rfl, rfl⟩
      exact (FailingTables.versions_deliver s.delivery ⟨tables, p⟩ plan).trans
        (FailingTables.versions_deliver s.delivery ⟨tables, q⟩ plan).symm

def Reply.core : Reply ε → Except Error (Option ε × Nat)
  | .written receipt => .ok (some receipt.value, receipt.planned)
  | .deleted receipt => .ok (receipt.value, receipt.planned)
  | .refused err => .error err

def replied {α τ : Type} (reply : Receipt α → Reply ε) : Except Error (Receipt α) × Store τ γ → Reply ε × Store τ γ
  | (.ok receipt, s) => (reply receipt, s)
  | (.error err, s) => (.refused err, s)

lemma SameOutcome.replied {α : Type} {x x' : Except Error (Receipt α) × Store (FailingTables MemoryTables) γ}
    (h : SameOutcome x x') {reply : Receipt α → Reply ε} {f : α × Nat → Option ε × Nat}
    (hf : ∀ r, (reply r).core = .ok (f (r.value, r.planned))) :
    (replied reply x).1.core = (replied reply x').1.core ∧ SamePrimary (replied reply x).2 (replied reply x').2 := by
  cases h with
  | refused err primary => exact ⟨rfl, primary⟩
  | done value planned primary =>
    refine ⟨?_, primary⟩
    simp only [Store.replied, hf, value, planned]

variable [Entity ε] {c : Collection ε}

-- looking for the holder of a value reads indexes and primary table, and no read meets a failure
lemma refuseTaken_failing [Tables σ] (t : σ) (id : Identifier) (attrs : List Attribute) :
    c.refuseTaken (⟨t, p⟩ : FailingTables σ) id attrs = c.refuseTaken t id attrs := by
  induction attrs with
  | nil => rfl
  | cons a rest ih =>
    rw [Collection.refuseTaken, Collection.refuseTaken, ih]
    rfl

lemma delete_failing (hp : p ≠ .primary) (hq : q ≠ .primary) (s : Store MemoryTables γ) (c : Collection ε)
    (id : Identifier) :
    SameOutcome ((s.failingAt p).delete c id) ((s.failingAt q).delete c id) := carryOut_failing hp hq ..

variable [Clock γ]

lemma chooseId_failing [Tables σ] (s : Store σ γ) (c : Collection ε) (e : ε) :
    (s.failingAt p).chooseId c e = ((s.chooseId c e).1, (s.chooseId c e).2.failingAt p) := by
  have hlatest (id : Identifier) :
      Tables.latest? (s.failingAt p).tables c.table id = Tables.latest? s.tables c.table id := rfl
  unfold chooseId
  cases Entity.id e with
  | none => rfl
  | some id =>
    simp only [hlatest]
    split <;> rfl

lemma create_failing (hp : p ≠ .primary) (hq : q ≠ .primary) (s : Store MemoryTables γ) (c : Collection ε) (e : ε) :
    SameOutcome ((s.failingAt p).create c e) ((s.failingAt q).create c e) := by
  unfold create
  rw [chooseId_failing, chooseId_failing]
  generalize s.chooseId c e = chosen
  obtain ⟨chosen, s⟩ := chosen
  cases chosen with
  | error err => exact .refused err (samePrimary_failingAt s)
  | ok id =>
    simp only [failingAt, refuseTaken_failing]
    exact carryOut_failing (s := s.stamped) hp hq ..

lemma update_failing (hp : p ≠ .primary) (hq : q ≠ .primary) (s : Store MemoryTables γ) (c : Collection ε) (e : ε) :
    SameOutcome ((s.failingAt p).update c e) ((s.failingAt q).update c e) := by
  have hcurrent (p : FailurePoint) (id : Identifier) :
      c.current (s.failingAt p).tables id = c.current s.tables id := rfl
  have hissue (p : FailurePoint) : (s.failingAt p).issue = (s.issue.1, s.issue.2.failingAt p) := rfl
  unfold update
  cases Entity.id e with
  | none => exact .refused _ (samePrimary_failingAt s)
  | some id =>
    simp only [hcurrent, hissue]
    cases c.current s.tables id with
    | error err => exact .refused err (samePrimary_failingAt s)
    | ok previous =>
      generalize s.issue = issued
      obtain ⟨issued, s⟩ := issued
      cases issued with
      | error err => exact .refused err (samePrimary_failingAt s)
      | ok u =>
        simp only [failingAt, refuseTaken_failing]
        exact carryOut_failing (s := s.stamped) hp hq ..

namespace Call

lemma tables_of_refused [Tables σ] {x : Call ε σ γ} {err : Error} (h : (x.reply c).core = .error err) :
    (x.after c).tables = x.before.tables := by
  have hstep := x.step c
  generalize x.reply c = reply at h hstep
  generalize (x.after c).tables = tables at hstep ⊢
  cases hstep with
  | refused err => rfl
  | created => cases h
  | updated => cases h
  | deleted => cases h

lemma outcome_eq [Tables σ] (c : Collection ε) (s : Store σ γ) (request : Request ε) :
    Call.outcome c ⟨s, request⟩ =
      match request with
      | .create e => replied .written (s.create c e)
      | .update e => replied .written (s.update c e)
      | .delete id => replied .deleted (s.delete c id) := by
  cases request with
  | create e => rcases h : s.create c e with ⟨_ | receipt, s'⟩ <;> simp only [outcome, replied, h]
  | update e => rcases h : s.update c e with ⟨_ | receipt, s'⟩ <;> simp only [outcome, replied, h]
  | delete id => rcases h : s.delete c id with ⟨_ | receipt, s'⟩ <;> simp only [outcome, replied, h]

lemma same_of_failing (hp : p ≠ .primary) (hq : q ≠ .primary) (s : Store MemoryTables γ) (request : Request ε) :
    (Call.reply c ⟨s.failingAt p, request⟩).core = (Call.reply c ⟨s.failingAt q, request⟩).core ∧
      SamePrimary (Call.after c ⟨s.failingAt p, request⟩) (Call.after c ⟨s.failingAt q, request⟩) := by
  rw [reply, reply, after, after, outcome_eq, outcome_eq]
  cases request with
  | create e => exact (create_failing hp hq s c e).replied (f := Prod.map some id) fun _ => rfl
  | update e => exact (update_failing hp hq s c e).replied (f := Prod.map some id) fun _ => rfl
  | delete id => exact (delete_failing hp hq s c id).replied (f := fun core => core) fun _ => rfl

theorem contained (c : Collection ε) (s : Store MemoryTables γ) (request : Request ε) :
    (∀ point err, (Call.reply c ⟨s.failingAt point, request⟩).core = .error err →
      (Call.after c ⟨s.failingAt point, request⟩).tables = ⟨s.tables, point⟩) ∧
    ∀ target, (Call.reply c ⟨s.failingAt (.on target), request⟩).core =
        (Call.reply c ⟨s.failingAt .none, request⟩).core ∧
      SamePrimary (Call.after c ⟨s.failingAt (.on target), request⟩) (Call.after c ⟨s.failingAt .none, request⟩) :=
  ⟨fun _ _ h => tables_of_refused h, fun target => same_of_failing (by simp) (by simp) s request⟩

def damaged : MemoryTables where
  versions := (∅ : OrderedMap VersionKey StoredVersion).insert ⟨"accounts", ⟨1⟩, ⟨1⟩⟩ ⟨⟨1⟩, ⟨1⟩, [255], none⟩
  indexes := (∅ : OrderedMap (NamedKey Identifier) IndexCell).insert ⟨"accounts_by_email", "ann@x", ⟨1⟩⟩ ⟨⟨1⟩, none⟩
  counters := ∅

theorem contained_damaged :
    let s : Store MemoryTables SteppingClock :=
      ⟨damaged, { Issuer.ofPatience 0 with node := some 5 }, ⟨7, 0⟩, .batched⟩
    let x : Call Account (FailingTables MemoryTables) SteppingClock :=
      ⟨s.failingAt (.on "accounts_by_email"), .create (.new "Ann@x" "on")⟩
    (x.reply Account.collection).core = .error (.storage .undecodable) ∧
      (x.after Account.collection).tables = ⟨damaged, .on "accounts_by_email"⟩ := by
  intro s x
  have hrefused : (x.reply Account.collection).core = .error (.storage .undecodable) := by decide +kernel
  exact ⟨hrefused, (contained Account.collection s (.create (.new "Ann@x" "on"))).1 _ _ hrefused⟩

end Call

end Store

end Chronicle
