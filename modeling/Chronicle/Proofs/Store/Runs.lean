import Chronicle.Proofs.Entity.Lawful
import Chronicle.Proofs.Issuing.Increase
import Chronicle.Proofs.Store.Outcome

/-! Runs of a store, under a clock that anything may happen to between two calls. -/

namespace Chronicle.Store

variable {ε σ γ : Type} [Clock γ]

/-- A store before its first call: its tables as given, and its issuer in use under a clock that keeps to the
milliseconds that identifiers hold. -/
structure Opened (s : Store σ γ) (tables : σ) : Prop where
  tables_eq : s.tables = tables
  issuer : ∃ (micros : Nat) (log : List (Issuer.Turn γ)),
    Issuer.Run (.ofPatience micros) log s.issuer ∧ Issuer.ReadsInRange log

lemma Opened.sound {s : Store σ γ} {tables : σ} (h : s.Opened tables) : s.issuer.Sound := by
  obtain ⟨micros, log, hrun, hr⟩ := h.issuer
  exact hrun.sound (Issuer.sound_ofPatience micros) hr

lemma opened_assigned {node : Node} (hnode : node.IsAssignable) (tables : σ) (micros : Nat) (clock : γ)
    (delivery : Delivery) :
    Opened ⟨tables, { Issuer.ofPatience micros with node := some node }, clock, delivery⟩ tables where
  tables_eq := rfl
  issuer := by
    refine ⟨micros, [⟨.ofPatience micros, .assignNode node⟩], ?_, by simp [Issuer.ReadsInRange, Issuer.Turn.readings]⟩
    have hrun : Issuer.Run (.ofPatience micros) [⟨.ofPatience micros, .assignNode node⟩]
        (Issuer.Turn.after (⟨.ofPatience micros, .assignNode node⟩ : Issuer.Turn γ)) := Issuer.Run.start.use _
    simpa [Issuer.Turn.after, Issuer.assignNode, Issuer.ofPatience, Except.toOption, hnode] using hrun

inductive Request (ε : Type) where
  | create (e : ε)
  | update (e : ε)
  | delete (id : Identifier)

inductive Reply (ε : Type) where
  | written (receipt : Receipt ε)
  | deleted (receipt : Receipt (Option ε))
  | refused (error : Error)

structure Call (ε σ γ : Type) where
  before : Store σ γ
  request : Request ε

namespace Request

def entity? : Request ε → Option ε
  | create e => some e
  | update e => some e
  | delete _ => none

end Request

namespace Reply

def report? : Reply ε → Option DeliveryReport
  | written receipt => some receipt.report
  | deleted receipt => some receipt.report
  | refused _ => none

end Reply

variable [Entity ε] [Tables σ]

namespace Call

def outcome (c : Collection ε) (x : Call ε σ γ) : Reply ε × Store σ γ :=
  match x.request with
  | .create e =>
    match x.before.create c e with
    | (.ok receipt, s) => (.written receipt, s)
    | (.error err, s) => (.refused err, s)
  | .update e =>
    match x.before.update c e with
    | (.ok receipt, s) => (.written receipt, s)
    | (.error err, s) => (.refused err, s)
  | .delete id =>
    match x.before.delete c id with
    | (.ok receipt, s) => (.deleted receipt, s)
    | (.error err, s) => (.refused err, s)

def reply (c : Collection ε) (x : Call ε σ γ) : Reply ε := (x.outcome c).1

def after (c : Collection ε) (x : Call ε σ γ) : Store σ γ := (x.outcome c).2

def supplied (x : Call ε σ γ) : Option Identifier := x.request.entity?.bind Entity.id

def suppliedToCreate (x : Call ε σ γ) : Option Identifier :=
  match x.request with
  | .create e => Entity.id e
  | _ => none

def issues (c : Collection ε) (x : Call ε σ γ) : Bool :=
  match x.request with
  | .create e => (Entity.id e).isNone
  | .update e => (Entity.id e).any fun id => (c.current x.before.tables id).isOk
  | .delete _ => false

def issued (c : Collection ε) (x : Call ε σ γ) : Option Identifier :=
  if x.issues c then x.before.issue.1.toOption else none

def readings (c : Collection ε) (x : Call ε σ γ) : List Int64 :=
  if x.issues c then x.before.issuer.readings x.before.clock else []

def clockThen (c : Collection ε) (x : Call ε σ γ) : γ := if x.issues c then x.before.issue.2.clock else x.before.clock

def stamps (c : Collection ε) (x : Call ε σ γ) : Stamps := .read (x.clockThen c)

def stamped? (c : Collection ε) (x : Call ε σ γ) : Option Stamps :=
  match x.reply c with
  | .written _ => some (x.stamps c)
  | _ => none

lemma stamped?_eq_some {c : Collection ε} {x : Call ε σ γ} {receipt : Receipt ε} (h : x.reply c = .written receipt) :
    x.stamped? c = some (x.stamps c) := by
  rw [stamped?, h]

end Call

inductive PastAllocation (c : Collection ε) (s : Store σ γ) : Request ε → Identifier → ε → Prop where
  | create {e : ε} {id : Identifier} (h : (s.chooseId c e).1 = .ok id) :
      PastAllocation c s (.create e) id (Entity.stamp e id id)
  | update {e : ε} {id u : Identifier} (hid : Entity.id e = some id) (hissue : s.issue.1 = .ok u) :
      PastAllocation c s (.update e) id (Entity.withUpdate e u)

lemma PastAllocation.unique {c : Collection ε} {s : Store σ γ} {request : Request ε} {id id' : Identifier} {e e' : ε}
    (h : PastAllocation c s request id e) (h' : PastAllocation c s request id' e') : id = id' ∧ e = e' := by
  cases h with
  | create h =>
    cases h' with
    | create h' =>
      cases h.symm.trans h'
      exact ⟨rfl, rfl⟩
  | update hid hissue =>
    cases h' with
    | update hid' hissue' =>
      cases hid.symm.trans hid'
      cases hissue.symm.trans hissue'
      exact ⟨rfl, rfl⟩

inductive Run (c : Collection ε) (start : Store σ γ) : List (Call ε σ γ) → Store σ γ → Prop where
  | start : Run c start [] start
  | call {log : List (Call ε σ γ)} {s : Store σ γ} (h : Run c start log s) (clock : γ) (request : Request ε) :
      Run c start (⟨{ s with clock }, request⟩ :: log) (Call.after c ⟨{ s with clock }, request⟩)

/-- The calls that lead from `start` to a store, the latest first, where the tables may have changed otherwise before
each call. -/
inductive DriftRun (c : Collection ε) (Drift : σ → σ → Prop) (start : Store σ γ) :
    List (Call ε σ γ) → Store σ γ → Prop where
  | start : DriftRun c Drift start [] start
  | call {log : List (Call ε σ γ)} {s : Store σ γ} {tables : σ} (h : DriftRun c Drift start log s)
      (drifts : Drift s.tables tables) (clock : γ) (request : Request ε) :
      DriftRun c Drift start (⟨{ s with clock, tables }, request⟩ :: log)
        (Call.after c ⟨{ s with clock, tables }, request⟩)

lemma Run.drift {c : Collection ε} {start s : Store σ γ} {log : List (Call ε σ γ)} (h : Run c start log s) :
    DriftRun c Eq start log s := by
  induction h with
  | start => exact .start
  | call _ clock request ih => exact ih.call rfl clock request

def play (c : Collection ε) (start : Store σ γ) : List (γ × Request ε) → List (Call ε σ γ) × Store σ γ
  | [] => ([], start)
  | (clock, request) :: earlier =>
    let x : Call ε σ γ := ⟨{ (play c start earlier).2 with clock }, request⟩
    (x :: (play c start earlier).1, x.after c)

lemma run_play (c : Collection ε) (start : Store σ γ) (requests : List (γ × Request ε)) :
    Run c start (play c start requests).1 (play c start requests).2 := by
  induction requests with
  | nil => exact .start
  | cons r earlier ih => exact ih.call r.1 r.2

/-- The clock keeps to the milliseconds that identifiers hold, and each identifier that a caller brings along is less
than all that are issued from then on. -/
structure Orderly (c : Collection ε) (log : List (Call ε σ γ)) : Prop where
  holds : ∀ x ∈ log, ∀ r ∈ x.readings c, Identifier.HoldsMillis r
  own : ∀ x ∈ log, ∀ id ∈ x.supplied, ∀ u ∈ x.issued c, id < u
  later : log.Pairwise fun y x => ∀ id ∈ x.supplied, ∀ u ∈ y.issued c, id < u

instance (c : Collection ε) (log : List (Call ε σ γ)) : Decidable (Orderly c log) :=
  have := Identifier.decidableHoldsMillis (Call.readings c) log
  decidable_of_iff (_ ∧ _ ∧ _) ⟨fun ⟨hr, ho, hl⟩ => ⟨hr, ho, hl⟩, fun ⟨hr, ho, hl⟩ => ⟨hr, ho, hl⟩⟩

def EntitiesFit [LawfulEntity ε] (log : List (Call ε σ γ)) : Prop :=
  ∀ x ∈ log, ∀ e ∈ x.request.entity?, LawfulEntity.Fits e

instance [LawfulEntity ε] [∀ e : ε, Decidable (LawfulEntity.Fits e)] (log : List (Call ε σ γ)) :
    Decidable (EntitiesFit log) := inferInstanceAs (Decidable (∀ x ∈ log, _))

def AllComplete (c : Collection ε) (log : List (Call ε σ γ)) : Prop :=
  ∀ x ∈ log, ∀ report ∈ (x.reply c).report?, report.isComplete

def CreatesAnew (c : Collection ε) (log : List (Call ε σ γ)) : Prop :=
  log.Pairwise fun y x => ∀ id ∈ y.suppliedToCreate, id ∉ x.issued c

instance (c : Collection ε) (log : List (Call ε σ γ)) : Decidable (AllComplete c log) :=
  inferInstanceAs (Decidable (∀ x ∈ log, ∀ report ∈ (x.reply c).report?, report.isComplete))

instance (c : Collection ε) (log : List (Call ε σ γ)) : Decidable (CreatesAnew c log) :=
  inferInstanceAs (Decidable (log.Pairwise fun y x => ∀ id ∈ y.suppliedToCreate, id ∉ x.issued c))

def Issued (c : Collection ε) (log : List (Call ε σ γ)) (id : Identifier) : Prop := ∃ x ∈ log, id ∈ x.issued c

def Known (c : Collection ε) (log : List (Call ε σ γ)) (id : Identifier) : Prop :=
  ∃ x ∈ log, id ∈ x.supplied ∨ id ∈ x.issued c

inductive Step (c : Collection ε) (x : Call ε σ γ) : Reply ε → σ → Prop where
  | refused (err : Error) : Step c x (.refused err) x.before.tables
  | created {e : ε} {id : Identifier} {stamps : Stamps} {tables : σ} {receipt : Receipt ε}
      (request_eq : x.request = .create e)
      (chosen : Entity.id e = some id ∧ Tables.latest? x.before.tables c.table id = .ok none ∨ x.issued c = some id)
      (free : c.refuseTaken x.before.tables id (Entity.attributes (Entity.stamp e id id)) = .ok ())
      (put : Tables.put x.before.tables c.table (c.newVersion (Entity.stamp e id id) id id stamps) = .ok tables)
      (value_eq : receipt.value = Entity.stamp e id id)
      (report_eq : receipt.report =
        (deliver x.before.delivery tables (c.createPlan (Entity.stamp e id id) id stamps)).2)
      (stamps_eq : stamps = x.stamps c) :
      Step c x (.written receipt) (deliver x.before.delivery tables (c.createPlan (Entity.stamp e id id) id stamps)).1
  | updated {e : ε} {id u : Identifier} {previous : Option ε} {stamps : Stamps} {tables : σ} {receipt : Receipt ε}
      (request_eq : x.request = .update e) (id_eq : Entity.id e = some id)
      (current_eq : c.current x.before.tables id = .ok previous) (issued_eq : x.issued c = some u)
      (free : c.refuseTaken x.before.tables id (Entity.attributes (Entity.withUpdate e u)) = .ok ())
      (put : Tables.put x.before.tables c.table (c.newVersion (Entity.withUpdate e u) id u stamps) = .ok tables)
      (value_eq : receipt.value = Entity.withUpdate e u)
      (report_eq : receipt.report =
        (deliver x.before.delivery tables (c.updatePlan previous (Entity.withUpdate e u) id u stamps)).2)
      (stamps_eq : stamps = x.stamps c) :
      Step c x (.written receipt)
        (deliver x.before.delivery tables (c.updatePlan previous (Entity.withUpdate e u) id u stamps)).1
  | deleted {id : Identifier} {current : Option ε} {n : Nat} {tables : σ} {receipt : Receipt (Option ε)}
      (request_eq : x.request = .delete id) (current_eq : c.current x.before.tables id = .ok current)
      (drop : Tables.dropChain x.before.tables c.table id = .ok (n, tables))
      (value_eq : receipt.value = current)
      (report_eq : receipt.report = (deliver x.before.delivery tables (Collection.deletePlan current id)).2) :
      Step c x (.deleted receipt) (deliver x.before.delivery tables (Collection.deletePlan current id)).1

namespace Call

variable {c : Collection ε}

lemma issued_of_issues {x : Call ε σ γ} {u : Identifier} (hx : x.issues c = true) (h : x.before.issue.1 = .ok u) :
    x.issued c = some u := by
  rw [issued, if_pos hx, h]
  rfl

lemma step (c : Collection ε) (x : Call ε σ γ) : Step c x (x.reply c) (x.after c).tables := by
  obtain ⟨s, request⟩ := x
  cases request with
  | create e =>
    rcases h : s.create c e with ⟨_ | receipt, s'⟩
    · simp only [reply, after, outcome, h, create_error h]
      exact .refused _
    · obtain ⟨id, stamps, tables, hchoose, hfree, hput, hvalue, hreport, htables, hstamps⟩ := create_ok h
      simp only [reply, after, outcome, h, htables]
      have hclock : (s.chooseId c e).2.clock = clockThen c ⟨s, .create e⟩ := by
        rw [chooseId_snd, clockThen, issues]
        split <;> rfl
      refine .created rfl ?_ hfree hput hvalue hreport (hstamps.trans (congrArg _ hclock))
      rcases chooseId_ok hchoose with hid | ⟨hid, hissue⟩
      · exact .inl hid
      · exact .inr (issued_of_issues (by simp [issues, hid]) hissue)
  | update e =>
    rcases h : s.update c e with ⟨_ | receipt, s'⟩
    · simp only [reply, after, outcome, h, update_error h]
      exact .refused _
    · obtain ⟨id, previous, u, stamps, tables, hid, hprevious, hissue, hfree, hput, hvalue, hreport, htables, hstamps⟩ :=
        update_ok h
      simp only [reply, after, outcome, h, htables]
      have hissues : issues c ⟨s, .update e⟩ = true := by
        simp [issues, hid, hprevious, Except.isOk, Except.toBool]
      have hissued := issued_of_issues hissues hissue
      refine .updated rfl hid hprevious hissued hfree hput hvalue hreport ?_
      rw [hstamps, Call.stamps, clockThen, if_pos hissues]
  | delete id =>
    rcases h : s.delete c id with ⟨_ | receipt, s'⟩
    · simp only [reply, after, outcome, h, carryOut_error h]
      exact .refused _
    · obtain ⟨current, n, tables, hcurrent, hdrop, hvalue, hreport, htables⟩ := delete_ok h
      simp only [reply, after, outcome, h, htables]
      exact .deleted rfl hcurrent hdrop hvalue hreport

lemma issuer_after (c : Collection ε) (x : Call ε σ γ) :
    (x.after c).issuer = if x.issues c then x.before.issue.2.issuer else x.before.issuer := by
  obtain ⟨s, request⟩ := x
  cases request with
  | create e =>
    have hissuer := issuer_create s c e
    rcases h : s.create c e with ⟨_ | receipt, s'⟩ <;> rw [h] at hissuer <;> simp only [after, outcome, h] <;>
      exact hissuer
  | update e =>
    have hissuer := issuer_update s c e
    rcases h : s.update c e with ⟨_ | receipt, s'⟩ <;> rw [h] at hissuer <;> simp only [after, outcome, h] <;>
      exact hissuer
  | delete id =>
    have hissuer : (s.delete c id).2.issuer = s.issuer := issuer_carryOut ..
    rcases h : s.delete c id with ⟨_ | receipt, s'⟩ <;> rw [h] at hissuer <;> simp only [after, outcome, h] <;>
      exact hissuer

lemma issuer_step {x : Call ε σ γ} (hs : x.before.issuer.Sound)
    (hr : ∀ r ∈ x.readings c, Identifier.HoldsMillis r) :
    (x.after c).issuer.Sound ∧ x.before.issuer.mark ≤ (x.after c).issuer.mark ∧
      ∀ u ∈ x.issued c, x.before.issuer.mark < u.slot ∧ u.slot = (x.after c).issuer.mark := by
  rw [issuer_after]
  by_cases hx : x.issues c
  · rw [readings, if_pos hx] at hr
    rw [issued, if_pos hx, if_pos hx]
    cases hissue : x.before.issue.1 with
    | ok u =>
      obtain ⟨hadv, hslot, _⟩ := Issuer.issue_ok hs hr hissue
      refine ⟨hadv.sound, Int.le_of_lt hadv.mark_lt, fun v hv => ?_⟩
      obtain rfl : u = v := by simpa [Except.toOption] using hv
      exact ⟨hslot ▸ hadv.mark_lt, hslot⟩
    | error err =>
      have hissuer : x.before.issue.2.issuer = x.before.issuer := Issuer.issue_error hissue
      rw [hissuer]
      exact ⟨hs, Int.le_refl _, by simp [Except.toOption]⟩
  · rw [issued, if_neg hx, if_neg hx]
    exact ⟨hs, Int.le_refl _, by simp⟩

end Call

variable {c : Collection ε} {start s : Store σ γ} {log : List (Call ε σ γ)} {x : Call ε σ γ}

lemma Orderly.of_cons (h : Orderly c (x :: log)) : Orderly c log :=
  ⟨fun y hy => h.holds y (List.mem_cons_of_mem _ hy), fun y hy => h.own y (List.mem_cons_of_mem _ hy),
    (List.pairwise_cons.1 h.later).2⟩

lemma Issued.cons {id : Identifier} (h : Issued c log id) (x : Call ε σ γ) : Issued c (x :: log) id := by
  obtain ⟨y, hy, hid⟩ := h
  exact ⟨y, List.mem_cons_of_mem _ hy, hid⟩

lemma Known.cons {id : Identifier} (h : Known c log id) (x : Call ε σ γ) : Known c (x :: log) id := by
  obtain ⟨y, hy, hid⟩ := h
  exact ⟨y, List.mem_cons_of_mem _ hy, hid⟩

lemma DriftRun.marks {Drift : σ → σ → Prop} (h : DriftRun c Drift start log s) (hs : start.issuer.Sound)
    (hr : ∀ x ∈ log, ∀ r ∈ x.readings c, Identifier.HoldsMillis r) :
    s.issuer.Sound ∧ ∀ u, Issued c log u → u.slot ≤ s.issuer.mark := by
  induction h with
  | start => exact ⟨hs, by simp [Issued]⟩
  | @call log s tables h _ clock request ih =>
    obtain ⟨hsound, hle⟩ := ih fun y hy => hr y (List.mem_cons_of_mem _ hy)
    obtain ⟨hsound', hmark, hissued⟩ := Call.issuer_step (c := c) (x := ⟨{ s with clock, tables }, request⟩) hsound
      (hr _ List.mem_cons_self)
    refine ⟨hsound', fun u hu => ?_⟩
    obtain ⟨y, hy, hyu⟩ := hu
    rcases List.mem_cons.1 hy with rfl | hy
    · exact Int.le_of_eq (hissued u hyu).2
    · exact Int.le_trans (hle u ⟨y, hy, hyu⟩) hmark

lemma DriftRun.issued_lt {Drift : σ → σ → Prop} (h : DriftRun c Drift start log s) (hs : start.issuer.Sound)
    {tables : σ} {clock : γ} {request : Request ε}
    (hr : ∀ x ∈ (⟨{ s with clock, tables }, request⟩ : Call ε σ γ) :: log, ∀ r ∈ x.readings c, Identifier.HoldsMillis r)
    {u w : Identifier} (hu : u ∈ Call.issued c ⟨{ s with clock, tables }, request⟩) (hw : Issued c log w) : w < u := by
  obtain ⟨hsound, hle⟩ := h.marks hs fun y hy => hr y (List.mem_cons_of_mem _ hy)
  obtain ⟨_, _, hissued⟩ := Call.issuer_step (c := c) (x := ⟨{ s with clock, tables }, request⟩) hsound
    (hr _ List.mem_cons_self)
  exact Identifier.lt_of_slot_lt (Int.lt_of_le_of_lt (hle w hw) (hissued u hu).1)

lemma DriftRun.known_lt {Drift : σ → σ → Prop} (h : DriftRun c Drift start log s) (hs : start.issuer.Sound)
    {tables : σ} {clock : γ} {request : Request ε} (ho : Orderly c (⟨{ s with clock, tables }, request⟩ :: log))
    {u : Identifier} (hu : u ∈ Call.issued c ⟨{ s with clock, tables }, request⟩) : ∀ id, Known c log id → id < u := by
  rintro id ⟨y, hy, hid | hid⟩
  · exact (List.pairwise_cons.1 ho.later).1 y hy id hid u hu
  · exact h.issued_lt hs ho.holds hu ⟨y, hy, hid⟩

lemma Run.known_lt (h : Run c start log s) (hs : start.issuer.Sound) {clock : γ} {request : Request ε}
    (ho : Orderly c (⟨{ s with clock }, request⟩ :: log)) {u : Identifier}
    (hu : u ∈ Call.issued c ⟨{ s with clock }, request⟩) : ∀ id, Known c log id → id < u :=
  h.drift.known_lt hs ho hu

def ReadsInRange (c : Collection ε) (log : List (Call ε σ γ)) : Prop :=
  ∀ x ∈ log, ∀ r ∈ x.readings c, Identifier.HoldsMillis r

instance (c : Collection ε) (log : List (Call ε σ γ)) : Decidable (ReadsInRange c log) :=
  Identifier.decidableHoldsMillis (Call.readings c) log

def Call.created? (c : Collection ε) (x : Call ε σ γ) : Option Identifier :=
  match x.request, x.reply c with
  | .create _, .written receipt => Entity.id receipt.value
  | _, _ => none

def SuppliesCreated (c : Collection ε) : List (Call ε σ γ) → Prop
  | [] => True
  | x :: log => (∀ id ∈ x.supplied, ∃ y ∈ log, id ∈ y.created? c) ∧ SuppliesCreated c log

instance decidableSuppliesCreated (c : Collection ε) : (log : List (Call ε σ γ)) → Decidable (SuppliesCreated c log)
  | [] => inferInstanceAs (Decidable True)
  | x :: log =>
    have := decidableSuppliesCreated c log
    inferInstanceAs (Decidable ((∀ id ∈ x.supplied, ∃ y ∈ log, id ∈ y.created? c) ∧ SuppliesCreated c log))

section

variable [LawfulEntity ε]

lemma Call.supplied_or_issued_of_created {id : Identifier} (h : id ∈ x.created? c) :
    id ∈ x.supplied ∨ id ∈ x.issued c := by
  have hstep := x.step c
  unfold created? at h
  generalize x.reply c = reply at h hstep
  generalize (x.after c).tables = tables at hstep
  cases hstep with
  | refused err => cases hrequest : x.request <;> simp [hrequest] at h
  | @created e id' stamps tables receipt hrequest hchosen _ _ hvalue =>
    rw [hrequest] at h
    simp only [hvalue, LawfulEntity.id_stamp] at h
    obtain rfl := Option.some.inj h
    refine hchosen.imp_left fun hid => ?_
    rw [supplied, hrequest]
    exact hid.1
  | updated hrequest => simp [hrequest] at h
  | deleted hrequest => simp [hrequest] at h

lemma SuppliesCreated.issued (h : SuppliesCreated c log) {id : Identifier} :
    (∀ y ∈ log, id ∈ y.created? c → Issued c log id) ∧ ∀ y ∈ log, id ∈ y.supplied → Issued c log id := by
  induction log with
  | nil => simp
  | cons x log ih =>
    obtain ⟨hx, hlog⟩ := h
    obtain ⟨hcreated, hsupplied⟩ := ih hlog
    have hfirst (hid : id ∈ x.supplied) : Issued c (x :: log) id := by
      obtain ⟨y, hy, hyid⟩ := hx id hid
      exact (hcreated y hy hyid).cons x
    refine ⟨fun y hy hid => ?_, fun y hy hid => ?_⟩
    · rcases List.mem_cons.1 hy with rfl | hy
      · exact (Call.supplied_or_issued_of_created hid).elim hfirst fun hissued => ⟨y, List.mem_cons_self, hissued⟩
      · exact (hcreated y hy hid).cons x
    · rcases List.mem_cons.1 hy with rfl | hy
      · exact hfirst hid
      · exact (hsupplied y hy hid).cons x

lemma DriftRun.orderly {Drift : σ → σ → Prop} (h : DriftRun c Drift start log s) (hs : start.issuer.Sound)
    (hr : ReadsInRange c log) (hsupplies : SuppliesCreated c log) : Orderly c log := by
  induction h with
  | start => exact ⟨hr, nofun, .nil⟩
  | @call log s tables h _ clock request ih =>
    obtain ⟨hx, hlog⟩ := hsupplies
    have ho := ih (List.forall_mem_cons.1 hr).2 hlog
    refine ⟨hr, fun y hy id hid u hu => ?_, List.pairwise_cons.2 ⟨fun y hy id hid u hu => ?_, ho.later⟩⟩
    · rcases List.mem_cons.1 hy with rfl | hy
      · obtain ⟨z, hz, hzid⟩ := hx id hid
        exact h.issued_lt hs hr hu (hlog.issued.1 z hz hzid)
      · exact ho.own y hy id hid u hu
    · exact h.issued_lt hs hr hu (hlog.issued.2 y hy hid)

end

end Chronicle.Store
