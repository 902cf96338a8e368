import Chronicle.Table.Basic

/-! Index writes of one entity write, which follow the change of the primary table, and the report on them. -/

namespace Chronicle

inductive Action where
  | create
  | update
  | delete
deriving DecidableEq, Repr

inductive PrimaryChange where
  | put (version : StoredVersion)
  | clear
deriving DecidableEq, Repr

structure WritePlan where
  id : Identifier
  action : Action
  primary : PrimaryChange
  inserts : List IndexWrite
  retracts : List IndexWrite
  increments : List IndexWrite
deriving DecidableEq, Repr

def WritePlan.indexWrites (plan : WritePlan) : List IndexWrite := plan.inserts ++ plan.retracts ++ plan.increments

/-- The order in which the tasks of independent index writes run. A task is an index write with its place in the order
of issue. -/
structure Schedule where
  order : List IndexWrite → List (IndexWrite × Nat)
  perm : ∀ ws, (order ws).Perm ws.zipIdx

def Schedule.inOrder : Schedule := ⟨List.zipIdx, fun _ => .refl _⟩

inductive Delivery where
  | independent (schedule : Schedule)
  | batched

instance : Inhabited Delivery := ⟨.independent .inOrder⟩

structure Undelivered where
  target : String
  retract : Bool
  reason : String
deriving DecidableEq, Repr

def Undelivered.of (w : IndexWrite) (e : Error) : Undelivered := ⟨w.target, w.isRetract, e.message⟩

structure DeliveryReport where
  id : Identifier
  action : Action
  applied : Nat
  failed : List Undelivered
deriving DecidableEq, Repr

namespace DeliveryReport

def isComplete (r : DeliveryReport) : Bool := r.failed.isEmpty

/-- The report, or an error if a deletion left index entries behind. Other failures are borne: the primary change
stands. -/
def verdict (r : DeliveryReport) : Except Error DeliveryReport :=
  let left := r.failed.countP (·.retract)
  if r.action = .delete ∧ 0 < left then .error (.entriesLeft r.id left) else .ok r

end DeliveryReport

variable {σ : Type} [Tables σ]

/-- Runs tasks one after the other. A task that fails changes nothing, and its error is noted at its place. -/
def runTasks (tables : σ) (met : Nat → Option Error) : List (IndexWrite × Nat) → σ × (Nat → Option Error)
  | [] => (tables, met)
  | (w, place) :: tasks =>
    match Tables.write tables w with
    | .ok tables => runTasks tables met tasks
    | .error e => runTasks tables (fun p => if p = place then some e else met p) tasks

/-- Delivers index writes by a task for each. Whatever order the tasks run in, those that failed are listed in the order
of issue. -/
def deliverEach (schedule : Schedule) (tables : σ) (ws : List IndexWrite) : σ × Nat × List Undelivered :=
  let (tables, met) := runTasks tables (fun _ => none) (schedule.order ws)
  (tables, ws.zipIdx.countP fun task => (met task.2).isNone,
    ws.zipIdx.filterMap fun task => (met task.2).map (.of task.1))

def deliverTogether (tables : σ) (ws : List IndexWrite) : σ × Nat × List Undelivered :=
  match Tables.writeTogether tables ws with
  | .ok tables => (tables, ws.length, [])
  | .error e => (tables, 0, ws.map fun w => .of w e)

def deliver (delivery : Delivery) (tables : σ) (plan : WritePlan) : σ × DeliveryReport :=
  let (tables, applied, failed) :=
    match delivery with
    | .independent schedule => deliverEach schedule tables plan.indexWrites
    | .batched => deliverTogether tables plan.indexWrites
  (tables, ⟨plan.id, plan.action, applied, failed⟩)

end Chronicle
