import Chronicle.Issuer
import Chronicle.Delivery
import Chronicle.Store.Read

/-! Writing entities: identifiers, unique values, the primary table, and last the index writes. -/

namespace Chronicle

structure Store (σ γ : Type) where
  tables : σ
  issuer : Issuer
  clock : γ
  delivery : Delivery

/-- What the clock reads when a write is stamped, first for its index rows and then for its version. -/
structure Stamps where
  rows : Int64
  version : Int64
deriving DecidableEq, Repr

def Stamps.read [Clock γ] (clock : γ) : Stamps :=
  ⟨Clock.now (Clock.elapse clock), Clock.now (Clock.elapse (Clock.elapse clock))⟩

structure Receipt (α : Type) where
  value : α
  planned : Nat
  report : DeliveryReport

namespace Collection

variable {ε σ : Type} [Entity ε] [Tables σ]

def refuseTaken (c : Collection ε) (tables : σ) (id : Identifier) : List Attribute → Except Error Unit
  | [] => .ok ()
  | a :: rest => do
    if a.unique then
      if (← c.holderBut? tables a.index a.value (some id)).isSome then
        throw (.valueTaken a.index a.value)
    c.refuseTaken tables id rest

def newVersion (c : Collection ε) (e : ε) (id update : Identifier) (stamps : Stamps) : StoredVersion :=
  ⟨id, update, Entity.codec.encode e, c.expiresAt stamps.version⟩

def createPlan (c : Collection ε) (e : ε) (id : Identifier) (stamps : Stamps) : WritePlan where
  id := id
  action := .create
  primary := .put (c.newVersion e id id stamps)
  inserts := (Entity.attributes e).map fun a => .insert (a.entry id id) (c.expiresAt stamps.rows)
  retracts := []
  increments := (Entity.increments e id).map .increment

def entityEntries (attrs : List Attribute) (id update : Identifier) : List IndexEntry :=
  (attrs.filter fun a => a.scope = .entity).map fun a => a.entry id update

def previousEntries (id : Identifier) : Option ε → List IndexEntry
  | none => []
  | some e => entityEntries (Entity.attributes e) id ((Entity.update e).getD id)

/-- The plan of a later version: entity-scoped entries are inserted where they are new and retracted where they no
longer apply, version-scoped entries are always inserted. -/
def updatePlan (c : Collection ε) (previous : Option ε) (e : ε) (id update : Identifier) (stamps : Stamps) :
    WritePlan :=
  let attrs := Entity.attributes e
  let old := previousEntries id previous
  let kept := entityEntries attrs id update
  let added := attrs.filter fun a => a.scope = .version ∨ a.entry id update ∉ old
  { id
    action := .update
    primary := .put (c.newVersion e id update stamps)
    inserts := added.map fun a => .insert (a.entry id update) (c.expiresAt stamps.rows)
    retracts := (old.filter fun entry => entry ∉ kept).map .retract
    increments := [] }

def deletePlan (current : Option ε) (id : Identifier) : WritePlan where
  id := id
  action := .delete
  primary := .clear
  inserts := []
  retracts :=
    match current with
    | none => []
    | some e => (Entity.attributes e).map fun a => .retract (a.entry id ((Entity.update e).getD id))
  increments := []

end Collection

namespace Store

variable {ε σ γ : Type} [Entity ε] [Tables σ] [Clock γ]

def issue (s : Store σ γ) : Except Error Identifier × Store σ γ :=
  let (issued, issuer, clock) := s.issuer.issue s.clock
  (issued, { s with issuer, clock })

def withTables (s : Store σ γ) (tables : σ) : Store σ γ := { s with tables }

def stamped (s : Store σ γ) : Store σ γ := { s with clock := Clock.elapse (Clock.elapse s.clock) }

def changePrimary (tables : σ) (table : String) (plan : WritePlan) : Except Error σ :=
  match plan.primary with
  | .put v => Tables.put tables table v
  | .clear => (Tables.dropChain tables table plan.id).map (·.2)

/-- Carries out a plan, unless making it or its primary change fails; then the tables stay as they are. -/
def carryOut (s : Store σ γ) (table : String) (planned : Except Error (α × WritePlan)) :
    Except Error (Receipt α) × Store σ γ :=
  let done : Except Error (Receipt α × σ) := do
    let (value, plan) ← planned
    let tables ← changePrimary s.tables table plan
    let (tables, report) := deliver s.delivery tables plan
    return (⟨value, plan.indexWrites.length, report⟩, tables)
  match done with
  | .ok (receipt, tables) => (.ok receipt, s.withTables tables)
  | .error e => (.error e, s)

def chooseId (s : Store σ γ) (c : Collection ε) (e : ε) : Except Error Identifier × Store σ γ :=
  match Entity.id e with
  | none => s.issue
  | some id =>
    match Tables.latest? s.tables c.table id with
    | .error err => (.error err, s)
    | .ok (some _) => (.error (.idTaken c.table id), s)
    | .ok none => (.ok id, s)

def create (s : Store σ γ) (c : Collection ε) (e : ε) : Except Error (Receipt ε) × Store σ γ :=
  match s.chooseId c e with
  | (.error err, s) => (.error err, s)
  | (.ok id, s) =>
    s.stamped.carryOut c.table do
      let e := Entity.stamp e id id
      c.refuseTaken s.tables id (Entity.attributes e)
      return (e, c.createPlan e id (Stamps.read s.clock))

def update (s : Store σ γ) (c : Collection ε) (e : ε) : Except Error (Receipt ε) × Store σ γ :=
  match Entity.id e with
  | none => (.error (.missingId c.table), s)
  | some id =>
    match c.current s.tables id with
    | .error err => (.error err, s)
    | .ok previous =>
      match s.issue with
      | (.error err, s) => (.error err, s)
      | (.ok update, s) =>
        s.stamped.carryOut c.table do
          let e := Entity.withUpdate e update
          c.refuseTaken s.tables id (Entity.attributes e)
          return (e, c.updatePlan previous e id update (Stamps.read s.clock))

/-- Removes every version of an entity and retracts the index entries of the current one. Entries that only earlier
versions made stay, and counters do not go down. Gives back what was current. -/
def delete (s : Store σ γ) (c : Collection ε) (id : Identifier) :
    Except Error (Receipt (Option ε)) × Store σ γ :=
  s.carryOut c.table do
    let current ← c.current s.tables id
    return (current, Collection.deletePlan current id)

def recent (s : Store σ γ) (c : Collection ε) (index : String) (window : Int64) (limit : Nat) :
    Except Error (List ε) :=
  c.recent s.tables (Clock.now s.clock) index window limit

end Store

end Chronicle
