import Chronicle.Table.Basic

/-! Tables that fail on demand at one point. -/

namespace Chronicle

inductive FailurePoint where
  | none
  | primary
  | on (target : String)
deriving DecidableEq, Repr

namespace FailurePoint

def checkPrimary : FailurePoint → Except Error Unit
  | primary => .error (.storage .injectedPrimary)
  | _ => .ok ()

def checkWrite (point : FailurePoint) (w : IndexWrite) : Except Error Unit :=
  if point = on w.target then .error (.storage (.injectedOn w.target)) else .ok ()

end FailurePoint

structure FailingTables (σ : Type) where
  tables : σ
  point : FailurePoint

namespace FailingTables

variable {σ : Type} [Tables σ]

def withTables (t : FailingTables σ) (tables : σ) : FailingTables σ := { t with tables }

instance : Tables (FailingTables σ) where
  put t table v := do
    t.point.checkPrimary
    return t.withTables (← Tables.put t.tables table v)
  version? t := Tables.version? t.tables
  latest? t := Tables.latest? t.tables
  chain t := Tables.chain t.tables
  dropChain t table id := do
    t.point.checkPrimary
    let (n, tables) ← Tables.dropChain t.tables table id
    return (n, t.withTables tables)
  idsAfter t := Tables.idsAfter t.tables
  write t w := do
    t.point.checkWrite w
    return t.withTables (← Tables.write t.tables w)
  writeTogether t ws := do
    ws.forM t.point.checkWrite
    return t.withTables (← Tables.writeTogether t.tables ws)
  refsAfter t := Tables.refsAfter t.tables
  countsAfter t := Tables.countsAfter t.tables
  purge t now := do
    let (n, tables) ← Tables.purge t.tables now
    return (n, t.withTables tables)

end FailingTables

end Chronicle
