import Chronicle.OrderedMap.Basic
import Chronicle.Table.Basic

/-! Tables as typed maps. -/

namespace Chronicle

structure NamedKey (ν : Type) where
  name : String
  value : String
  number : ν
deriving DecidableEq, Repr

structure VersionKey where
  table : String
  id : Identifier
  update : Identifier
deriving DecidableEq, Repr

namespace NamedKey

variable {ν : Type} [Ord ν]

instance : Ord (NamedKey ν) :=
  ⟨compareLex (compareOn name) (compareLex (compareOn value) (compareOn number))⟩

instance [Std.TransOrd ν] : Std.TransOrd (NamedKey ν) :=
  inferInstanceAs
    (Std.TransCmp (compareLex (compareOn name) (compareLex (compareOn value) (compareOn number))))

instance [Std.TransOrd ν] [Std.LawfulEqOrd ν] : Std.LawfulEqOrd (NamedKey ν) where
  compare_self := Std.ReflCmp.compare_self
  eq_of_compare {a b} h := by
    obtain ⟨h₁, h₂⟩ := Ordering.then_eq_eq.1 h
    obtain ⟨h₂, h₃⟩ := Ordering.then_eq_eq.1 h₂
    cases a
    cases b
    simp only [mk.injEq]
    exact ⟨Std.LawfulEqOrd.eq_of_compare h₁, Std.LawfulEqOrd.eq_of_compare h₂,
      Std.LawfulEqOrd.eq_of_compare h₃⟩

end NamedKey

namespace VersionKey

instance : Ord VersionKey :=
  ⟨compareLex (compareOn table) (compareLex (compareOn id) (compareOn update))⟩

instance : Std.TransOrd VersionKey :=
  inferInstanceAs
    (Std.TransCmp (compareLex (compareOn table) (compareLex (compareOn id) (compareOn update))))

instance : Std.LawfulEqOrd VersionKey where
  compare_self := Std.ReflCmp.compare_self
  eq_of_compare {a b} h := by
    obtain ⟨h₁, h₂⟩ := Ordering.then_eq_eq.1 h
    obtain ⟨h₂, h₃⟩ := Ordering.then_eq_eq.1 h₂
    cases a
    cases b
    simp only [mk.injEq]
    exact ⟨Std.LawfulEqOrd.eq_of_compare h₁, Std.LawfulEqOrd.eq_of_compare h₂,
      Std.LawfulEqOrd.eq_of_compare h₃⟩

end VersionKey

structure IndexCell where
  entity : Identifier
  expires : Option Int64
deriving DecidableEq, Repr

/-- Whether something with this expiry is due at a millisecond. What has no expiry never is. -/
def expired (now : Int64) (expires : Option Int64) : Bool := expires.any (· ≤ now)

def isAfter [Ord ν] (cursor : Option ν) (n : ν) : Bool :=
  match cursor with
  | none => true
  | some c => compare c n == .lt

structure MemoryTables where
  versions : OrderedMap VersionKey StoredVersion
  indexes : OrderedMap (NamedKey Identifier) IndexCell
  counters : OrderedMap (NamedKey Int64) UInt64

namespace MemoryTables

def empty : MemoryTables := ⟨∅, ∅, ∅⟩

def chain (t : MemoryTables) (table : String) (id : Identifier) : List StoredVersion :=
  (t.versions.scan fun k => k.table == table && k.id == id).map (·.2)

def idsAfter (t : MemoryTables) (table : String) (after : Option Identifier) : List Identifier :=
  distinctRuns ((t.versions.scan fun k => k.table == table && isAfter after k.id).map (·.1.id))

def refsAfter (t : MemoryTables) (index value : String) (after : Option Identifier) : List IndexRef :=
  (t.indexes.scan fun k => k.name == index && k.value == value && isAfter after k.number).map fun e =>
    ⟨e.1.number, e.2.entity⟩

def countsAfter (t : MemoryTables) (counter key : String) (after : Option Int64) : List (Int64 × UInt64) :=
  (t.counters.scan fun k => k.name == counter && k.value == key && isAfter after k.number).map fun e =>
    (e.1.number, e.2)

def put (t : MemoryTables) (table : String) (v : StoredVersion) : MemoryTables :=
  { t with versions := t.versions.insert ⟨table, v.id, v.update⟩ v }

def dropChain (t : MemoryTables) (table : String) (id : Identifier) : MemoryTables :=
  { t with versions := t.versions.filter fun k _ => !(k.table == table && k.id == id) }

def write (t : MemoryTables) : IndexWrite → MemoryTables
  | .insert entry expires =>
    { t with indexes := t.indexes.insert ⟨entry.index, entry.value, entry.place⟩ ⟨entry.entity, expires⟩ }
  | .retract entry => { t with indexes := t.indexes.erase ⟨entry.index, entry.value, entry.place⟩ }
  | .increment inc =>
    let key : NamedKey Int64 := ⟨inc.counter, inc.key, inc.bucket⟩
    let count := (t.counters.get? key).getD 0
    { t with counters := t.counters.insert key (Saturating.addCount count inc.amount) }

def dropExpired (t : MemoryTables) (now : Int64) : MemoryTables :=
  { t with
    versions := t.versions.filter fun _ v => !expired now v.expires
    indexes := t.indexes.filter fun _ cell => !expired now cell.expires }

def rowCount (t : MemoryTables) : Nat := t.versions.size + t.indexes.size

instance : Tables MemoryTables where
  put t table v := do
    refuseNul .table table
    return t.put table v
  version? t table id update := .ok (t.versions.get? ⟨table, id, update⟩)
  latest? t table id := .ok (t.chain table id).getLast?
  chain t table id := .ok (t.chain table id)
  dropChain t table id := .ok ((t.chain table id).length, t.dropChain table id)
  idsAfter t table after limit := .ok ((t.idsAfter table after).take limit)
  write t w := do
    w.check
    return t.write w
  writeTogether t ws := do
    ws.forM IndexWrite.check
    return ws.foldl write t
  refsAfter t index value after limit := .ok ((t.refsAfter index value after).take limit)
  countsAfter t counter key after limit := .ok ((t.countsAfter counter key after).take limit)
  purge t now := .ok (t.rowCount - (t.dropExpired now).rowCount, t.dropExpired now)

end MemoryTables

end Chronicle
