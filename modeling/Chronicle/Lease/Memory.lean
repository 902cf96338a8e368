import Chronicle.Lease.Basic
import Chronicle.OrderedMap.Basic

/-! Leases as typed maps. -/

namespace Chronicle

structure MemoryLeases where
  active : OrderedMap Node Lease
  holders : OrderedMap String Node
  trails : OrderedMap Node (List Lease)

namespace MemoryLeases

def empty : MemoryLeases := ⟨∅, ∅, ∅⟩

def trail (b : MemoryLeases) (node : Node) : List Lease := (b.trails.get? node).getD []

/-- The active lease of an identity: that of the node which the identity was given last. -/
def ofIdentity? (b : MemoryLeases) (identity : String) : Option Lease :=
  (b.holders.get? identity).bind b.active.get?

def enter (b : MemoryLeases) (lease : Lease) : MemoryLeases :=
  { b with
    active := b.active.insert lease.node lease
    trails := b.trails.insert lease.node (b.trail lease.node ++ [lease]) }

def note (b : MemoryLeases) (lease : Lease) : MemoryLeases :=
  { b with holders := b.holders.insert lease.identity lease.node }

def strike (b : MemoryLeases) (lease : Lease) (node : Node) : MemoryLeases :=
  { b with
    active := b.active.erase node
    holders :=
      if b.holders.get? lease.identity = some node then b.holders.erase lease.identity else b.holders }

instance : LeaseBook MemoryLeases where
  ofNode? b node := .ok (b.active.get? node)
  ofIdentity? b identity := .ok (b.ofIdentity? identity)
  listing b := .ok b.active.values
  claim b lease := .ok (if b.active.contains lease.node then (false, b) else (true, (b.note lease).enter lease))
  renew b lease := .ok (b.enter lease)
  release b node :=
    match b.active.get? node with
    | none => .ok (none, b)
    | some lease => .ok (some lease, b.strike lease node)
  trail b node := .ok (b.trail node)

end MemoryLeases

end Chronicle
