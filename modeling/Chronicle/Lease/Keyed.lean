import Chronicle.Lease.Basic
import Chronicle.Table.Keyed

/-! Leases as flat byte maps. -/

namespace Chronicle

structure KeyedLeases where
  active : ByteMap
  holders : ByteMap
  trails : ByteMap

namespace KeyedLeases

def empty : KeyedLeases := ⟨∅, ∅, ∅⟩

def readLease (bs : Bytes) : Except Error Lease := Codec.readStored Codec.lease bs

def ofNode? (b : KeyedLeases) (node : Node) : Except Error (Option Lease) :=
  (b.active.get? (Key.lease node)).mapM readLease

def storedTrail (b : KeyedLeases) (node : Node) : List (Bytes × Bytes) := b.trails.under (Key.lease node)

def enter (b : KeyedLeases) (lease : Lease) : KeyedLeases :=
  let bytes := Codec.lease.encode lease
  let number := UInt64.ofNat (b.storedTrail lease.node).length
  { active := b.active.insert (Key.lease lease.node) bytes
    holders := b.holders.insert (Bytes.ofText lease.identity) (Key.lease lease.node)
    trails := b.trails.insert (Key.leaseTrail lease.node number) bytes }

def strike (b : KeyedLeases) (lease : Lease) (node : Node) : KeyedLeases :=
  { b with
    active := b.active.erase (Key.lease node)
    holders := b.holders.erase (Bytes.ofText lease.identity) }

instance : LeaseBook KeyedLeases where
  ofNode? := ofNode?
  ofIdentity? b identity := do
    match b.holders.get? (Bytes.ofText identity) with
    | none => return none
    | some key =>
      let node ← Key.readLease key
      let found ← b.ofNode? node
      return found.filter fun lease => lease.identity == identity
  listing b := b.active.values.mapM readLease
  claim b lease :=
    .ok (if b.active.contains (Key.lease lease.node) then (false, b) else (true, b.enter lease))
  renew b lease := .ok (b.enter lease)
  release b node := do
    match ← b.ofNode? node with
    | none => return (none, b)
    | some lease => return (some lease, b.strike lease node)
  trail b node := (b.storedTrail node).mapM fun e => readLease e.2

end KeyedLeases

end Chronicle
