import Chronicle.Bytes
import Chronicle.Error

/-! Byte keys, whose byte order is the order of their parts. -/

namespace Chronicle.Key

def ordered (v : Int64) : Bytes := Bytes.bigEndian 8 (v.toInt - Int64.minValue.toInt).toNat

def readOrdered (bs : Bytes) : Except Error Int64 :=
  if bs.length = 8 then .ok (Int64.ofInt ((Bytes.ofBigEndian bs : Int) + Int64.minValue.toInt))
  else .error (.storage .shortInteger)

def texts (parts : List String) : Bytes := parts.flatMap fun part => Bytes.ofText part ++ [0]

def tablePrefix (table : String) : Bytes := texts [table]

def versionPrefix (table : String) (id : Identifier) : Bytes := texts [table] ++ ordered id.raw

def version (table : String) (id update : Identifier) : Bytes :=
  texts [table] ++ ordered id.raw ++ ordered update.raw

def readVersionId (key : Bytes) (skipped : Nat) : Except Error Identifier :=
  if skipped + 8 ≤ key.length then (readOrdered ((key.drop skipped).take 8)).map Identifier.mk
  else .error (.storage .malformedVersionKey)

def indexPrefix (index value : String) : Bytes := texts [index, value]

def index (index value : String) (place : Identifier) : Bytes :=
  texts [index, value] ++ ordered place.raw

def counterPrefix (counter key : String) : Bytes := texts [counter, key]

def counter (counter key : String) (bucket : Int64) : Bytes := texts [counter, key] ++ ordered bucket

/-- The first bytes past every key that begins with `start`, for a `start` that ends in NUL. -/
def pastPrefix (start : Bytes) : Bytes := start.dropLast ++ [1]

def pastEntity (start : Bytes) (id : Identifier) : Bytes := start ++ ordered id.raw ++ List.replicate 9 0xFF

def lease (node : Node) : Bytes := [node.toUInt8 ^^^ 0x80]

def readLease : Bytes → Except Error Node
  | [b] => .ok (b ^^^ 0x80).toInt8
  | _ => .error (.storage .malformedLeaseKey)

def leaseTrail (node : Node) (number : UInt64) : Bytes := lease node ++ Bytes.bigEndian 8 number.toNat

inductive ExpiryTarget where
  | version
  | index
deriving DecidableEq, Repr

def ExpiryTarget.tag : ExpiryTarget → UInt8
  | version => 0x76
  | index => 0x69

def expiry (expires : Int64) (target : ExpiryTarget) (key : Bytes) : Bytes :=
  ordered expires ++ target.tag :: key

def expiryBound (now : Int64) : Bytes := ordered (Saturating.add now 1)

def splitExpiry (key : Bytes) : Except Error (Int64 × ExpiryTarget × Bytes) :=
  match key.drop 8 with
  | [] => .error (.storage .malformedExpiryKey)
  | tag :: rest =>
    match readOrdered (key.take 8) with
    | .error e => .error e
    | .ok expires =>
      if tag = ExpiryTarget.version.tag then .ok (expires, .version, rest)
      else if tag = ExpiryTarget.index.tag then .ok (expires, .index, rest)
      else .error (.storage .unknownExpiryTarget)

end Chronicle.Key
