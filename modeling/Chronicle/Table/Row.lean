import Chronicle.Codec.Number
import Chronicle.Identifier.Text

/-! What tables hold: versions of entities, index entries that refer to entities, and counters. -/

namespace Chronicle

structure StoredVersion where
  id : Identifier
  update : Identifier
  payload : Bytes
  expires : Option Int64
deriving DecidableEq, Repr

/-- An index entry: `entity` carried `value`. Entries of one value are ordered by their place, which is the id of the
entity or the update id of the version that made the entry. -/
structure IndexEntry where
  index : String
  value : String
  place : Identifier
  entity : Identifier
deriving DecidableEq, Repr

structure IndexRef where
  place : Identifier
  entity : Identifier
deriving DecidableEq, Repr

structure Increment where
  counter : String
  key : String
  bucket : Int64
  amount : UInt64
deriving DecidableEq, Repr

inductive IndexWrite where
  | insert (entry : IndexEntry) (expires : Option Int64)
  | retract (entry : IndexEntry)
  | increment (inc : Increment)
deriving DecidableEq, Repr

namespace IndexWrite

def isRetract : IndexWrite → Bool
  | retract _ => true
  | _ => false

def target : IndexWrite → String
  | insert entry _ => entry.index
  | retract entry => entry.index
  | increment inc => inc.counter

end IndexWrite

namespace Codec

def identifier : Codec Identifier := text.refine Identifier.render fun s => (Identifier.parse s).toOption

def storedVersion : Codec StoredVersion :=
  (identifier.pair (identifier.pair ((list byte).pair (option int64)))).refine
    (fun v => (v.id, v.update, v.payload, v.expires))
    fun (id, update, payload, expires) => some ⟨id, update, payload, expires⟩

end Codec

end Chronicle
