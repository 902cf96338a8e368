import Chronicle.Bytes
import Chronicle.Identifier.Text
import Chronicle.Text.Quoted

namespace Chronicle

inductive NameKind where
  | table
  | index
  | indexValue
  | counter
  | counterKey
  | other (label : String)
deriving DecidableEq, Repr

namespace NameKind

def label : NameKind → String
  | table => "table name"
  | index => "index name"
  | indexValue => "index value"
  | counter => "counter name"
  | counterKey => "counter key"
  | other label => label

end NameKind

inductive ArgumentFault where
  | nodeOutOfRange (node : Node)
  | emptyIdentity
  | zeroLimit
  | holdsNul (kind : NameKind) (text : String)
deriving DecidableEq, Repr

namespace ArgumentFault

def message : ArgumentFault → String
  | nodeOutOfRange node => s!"node id {node.toInt} out of range"
  | emptyIdentity => "lease identity must not be empty"
  | zeroLimit => "page limit must be positive"
  | holdsNul kind text => s!"{kind.label} must not contain NUL: {Text.quoted text}"

end ArgumentFault

inductive StorageFault where
  | shortInteger
  | malformedVersionKey
  | malformedLeaseKey
  | malformedExpiryKey
  | unknownExpiryTarget
  | malformedCount
  | undecodable
  | injectedPrimary
  | injectedOn (target : String)
deriving DecidableEq, Repr

namespace StorageFault

def message? : StorageFault → Option String
  | shortInteger => some "short ordered integer"
  | malformedVersionKey => some "malformed version key"
  | malformedLeaseKey => some "malformed lease key"
  | malformedExpiryKey => some "malformed ttl key"
  | unknownExpiryTarget => some "unknown ttl target"
  | malformedCount => some "malformed counter value"
  | undecodable => none
  | injectedPrimary => some "injected primary failure"
  | injectedOn target => some s!"injected failure on {target}"

end StorageFault

inductive Error where
  | noNode
  | noFreeNode
  | nodeTaken (node : Node)
  | missingId (table : String)
  | idTaken (table : String) (id : Identifier)
  | valueTaken (index value : String)
  | entriesLeft (id : Identifier) (failed : Nat)
  | millisecondFull (millis : Int64)
  | clockStalled (pauses : Nat)
  | unreadableId (fault : Identifier.TextFault)
  | argument (fault : ArgumentFault)
  | storage (fault : StorageFault)
deriving DecidableEq, Repr

instance instDecidableEqExcept {ε α : Type} [DecidableEq ε] [DecidableEq α] : DecidableEq (Except ε α)
  | .ok a, .ok b => decidable_of_iff (a = b) ⟨congrArg Except.ok, Except.ok.inj⟩
  | .error e, .error f => decidable_of_iff (e = f) ⟨congrArg Except.error, Except.error.inj⟩
  | .ok _, .error _ => .isFalse nofun
  | .error _, .ok _ => .isFalse nofun

namespace Error

def message : Error → String
  | noNode => "identifier allocator used before a node id was assigned"
  | noFreeNode => "no free node id left in the lease pool"
  | nodeTaken node => s!"node id {node.toInt} was leased concurrently by another process"
  | missingId table => s!"{table}: update requires an entity id"
  | idTaken table id => s!"{table}: entity {id.render} already exists"
  | valueTaken index value => s!"{index}: value '{value}' is already held by another entity"
  | entriesLeft id failed => s!"entity {id.render} deleted but {failed} index retraction(s) failed"
  | millisecondFull millis => s!"sequence exhausted for backdated millisecond {millis.toInt}"
  | clockStalled pauses => s!"clock did not advance after {pauses} pauses"
  | unreadableId fault => s!"invalid identifier: {fault.message}"
  | argument fault => s!"invalid argument: {fault.message}"
  | storage fault =>
    match fault.message? with
    | some text => s!"storage error: {text}"
    | none => "storage error"

end Error

def refuseNul (kind : NameKind) (text : String) : Except Error Unit :=
  if (Bytes.ofText text).contains 0 then .error (.argument (.holdsNul kind text)) else .ok ()

end Chronicle
