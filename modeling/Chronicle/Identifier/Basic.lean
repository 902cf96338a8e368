import Chronicle.Saturating

/-! Identifiers: 64-bit words whose numeric order is the order in time. -/

namespace Chronicle

abbrev Node := Int8

namespace Node

def pool : List Node := (List.range 255).map fun i : Nat => Int8.ofInt (127 - i)

def IsAssignable (n : Node) : Prop := -127 ≤ n

instance (n : Node) : Decidable n.IsAssignable := inferInstanceAs (Decidable (-127 ≤ n))

end Node

/-- A time-ordered identifier: 46 bits of signed milliseconds, 10 bits of sequence, 8 bits of signed node. -/
structure Identifier where
  raw : Int64
deriving DecidableEq, Repr, Inhabited

namespace Identifier

instance : Ord Identifier := ⟨fun a b => compare a.raw b.raw⟩

instance : LT Identifier := ⟨fun a b => a.raw < b.raw⟩

instance : LE Identifier := ⟨fun a b => a.raw ≤ b.raw⟩

instance (a b : Identifier) : Decidable (a < b) := inferInstanceAs (Decidable (a.raw < b.raw))

instance (a b : Identifier) : Decidable (a ≤ b) := inferInstanceAs (Decidable (a.raw ≤ b.raw))

instance : Std.TransOrd Identifier where
  eq_swap {a b} := (Std.OrientedCmp.eq_swap : compare a.raw b.raw = (compare b.raw a.raw).swap)
  isLE_trans {a _ c} h h' := (Std.TransCmp.isLE_trans h h' : (compare a.raw c.raw).isLE)

instance : Std.LawfulEqOrd Identifier where
  compare_self {a} := (Std.ReflCmp.compare_self : compare a.raw a.raw = .eq)
  eq_of_compare {a b} h := by
    cases a
    cases b
    exact congrArg mk (Std.LawfulEqOrd.eq_of_compare h)

def least : Identifier := ⟨Int64.minValue⟩

def greatest : Identifier := ⟨Int64.maxValue⟩

def lastSequence : Nat := 1023

def perMillisecond : Int := 1024 * 256

/-- The identifier of the given fields. The sequence is taken modulo 1024, and the millisecond keeps its low 46 bits. -/
def ofFields (millis : Int64) (sequence : UInt16) (node : Node) : Identifier :=
  ⟨Int64.ofInt (millis.toInt * perMillisecond + (sequence.toNat % 1024 * 256 : Nat) + node.toUInt8.toNat)⟩

def firstAt (millis : Int64) : Identifier := ⟨Int64.ofInt (millis.toInt * perMillisecond)⟩

def lastAt (millis : Int64) : Identifier :=
  ⟨Int64.ofInt (millis.toInt * perMillisecond + (perMillisecond - 1))⟩

/-- The identifier just below; the least one is its own. As an exclusive cursor it still admits `x`. -/
def pred (x : Identifier) : Identifier := ⟨Saturating.sub x.raw 1⟩

def millis (x : Identifier) : Int64 := Int64.ofInt (x.raw.toInt / perMillisecond)

def sequence (x : Identifier) : UInt16 := UInt16.ofNat (x.raw.toInt / 256 % 1024).toNat

def node (x : Identifier) : Node := Int8.ofInt x.raw.toInt

def secondsUntil (x y : Identifier) : Int := (y.millis.toInt - x.millis.toInt + 500) / 1000

end Identifier

end Chronicle
