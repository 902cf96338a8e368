import Chronicle.Clock
import Chronicle.Error
import Chronicle.OrderedMap.Basic

/-! Issuing identifiers: live ones follow a clock, past ones count the sequences of each millisecond. -/

namespace Chronicle

structure Issuer where
  node : Option Node
  millis : Int64
  sequence : UInt16
  /-- Next sequence of each past millisecond that is remembered. -/
  past : OrderedMap Int64 UInt16
  /-- Pauses that one call may wait for a new millisecond. -/
  patience : Nat
  waits : Nat

namespace Issuer

def pauseMicros : Nat := 50

def defaultPatienceMillis : Nat := 100

def pastLimit : Nat := 4096

def ofPatience (micros : Nat) : Issuer :=
  ⟨none, Int64.minValue, 0, ∅, max (micros / pauseMicros) 1, 0⟩

/-- Assigns the node. The first assignment stays in force and is returned by every later one. -/
def assignNode (s : Issuer) (node : Node) : Except Error (Node × Issuer) :=
  if node.IsAssignable then
    let inForce := s.node.getD node
    .ok (inForce, { s with node := some inForce })
  else .error (.argument (.nodeOutOfRange node))

def awaitAfter [Clock γ] (last : Int64) : Nat → γ → Option Int64 × γ
  | pauses, clock =>
    if last < Clock.now clock then (some (Clock.now clock), clock)
    else
      match pauses with
      | 0 => (none, clock)
      | pauses + 1 => awaitAfter last pauses (Clock.pause clock)

def enter (s : Issuer) (millis : Int64) : Issuer := { s with millis := millis, sequence := 0 }

/-- Moves on to the next pair of millisecond and sequence: a later reading of the clock, else the next sequence, else
a millisecond that has to be waited for. -/
def advance [Clock γ] (s : Issuer) (clock : γ) : Except Error Issuer × γ :=
  if s.millis < Clock.now clock then (.ok (s.enter (Clock.now clock)), clock)
  else if s.sequence.toNat < Identifier.lastSequence then (.ok { s with sequence := s.sequence + 1 }, clock)
  else
    match awaitAfter s.millis s.patience clock with
    | (some millis, clock) => (.ok { s.enter millis with waits := s.waits + 1 }, clock)
    | (none, clock) => (.error (.clockStalled s.patience), clock)

def issue [Clock γ] (s : Issuer) (clock : γ) : Except Error Identifier × Issuer × γ :=
  match s.node with
  | none => (.error .noNode, s, clock)
  | some node =>
    match s.advance clock with
    | (.ok s, clock) => (.ok (.ofFields s.millis s.sequence node), s, clock)
    | (.error e, clock) => (.error e, s, clock)

def makeRoom (s : Issuer) (millis : Int64) : OrderedMap Int64 UInt16 :=
  if pastLimit ≤ s.past.size ∧ !s.past.contains millis then s.past.eraseMin else s.past

/-- Issues the next identifier of a given millisecond. These have no order relative to live ones. -/
def issueAt (s : Issuer) (millis : Int64) : Except Error (Identifier × Issuer) :=
  match s.node with
  | none => .error .noNode
  | some node =>
    let remembered := s.makeRoom millis
    let next := (remembered.get? millis).getD 0
    if Identifier.lastSequence < next.toNat then .error (.millisecondFull millis)
    else .ok (.ofFields millis next node, { s with past := remembered.insert millis (next + 1) })

def firstFromNow [Clock γ] (clock : γ) (offset : Int64) : Identifier :=
  .firstAt (Saturating.add (Clock.now clock) offset)

def lastFromNow [Clock γ] (clock : γ) (offset : Int64) : Identifier :=
  .lastAt (Saturating.add (Clock.now clock) offset)

end Issuer

end Chronicle
