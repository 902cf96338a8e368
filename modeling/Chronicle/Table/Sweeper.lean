import Chronicle.Table.Basic

/-! Purging expired rows at intervals. -/

namespace Chronicle

def Sweeper.defaultIntervalSeconds : Nat := 60

structure Sweeper where
  interval : Nat
  waited : Nat
  running : Bool
deriving DecidableEq, Repr

namespace Sweeper

variable {σ : Type} [Tables σ]

/-- One purge at a millisecond, with the number of rows that it removed. A purge that fails removes none, and the
sweeper goes on. -/
def sweep (tables : σ) (now : Int64) : Nat × σ :=
  match Tables.purge tables now with
  | .ok (n, tables) => (n, tables)
  | .error _ => (0, tables)

def start (interval : Nat) : Sweeper := ⟨interval, 0, true⟩

def elapse (s : Sweeper) (millis : Nat) : Bool × Sweeper :=
  if s.running then
    let waited := s.waited + millis
    (s.interval ≤ waited, { s with waited := if s.interval ≤ waited then waited % s.interval else waited })
  else (false, s)

/-- Receives a value of the stop flag, unless nobody listens any more. Any value ends the wait at hand. -/
def signal (s : Sweeper) (stop : Bool) : Bool × Sweeper :=
  if s.running then (true, { s with waited := 0, running := !stop }) else (false, s)

def disconnect (s : Sweeper) : Sweeper := { s with running := false }

end Sweeper

end Chronicle
