import Chronicle.Error
import Chronicle.Table.Row

/-! The operations of tables. A write gives the tables after it, or an error and then nothing has changed. -/

namespace Chronicle

/-- Primary tables of versions, index tables and counters of every type of entity, in one store. -/
class Tables (σ : Type) where
  put : σ → String → StoredVersion → Except Error σ
  version? : σ → String → Identifier → Identifier → Except Error (Option StoredVersion)
  latest? : σ → String → Identifier → Except Error (Option StoredVersion)
  chain : σ → String → Identifier → Except Error (List StoredVersion)
  dropChain : σ → String → Identifier → Except Error (Nat × σ)
  idsAfter : σ → String → Option Identifier → Nat → Except Error (List Identifier)
  write : σ → IndexWrite → Except Error σ
  writeTogether : σ → List IndexWrite → Except Error σ
  refsAfter : σ → String → String → Option Identifier → Nat → Except Error (List IndexRef)
  countsAfter : σ → String → String → Option Int64 → Nat → Except Error (List (Int64 × UInt64))
  purge : σ → Int64 → Except Error (Nat × σ)

/-- Refuses index writes whose names hold the delimiter of keys. Retractions are never refused: there is nothing to
retract under such a name. -/
def IndexWrite.check : IndexWrite → Except Error Unit
  | insert entry _ => do
    refuseNul .index entry.index
    refuseNul .indexValue entry.value
  | retract _ => .ok ()
  | increment inc => do
    refuseNul .counter inc.counter
    refuseNul .counterKey inc.key

def distinctRuns : List Identifier → List Identifier
  | [] => []
  | [x] => [x]
  | x :: y :: rest => if x = y then distinctRuns (y :: rest) else x :: distinctRuns (y :: rest)

end Chronicle
