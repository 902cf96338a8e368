import Chronicle.OrderedMap.Basic
import Chronicle.Table.Key
import Chronicle.Table.Memory

/-! Tables as flat byte maps. Each operation commits one list of changes, in order, or nothing. -/

namespace Chronicle

abbrev ByteMap := OrderedMap Bytes Bytes

namespace ByteMap

def range (m : ByteMap) (start stop : Bytes) : List (Bytes × Bytes) :=
  m.scan fun k => (compare start k).isLE && compare k stop == .lt

def before (m : ByteMap) (stop : Bytes) : List (Bytes × Bytes) := m.scan fun k => compare k stop == .lt

def under (m : ByteMap) (start : Bytes) : List (Bytes × Bytes) := m.scan fun k => start.isPrefixOf k

end ByteMap

namespace Codec

def indexCell : Codec IndexCell :=
  (identifier.pair (option int64)).refine (fun cell => (cell.entity, cell.expires))
    fun (entity, expires) => some ⟨entity, expires⟩

def readStored (c : Codec α) (bs : Bytes) : Except Error α :=
  match c.read? bs with
  | some a => .ok a
  | none => .error (.storage .undecodable)

def encodeCount (n : UInt64) : Bytes := Bytes.bigEndian 8 n.toNat

def readCount (bs : Bytes) : Except Error UInt64 :=
  if bs.length = 8 then .ok (UInt64.ofNat (Bytes.ofBigEndian bs)) else .error (.storage .malformedCount)

end Codec

structure KeyedTables where
  versions : ByteMap
  indexes : ByteMap
  counters : ByteMap
  /-- For each row that expires a key that names the time and the row, without a value. -/
  expiries : ByteMap

namespace KeyedTables

def empty : KeyedTables := ⟨∅, ∅, ∅, ∅⟩

inductive Space where
  | versions
  | indexes
  | counters
  | expiries
deriving DecidableEq, Repr

inductive Change where
  | put (space : Space) (key value : Bytes)
  | remove (space : Space) (key : Bytes)
deriving DecidableEq, Repr

def alter (t : KeyedTables) (f : ByteMap → ByteMap) : Space → KeyedTables
  | .versions => { t with versions := f t.versions }
  | .indexes => { t with indexes := f t.indexes }
  | .counters => { t with counters := f t.counters }
  | .expiries => { t with expiries := f t.expiries }

def change (t : KeyedTables) : Change → KeyedTables
  | .put space key value => t.alter (fun m => m.insert key value) space
  | .remove space key => t.alter (fun m => m.erase key) space

def commit (t : KeyedTables) (changes : List Change) : KeyedTables := changes.foldl change t

def announce (expires : Option Int64) (target : Key.ExpiryTarget) (key : Bytes) : List Change :=
  expires.toList.map fun e => .put .expiries (Key.expiry e target key) []

def stageVersion (table : String) (v : StoredVersion) : List Change :=
  let key := Key.version table v.id v.update
  announce v.expires .version key ++ [.put .versions key (Codec.storedVersion.encode v)]

def readCounter (t : KeyedTables) (key : Bytes) : Except Error UInt64 :=
  match t.counters.get? key with
  | none => .ok 0
  | some bs => Codec.readCount bs

def stage (t : KeyedTables) (w : IndexWrite) : Except Error (List Change) := do
  w.check
  match w with
  | .insert entry expires =>
    let key := Key.index entry.index entry.value entry.place
    return announce expires .index key ++ [.put .indexes key (Codec.indexCell.encode ⟨entry.entity, expires⟩)]
  | .retract entry => return [.remove .indexes (Key.index entry.index entry.value entry.place)]
  | .increment inc =>
    let key := Key.counter inc.counter inc.key inc.bucket
    let count ← t.readCounter key
    return [.put .counters key (Codec.encodeCount (Saturating.addCount count inc.amount))]

def sameBucket (a b : Increment) : Bool := a.counter = b.counter ∧ a.key = b.key ∧ a.bucket = b.bucket

def sharesBucket (inc : Increment) : IndexWrite → Bool
  | .increment earlier => sameBucket earlier inc
  | _ => false

def absorb (inc : Increment) : IndexWrite → IndexWrite
  | .increment earlier =>
    if sameBucket earlier inc then
      .increment { earlier with amount := Saturating.addCount earlier.amount inc.amount }
    else .increment earlier
  | w => w

def gather (gathered : List IndexWrite) : IndexWrite → List IndexWrite
  | .increment inc =>
    if gathered.any (sharesBucket inc) then gathered.map (absorb inc) else gathered ++ [.increment inc]
  | w => gathered ++ [w]

/-- Gathers the increments of each bucket into the first of them, since all would start from the stored count. -/
def gatherIncrements (ws : List IndexWrite) : List IndexWrite := ws.foldl gather []

def writeAll (t : KeyedTables) (ws : List IndexWrite) : Except Error KeyedTables := do
  let staged ← (gatherIncrements ws).mapM t.stage
  return t.commit staged.flatten

def collectIds (skipped : Nat) : Option Identifier → Nat → List Bytes → Except Error (List Identifier)
  | _, _, [] => .ok []
  | last, limit, key :: keys => do
    let id ← Key.readVersionId key skipped
    if last = some id then collectIds skipped last limit keys
    else
      match limit with
      | 0 => return []
      | limit + 1 => return id :: (← collectIds skipped (some id) limit keys)

def versionKeysAfter (t : KeyedTables) (table : String) (after : Option Identifier) : List Bytes :=
  let first := Key.tablePrefix table
  let start :=
    match after with
    | some a => Key.pastEntity first a
    | none => first
  (t.versions.range start (Key.pastPrefix first)).map (·.1)

def entriesAfter (m : ByteMap) (first : Bytes) (after : Option Int64) : List (Bytes × Bytes) :=
  match after with
  | none => m.range first (Key.pastPrefix first)
  | some a => if a = Int64.maxValue then [] else m.range (first ++ Key.ordered (a + 1)) (Key.pastPrefix first)

def readRef (skipped : Nat) (e : Bytes × Bytes) : Except Error IndexRef := do
  let place ← Key.readOrdered (e.1.drop skipped)
  let cell ← Codec.readStored Codec.indexCell e.2
  return ⟨⟨place⟩, cell.entity⟩

def readBucket (skipped : Nat) (e : Bytes × Bytes) : Except Error (Int64 × UInt64) := do
  let bucket ← Key.readOrdered (e.1.drop skipped)
  let count ← Codec.readCount e.2
  return (bucket, count)

/-- The changes that carry out an announced expiry. The row goes whatever it has become since the announcement. -/
def stageExpiry (key : Bytes) : Except Error (List Change) := do
  let (_, target, row) ← Key.splitExpiry key
  match target with
  | .version => return [.remove .versions row, .remove .expiries key]
  | .index => return [.remove .indexes row, .remove .expiries key]

def storedChain (t : KeyedTables) (table : String) (id : Identifier) : List (Bytes × Bytes) :=
  t.versions.under (Key.versionPrefix table id)

def readVersion (bs : Bytes) : Except Error StoredVersion := Codec.readStored Codec.storedVersion bs

instance : Tables KeyedTables where
  put t table v := do
    refuseNul .table table
    return t.commit (stageVersion table v)
  version? t table id update := (t.versions.get? (Key.version table id update)).mapM readVersion
  latest? t table id := (t.storedChain table id).getLast?.mapM fun e => readVersion e.2
  chain t table id := (t.storedChain table id).mapM fun e => readVersion e.2
  dropChain t table id :=
    let keys := (t.storedChain table id).map (·.1)
    .ok (keys.length, t.commit (keys.map (.remove .versions)))
  idsAfter t table after limit :=
    collectIds (Key.tablePrefix table).length none limit (t.versionKeysAfter table after)
  write t w := t.writeAll [w]
  writeTogether t ws := t.writeAll ws
  refsAfter t index value after limit :=
    let first := Key.indexPrefix index value
    ((entriesAfter t.indexes first (after.map (·.raw))).take limit).mapM (readRef first.length)
  countsAfter t counter key after limit :=
    let first := Key.counterPrefix counter key
    ((entriesAfter t.counters first after).take limit).mapM (readBucket first.length)
  purge t now := do
    let due := (t.expiries.before (Key.expiryBound now)).map (·.1)
    let staged ← due.mapM stageExpiry
    return (due.length, t.commit staged.flatten)

end KeyedTables

end Chronicle
