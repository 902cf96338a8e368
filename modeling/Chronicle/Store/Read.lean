import Chronicle.Entity.Basic
import Chronicle.Page

/-! Reading entities. What an index yields is believed only as far as the primary table confirms it. -/

namespace Chronicle

structure LookupPage (ε : Type) where
  items : List ε
  stale : List Identifier
  next : Option Identifier
deriving Repr

namespace Collection

variable {ε σ : Type} [Entity ε] [Tables σ]

def decode (_c : Collection ε) (v : StoredVersion) : Except Error ε :=
  match (Entity.codec : Codec ε).read? v.payload with
  | some e => .ok e
  | none => .error (.storage .undecodable)

def current (c : Collection ε) (tables : σ) (id : Identifier) : Except Error (Option ε) := do
  (← Tables.latest? tables c.table id).mapM c.decode

def version (c : Collection ε) (tables : σ) (id update : Identifier) : Except Error (Option ε) := do
  (← Tables.version? tables c.table id update).mapM c.decode

def history (c : Collection ε) (tables : σ) (id : Identifier) : Except Error (List ε) := do
  (← Tables.chain tables c.table id).mapM c.decode

def currentMany (c : Collection ε) (tables : σ) (ids : List Identifier) (le : ε → ε → Bool) :
    Except Error (List ε) := do
  let found ← ids.mapM (c.current tables)
  return (found.filterMap id).mergeSort le

def ids (c : Collection ε) (tables : σ) (after : Option Identifier) (limit : Nat) :
    Except Error (List Identifier) := do
  return (← (Source.ofTable tables c.table).page limit after).items

def idLe (a b : ε) : Bool :=
  match Entity.id a, Entity.id b with
  | none, _ => true
  | some _, none => false
  | some x, some y => x ≤ y

def list (c : Collection ε) (tables : σ) (after : Option Identifier) (limit : Nat) : Except Error (List ε) := do
  c.currentMany tables (← c.ids tables after limit) idLe

def confirm (c : Collection ε) (tables : σ) (index value : String) (id : Identifier) : Except Error (Option ε) := do
  return (← c.current tables id).filter fun e => Entity.Carries e index value

def sift (follow : IndexRef → Except Error (Option ε)) : List IndexRef → Except Error (List ε × List Identifier)
  | [] => .ok ([], [])
  | ref :: refs => do
    let found ← follow ref
    let (items, stale) ← sift follow refs
    match found with
    | some e => return (e :: items, stale)
    | none => return (items, ref.entity :: stale)

def siftPage (tables : σ) (index value : String) (after : Option Identifier) (limit : Nat)
    (follow : IndexRef → Except Error (Option ε)) : Except Error (LookupPage ε) := do
  let page ← (Source.ofIndex tables index value).page limit after
  let (items, stale) ← sift follow page.items
  return ⟨items, stale, page.next⟩

def lookup (c : Collection ε) (tables : σ) (index value : String) (after : Option Identifier) (limit : Nat) :
    Except Error (LookupPage ε) :=
  siftPage tables index value after limit fun ref => c.confirm tables index value ref.entity

def lookupVersions (c : Collection ε) (tables : σ) (index value : String) (after : Option Identifier)
    (limit : Nat) : Except Error (LookupPage ε) :=
  siftPage tables index value after limit fun ref => c.version tables ref.entity ref.place

def holderPage : Nat := 8

/-- The first live entity, other than a given one, whose current version carries the value. However many stale
entries stand before it, they are passed over. -/
def holderBut? (c : Collection ε) (tables : σ) (index value : String) (except : Option Identifier) :
    Except Error (Option ε) :=
  (Source.ofIndex tables index value).search holderPage
    (fun ref => if some ref.entity = except then .ok none else c.confirm tables index value ref.entity) none

def holder? (c : Collection ε) (tables : σ) (index value : String) : Except Error (Option ε) :=
  c.holderBut? tables index value none

def counts (_c : Collection ε) (tables : σ) (counter key : String) (after : Option Int64) (limit : Nat) :
    Except Error (List (Int64 × UInt64)) := do
  return (← (Source.ofCounter tables counter key).page limit after).items

def takeDay (c : Collection ε) (tables : σ) (index bucket : String) (after : Option Identifier) (want : Nat) :
    Except Error (List ε) :=
  match c.lookupVersions tables index bucket after want with
  | .error e => .error e
  | .ok page =>
    if page.items.length = want then .ok page.items
    else
      match page.next with
      | none => .ok page.items
      | some next =>
        if _h : Grows after next then do
          let more ← c.takeDay tables index bucket (some next) (want - page.items.length)
          return page.items ++ more
        else .ok page.items
termination_by remaining after
decreasing_by exact remaining_lt_of_grows _h

def takeDays (c : Collection ε) (tables : σ) (index : String) :
    Nat → Int → Option Identifier → Nat → Except Error (List ε)
  | 0, _, _, _ => .ok []
  | days + 1, start, after, want => do
    let bucket := (Identifier.firstAt (Int64.ofInt start)).dayText
    let got ← c.takeDay tables index bucket after want
    if got.length = want then return got
    let more ← c.takeDays tables index days (start + Calendar.dayMillis) none (want - got.length)
    return got ++ more

def daysUntil (start now : Int) : Nat := ((now - start) / Calendar.dayMillis + 1).toNat

/-- The first `limit` versions written in the window of milliseconds before `now`, oldest first, by way of an index
of versions by day. -/
def recent (c : Collection ε) (tables : σ) (now : Int64) (index : String) (window : Int64) (limit : Nat) :
    Except Error (List ε) := do
  if limit = 0 then
    throw (.argument .zeroLimit)
  let oldest := Identifier.firstAt (Saturating.sub now window)
  let start := oldest.dayNumber * Calendar.dayMillis
  c.takeDays tables index (daysUntil start now.toInt) start (some oldest.pred) limit

end Collection

end Chronicle
