import Chronicle.Table.Basic

/-! Reading tables in pages. A walk needs no state but a cursor. -/

namespace Chronicle

class Cursor (κ : Type) where
  word : κ → Int64

instance : Cursor Identifier := ⟨Identifier.raw⟩

instance : Cursor Int64 := ⟨id⟩

/-- A listing in ascending order of cursors: `fetch after limit` yields the items after a cursor, up to a limit. -/
structure Source (α κ : Type) where
  fetch : Option κ → Nat → Except Error (List α)
  cursor : α → κ

structure Page (α κ : Type) where
  items : List α
  next : Option κ
deriving DecidableEq, Repr

def remaining [Cursor κ] : Option κ → Nat
  | none => UInt64.size
  | some c => (Int64.maxValue.toInt - (Cursor.word c).toInt).toNat

def Grows [Cursor κ] (after : Option κ) (next : κ) : Prop :=
  ∀ c ∈ after, Cursor.word c < Cursor.word next

instance [Cursor κ] (after : Option κ) (next : κ) : Decidable (Grows after next) :=
  match after with
  | none => .isTrue (by simp [Grows])
  | some c => decidable_of_iff (Cursor.word c < Cursor.word next) (by simp [Grows])

theorem remaining_lt_of_grows [Cursor κ] {after : Option κ} {next : κ} (h : Grows after next) :
    remaining (some next) < remaining after := by
  have hnext := (Cursor.word next).toInt_lt
  have hnext' := (Cursor.word next).le_toInt
  have hmax : Int64.maxValue.toInt = 9223372036854775807 := by decide
  cases after with
  | none =>
    simp only [remaining, UInt64.size]
    omega
  | some c =>
    have hlt := Int64.lt_iff_toInt_lt.1 (h c rfl)
    simp only [remaining]
    omega

namespace Source

variable {α κ : Type}

def page (s : Source α κ) (limit : Nat) (after : Option κ) : Except Error (Page α κ) := do
  if limit = 0 then
    throw (.argument .zeroLimit)
  let items ← s.fetch after limit
  return ⟨items, if items.length = limit then items.getLast?.map s.cursor else none⟩

def pages [Cursor κ] (s : Source α κ) (limit : Nat) (after : Option κ) : List (Except Error (List α)) :=
  match s.page limit after with
  | .error e => [.error e]
  | .ok ⟨items, next⟩ =>
    if items.isEmpty then []
    else
      match next with
      | none => [.ok items]
      | some c => .ok items :: if _h : Grows after c then s.pages limit (some c) else []
termination_by remaining after
decreasing_by exact remaining_lt_of_grows _h

def firstSome (f : α → Except Error (Option β)) : List α → Except Error (Option β)
  | [] => .ok none
  | a :: as => do
    match ← f a with
    | some b => return some b
    | none => firstSome f as

def search [Cursor κ] (s : Source α κ) (limit : Nat) (f : α → Except Error (Option β)) (after : Option κ) :
    Except Error (Option β) :=
  match s.page limit after with
  | .error e => .error e
  | .ok ⟨items, next⟩ =>
    match firstSome f items with
    | .error e => .error e
    | .ok (some b) => .ok (some b)
    | .ok none =>
      match next with
      | none => .ok none
      | some c => if _h : Grows after c then s.search limit f (some c) else .ok none
termination_by remaining after
decreasing_by exact remaining_lt_of_grows _h

variable {σ : Type} [Tables σ]

def ofIndex (tables : σ) (index value : String) : Source IndexRef Identifier :=
  ⟨Tables.refsAfter tables index value, IndexRef.place⟩

def ofCounter (tables : σ) (counter key : String) : Source (Int64 × UInt64) Int64 :=
  ⟨Tables.countsAfter tables counter key, Prod.fst⟩

def ofTable (tables : σ) (table : String) : Source Identifier Identifier :=
  ⟨Tables.idsAfter tables table, id⟩

end Source

end Chronicle
