import Chronicle.Identifier.Calendar
import Chronicle.Table.Row

/-! Entities: records kept as chains of versions, with index attributes and counters. -/

namespace Chronicle

inductive Scope where
  | entity
  | version
deriving DecidableEq, Repr

structure Attribute where
  index : String
  value : String
  scope : Scope
  unique : Bool
deriving DecidableEq, Repr

namespace Attribute

def entry (a : Attribute) (id update : Identifier) : IndexEntry where
  index := a.index
  value := a.value
  place :=
    match a.scope with
    | .entity => id
    | .version => update
  entity := id

def Matches (a : Attribute) (index value : String) : Prop := a.index = index ∧ a.value = value

instance (a : Attribute) (index value : String) : Decidable (a.Matches index value) :=
  inferInstanceAs (Decidable (_ ∧ _))

end Attribute

/-- A type of records with two identifiers of their own: of the first version, and of the version at hand. -/
class Entity (ε : Type) where
  id : ε → Option Identifier
  update : ε → Option Identifier
  withId : ε → Identifier → ε
  withUpdate : ε → Identifier → ε
  attributes : ε → List Attribute
  increments : ε → Identifier → List Increment
  codec : Codec ε

namespace Entity

def stamp [Entity ε] (e : ε) (id update : Identifier) : ε := withUpdate (withId e id) update

def Carries [Entity ε] (e : ε) (index value : String) : Prop := ∃ a ∈ attributes e, a.Matches index value

instance [Entity ε] (e : ε) (index value : String) : Decidable (Carries e index value) :=
  inferInstanceAs (Decidable (∃ a ∈ attributes e, a.Matches index value))

end Entity

structure Collection (ε : Type) where
  table : String
  lifetime : Option Int64

def Collection.expiresAt (c : Collection ε) (now : Int64) : Option Int64 := c.lifetime.map (Saturating.add now)

end Chronicle
