import Chronicle.Entity.Basic

/-! Events: found by kind and by day, and gone an hour after they were written. -/

namespace Chronicle

structure Event where
  id : Option Identifier
  update : Option Identifier
  kind : String
deriving DecidableEq, Repr

namespace Event

def codec : Codec Event :=
  ((Codec.option .identifier).pair ((Codec.option .identifier).pair .text)).refine
    (fun e => (e.id, e.update, e.kind)) fun (id, update, kind) => some ⟨id, update, kind⟩

def attributes (e : Event) : List Attribute :=
  ⟨"events_by_kind", e.kind, .entity, false⟩
    :: e.update.toList.map fun u => ⟨"events_by_day", u.dayText, .version, false⟩

instance : Entity Event where
  id := id
  update := update
  withId e id := { e with id := some id }
  withUpdate e update := { e with update := some update }
  attributes := attributes
  increments _ _ := []
  codec := codec

def collection : Collection Event := ⟨"events", some 3600000⟩

end Event

end Chronicle
