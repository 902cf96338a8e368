import Chronicle.Entity.Basic
import Chronicle.Text.Lowercase

/-! Accounts: found by e-mail address, by state and by day, and counted per day. -/

namespace Chronicle

structure Account where
  id : Option Identifier
  update : Option Identifier
  email : String
  state : String
deriving DecidableEq, Repr

namespace Account

def new (email state : String) : Account := ⟨none, none, email, state⟩

def codec : Codec Account :=
  ((Codec.option .identifier).pair ((Codec.option .identifier).pair (Codec.text.pair .text))).refine
    (fun a => (a.id, a.update, a.email, a.state))
    fun (id, update, email, state) => some ⟨id, update, email, state⟩

def attributes (a : Account) : List Attribute :=
  [⟨"accounts_by_email", Text.lowercase a.email, .entity, true⟩, ⟨"accounts_by_state", a.state, .entity, false⟩]
    ++ a.update.toList.map fun u => ⟨"accounts_by_day", u.dayText, .version, false⟩

def increments (a : Account) (id : Identifier) : List Increment :=
  let day := Int64.ofInt id.dayCode
  [⟨"accounts_per_day", "all", day, 1⟩, ⟨"accounts_per_day_by_state", a.state, day, 1⟩]

instance : Entity Account where
  id := id
  update := update
  withId a id := { a with id := some id }
  withUpdate a update := { a with update := some update }
  attributes := attributes
  increments := increments
  codec := codec

def collection : Collection Account := ⟨"accounts", none⟩

end Account

end Chronicle
