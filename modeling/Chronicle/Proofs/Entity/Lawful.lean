import Chronicle.Proofs.Codec.ReadBack

namespace Chronicle

class LawfulEntity (ε : Type) [Entity ε] where
  Fits : ε → Prop
  id_withId (e : ε) (id : Identifier) : Entity.id (Entity.withId e id) = some id
  id_withUpdate (e : ε) (update : Identifier) : Entity.id (Entity.withUpdate e update) = Entity.id e
  update_withUpdate (e : ε) (update : Identifier) : Entity.update (Entity.withUpdate e update) = some update
  fits_withId {e : ε} (id : Identifier) : Fits e → Fits (Entity.withId e id)
  fits_withUpdate {e : ε} (update : Identifier) : Fits e → Fits (Entity.withUpdate e update)
  readsBack_codec : (Entity.codec : Codec ε).ReadsBack Fits

namespace LawfulEntity

variable {ε : Type} [Entity ε] [LawfulEntity ε] {e : ε} {id update : Identifier}

lemma id_stamp : Entity.id (Entity.stamp e id update) = some id := by
  rw [Entity.stamp, id_withUpdate, id_withId]

lemma update_stamp : Entity.update (Entity.stamp e id update) = some update := update_withUpdate ..

lemma fits_stamp (id update : Identifier) (h : Fits e) : Fits (Entity.stamp e id update) :=
  fits_withUpdate _ (fits_withId _ h)

end LawfulEntity

instance : LawfulEntity Account where
  Fits := Account.Fits
  id_withId _ _ := rfl
  id_withUpdate _ _ := rfl
  update_withUpdate _ _ := rfl
  fits_withId _ h := h
  fits_withUpdate _ h := h
  readsBack_codec := Account.readsBack_codec

instance (a : Account) : Decidable (LawfulEntity.Fits a) := inferInstanceAs (Decidable a.Fits)

instance : LawfulEntity Event where
  Fits := Event.Fits
  id_withId _ _ := rfl
  id_withUpdate _ _ := rfl
  update_withUpdate _ _ := rfl
  fits_withId _ h := h
  fits_withUpdate _ h := h
  readsBack_codec := Event.readsBack_codec

instance (e : Event) : Decidable (LawfulEntity.Fits e) := inferInstanceAs (Decidable e.Fits)

end Chronicle
