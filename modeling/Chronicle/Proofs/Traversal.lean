import Mathlib.Data.List.Forall2
import Mathlib.Tactic.Lemma
import Chronicle.Error

namespace Chronicle

variable {α β : Type} {f : α → Except Error β} {as : List α} {bs : List β}

lemma exists_of_map_ok {x : Except Error α} {g : α → β} {b : β} (h : x.map g = .ok b) : ∃ a, x = .ok a ∧ g a = b := by
  cases x with
  | error err => cases h
  | ok a => exact ⟨a, rfl, Except.ok.inj h⟩

lemma eq_error_of_map {x : Except Error α} {g : α → β} {e : Error} (h : x.map g = .error e) : x = .error e := by
  cases x with
  | error err => exact congrArg Except.error (Except.error.inj h)
  | ok a => cases h

lemma exists_of_bind_ok {x : Except Error α} {g : α → Except Error β} {b : β} (h : x >>= g = .ok b) :
    ∃ a, x = .ok a ∧ g a = .ok b := by
  cases x with
  | error err => cases h
  | ok a => exact ⟨a, rfl, h⟩

lemma mapM_some {a : α} {b : β} (h : f a = .ok b) : (some a).mapM f = .ok (some b) := by
  change (do let b ← f a; return some b : Except Error (Option β)) = _
  rw [h]
  rfl

lemma mapM_ok {g : α → β} (h : ∀ a ∈ as, f a = .ok (g a)) :
    as.mapM f = .ok (as.map g) := by
  induction as with
  | nil => rfl
  | cons a as ih =>
    rw [List.mapM_cons, h a List.mem_cons_self, ih fun b hb => h b (List.mem_cons_of_mem _ hb)]
    rfl

lemma exists_mapM_ok {P : β → Prop} (h : ∀ a ∈ as, ∃ b, f a = .ok b ∧ P b) :
    ∃ bs, as.mapM f = .ok bs ∧ ∀ b ∈ bs, P b := by
  induction as with
  | nil => exact ⟨[], rfl, fun b hb => nomatch hb⟩
  | cons a as ih =>
    obtain ⟨b, hb, hP⟩ := h a List.mem_cons_self
    obtain ⟨bs, hbs, hall⟩ := ih fun a' ha' => h a' (List.mem_cons_of_mem _ ha')
    refine ⟨b :: bs, ?_, List.forall_mem_cons.2 ⟨hP, hall⟩⟩
    rw [List.mapM_cons, hb, hbs]
    rfl

lemma forall₂_of_mapM (h : as.mapM f = .ok bs) : List.Forall₂ (fun a b => f a = .ok b) as bs := by
  induction as generalizing bs with
  | nil =>
    cases h
    exact .nil
  | cons a as ih =>
    rw [List.mapM_cons] at h
    cases ha : f a with
    | error err =>
      rw [ha] at h
      cases h
    | ok b =>
      cases has : as.mapM f with
      | error err =>
        rw [ha, has] at h
        cases h
      | ok rest =>
        rw [ha, has] at h
        cases h
        exact .cons ha (ih has)

lemma exists_of_mem_right {R : α → β → Prop} {b : β} (h : List.Forall₂ R as bs) (hb : b ∈ bs) : ∃ a ∈ as, R a b := by
  induction h with
  | nil => cases hb
  | @cons a b' as bs hab hrest ih =>
    rcases List.mem_cons.1 hb with rfl | hb
    · exact ⟨a, List.mem_cons_self, hab⟩
    · obtain ⟨a', ha', hab'⟩ := ih hb
      exact ⟨a', List.mem_cons_of_mem _ ha', hab'⟩

section

variable {f : α → Except Error Unit}

lemma forM_cons_of_ok {a : α} (h : f a = .ok ()) (as : List α) : (a :: as).forM f = as.forM f := by
  change (do f a; as.forM f) = _
  rw [h]
  rfl

lemma forM_cons_of_error {a : α} {e : Error} (h : f a = .error e) (as : List α) : (a :: as).forM f = .error e := by
  change (do f a; as.forM f) = _
  rw [h]
  rfl

lemma forM_of_first {before after : List α} {a : α} {e : Error} (hbefore : ∀ a' ∈ before, f a' = .ok ())
    (ha : f a = .error e) : (before ++ a :: after).forM f = .error e := by
  induction before with
  | nil => exact forM_cons_of_error ha after
  | cons a' before ih =>
    obtain ⟨hfirst, hrest⟩ := List.forall_mem_cons.1 hbefore
    exact (forM_cons_of_ok hfirst _).trans (ih hrest)

lemma exists_of_forM_error {e : Error} (h : as.forM f = .error e) : ∃ a ∈ as, f a = .error e := by
  induction as with
  | nil => cases h
  | cons a as ih =>
    cases ha : f a with
    | error e' =>
      rw [forM_cons_of_error ha, ← ha] at h
      exact ⟨a, List.mem_cons_self, h⟩
    | ok =>
      rw [forM_cons_of_ok ha] at h
      obtain ⟨a', ha', he⟩ := ih h
      exact ⟨a', List.mem_cons_of_mem _ ha', he⟩

lemma forM_eq_ok_iff : as.forM f = .ok () ↔ ∀ a ∈ as, f a = .ok () := by
  induction as with
  | nil => exact ⟨fun _ => List.forall_mem_nil _, fun _ => rfl⟩
  | cons a as ih =>
    rw [List.forall_mem_cons, ← ih]
    cases ha : f a with
    | error e =>
      rw [forM_cons_of_error ha]
      simp
    | ok =>
      rw [forM_cons_of_ok ha]
      simp

end

lemma mapM_getLast? (h : List.Forall₂ (fun a b => f a = .ok b) as bs) :
    as.getLast?.mapM f = .ok bs.getLast? := by
  induction h with
  | nil => rfl
  | @cons a b as bs hab hrest ih =>
    cases hrest with
    | nil => exact mapM_some hab
    | cons _ _ =>
      rw [List.getLast?_cons_cons, List.getLast?_cons_cons]
      exact ih

lemma mapM_find? {p : α → Bool} {q : β → Bool} (h : List.Forall₂ (fun a b => f a = .ok b ∧ p a = q b) as bs) :
    (as.find? p).mapM f = .ok (bs.find? q) := by
  induction h with
  | nil => rfl
  | @cons a b as bs hab hrest ih =>
    rw [List.find?_cons, List.find?_cons, ← hab.2]
    cases p a with
    | true => exact mapM_some hab.1
    | false => exact ih

end Chronicle
