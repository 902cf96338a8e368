import Chronicle.Proofs.Store.Settling

namespace Chronicle

namespace Collection

open Entity (HasAttribute)
open MemoryTables

variable {ε : Type} [Entity ε] {c : Collection ε} {t : MemoryTables} {e : ε} {id u n : Identifier} {stamps : Stamps}
  {name value : String} {previous current : Option ε}

lemma mem_keys_attributes :
    ⟨name, value, n⟩ ∈ keys (Entity.attributes e) id u ↔
      n = id ∧ HasAttribute e .entity name value ∨ n = u ∧ HasAttribute e .version name value := by
  rw [mem_keys]
  constructor
  · rintro ⟨a, ha, hkey⟩
    obtain ⟨rfl, rfl, rfl⟩ := NamedKey.mk.inj hkey
    cases hs : a.scope with
    | entity => exact .inl ⟨by simp [Attribute.entry, hs], a, ha, hs, rfl, rfl⟩
    | version => exact .inr ⟨by simp [Attribute.entry, hs], a, ha, hs, rfl, rfl⟩
  · rintro (⟨rfl, a, ha, hs, rfl, rfl⟩ | ⟨rfl, a, ha, hs, rfl, rfl⟩)
    · exact ⟨a, ha, by simp [IndexEntry.key, Attribute.entry, hs]⟩
    · exact ⟨a, ha, by simp [IndexEntry.key, Attribute.entry, hs]⟩

lemma mem_outdated :
    ⟨name, value, n⟩ ∈ outdated previous e id u ↔
      n = id ∧ (∃ p ∈ previous, HasAttribute p .entity name value) ∧ ¬ HasAttribute e .entity name value := by
  simp only [outdated, List.mem_map, List.mem_filter, mem_previousEntries, decide_eq_true_eq, mem_entityEntries]
  constructor
  · rintro ⟨entry, ⟨⟨hplace, hentity, hp⟩, hnot⟩, hkey⟩
    obtain ⟨rfl, rfl, rfl⟩ := NamedKey.mk.inj hkey
    exact ⟨hplace, hp, fun he => hnot ⟨hplace, hentity, he⟩⟩
  · rintro ⟨rfl, hp, hnot⟩
    exact ⟨⟨name, value, n, n⟩, ⟨⟨rfl, rfl, hp⟩, fun h => hnot h.2.2⟩, rfl⟩

lemma mem_keys_added :
    ⟨name, value, n⟩ ∈ keys ((Entity.attributes e).filter fun a =>
        a.scope = .version ∨ a.entry id u ∉ previousEntries id previous) id u ↔
      n = id ∧ HasAttribute e .entity name value ∧ (¬ ∃ p ∈ previous, HasAttribute p .entity name value) ∨
        n = u ∧ HasAttribute e .version name value := by
  simp only [mem_keys, List.mem_filter, decide_eq_true_eq, mem_previousEntries]
  constructor
  · rintro ⟨a, ⟨ha, hnew⟩, hkey⟩
    obtain ⟨rfl, rfl, rfl⟩ := NamedKey.mk.inj hkey
    cases hs : a.scope with
    | entity =>
      refine .inl ⟨by simp [Attribute.entry, hs], ⟨a, ha, hs, rfl, rfl⟩, fun hp => ?_⟩
      exact hnew.resolve_left (by simp [hs]) ⟨by simp [Attribute.entry, hs], rfl, hp⟩
    | version => exact .inr ⟨by simp [Attribute.entry, hs], a, ha, hs, rfl, rfl⟩
  · rintro (⟨rfl, ⟨a, ha, hs, rfl, rfl⟩, hnew⟩ | ⟨rfl, a, ha, hs, rfl, rfl⟩)
    · exact ⟨a, ⟨ha, .inr fun h => hnew h.2.2⟩, by simp [IndexEntry.key, Attribute.entry, hs]⟩
    · exact ⟨a, ⟨ha, .inl hs⟩, by simp [IndexEntry.key, Attribute.entry, hs]⟩

def EntityRows (c : Collection ε) (name : String) (t : MemoryTables) : Prop :=
  ∀ value id cell, t.indexes.get? ⟨name, value, id⟩ = some cell ↔
    cell = ⟨id, none⟩ ∧ ∃ e, c.current t id = .ok (some e) ∧ HasAttribute e .entity name value

namespace EntityRows

lemma get?_eq_some (h : c.EntityRows name t) (hcurrent : c.current t id = .ok current)
    (ha : ∃ e ∈ current, HasAttribute e .entity name value) :
    t.indexes.get? ⟨name, value, id⟩ = some ⟨id, none⟩ := by
  obtain ⟨e, he, ha⟩ := ha
  exact (h value id _).2 ⟨rfl, e, by rw [hcurrent, he], ha⟩

lemma get?_eq_none (h : c.EntityRows name t) (hcurrent : c.current t id = .ok current)
    (ha : ¬ ∃ e ∈ current, HasAttribute e .entity name value) : t.indexes.get? ⟨name, value, id⟩ = none := by
  cases hget : t.indexes.get? ⟨name, value, id⟩ with
  | none => rfl
  | some cell =>
    obtain ⟨_, e, he, hv⟩ := (h value id cell).1 hget
    rw [hcurrent] at he
    exact absurd ⟨e, Except.ok.inj he, hv⟩ ha

lemma of_frame {t' : MemoryTables} (h : c.EntityRows name t)
    (hcurrent : ∀ n, id ≠ n → c.current t' n = c.current t n)
    (hget : ∀ value n, id ≠ n → t'.indexes.get? ⟨name, value, n⟩ = t.indexes.get? ⟨name, value, n⟩)
    (hown : ∀ value cell, t'.indexes.get? ⟨name, value, id⟩ = some cell ↔
      cell = ⟨id, none⟩ ∧ ∃ e, c.current t' id = .ok (some e) ∧ HasAttribute e .entity name value) :
    c.EntityRows name t' := by
  intro value n cell
  by_cases hn : id = n
  · subst hn
    exact hown value cell
  · rw [hget value n hn, hcurrent n hn]
    exact h value n cell

variable (hscope : ∀ (e : ε) value, ¬ HasAttribute e .version name value) (hl : c.lifetime = none)
include hscope hl

lemma created [LawfulEntity ε] (h : c.EntityRows name t) (hf : LawfulEntity.Fits e)
    (habsent : ∀ u, t.versions.get? ⟨c.table, id, u⟩ = none) : c.EntityRows name (c.created t e id stamps) := by
  have hkeys : ∀ value n, ⟨name, value, n⟩ ∈ keys (Entity.attributes e) id id ↔
      n = id ∧ HasAttribute e .entity name value := by
    intro value n
    rw [mem_keys_attributes]
    simp [hscope e value]
  have hnone : c.current t id = .ok none := current_of_chain_eq_nil (chain_eq_nil habsent)
  refine h.of_frame (fun n hn => current_created_of_ne hn) (fun value n hn => ?_) fun value cell => ?_
  · rw [get?_created, if_neg (by rw [hkeys]; exact fun hk => hn hk.1.symm)]
  · rw [get?_created, h.get?_eq_none hnone (by simp), current_created_self hf habsent]
    simp only [Collection.expiresAt, hl, Option.map_none]
    by_cases ha : HasAttribute e .entity name value
    · rw [if_pos ((hkeys value id).2 ⟨rfl, ha⟩)]
      simp [ha, eq_comm]
    · rw [if_neg fun hk => ha ((hkeys value id).1 hk).2]
      simp [ha]

lemma updated [LawfulEntity ε] (h : c.EntityRows name t) (hf : LawfulEntity.Fits e)
    (hcurrent : c.current t id = .ok previous)
    (hgreatest : ∀ w v, t.versions.get? ⟨c.table, id, w⟩ = some v → w < u) :
    c.EntityRows name (c.updated t previous e id u stamps) := by
  have hadded : ∀ value n, ⟨name, value, n⟩ ∈ keys ((Entity.attributes e).filter fun a =>
      a.scope = .version ∨ a.entry id u ∉ previousEntries id previous) id u ↔
      n = id ∧ HasAttribute e .entity name value ∧ ¬ ∃ p ∈ previous, HasAttribute p .entity name value := by
    intro value n
    rw [mem_keys_added]
    simp [hscope e value]
  refine h.of_frame (fun n hn => current_updated_of_ne hn) (fun value n hn => ?_) fun value cell => ?_
  · rw [get?_updated, if_neg (by rw [mem_outdated]; exact fun hk => hn hk.1.symm),
      if_neg (by rw [hadded]; exact fun hk => hn hk.1.symm)]
  · rw [get?_updated, current_updated_self hf hgreatest]
    simp only [Collection.expiresAt, hl, Option.map_none]
    by_cases ha : HasAttribute e .entity name value
    · rw [if_neg (by rw [mem_outdated]; exact fun hk => hk.2.2 ha)]
      by_cases hp : ∃ p ∈ previous, HasAttribute p .entity name value
      · rw [if_neg (by rw [hadded]; exact fun hk => hk.2.2 hp), h.get?_eq_some hcurrent hp]
        simp [ha, eq_comm]
      · rw [if_pos ((hadded value id).2 ⟨rfl, ha, hp⟩)]
        simp [ha, eq_comm]
    · by_cases hp : ∃ p ∈ previous, HasAttribute p .entity name value
      · rw [if_pos (mem_outdated.2 ⟨rfl, hp, ha⟩)]
        simp [ha]
      · rw [if_neg (by rw [mem_outdated]; exact fun hk => hp hk.2.1),
          if_neg (by rw [hadded]; exact fun hk => ha hk.2.1), h.get?_eq_none hcurrent hp]
        simp [ha]

omit hl in
lemma deleted (h : c.EntityRows name t) (hcurrent : c.current t id = .ok current) :
    c.EntityRows name (c.deleted t current id) := by
  have hkeys : ∀ value n,
      (∃ e ∈ current, ⟨name, value, n⟩ ∈ keys (Entity.attributes e) id ((Entity.update e).getD id)) ↔
      n = id ∧ ∃ e ∈ current, HasAttribute e .entity name value := by
    intro value n
    simp only [mem_keys_attributes, hscope _ value, and_false, or_false]
    exact ⟨fun ⟨e, he, hn, ha⟩ => ⟨hn, e, he, ha⟩, fun ⟨hn, e, he, ha⟩ => ⟨e, he, hn, ha⟩⟩
  refine h.of_frame (fun n hn => current_deleted_of_ne hn) (fun value n hn => ?_) fun value cell => ?_
  · rw [get?_deleted, if_neg (by rw [hkeys]; exact fun hk => hn hk.1.symm)]
  · rw [get?_deleted, current_deleted_self]
    by_cases ha : ∃ e ∈ current, HasAttribute e .entity name value
    · rw [if_pos ((hkeys value id).2 ⟨rfl, ha⟩)]
      simp
    · rw [if_neg fun hk => ha ((hkeys value id).1 hk).2, h.get?_eq_none hcurrent ha]
      simp

end EntityRows

end Collection

namespace Store

variable {ε γ : Type} [Entity ε] [LawfulEntity ε] [Clock γ] {c : Collection ε} {start s : Store MemoryTables γ}
  {log : List (Call ε MemoryTables γ)} {name : String}

lemma Run.entityRows (h : Run c start log s) (hs : start.Opened .empty) (ho : Orderly c log) (hf : EntitiesFit log)
    (hc : AllComplete c log) (hscope : ∀ (e : ε) value, ¬ Entity.HasAttribute e .version name value)
    (hl : c.lifetime = none) : c.EntityRows name s.tables := by
  induction h with
  | start =>
    intro value id cell
    rw [hs.tables_eq]
    constructor
    · intro hget
      cases hget
    · rintro ⟨_, e, he, _⟩
      cases he
  | @call log s h clock request ih =>
    obtain ⟨hfx, hf⟩ := List.forall_mem_cons.1 hf
    have hrows := ih ho.of_cons hf (List.forall_mem_cons.1 hc).2
    generalize ht : (Call.after c ⟨{ s with clock }, request⟩).tables = t
    cases ht ▸ h.settled hs ho hc hf with
    | idle => exact hrows
    | created hreq _ habsent _ =>
      exact hrows.created hscope hl (LawfulEntity.fits_stamp _ _ (hfx _ (by rw [hreq]; rfl))) habsent
    | updated hreq _ hcurrent _ hgreatest _ =>
      exact hrows.updated hscope hl (LawfulEntity.fits_withUpdate _ (hfx _ (by rw [hreq]; rfl))) hcurrent
        (hgreatest _)
    | deleted _ hcurrent _ => exact hrows.deleted hscope hcurrent

end Store

end Chronicle
