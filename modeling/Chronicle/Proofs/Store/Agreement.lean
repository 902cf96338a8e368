import Chronicle.Store.Write
import Chronicle.Proofs.Table.Commuting

/-! The index writes of one entity write get along. -/

namespace Chronicle

def Entity.HasAttribute {ε : Type} [Entity ε] (e : ε) (scope : Scope) (index value : String) : Prop :=
  ∃ a ∈ attributes e, a.scope = scope ∧ a.Matches index value

namespace Collection

open Entity (HasAttribute)

variable {ε : Type} [Entity ε] {c : Collection ε} {e : ε} {id u : Identifier} {stamps : Stamps} {previous : Option ε}

lemma mem_entityEntries {entry : IndexEntry} :
    entry ∈ entityEntries (Entity.attributes e) id u ↔
      entry.place = id ∧ entry.entity = id ∧ HasAttribute e .entity entry.index entry.value := by
  simp only [entityEntries, List.mem_map, List.mem_filter, decide_eq_true_eq]
  constructor
  · rintro ⟨a, ⟨ha, hs⟩, rfl⟩
    exact ⟨by simp [Attribute.entry, hs], rfl, a, ha, hs, rfl, rfl⟩
  · obtain ⟨index, value, place, entity⟩ := entry
    dsimp only
    rintro ⟨rfl, rfl, a, ha, hs, rfl, rfl⟩
    exact ⟨a, ⟨ha, hs⟩, by simp [Attribute.entry, hs]⟩

lemma mem_previousEntries {entry : IndexEntry} :
    entry ∈ previousEntries id previous ↔
      entry.place = id ∧ entry.entity = id ∧ ∃ p ∈ previous, HasAttribute p .entity entry.index entry.value := by
  cases previous with
  | none => simp [previousEntries]
  | some p => simp [previousEntries, mem_entityEntries]

lemma key_ne_of_added {attrs : List Attribute} (hu : u ≠ id) {a : Attribute} (ha : a ∈ attrs) {entry : IndexEntry}
    (hold : entry ∈ previousEntries id previous) (hnot : entry ∉ entityEntries attrs id u) :
    (a.entry id u).key ≠ entry.key := by
  obtain ⟨hplace, hentity, _⟩ := mem_previousEntries.1 hold
  intro hkey
  obtain ⟨hindex, hvalue, hnumber⟩ := NamedKey.mk.inj hkey
  cases hscope : a.scope with
  | version =>
    have hupdate : (a.entry id u).place = u := by simp [Attribute.entry, hscope]
    exact hu (hupdate.symm.trans (hnumber.trans hplace))
  | entity =>
    have heq : a.entry id u = entry := by
      obtain ⟨index, value, place, entity⟩ := entry
      obtain rfl : id = entity := hentity.symm
      exact IndexEntry.mk.injEq .. ▸ ⟨hindex, hvalue, hnumber, rfl⟩
    exact hnot (heq ▸ List.mem_map.2 ⟨a, List.mem_filter.2 ⟨ha, by simp [hscope]⟩, rfl⟩)

lemma agrees_of_disjoint (id : Identifier) (expires : Option Int64) (entries removed : List IndexEntry)
    (incs : List Increment) (hid : ∀ entry ∈ entries, entry.entity = id)
    (hne : ∀ entry ∈ entries, ∀ entry' ∈ removed, entry.key ≠ entry'.key) {ws : List IndexWrite}
    (hws : ws = (entries.map fun entry => .insert entry expires) ++ removed.map .retract ++ incs.map .increment) :
    ∀ w ∈ ws, ∀ w' ∈ ws, w.Agrees w' := by
  have hshape : ∀ w ∈ ws, (∃ entry ∈ entries, w = .insert entry expires) ∨ (∃ entry ∈ removed, w = .retract entry) ∨
      ∃ inc, w = .increment inc := by
    intro w hw
    simp only [hws, List.mem_append, List.mem_map] at hw
    rcases hw with (⟨entry, hentry, rfl⟩ | ⟨entry, hentry, rfl⟩) | ⟨inc, _, rfl⟩
    · exact .inl ⟨entry, hentry, rfl⟩
    · exact .inr (.inl ⟨entry, hentry, rfl⟩)
    · exact .inr (.inr ⟨inc, rfl⟩)
  intro w hw w' hw'
  rcases hshape w hw with ⟨entry, hentry, rfl⟩ | ⟨entry, hentry, rfl⟩ | ⟨inc, rfl⟩
  · rcases hshape w' hw' with ⟨entry', hentry', rfl⟩ | ⟨entry', hentry', rfl⟩ | ⟨_, rfl⟩
    · exact fun _ => ⟨(hid entry hentry).trans (hid entry' hentry').symm, rfl⟩
    · exact hne entry hentry entry' hentry'
    · trivial
  · rcases hshape w' hw' with ⟨entry', hentry', rfl⟩ | ⟨_, _, rfl⟩ | ⟨_, rfl⟩
    · exact (hne entry' hentry' entry hentry).symm
    · trivial
    · trivial
  · cases w' <;> trivial

lemma entity_of_mem_entries {attrs : List Attribute} :
    ∀ entry ∈ attrs.map fun a => a.entry id u, entry.entity = id := by
  intro entry hentry
  obtain ⟨_, _, rfl⟩ := List.mem_map.1 hentry
  rfl

lemma agrees_createPlan :
    ∀ w ∈ (c.createPlan e id stamps).indexWrites, ∀ w' ∈ (c.createPlan e id stamps).indexWrites, w.Agrees w' := by
  refine agrees_of_disjoint id (c.expiresAt stamps.rows) ((Entity.attributes e).map fun a => a.entry id id) []
    (Entity.increments e id) entity_of_mem_entries (fun _ _ => List.forall_mem_nil _) ?_
  simp [WritePlan.indexWrites, createPlan, Function.comp_def]

lemma agrees_updatePlan (hu : ∀ p ∈ previous, u ≠ id) :
    ∀ w ∈ (c.updatePlan previous e id u stamps).indexWrites,
      ∀ w' ∈ (c.updatePlan previous e id u stamps).indexWrites, w.Agrees w' := by
  let added := (Entity.attributes e).filter fun a => a.scope = .version ∨ a.entry id u ∉ previousEntries id previous
  let removed := (previousEntries id previous).filter fun entry => entry ∉ entityEntries (Entity.attributes e) id u
  refine agrees_of_disjoint id (c.expiresAt stamps.rows) (added.map fun a => a.entry id u) removed []
    entity_of_mem_entries (fun entry hentry entry' hentry' => ?_) ?_
  · obtain ⟨a, ha, rfl⟩ := List.mem_map.1 hentry
    obtain ⟨hold, hnot⟩ := List.mem_filter.1 hentry'
    obtain ⟨_, _, p, hp, _⟩ := mem_previousEntries.1 hold
    exact key_ne_of_added (hu p hp) (List.mem_filter.1 ha).1 hold (of_decide_eq_true hnot)
  · simp [WritePlan.indexWrites, updatePlan, added, removed, Function.comp_def]

lemma agrees_deletePlan (current : Option ε) :
    ∀ w ∈ (deletePlan current id).indexWrites, ∀ w' ∈ (deletePlan current id).indexWrites, w.Agrees w' := by
  cases current with
  | none => exact List.forall_mem_nil _
  | some e =>
    refine agrees_of_disjoint id none [] ((Entity.attributes e).map fun a => a.entry id ((Entity.update e).getD id)) []
      (List.forall_mem_nil _) (List.forall_mem_nil _) ?_
    simp [WritePlan.indexWrites, deletePlan, Function.comp_def]

end Collection

end Chronicle
