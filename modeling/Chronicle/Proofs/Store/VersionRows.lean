import Chronicle.Proofs.Store.IndexRows

namespace Chronicle

namespace MemoryTables

def PlacesDiffer (t : MemoryTables) (table : String) : Prop :=
  ∀ id id' u v v', t.versions.get? ⟨table, id, u⟩ = some v → t.versions.get? ⟨table, id', u⟩ = some v' → id = id'

namespace PlacesDiffer

variable {t t' : MemoryTables} {table : String}

lemma put {v : StoredVersion} (h : t.PlacesDiffer table) (hv : t'.versions = (t.put table v).versions)
    (hfree : ∀ id w, t.versions.get? ⟨table, id, v.update⟩ ≠ some w) : t'.PlacesDiffer table := by
  intro id id' u w w' hw hw'
  rw [hv, get?_put] at hw hw'
  split at hw <;> split at hw'
  · next hk hk' => exact (VersionKey.mk.inj hk).2.1.trans (VersionKey.mk.inj hk').2.1.symm
  · next hk _ =>
    obtain ⟨_, _, rfl⟩ := VersionKey.mk.inj hk
    exact absurd hw' (hfree id' w')
  · next _ hk =>
    obtain ⟨_, _, rfl⟩ := VersionKey.mk.inj hk
    exact absurd hw (hfree id w)
  · exact h id id' u w w' hw hw'

lemma dropChain {id : Identifier} (h : t.PlacesDiffer table) (hv : t'.versions = (t.dropChain table id).versions) :
    t'.PlacesDiffer table := by
  intro id id' u w w' hw hw'
  rw [hv, get?_dropChain] at hw hw'
  split at hw
  · cases hw
  · split at hw'
    · cases hw'
    · exact h id id' u w w' hw hw'

end PlacesDiffer

end MemoryTables

namespace Store

open Collection
open Entity (HasAttribute)
open MemoryTables

variable {ε γ : Type} [Entity ε] [Clock γ] {c : Collection ε} {name : String} {log : List (Call ε MemoryTables γ)}
  {x : Call ε MemoryTables γ} {t t' : MemoryTables} {e : ε} {id u : Identifier}

/-- The call deletes an entity of which the version is stored and no longer the latest. -/
structure Call.Buries (c : Collection ε) (x : Call ε MemoryTables γ) (id u : Identifier) (e : ε) : Prop where
  request_eq : x.request = .delete id
  reply_eq : ∃ receipt, x.reply c = .deleted receipt
  stored : c.Stores x.before.tables id u e
  superseded : ∃ w v, x.before.tables.versions.get? ⟨c.table, id, w⟩ = some v ∧ u < w

structure VersionRows (c : Collection ε) (name : String) (log : List (Call ε MemoryTables γ)) (t : MemoryTables) :
    Prop where
  present : ∀ id u e value, c.Stores t id u e → HasAttribute e .version name value →
    t.indexes.get? ⟨name, value, u⟩ = some ⟨id, none⟩
  explained : ∀ value u cell, t.indexes.get? ⟨name, value, u⟩ = some cell → cell.expires = none ∧
    ∃ e, HasAttribute e .version name value ∧
      (c.Stores t cell.entity u e ∨ ∃ x ∈ log, x.Buries c cell.entity u e)

namespace VersionRows

lemma idle (h : VersionRows c name log t) (x : Call ε MemoryTables γ) : VersionRows c name (x :: log) t where
  present := h.present
  explained value u cell hget := by
    obtain ⟨hexpires, e, ha, he⟩ := h.explained value u cell hget
    exact ⟨hexpires, e, ha, he.imp_right fun ⟨y, hy, hb⟩ => ⟨y, List.mem_cons_of_mem _ hy, hb⟩⟩

lemma put {v : StoredVersion} (h : VersionRows c name log t) (x : Call ε MemoryTables γ)
    (hv : t'.versions = (t.put c.table v).versions) (hr : c.ReadsAs v id u e)
    (hfree : ∀ id w, t.versions.get? ⟨c.table, id, u⟩ ≠ some w)
    (hnew : ∀ value, HasAttribute e .version name value → t'.indexes.get? ⟨name, value, u⟩ = some ⟨id, none⟩)
    (hold : ∀ value n, ¬ (n = u ∧ HasAttribute e .version name value) →
      t'.indexes.get? ⟨name, value, n⟩ = t.indexes.get? ⟨name, value, n⟩) : VersionRows c name (x :: log) t' where
  present id' u' e' value hs ha := by
    obtain ⟨w, hw, hr'⟩ := hs
    rw [hr.get?_put hv] at hw
    split at hw
    · next hk =>
      obtain ⟨_, rfl, rfl⟩ := VersionKey.mk.inj hk
      cases hw
      obtain rfl := hr.unique hr'
      exact hnew value ha
    · rw [hold]
      · exact h.present id' u' e' value ⟨w, hw, hr'⟩ ha
      · rintro ⟨rfl, _⟩
        exact hfree id' w hw
  explained value u' cell hget := by
    by_cases hk : u' = u ∧ HasAttribute e .version name value
    · obtain ⟨rfl, ha⟩ := hk
      rw [hnew value ha] at hget
      cases hget
      exact ⟨rfl, e, ha, .inl (hr.stores_put hv)⟩
    · rw [hold value u' hk] at hget
      obtain ⟨hexpires, e', ha, hs | ⟨y, hy, hb⟩⟩ := h.explained value u' cell hget
      · obtain ⟨w, hw, hr'⟩ := hs
        refine ⟨hexpires, e', ha, .inl ⟨w, ?_, hr'⟩⟩
        rw [hr.get?_put hv, if_neg]
        · exact hw
        · rintro hkey
          obtain ⟨_, rfl, rfl⟩ := VersionKey.mk.inj hkey
          exact hfree _ w hw
      · exact ⟨hexpires, e', ha, .inr ⟨y, List.mem_cons_of_mem _ hy, hb⟩⟩

lemma buries_of_not_isLatest {current : Option ε} (hreq : x.request = .delete id)
    (hreply : ∃ receipt, x.reply c = .deleted receipt) (hrows : c.RowsRead x.before.tables)
    (hcurrent : c.current x.before.tables id = .ok current) (hs : c.Stores x.before.tables id u e)
    (hnot : ¬ (e ∈ current ∧ c.IsLatest x.before.tables id e u)) : x.Buries c id u e := by
  have ⟨v, hv, _⟩ := hs
  obtain ⟨e', he', w, hw⟩ := hrows.isLatest hcurrent hv
  obtain ⟨v', hv', _⟩ := hw.stored
  rcases hw.le u v hv with rfl | hlt
  · obtain rfl := hw.stored.unique hs
    exact absurd ⟨he', hw⟩ hnot
  · exact ⟨hreq, hreply, hs, w, v', hv', hlt⟩

variable (hscope : ∀ (e : ε) value, ¬ HasAttribute e .entity name value)
include hscope

lemma created [LawfulEntity ε] (h : VersionRows c name log t) (x : Call ε MemoryTables γ) (hl : c.lifetime = none)
    {stamps : Stamps} (hr : c.ReadsAs (c.newVersion e id id stamps) id id e)
    (hfree : ∀ id' w, t.versions.get? ⟨c.table, id', id⟩ ≠ some w) :
    VersionRows c name (x :: log) (c.created t e id stamps) := by
  have hkeys : ∀ value n, ⟨name, value, n⟩ ∈ keys (Entity.attributes e) id id ↔
      n = id ∧ HasAttribute e .version name value := by
    intro value n
    rw [mem_keys_attributes]
    simp [hscope e value]
  refine h.put x versions_created hr hfree (fun value ha => ?_) fun value n hn => ?_
  · rw [get?_created, if_pos ((hkeys value id).2 ⟨rfl, ha⟩), Collection.expiresAt, hl]
    rfl
  · rw [get?_created, if_neg fun hk => hn ((hkeys value n).1 hk)]

lemma updated [LawfulEntity ε] (h : VersionRows c name log t) (x : Call ε MemoryTables γ) (hl : c.lifetime = none)
    {stamps : Stamps} {previous : Option ε} (hr : c.ReadsAs (c.newVersion e id u stamps) id u e)
    (hfree : ∀ id w, t.versions.get? ⟨c.table, id, u⟩ ≠ some w) :
    VersionRows c name (x :: log) (c.updated t previous e id u stamps) := by
  have hold : ∀ value n, ⟨name, value, n⟩ ∉ outdated previous e id u := by
    intro value n
    rw [mem_outdated]
    rintro ⟨_, ⟨p, _, hp⟩, _⟩
    exact hscope p value hp
  have hadded : ∀ value n, ⟨name, value, n⟩ ∈ keys ((Entity.attributes e).filter fun a =>
      a.scope = .version ∨ a.entry id u ∉ previousEntries id previous) id u ↔
      n = u ∧ HasAttribute e .version name value := by
    intro value n
    rw [mem_keys_added]
    simp [hscope e value]
  refine h.put x versions_updated hr hfree (fun value ha => ?_) fun value n hn => ?_
  · rw [get?_updated, if_neg (hold value u), if_pos ((hadded value u).2 ⟨rfl, ha⟩), Collection.expiresAt, hl]
    rfl
  · rw [get?_updated, if_neg (hold value n), if_neg fun hk => hn ((hadded value n).1 hk)]

lemma mem_keys_current_iff {current : Option ε} (hrows : c.RowsRead t) (hcurrent : c.current t id = .ok current)
    (value : String) (n : Identifier) :
    (∃ e ∈ current, ⟨name, value, n⟩ ∈ keys (Entity.attributes e) id ((Entity.update e).getD id)) ↔
      ∃ e ∈ current, c.IsLatest t id e n ∧ HasAttribute e .version name value := by
  refine exists_congr fun e => and_congr_right fun he => ?_
  obtain ⟨w, hw⟩ := hrows.latest_of_current (hcurrent.trans (congrArg _ he))
  obtain ⟨v, _, hr⟩ := hw.stored
  rw [mem_keys_attributes, hr.entity_update, Option.getD_some]
  constructor
  · rintro (⟨_, ha⟩ | ⟨rfl, ha⟩)
    · exact absurd ha (hscope e value)
    · exact ⟨hw, ha⟩
  · rintro ⟨hn, ha⟩
    exact .inr ⟨hn.unique hw, ha⟩

lemma deleted {current : Option ε} (h : VersionRows c name log x.before.tables) (hreq : x.request = .delete id)
    (hreply : ∃ receipt, x.reply c = .deleted receipt) (hrows : c.RowsRead x.before.tables)
    (hplaces : x.before.tables.PlacesDiffer c.table) (hcurrent : c.current x.before.tables id = .ok current) :
    VersionRows c name (x :: log) (c.deleted x.before.tables current id) := by
  constructor
  · rintro id' u' e' value ⟨v, hv, hr⟩ ha
    rw [versions_deleted, get?_dropChain] at hv
    split at hv
    · cases hv
    · next hne =>
      rw [get?_deleted, if_neg]
      · exact h.present id' u' e' value ⟨v, hv, hr⟩ ha
      · rw [mem_keys_current_iff hscope hrows hcurrent]
        rintro ⟨e, _, hlatest, _⟩
        obtain ⟨v', hv', _⟩ := hlatest.stored
        exact hne ⟨rfl, hplaces id' id u' v v' hv hv'⟩
  · intro value n cell hget
    rw [get?_deleted] at hget
    split at hget
    · cases hget
    · next hkept =>
      rw [mem_keys_current_iff hscope hrows hcurrent] at hkept
      obtain ⟨hexpires, e, ha, hs | ⟨y, hy, hb⟩⟩ := h.explained value n cell hget
      · refine ⟨hexpires, e, ha, ?_⟩
        by_cases hid : cell.entity = id
        · subst hid
          refine .inr ⟨x, List.mem_cons_self, buries_of_not_isLatest hreq hreply hrows hcurrent hs ?_⟩
          exact fun ⟨he, hlatest⟩ => hkept ⟨e, he, hlatest, ha⟩
        · obtain ⟨v, hv, hr⟩ := hs
          refine .inl ⟨v, ?_, hr⟩
          rw [versions_deleted, get?_dropChain, if_neg fun hk => hid hk.2]
          exact hv
      · exact ⟨hexpires, e, ha, .inr ⟨y, List.mem_cons_of_mem _ hy, hb⟩⟩

end VersionRows

lemma RowsKnown.free_of_created (h : RowsKnown c log t) (habsent : ∀ u, t.versions.get? ⟨c.table, id, u⟩ = none)
    (hissued : ¬ Issued c log id) (id' : Identifier) (w : StoredVersion) :
    t.versions.get? ⟨c.table, id', id⟩ ≠ some w := by
  intro hget
  obtain ⟨_, rfl | hid⟩ := h id' id w hget
  · rw [habsent id] at hget
    cases hget
  · exact hissued hid

variable [LawfulEntity ε] {start s : Store MemoryTables γ}

lemma Run.versionRows (h : Run c start log s) (hs : start.Opened .empty) (ho : Orderly c log) (hf : EntitiesFit log)
    (hc : AllComplete c log) (hn : CreatesAnew c log)
    (hscope : ∀ (e : ε) value, ¬ HasAttribute e .entity name value) (hl : c.lifetime = none) :
    s.tables.PlacesDiffer c.table ∧ VersionRows c name log s.tables := by
  induction h with
  | start =>
    rw [hs.tables_eq]
    refine ⟨?_, ?_, ?_⟩
    · intro _ _ _ _ _ hget
      cases hget
    · rintro _ _ _ _ ⟨_, hget, _⟩
      cases hget
    · intro _ _ _ hget
      cases hget
  | @call log s h clock request ih =>
    obtain ⟨hfx, hf⟩ := List.forall_mem_cons.1 hf
    obtain ⟨hnx, hn⟩ := List.pairwise_cons.1 hn
    obtain ⟨hplaces, hrows⟩ := ih ho.of_cons hf (List.forall_mem_cons.1 hc).2 hn
    have hlt := fun {u} (hu : u ∈ Call.issued c ⟨{ s with clock }, request⟩) => h.known_lt hs.sound ho hu
    generalize ht : (Call.after c ⟨{ s with clock }, request⟩).tables = t
    cases ht ▸ h.settled hs ho hc hf with
    | idle => exact ⟨hplaces, hrows.idle _⟩
    | @created e id stamps hreq hchosen habsent _ =>
      have hfit := LawfulEntity.fits_stamp id id (hfx _ (by rw [hreq]; rfl))
      have hfresh : ¬ Issued c log id := by
        rintro ⟨y, hy, hid⟩
        rcases hchosen with hsupplied | hissued
        · exact hnx y hy id (by rw [Call.suppliedToCreate, hreq]; exact hsupplied) hid
        · exact Int64.lt_irrefl (hlt hissued id ⟨y, hy, .inr hid⟩)
      have hfree := (h.rowsKnown hs hf).free_of_created habsent hfresh
      exact ⟨hplaces.put versions_created hfree, hrows.created hscope _ hl
        (readsAs_newVersion hfit LawfulEntity.id_stamp LawfulEntity.update_stamp stamps) hfree⟩
    | @updated e id u previous stamps hreq hid hcurrent hissued hgreatest _ =>
      have hfit := LawfulEntity.fits_withUpdate u (hfx _ (by rw [hreq]; rfl))
      have hfree : ∀ id w, s.tables.versions.get? ⟨c.table, id, u⟩ ≠ some w :=
        fun id w hget => Int64.lt_irrefl (hgreatest id u w hget)
      exact ⟨hplaces.put versions_updated hfree, hrows.updated hscope _ hl
        (readsAs_newVersion hfit (by rw [LawfulEntity.id_withUpdate, hid]) (LawfulEntity.update_withUpdate ..) stamps)
        hfree⟩
    | deleted hreq hcurrent hreply =>
      exact ⟨hplaces.dropChain versions_deleted,
        hrows.deleted hscope hreq hreply (h.rowsRead hs hf) hplaces hcurrent⟩

end Store

end Chronicle
