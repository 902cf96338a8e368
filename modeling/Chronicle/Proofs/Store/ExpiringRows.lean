import Chronicle.Proofs.Store.Holders
import Chronicle.Proofs.Store.IndexRows

/-! Index entries of entity scope where rows expire. Only purges and failed retractions take them away. -/

namespace Chronicle

namespace MemoryTables

variable {t t' : MemoryTables} {now : Int64}

inductive Purged (t : MemoryTables) : MemoryTables → Prop where
  | none : Purged t t
  | purge {t' t'' : MemoryTables} {n : Nat} (h : Purged t t') (now : Int64)
      (purge_eq : Tables.purge t' now = .ok (n, t'')) : Purged t t''

lemma purge_ok {n : Nat} (h : Tables.purge t now = .ok (n, t')) : t' = t.dropExpired now := by
  cases h
  rfl

lemma get?_versions_dropExpired {k : VersionKey} {v : StoredVersion} :
    (t.dropExpired now).versions.get? k = some v ↔ t.versions.get? k = some v ∧ expired now v.expires = false := by
  rw [dropExpired, OrderedMap.get?_filter, Option.filter_eq_some_iff, Bool.not_eq_true']

lemma get?_indexes_dropExpired {k : NamedKey Identifier} {cell : IndexCell} :
    (t.dropExpired now).indexes.get? k = some cell ↔
      t.indexes.get? k = some cell ∧ expired now cell.expires = false := by
  rw [dropExpired, OrderedMap.get?_filter, Option.filter_eq_some_iff, Bool.not_eq_true']

lemma Purged.versionsWithin (h : Purged t t') : Collection.VersionsWithin t' t := by
  induction h with
  | none => exact .of_eq rfl
  | purge _ now purge_eq ih =>
    intro k v hget
    rw [purge_ok purge_eq] at hget
    exact ih k v (get?_versions_dropExpired.1 hget).1

end MemoryTables

namespace Saturating

lemma add_le_add {a b : Int64} (h : a ≤ b) (c : Int64) : add a c ≤ add b c := by
  rw [Int64.le_iff_toInt_le] at h ⊢
  rw [add, add, toInt_int64, toInt_int64]
  omega

end Saturating

namespace Collection

open Entity (HasAttribute)
open MemoryTables

variable {ε : Type} [Entity ε] {c : Collection ε} {t t' : MemoryTables} {id u : Identifier} {e : ε} {name : String}

omit [Entity ε] in
lemma expired_of_le {a b now : Int64} (h : a ≤ b) (hb : expired now (c.expiresAt b) = true) :
    expired now (c.expiresAt a) = true := by
  unfold expiresAt at hb ⊢
  cases hl : c.lifetime with
  | none => simp [hl, expired] at hb
  | some lifetime =>
    simp only [hl, Option.map_some, expired, Option.any_some, decide_eq_true_eq] at hb ⊢
    exact Int64.le_trans (Saturating.add_le_add h lifetime) hb

lemma IsLatest.congr (h : ∀ w, t'.versions.get? ⟨c.table, id, w⟩ = t.versions.get? ⟨c.table, id, w⟩) :
    c.IsLatest t' id e u ↔ c.IsLatest t id e u := by
  constructor
  · rintro ⟨⟨v, hv, hr⟩, hle⟩
    exact ⟨⟨v, h u ▸ hv, hr⟩, fun w v hw => hle w v ((h w).trans hw)⟩
  · rintro ⟨⟨v, hv, hr⟩, hle⟩
    exact ⟨⟨v, (h u).trans hv, hr⟩, fun w v hw => hle w v (h w ▸ hw)⟩

end Collection

namespace Store

open Collection
open Entity (HasAttribute)
open MemoryTables

variable {ε γ : Type} [Entity ε] [Clock γ] {c : Collection ε} {name : String} {log : List (Call ε MemoryTables γ)}
  {x : Call ε MemoryTables γ} {t t' : MemoryTables} {e : ε} {id u : Identifier} {stamps : Stamps}

/-- The clock falls neither between the stamps of a write nor from one write to the next. -/
structure ClockRises (c : Collection ε) (log : List (Call ε MemoryTables γ)) : Prop where
  within : ∀ x ∈ log, ∀ stamps ∈ x.stamped? c, stamps.rows ≤ stamps.version
  between : log.Pairwise fun y x => ∀ stamps ∈ x.stamped? c, ∀ later ∈ y.stamped? c, stamps.version ≤ later.version

instance (c : Collection ε) (log : List (Call ε MemoryTables γ)) : Decidable (ClockRises c log) :=
  decidable_of_iff (_ ∧ _) ⟨fun h => ⟨h.1, h.2⟩, fun h => ⟨h.within, h.between⟩⟩

lemma ClockRises.of_cons (h : ClockRises c (x :: log)) : ClockRises c log :=
  ⟨(List.forall_mem_cons.1 h.within).2, (List.pairwise_cons.1 h.between).2⟩

structure Call.Retains (c : Collection ε) (name value : String) (e : ε) (x : Call ε MemoryTables γ) : Prop where
  written : ∃ receipt, x.reply c = .written receipt ∧ receipt.value = e
  previous : ∃ id p, Entity.id e = some id ∧ c.current x.before.tables id = .ok (some p) ∧
    HasAttribute p .entity name value

/-- The call writes the version `e`, and the clock moves between the stamp of its entries and its own. -/
structure Call.StampsApart (c : Collection ε) (e : ε) (x : Call ε MemoryTables γ) : Prop where
  written : ∃ receipt, x.reply c = .written receipt ∧ receipt.value = e
  moved : (x.stamps c).rows ≠ (x.stamps c).version

/-- Versions are stamped by the calls of a log and expire in order. A current version has its entries in the index, and
they expire with it, unless the call that wrote it has retained them or has stamped them apart from it. -/
structure InStep (c : Collection ε) (name : String) (log : List (Call ε MemoryTables γ)) (t : MemoryTables) : Prop where
  stamped : ∀ id u v, t.versions.get? ⟨c.table, id, u⟩ = some v →
    ∃ x ∈ log, ∃ stamps ∈ x.stamped? c, v.expires = c.expiresAt stamps.version
  inOrder : ∀ id u w v v', t.versions.get? ⟨c.table, id, u⟩ = some v → t.versions.get? ⟨c.table, id, w⟩ = some v' →
    u < w → ∀ now, expired now v'.expires = true → expired now v.expires = true
  listed : ∀ id u v e value, t.versions.get? ⟨c.table, id, u⟩ = some v → c.IsLatest t id e u →
    HasAttribute e .entity name value →
    (∃ x ∈ log, x.Retains c name value e ∨ x.StampsApart c e) ∨ t.indexes.get? ⟨name, value, id⟩ = some ⟨id, v.expires⟩

namespace InStep

lemma idle (h : InStep c name log t) (x : Call ε MemoryTables γ) : InStep c name (x :: log) t where
  stamped id u v hv := by
    obtain ⟨y, hy, hexpires⟩ := h.stamped id u v hv
    exact ⟨y, List.mem_cons_of_mem _ hy, hexpires⟩
  inOrder := h.inOrder
  listed id u v e value hv hlatest ha :=
    (h.listed id u v e value hv hlatest ha).imp_left fun ⟨y, hy, hr⟩ => ⟨y, List.mem_cons_of_mem _ hy, hr⟩

lemma purge (h : InStep c name log t) (now : Int64) : InStep c name log (t.dropExpired now) where
  stamped id u v hv := h.stamped id u v (get?_versions_dropExpired.1 hv).1
  inOrder id u w v v' hv hw :=
    h.inOrder id u w v v' (get?_versions_dropExpired.1 hv).1 (get?_versions_dropExpired.1 hw).1
  listed id u v e value hv hlatest ha := by
    obtain ⟨hget, halive⟩ := get?_versions_dropExpired.1 hv
    have hlatest' : c.IsLatest t id e u := by
      obtain ⟨v', hv', hr⟩ := hlatest.stored
      refine ⟨⟨v', (get?_versions_dropExpired.1 hv').1, hr⟩, fun w v'' hw => ?_⟩
      cases hexpired : expired now v''.expires with
      | false => exact hlatest.le w v'' (get?_versions_dropExpired.2 ⟨hw, hexpired⟩)
      | true =>
        by_cases hlt : u < w
        · rw [h.inOrder id u w v v'' hget hw hlt now hexpired] at halive
          cases halive
        · rcases Int64.lt_or_eq_of_le (Int64.not_lt.1 hlt) with hgt | heq
          · exact .inr hgt
          · exact .inl (congrArg Identifier.mk heq)
    exact (h.listed id u v e value hget hlatest' ha).imp_right fun hindex =>
      get?_indexes_dropExpired.2 ⟨hindex, halive⟩

lemma purged (h : InStep c name log t) (hpurged : Purged t t') : InStep c name log t' := by
  induction hpurged with
  | none => exact h
  | purge _ now purge_eq ih => exact purge_ok purge_eq ▸ ih.purge now

lemma put {v : StoredVersion} (h : InStep c name log t) (hv : t'.versions = (t.put c.table v).versions)
    (hr : c.ReadsAs v id u e) (habove : ∀ w v', t.versions.get? ⟨c.table, id, w⟩ = some v' → w < u)
    (hx : stamps ∈ x.stamped? c) (hexpires : v.expires = c.expiresAt stamps.version)
    (hrises : ClockRises c (x :: log))
    (hothers : ∀ value n, id ≠ n → t'.indexes.get? ⟨name, value, n⟩ = t.indexes.get? ⟨name, value, n⟩)
    (hown : ∀ value, HasAttribute e .entity name value →
      (x.Retains c name value e ∨ x.StampsApart c e) ∨ t'.indexes.get? ⟨name, value, id⟩ = some ⟨id, v.expires⟩) :
    InStep c name (x :: log) t' := by
  have hself : ∀ w v', t'.versions.get? ⟨c.table, id, w⟩ = some v' →
      w = u ∧ v' = v ∨ t.versions.get? ⟨c.table, id, w⟩ = some v' := by
    intro w v' hw
    rw [hr.get?_put hv] at hw
    split at hw
    · next hk => exact .inl ⟨(VersionKey.mk.inj hk).2.2, (Option.some.inj hw).symm⟩
    · exact .inr hw
  have hother {n : Identifier} (hn : id ≠ n) := hr.get?_put_of_ne hv hn
  constructor
  · intro n w v' hw
    by_cases hn : id = n
    · subst hn
      rcases hself w v' hw with ⟨_, rfl⟩ | hw
      · exact ⟨x, List.mem_cons_self, stamps, hx, hexpires⟩
      · exact (h.idle x).stamped id w v' hw
    · exact (h.idle x).stamped n w v' (hother hn w ▸ hw)
  · intro n w w' v₁ v₂ hw hw' hlt now hexpired
    by_cases hn : id = n
    · subst hn
      -- the new version is above all others, and no call before was stamped later
      rcases hself w v₁ hw with ⟨rfl, rfl⟩ | hold <;> rcases hself w' v₂ hw' with ⟨rfl, rfl⟩ | hold'
      · exact hexpired
      · exact absurd (Int64.lt_trans hlt (habove w' v₂ hold')) Int64.lt_irrefl
      · obtain ⟨y, hy, earlier, hearlier, hstamp⟩ := h.stamped id w v₁ hold
        rw [hexpires] at hexpired
        rw [hstamp]
        exact expired_of_le ((List.pairwise_cons.1 hrises.between).1 y hy earlier hearlier stamps hx) hexpired
      · exact h.inOrder id w w' v₁ v₂ hold hold' hlt now hexpired
    · rw [hother hn] at hw hw'
      exact h.inOrder n w w' v₁ v₂ hw hw' hlt now hexpired
  · intro n w v' e' value hw hlatest ha
    by_cases hn : id = n
    · subst hn
      rcases hself w v' hw with ⟨rfl, rfl⟩ | hold
      · obtain rfl := (hr.stores_put hv).unique hlatest.stored
        exact (hown value ha).imp_left fun hx => ⟨x, List.mem_cons_self, hx⟩
      · have hlt := habove w v' hold
        rcases hlatest.le u v (by rw [hr.get?_put hv, if_pos rfl]) with rfl | hgt
        · exact absurd hlt Int64.lt_irrefl
        · exact absurd (Int64.lt_trans hlt hgt) Int64.lt_irrefl
    · rw [hothers value n hn]
      exact (h.idle x).listed n w v' e' value (hother hn w ▸ hw) ((IsLatest.congr (hother hn)).1 hlatest) ha

variable (hscope : ∀ (e : ε) value, ¬ HasAttribute e .version name value)
include hscope

lemma created [LawfulEntity ε] (h : InStep c name log t)
    (hreply : ∃ receipt, x.reply c = .written receipt ∧ receipt.value = e)
    (hr : c.ReadsAs (c.newVersion e id id (x.stamps c)) id id e)
    (habsent : ∀ u, t.versions.get? ⟨c.table, id, u⟩ = none) (hrises : ClockRises c (x :: log)) :
    InStep c name (x :: log) (c.created t e id (x.stamps c)) := by
  have ⟨_, hwritten, _⟩ := hreply
  refine h.put versions_created hr (fun w v' hw => ?_) (Call.stamped?_eq_some hwritten) rfl hrises
    (fun value n hn => ?_) fun value ha => ?_
  · exact nomatch (habsent w).symm.trans hw
  · rw [get?_created, if_neg]
    rw [mem_keys_attributes]
    simp [hscope e value, Ne.symm hn]
  · by_cases hmoved : (x.stamps c).rows = (x.stamps c).version
    · rw [get?_created, if_pos (mem_keys_attributes.2 (.inl ⟨rfl, ha⟩)), hmoved]
      exact .inr rfl
    · exact .inl (.inr ⟨hreply, hmoved⟩)

lemma updated [LawfulEntity ε] {previous : Option ε} (h : InStep c name log t) (hid : Entity.id e = some id)
    (hreply : ∃ receipt, x.reply c = .written receipt ∧ receipt.value = Entity.withUpdate e u)
    (hcurrent : c.current x.before.tables id = .ok previous)
    (hr : c.ReadsAs (c.newVersion (Entity.withUpdate e u) id u (x.stamps c)) id u (Entity.withUpdate e u))
    (hgreatest : ∀ w v, t.versions.get? ⟨c.table, id, w⟩ = some v → w < u) (hrises : ClockRises c (x :: log)) :
    InStep c name (x :: log) (c.updated t previous (Entity.withUpdate e u) id u (x.stamps c)) := by
  have ⟨_, hwritten, _⟩ := hreply
  refine h.put versions_updated hr hgreatest (Call.stamped?_eq_some hwritten) rfl hrises
    (fun value n hn => ?_) fun value ha => ?_
  · rw [get?_updated, if_neg (by rw [mem_outdated]; exact fun hk => hn hk.1.symm), if_neg]
    rw [mem_keys_added]
    simp [hscope _ value, Ne.symm hn]
  · by_cases hp : ∃ p ∈ previous, HasAttribute p .entity name value
    · obtain ⟨p, rfl, hp⟩ := hp
      exact .inl (.inl ⟨hreply, id, p, by rw [LawfulEntity.id_withUpdate, hid], hcurrent, hp⟩)
    · by_cases hmoved : (x.stamps c).rows = (x.stamps c).version
      · rw [get?_updated, if_neg (by rw [mem_outdated]; exact fun hk => hk.2.2 ha),
          if_pos (mem_keys_added.2 (.inl ⟨rfl, ha, hp⟩)), hmoved]
        exact .inr rfl
      · exact .inl (.inr ⟨hreply, hmoved⟩)

lemma deleted {current : Option ε} (h : InStep c name log t) (x : Call ε MemoryTables γ) :
    InStep c name (x :: log) (c.deleted t current id) := by
  have hversions : ∀ n w, (c.deleted t current id).versions.get? ⟨c.table, n, w⟩ =
      if n = id then none else t.versions.get? ⟨c.table, n, w⟩ := by
    intro n w
    rw [versions_deleted, get?_dropChain]
    simp
  have hother : ∀ {n w v}, (c.deleted t current id).versions.get? ⟨c.table, n, w⟩ = some v →
      n ≠ id ∧ t.versions.get? ⟨c.table, n, w⟩ = some v := by
    intro n w v hw
    rw [hversions] at hw
    split at hw
    · cases hw
    · next hn => exact ⟨hn, hw⟩
  constructor
  · intro n w v hw
    exact (h.idle x).stamped n w v (hother hw).2
  · intro n w w' v v' hw hw'
    exact h.inOrder n w w' v v' (hother hw).2 (hother hw').2
  · intro n w v e value hw hlatest ha
    obtain ⟨hn, hget⟩ := hother hw
    have hlatest' : c.IsLatest t n e w := (IsLatest.congr fun w => by rw [hversions, if_neg hn]).1 hlatest
    rw [get?_deleted, if_neg]
    · exact (h.idle x).listed n w v e value hget hlatest' ha
    · rintro ⟨e', _, hk⟩
      rw [mem_keys_attributes] at hk
      exact hk.elim (fun hk => hn hk.1) fun hk => hscope e' value hk.2

end InStep

variable [LawfulEntity ε] {start s : Store MemoryTables γ}

lemma DriftRun.inStep (h : DriftRun c Purged start log s) (hs : start.Opened .empty) (ho : Orderly c log)
    (hf : EntitiesFit log) (hc : AllComplete c log) (hclock : ClockRises c log)
    (hscope : ∀ (e : ε) value, ¬ HasAttribute e .version name value) : InStep c name log s.tables := by
  induction h with
  | start =>
    rw [hs.tables_eq]
    constructor
    · exact fun _ _ _ hget => nomatch hget
    · exact fun _ _ _ _ _ hget => nomatch hget
    · exact fun _ _ _ _ _ hget => nomatch hget
  | @call log s tables h drifts clock request ih =>
    obtain ⟨hfx, hf⟩ := List.forall_mem_cons.1 hf
    have hstep := (ih ho.of_cons hf (List.forall_mem_cons.1 hc).2 hclock.of_cons).purged drifts
    generalize ht : (Call.after c ⟨{ s with clock, tables }, request⟩).tables = t
    cases ht ▸ h.settled (fun _ _ => Purged.versionsWithin) hs drifts ho hc hf with
    | idle => exact hstep.idle _
    | @created e id stamps hrequest _ habsent _ hstamps hreply =>
      obtain rfl := hstamps
      have hfit := LawfulEntity.fits_stamp id id (hfx _ (by rw [hrequest]; rfl))
      exact hstep.created hscope hreply
        (readsAs_newVersion hfit LawfulEntity.id_stamp LawfulEntity.update_stamp _) habsent hclock
    | @updated e id u previous stamps hrequest hid hcurrent _ hgreatest _ hstamps hreply =>
      obtain rfl := hstamps
      have hfit := LawfulEntity.fits_withUpdate u (hfx _ (by rw [hrequest]; rfl))
      exact hstep.updated hscope hid hreply hcurrent
        (readsAs_newVersion hfit (by rw [LawfulEntity.id_withUpdate, hid]) (LawfulEntity.update_withUpdate ..) _)
        (hgreatest _) hclock
    | deleted _ _ _ => exact hstep.deleted hscope _

end Store

end Chronicle
