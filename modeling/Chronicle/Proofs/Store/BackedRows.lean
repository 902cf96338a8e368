import Chronicle.Proofs.Store.ExpiringRows

namespace Chronicle

namespace Collection

open Entity (HasAttribute)
open MemoryTables

variable {ε : Type} [Entity ε] {c : Collection ε} {t t' : MemoryTables} {name : String} {id u : Identifier} {e : ε}

lemma IsLatest.within {v : StoredVersion} (h : c.IsLatest t id e u) (hwithin : VersionsWithin t' t)
    (hv : t'.versions.get? ⟨c.table, id, u⟩ = some v) : c.IsLatest t' id e u := by
  obtain ⟨v', hv', hr⟩ := h.stored
  obtain rfl := Option.some.inj (hv'.symm.trans (hwithin _ v hv))
  exact ⟨⟨v', hv, hr⟩, fun w v'' hw => h.le w v'' (hwithin _ v'' hw)⟩

/-- Each entry of an index lies at the id of an entity whose latest version has the value, and goes no later than that
version. -/
def BackedByLatest (c : Collection ε) (name : String) (t : MemoryTables) : Prop :=
  ∀ value place cell, t.indexes.get? ⟨name, value, place⟩ = some cell → cell.entity = place ∧
    ∃ u v e, t.versions.get? ⟨c.table, place, u⟩ = some v ∧ c.IsLatest t place e u ∧
      HasAttribute e .entity name value ∧ ∀ now, expired now v.expires = true → expired now cell.expires = true

def BackedByVersion (c : Collection ε) (name : String) (t : MemoryTables) : Prop :=
  ∀ value u cell, t.indexes.get? ⟨name, value, u⟩ = some cell →
    ∃ v e, t.versions.get? ⟨c.table, cell.entity, u⟩ = some v ∧ c.ReadsAs v cell.entity u e ∧
      HasAttribute e .version name value ∧ ∀ now, expired now v.expires = true → expired now cell.expires = true

namespace BackedByLatest

lemma purge (h : c.BackedByLatest name t) (now : Int64) : c.BackedByLatest name (t.dropExpired now) := by
  intro value place cell hget
  obtain ⟨hget, halive⟩ := get?_indexes_dropExpired.1 hget
  obtain ⟨hplace, u, v, e, hv, hlatest, ha, hexpired⟩ := h value place cell hget
  have hv' : (t.dropExpired now).versions.get? ⟨c.table, place, u⟩ = some v := by
    refine get?_versions_dropExpired.2 ⟨hv, ?_⟩
    rw [← Bool.not_eq_true] at halive ⊢
    exact fun hgone => halive (hexpired now hgone)
  refine ⟨hplace, u, v, e, hv', hlatest.within (fun k w hw => ?_) hv', ha, hexpired⟩
  exact (get?_versions_dropExpired.1 hw).1

lemma purged (h : c.BackedByLatest name t) (hpurged : Purged t t') : c.BackedByLatest name t' := by
  induction hpurged with
  | none => exact h
  | purge _ now purge_eq ih => exact purge_ok purge_eq ▸ ih.purge now

variable {stamps : Stamps} (h : c.BackedByLatest name t) (hr : c.ReadsAs (c.newVersion e id u stamps) id u e)
include h hr

lemma put (hv : t'.versions = (t.put c.table (c.newVersion e id u stamps)).versions)
    (habove : ∀ w v, t.versions.get? ⟨c.table, id, w⟩ = some v → w < u)
    (hothers : ∀ value n, id ≠ n → t'.indexes.get? ⟨name, value, n⟩ = t.indexes.get? ⟨name, value, n⟩)
    (hown : ∀ value cell, t'.indexes.get? ⟨name, value, id⟩ = some cell → cell.entity = id ∧
      HasAttribute e .entity name value ∧
      ∀ now, expired now (c.expiresAt stamps.version) = true → expired now cell.expires = true) :
    c.BackedByLatest name t' := by
  intro value place cell hget
  by_cases hplace : id = place
  · subst hplace
    obtain ⟨hentity, ha, hexpired⟩ := hown value cell hget
    exact ⟨hentity, u, _, e, by rw [hr.get?_put hv, if_pos rfl], hr.isLatest_put hv habove, ha, hexpired⟩
  · have hsame := hr.get?_put_of_ne hv hplace
    rw [hothers value place hplace] at hget
    obtain ⟨hentity, w, v, e', hw, hlatest, ha, hexpired⟩ := h value place cell hget
    exact ⟨hentity, w, v, e', (hsame w).trans hw, (IsLatest.congr hsame).2 hlatest, ha, hexpired⟩

variable (hrises : stamps.rows ≤ stamps.version) (hscope : ∀ (e : ε) value, ¬ HasAttribute e .version name value)
include hrises hscope

lemma created (hid : id = u) (habsent : ∀ u, t.versions.get? ⟨c.table, id, u⟩ = none) :
    c.BackedByLatest name (c.created t e id stamps) := by
  subst hid
  have hkeys (value : String) (n : Identifier) :
      ⟨name, value, n⟩ ∈ keys (Entity.attributes e) id id ↔ n = id ∧ HasAttribute e .entity name value := by
    rw [mem_keys_attributes]
    simp [hscope e value]
  refine h.put hr versions_created (fun w v hw => nomatch (habsent w).symm.trans hw) (fun value n hn => ?_)
    fun value cell hget => ?_
  · rw [get?_created, if_neg fun hk => hn ((hkeys value n).1 hk).1.symm]
  · rw [get?_created] at hget
    split at hget
    · next hk =>
      cases hget
      exact ⟨rfl, ((hkeys value id).1 hk).2, fun now hnow => expired_of_le hrises hnow⟩
    · obtain ⟨_, w, v, _, hw, _⟩ := h value id cell hget
      exact nomatch (habsent w).symm.trans hw

lemma updated {previous : Option ε} (hrows : c.RowsRead t) (hcurrent : c.current t id = .ok previous)
    (habove : ∀ w v, t.versions.get? ⟨c.table, id, w⟩ = some v → w < u)
    (hstamped : ∀ w v, t.versions.get? ⟨c.table, id, w⟩ = some v →
      ∃ time ≤ stamps.version, v.expires = c.expiresAt time) :
    c.BackedByLatest name (c.updated t previous e id u stamps) := by
  refine h.put hr versions_updated habove (fun value n hn => ?_) fun value cell hget => ?_
  · rw [get?_updated, if_neg (by rw [mem_outdated]; exact fun hk => hn hk.1.symm), if_neg]
    rw [mem_keys_added]
    simp [hscope _ value, Ne.symm hn]
  · rw [get?_updated] at hget
    split at hget
    · cases hget
    · next hkept =>
      split at hget
      · next hk =>
        cases hget
        rw [mem_keys_added] at hk
        exact ⟨rfl, (hk.resolve_right fun hk => hscope e value hk.2).2.1, fun now hnow => expired_of_le hrises hnow⟩
      · -- the entry is older than the update: the version before had it, and was to go no later than the new one
        obtain ⟨hentity, w, v, p, hw, hlatest, hp, hexpired⟩ := h value id cell hget
        obtain ⟨p', hp', w', hlatest'⟩ := hrows.isLatest hcurrent hw
        obtain rfl := hlatest.unique hlatest'
        obtain rfl := hlatest.stored.unique hlatest'.stored
        refine ⟨hentity, Classical.byContradiction fun hnot => ?_, fun now hnow => hexpired now ?_⟩
        · exact hkept (mem_outdated.2 ⟨rfl, ⟨p, hp', hp⟩, hnot⟩)
        · obtain ⟨time, hle, hstamp⟩ := hstamped w v hw
          rw [hstamp]
          exact expired_of_le hle hnow

end BackedByLatest

namespace BackedByVersion

lemma purge (h : c.BackedByVersion name t) (now : Int64) : c.BackedByVersion name (t.dropExpired now) := by
  intro value u cell hget
  obtain ⟨hget, halive⟩ := get?_indexes_dropExpired.1 hget
  obtain ⟨v, e, hv, hr, ha, hexpired⟩ := h value u cell hget
  refine ⟨v, e, get?_versions_dropExpired.2 ⟨hv, ?_⟩, hr, ha, hexpired⟩
  rw [← Bool.not_eq_true] at halive ⊢
  exact fun hgone => halive (hexpired now hgone)

lemma purged (h : c.BackedByVersion name t) (hpurged : Purged t t') : c.BackedByVersion name t' := by
  induction hpurged with
  | none => exact h
  | purge _ now purge_eq ih => exact purge_ok purge_eq ▸ ih.purge now

variable {stamps : Stamps} (h : c.BackedByVersion name t) (hr : c.ReadsAs (c.newVersion e id u stamps) id u e)
  (hrises : stamps.rows ≤ stamps.version) (hscope : ∀ (e : ε) value, ¬ HasAttribute e .entity name value)
include h hr hrises

lemma put (hv : t'.versions = (t.put c.table (c.newVersion e id u stamps)).versions)
    (habsent : t.versions.get? ⟨c.table, id, u⟩ = none)
    (hrow : ∀ value n cell, t'.indexes.get? ⟨name, value, n⟩ = some cell →
      (n = u ∧ HasAttribute e .version name value ∧ cell = ⟨id, c.expiresAt stamps.rows⟩) ∨
        t.indexes.get? ⟨name, value, n⟩ = some cell) : c.BackedByVersion name t' := by
  intro value n cell hget
  rcases hrow value n cell hget with ⟨rfl, ha, rfl⟩ | hget
  · exact ⟨_, e, by rw [hr.get?_put hv, if_pos rfl], hr, ha, fun now hnow => expired_of_le hrises hnow⟩
  · obtain ⟨v, e', hw, hback⟩ := h value n cell hget
    refine ⟨v, e', ?_, hback⟩
    rw [hr.get?_put hv, if_neg, hw]
    intro hk
    rw [hk, habsent] at hw
    cases hw

include hscope

lemma created (hid : id = u) (habsent : ∀ u, t.versions.get? ⟨c.table, id, u⟩ = none) :
    c.BackedByVersion name (c.created t e id stamps) := by
  subst hid
  refine h.put hr hrises versions_created (habsent id) fun value n cell hget => ?_
  rw [get?_created] at hget
  split at hget
  · next hk =>
    rw [mem_keys_attributes] at hk
    obtain ⟨hn, ha⟩ := hk.resolve_left fun hk => hscope e value hk.2
    exact .inl ⟨hn, ha, (Option.some.inj hget).symm⟩
  · exact .inr hget

lemma updated {previous : Option ε} (habsent : t.versions.get? ⟨c.table, id, u⟩ = none) :
    c.BackedByVersion name (c.updated t previous e id u stamps) := by
  refine h.put hr hrises versions_updated habsent fun value n cell hget => ?_
  rw [get?_updated] at hget
  split at hget
  · cases hget
  · split at hget
    · next hk =>
      rw [mem_keys_added] at hk
      obtain ⟨hn, ha⟩ := hk.resolve_left fun hk => hscope e value hk.2.1
      exact .inl ⟨hn, ha, (Option.some.inj hget).symm⟩
    · exact .inr hget

end BackedByVersion

end Collection

namespace Store

open Collection
open Entity (HasAttribute)
open MemoryTables

variable {ε γ : Type} [Entity ε] [LawfulEntity ε] [Clock γ] {c : Collection ε} {name : String}
  {start s : Store MemoryTables γ} {log : List (Call ε MemoryTables γ)}

lemma DriftRun.backed (h : DriftRun c Purged start log s) (hs : start.Opened .empty) (ho : Orderly c log)
    (hf : EntitiesFit log) (hc : AllComplete c log) (hclock : ClockRises c log)
    (hwrites : ∀ x ∈ log, x.request.entity?.isSome) :
    ((∀ (e : ε) value, ¬ HasAttribute e .version name value) → c.BackedByLatest name s.tables) ∧
      ((∀ (e : ε) value, ¬ HasAttribute e .entity name value) → c.BackedByVersion name s.tables) := by
  induction h with
  | start =>
    rw [hs.tables_eq]
    exact ⟨fun _ _ _ _ hget => (nomatch hget), fun _ _ _ _ hget => (nomatch hget)⟩
  | @call log s tables h drifts clock request ih =>
    obtain ⟨hfx, hf⟩ := List.forall_mem_cons.1 hf
    obtain ⟨hcx, hcomplete⟩ := List.forall_mem_cons.1 hc
    obtain ⟨hwrite, hwrites⟩ := List.forall_mem_cons.1 hwrites
    obtain ⟨hlatest, hversion⟩ := ih ho.of_cons hf hcomplete hclock.of_cons hwrites
    generalize ht : (Call.after c ⟨{ s with clock, tables }, request⟩).tables = t
    cases ht ▸ h.settled (fun _ _ => Purged.versionsWithin) hs drifts ho hc hf with
    | idle => exact ⟨fun hscope => (hlatest hscope).purged drifts, fun hscope => (hversion hscope).purged drifts⟩
    | @created e id stamps hrequest _ habsent _ hstamps hreply =>
      obtain rfl := hstamps
      obtain ⟨_, hwritten, _⟩ := hreply
      have hfit := LawfulEntity.fits_stamp id id (hfx _ (by rw [hrequest]; rfl))
      have hr := readsAs_newVersion (c := c) hfit LawfulEntity.id_stamp LawfulEntity.update_stamp
        (Call.stamps c ⟨{ s with clock, tables }, request⟩)
      have hwithin := hclock.within _ List.mem_cons_self _ (Call.stamped?_eq_some hwritten)
      exact ⟨fun hscope => ((hlatest hscope).purged drifts).created hr hwithin hscope rfl habsent,
        fun hscope => ((hversion hscope).purged drifts).created hr hwithin hscope rfl habsent⟩
    | @updated e id u previous stamps hrequest hid hcurrent _ hgreatest _ hstamps hreply =>
      obtain rfl := hstamps
      obtain ⟨_, hwritten, _⟩ := hreply
      have hfit := LawfulEntity.fits_withUpdate u (hfx _ (by rw [hrequest]; rfl))
      have hr := readsAs_newVersion (c := c) hfit (by rw [LawfulEntity.id_withUpdate, hid])
        (LawfulEntity.update_withUpdate ..)
        (Call.stamps c ⟨{ s with clock, tables }, request⟩)
      have hwithin := hclock.within _ List.mem_cons_self _ (Call.stamped?_eq_some hwritten)
      refine ⟨fun hscope => ((hlatest hscope).purged drifts).updated hr hwithin hscope ?rows hcurrent (hgreatest id)
        ?stamped, fun hscope => ((hversion hscope).purged drifts).updated hr hwithin hscope ?absent⟩
      case rows => exact (h.rowsRead (fun _ _ => Purged.versionsWithin) hs hf).mono drifts.versionsWithin
      case stamped =>
        intro w v hw
        have hstep := (h.inStep hs ho.of_cons hf hcomplete hclock.of_cons hscope).purged drifts
        obtain ⟨y, hy, earlier, hearlier, hstamp⟩ := hstep.stamped id w v hw
        exact ⟨earlier.version, (List.pairwise_cons.1 hclock.between).1 y hy earlier hearlier _
          (Call.stamped?_eq_some hwritten), hstamp⟩
      case absent =>
        exact Option.eq_none_iff_forall_not_mem.2 fun v hv => Int64.lt_irrefl (hgreatest id u v hv)
    | deleted hrequest _ _ =>
      rw [hrequest] at hwrite
      cases hwrite

end Store

end Chronicle
