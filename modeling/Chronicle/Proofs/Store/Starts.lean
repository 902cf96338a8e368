import Chronicle.Proofs.Store.Appending

namespace Chronicle

namespace Collection

variable {ε : Type} [Entity ε] {c : Collection ε} {t t' : MemoryTables} {id : Identifier}
  {revived revived' : Prop}

lemma chain_of_current_none (h : c.current t id = .ok none) : t.chain c.table id = [] := by
  rw [current_eq] at h
  cases hlast : (t.chain c.table id).getLast? with
  | none => exact List.getLast?_eq_none_iff.1 hlast
  | some v =>
    rw [hlast] at h
    cases hdecode : c.decode v with
    | error err =>
      rw [Option.mapM_some, hdecode] at h
      cases h
    | ok e =>
      rw [mapM_some hdecode] at h
      cases h

lemma current_eq_none_iff : c.current t id = .ok none ↔ ∀ u, t.versions.get? ⟨c.table, id, u⟩ = none := by
  constructor
  · intro h u
    cases hget : t.versions.get? ⟨c.table, id, u⟩ with
    | none => rfl
    | some v =>
      have hmem := MemoryTables.mem_chain.2 ⟨u, hget⟩
      rw [chain_of_current_none h] at hmem
      cases hmem
  · intro h
    refine current_of_chain_eq_nil (List.eq_nil_iff_forall_not_mem.2 fun v hv => ?_)
    obtain ⟨u, hu⟩ := MemoryTables.mem_chain.1 hv
    cases (h u).symm.trans hu

lemma history_eq_nil_iff : c.history t id = .ok [] ↔ c.current t id = .ok none := by
  rw [history_eq]
  constructor
  · intro h
    refine current_of_chain_eq_nil (List.length_eq_zero_iff.1 ?_)
    rw [(forall₂_of_mapM h).length_eq, List.length_nil]
  · intro h
    rw [chain_of_current_none h]
    rfl

structure Starts (c : Collection ε) (t : MemoryTables) (id : Identifier) (revived : Prop) : Prop where
  not_before : ∀ u v, t.versions.get? ⟨c.table, id, u⟩ = some v → u = id ∨ id < u
  own : ¬ revived → ∀ u v, t.versions.get? ⟨c.table, id, u⟩ = some v →
    ∃ w, t.versions.get? ⟨c.table, id, id⟩ = some w
  missing : revived → t.versions.get? ⟨c.table, id, id⟩ = none

omit [Entity ε] in
lemma Starts.congr (h : c.Starts t id revived)
    (hget : ∀ u, t'.versions.get? ⟨c.table, id, u⟩ = t.versions.get? ⟨c.table, id, u⟩) (hiff : revived' ↔ revived) :
    c.Starts t' id revived' := by
  refine ⟨fun u v hv => h.not_before u v (hget u ▸ hv), fun hnot u v hv => ?_, fun hrevived => ?_⟩
  · rw [hget]
    exact h.own (hiff.not.1 hnot) u v (hget u ▸ hv)
  · rw [hget]
    exact h.missing (hiff.1 hrevived)

omit [Entity ε] in
lemma Starts.put_of_ne {v : StoredVersion} (h : c.Starts t id revived) (hv : v.id ≠ id) :
    c.Starts (t.put c.table v) id revived := by
  refine h.congr (fun u => ?_) Iff.rfl
  rw [MemoryTables.get?_put, if_neg]
  intro hk
  exact hv (VersionKey.mk.inj hk).2.1.symm

omit [Entity ε] in
lemma Starts.put_first {v : StoredVersion} (h : c.Starts t v.id revived) (hv : v.update = v.id)
    (hnot : ¬ revived') : c.Starts (t.put c.table v) v.id revived' := by
  refine ⟨fun u w hw => ?_, fun _ _ _ _ => ⟨v, by rw [MemoryTables.get?_put, hv, if_pos rfl]⟩, fun hr => absurd hr hnot⟩
  rw [MemoryTables.get?_put] at hw
  split at hw
  · next hk => exact .inl ((VersionKey.mk.inj hk).2.2.trans hv)
  · exact h.not_before u w hw

omit [Entity ε] in
lemma Starts.put_later {v : StoredVersion} (h : c.Starts t v.id revived) (hv : v.id < v.update)
    (hiff : revived' ↔ (∀ u, t.versions.get? ⟨c.table, v.id, u⟩ = none) ∨ revived) :
    c.Starts (t.put c.table v) v.id revived' := by
  have hown : (t.put c.table v).versions.get? ⟨c.table, v.id, v.id⟩ = t.versions.get? ⟨c.table, v.id, v.id⟩ := by
    rw [MemoryTables.get?_put, if_neg]
    intro hk
    exact Int64.lt_irrefl ((VersionKey.mk.inj hk).2.2 ▸ hv)
  refine ⟨fun u w hw => ?_, fun hnot _ _ _ => ?_, fun hrevived => ?_⟩
  · rw [MemoryTables.get?_put] at hw
    split at hw
    · next hk => exact .inr ((VersionKey.mk.inj hk).2.2 ▸ hv)
    · exact h.not_before u w hw
  · obtain ⟨hsome, hnot⟩ := not_or.1 (hiff.not.1 hnot)
    obtain ⟨u, hu⟩ := not_forall.1 hsome
    obtain ⟨w, hw⟩ := Option.ne_none_iff_exists'.1 hu
    rw [hown]
    exact h.own hnot u w hw
  · rw [hown]
    exact (hiff.1 hrevived).elim (fun hnone => hnone v.id) h.missing

omit [Entity ε] in
lemma Starts.dropChain (h : c.Starts t id revived) (id' : Identifier)
    (hiff : revived' ↔ revived ∧ id' ≠ id) : c.Starts (t.dropChain c.table id') id revived' := by
  by_cases hid : id' = id
  · subst hid
    have hget : ∀ u, (t.dropChain c.table id').versions.get? ⟨c.table, id', u⟩ = none := by
      intro u
      rw [MemoryTables.get?_dropChain, if_pos ⟨rfl, rfl⟩]
    refine ⟨fun u v hv => ?_, fun _ u v hv => ?_, fun _ => hget id'⟩
    · cases (hget u).symm.trans hv
    · cases (hget u).symm.trans hv
  · refine h.congr (fun u => ?_) (by rw [hiff, and_iff_left hid])
    rw [MemoryTables.get?_dropChain, if_neg fun hk => hid hk.2.symm]

lemma RowsRead.history_ok (h : c.RowsRead t) (id : Identifier) : ∃ es, c.history t id = .ok es := by
  have hdecode : ∀ v ∈ t.chain c.table id, ∃ e, c.decode v = .ok e ∧ True := fun v hv => by
    obtain ⟨_, e, he⟩ := h.of_mem_chain hv
    exact ⟨e, he.decode_eq, trivial⟩
  obtain ⟨es, hes, _⟩ := exists_mapM_ok hdecode
  exact ⟨es, hes⟩

lemma RowsRead.starts (h : c.RowsRead t) (hstarts : c.Starts t id revived) {es : List ε}
    (hes : c.history t id = .ok es) {e : ε} (he : e ∈ es.head?) :
    ∃ u, Entity.update e = some u ∧ (¬ revived → u = id) ∧ (revived → id < u) := by
  have hreads := h.forall₂_history hes
  have hpairwise : (t.chain c.table id).Pairwise fun v w => v.update < w.update := h.pairwise_chain
  cases hchain : t.chain c.table id with
  | nil =>
    rw [hchain] at hreads
    cases hreads
    cases he
  | cons v vs =>
    rw [hchain] at hreads hpairwise
    cases hreads with
    | cons hv _ =>
      cases he
      obtain ⟨hget, _⟩ := h.of_mem_chain (hchain ▸ List.mem_cons_self)
      refine ⟨v.update, hv.entity_update, fun hnot => ?_, fun hrevived => ?_⟩
      · obtain ⟨w, hw⟩ := hstarts.own hnot _ _ hget
        obtain ⟨_, hr⟩ := h _ _ _ hw
        have hmem : w ∈ v :: vs := hchain ▸ MemoryTables.mem_chain.2 ⟨id, hw⟩
        rcases List.mem_cons.1 hmem with rfl | hmem
        · exact hr.update_eq
        · have hlt := (List.pairwise_cons.1 hpairwise).1 w hmem
          rw [hr.update_eq] at hlt
          exact (hstarts.not_before _ _ hget).resolve_right fun hgt => Int64.lt_irrefl (Int64.lt_trans hlt hgt)
      · refine (hstarts.not_before _ _ hget).resolve_left fun hid => ?_
        rw [hid, hstarts.missing hrevived] at hget
        cases hget

end Collection

namespace Store

variable {ε σ γ : Type} [Entity ε] [Tables σ] [Clock γ]

def Call.Revives (c : Collection ε) (x : Call ε σ γ) (id : Identifier) : Prop :=
  ∃ e receipt, x.request = .update e ∧ Entity.id e = some id ∧ c.current x.before.tables id = .ok none ∧
    x.reply c = .written receipt

def Call.Deletes (c : Collection ε) (x : Call ε σ γ) (id : Identifier) : Prop :=
  x.request = .delete id ∧ ∃ receipt, x.reply c = .deleted receipt

def Revived (c : Collection ε) : List (Call ε σ γ) → Identifier → Prop
  | [], _ => False
  | x :: log, id => x.Revives c id ∨ Revived c log id ∧ ¬ x.Deletes c id ∧ x.created? c ≠ some id

section

variable {c : Collection ε} {x : Call ε MemoryTables γ} {log : List (Call ε MemoryTables γ)}
  {start s : Store MemoryTables γ} {t : MemoryTables} {id : Identifier}

lemma Step.versions_of_deleted {receipt : Receipt (Option ε)} (h : Step c x (.deleted receipt) t) :
    ∃ id, x.request = .delete id ∧ t.versions = (x.before.tables.dropChain c.table id).versions := by
  cases h with
  | deleted hrequest _ hdrop _ _ =>
    obtain rfl := MemoryTables.dropChain_ok hdrop
    exact ⟨_, hrequest, MemoryTables.versions_deliver ..⟩

lemma Call.current_of_deletes (h : x.Deletes c id) : c.current (x.after c).tables id = .ok none := by
  obtain ⟨hrequest, receipt, hreply⟩ := h
  have hstep := x.step c
  rw [hreply] at hstep
  obtain ⟨id', hrequest', hversions⟩ := hstep.versions_of_deleted
  obtain rfl := Request.delete.inj (hrequest.symm.trans hrequest')
  rw [Collection.current_congr hversions, Collection.current_dropChain_self]

variable [LawfulEntity ε]

lemma Step.starts (h : Step c x (x.reply c) t) (hown : ∀ id ∈ x.supplied, ∀ u ∈ x.issued c, id < u) {revived : Prop}
    (hstarts : c.Starts x.before.tables id revived) :
    c.Starts t id (x.Revives c id ∨ revived ∧ ¬ x.Deletes c id ∧ x.created? c ≠ some id) := by
  generalize hreply : x.reply c = reply at h
  cases h with
  | refused err =>
    refine hstarts.congr (fun _ => rfl) ?_
    cases hrequest : x.request <;> simp [Call.Revives, Call.Deletes, Call.created?, hreply, hrequest]
  | @created e id' stamps tables receipt hrequest _ _ hput hvalue _ =>
    obtain rfl := MemoryTables.put_ok hput
    have hiff : (x.Revives c id ∨ revived ∧ ¬ x.Deletes c id ∧ x.created? c ≠ some id) ↔ revived ∧ id' ≠ id := by
      simp [Call.Revives, Call.Deletes, Call.created?, hrequest, hreply, hvalue, LawfulEntity.id_stamp]
    refine Collection.Starts.congr (t := x.before.tables.put c.table _) ?_
      (fun u => by rw [MemoryTables.versions_deliver]) hiff
    by_cases hid : id' = id
    · subst hid
      exact hstarts.put_first rfl (by simp)
    · exact (hstarts.put_of_ne hid).congr (fun _ => rfl) (and_iff_left hid)
  | @updated e id' u previous stamps tables receipt hrequest hid hcurrent hissued _ hput _ _ =>
    obtain rfl := MemoryTables.put_ok hput
    have hiff : (x.Revives c id ∨ revived ∧ ¬ x.Deletes c id ∧ x.created? c ≠ some id) ↔
        id' = id ∧ previous = none ∨ revived := by
      have hrevives : x.Revives c id ↔ id' = id ∧ previous = none := by
        constructor
        · rintro ⟨e', _, hrequest', hid', hnone, _⟩
          obtain rfl := Request.update.inj (hrequest.symm.trans hrequest')
          obtain rfl := Option.some.inj (hid.symm.trans hid')
          exact ⟨rfl, Except.ok.inj (hcurrent.symm.trans hnone)⟩
        · rintro ⟨rfl, rfl⟩
          exact ⟨e, receipt, hrequest, hid, hcurrent, hreply⟩
      simp [hrevives, Call.Deletes, Call.created?, hrequest]
    refine Collection.Starts.congr (t := x.before.tables.put c.table _) ?_
      (fun u => by rw [MemoryTables.versions_deliver]) hiff
    by_cases heq : id' = id
    · subst heq
      refine hstarts.put_later (hown id' ?_ u hissued) ?_
      · rw [Call.supplied, hrequest]
        exact hid
      · have hnone : (∀ w, x.before.tables.versions.get? ⟨c.table, id', w⟩ = none) ↔ previous = none := by
          rw [← Collection.current_eq_none_iff, hcurrent, Except.ok.injEq]
        exact or_congr_left ((and_iff_right rfl).trans hnone.symm)
    · exact (hstarts.put_of_ne heq).congr (fun _ => rfl) (by simp [heq])
  | @deleted id' current n tables receipt hrequest hcurrent hdrop _ _ =>
    obtain rfl := MemoryTables.dropChain_ok hdrop
    refine Collection.Starts.congr (t := x.before.tables.dropChain c.table id')
      (hstarts.dropChain id' Iff.rfl) (fun u => by rw [MemoryTables.versions_deliver]) ?_
    simp [Call.Revives, Call.Deletes, Call.created?, hrequest, hreply]

lemma DriftRun.rowsStart (h : DriftRun c SameVersions start log s) (hs : start.tables = .empty)
    (hown : ∀ x ∈ log, ∀ id ∈ x.supplied, ∀ u ∈ x.issued c, id < u) (id : Identifier) :
    c.Starts s.tables id (Revived c log id) := by
  induction h with
  | start =>
    have hnone (u : Identifier) : start.tables.versions.get? ⟨c.table, id, u⟩ = none := by rw [hs]; rfl
    refine ⟨fun u v hv => ?_, fun _ u v hv => ?_, fun _ => hnone id⟩ <;> cases (hnone u).symm.trans hv
  | @call log s tables h drifts clock request ih =>
    refine (Call.step c _).starts (hown _ List.mem_cons_self) ?_
    exact (ih fun y hy => hown y (List.mem_cons_of_mem _ hy)).congr
      (fun u => by rw [show tables.versions = s.tables.versions from drifts]) Iff.rfl

lemma Call.history_after_none (hf : ∀ e ∈ x.request.entity?, LawfulEntity.Fits e)
    (hown : ∀ id ∈ x.supplied, ∀ u ∈ x.issued c, id < u) (hnone : c.current x.before.tables id = .ok none) :
    (x.created? c = some id ∧ ∃ e, c.history (x.after c).tables id = .ok [e] ∧ Entity.update e = some id) ∨
      (x.Revives c id ∧ ∃ e u, c.history (x.after c).tables id = .ok [e] ∧ Entity.update e = some u ∧ id < u) ∨
      x.created? c ≠ some id ∧ ¬ x.Revives c id ∧ c.history (x.after c).tables id = .ok [] := by
  have hstep := x.step c
  have hnil := Collection.history_eq_nil_iff.2 hnone
  cases hreply : x.reply c with
  | refused err =>
    rw [hreply] at hstep
    refine .inr (.inr ⟨?_, ?_, ?_⟩)
    · cases hrequest : x.request <;> simp [Call.created?, hreply, hrequest]
    · simp [Call.Revives, hreply]
    · generalize (x.after c).tables = t at hstep
      cases hstep
      exact hnil
  | deleted receipt =>
    rw [hreply] at hstep
    refine .inr (.inr ⟨?_, ?_, ?_⟩)
    · cases hrequest : x.request <;> simp [Call.created?, hreply, hrequest]
    · simp [Call.Revives, hreply]
    · obtain ⟨id', _, hversions⟩ := hstep.versions_of_deleted
      rw [Collection.history_congr hversions]
      by_cases hid : id' = id
      · rw [hid, Collection.history_dropChain_self]
      · rw [Collection.history_dropChain_of_ne hid, hnil]
  | written receipt =>
    rw [hreply] at hstep
    obtain ⟨v, hasks, hv, hversions, hchosen⟩ := hstep.written hf
    rw [Collection.history_congr hversions]
    by_cases hid : v.id = id
    · subst hid
      have hnew := Collection.history_put_self (fun u w hw => nomatch
        (Collection.current_eq_none_iff.1 hnone u).symm.trans hw) hv.decode_eq hnil
      cases hrequest : x.request with
      | create e =>
        rw [hrequest] at hasks
        refine .inl ⟨?_, _, hnew, by rw [hv.entity_update, hasks.2.1]⟩
        rw [Call.created?, hrequest, hreply]
        exact hv.entity_id
      | update e =>
        rw [hrequest] at hasks
        have hissued : x.issued c = some v.update := hchosen.resolve_left (by simp [Call.suppliedToCreate, hrequest])
        have hsupplied : v.id ∈ x.supplied := by
          rw [Call.supplied, hrequest]
          exact hasks.2
        exact .inr (.inl ⟨⟨e, receipt, hrequest, hasks.2, hnone, hreply⟩, _, _, hnew, hv.entity_update,
          hown _ hsupplied _ hissued⟩)
      | delete id =>
        rw [hrequest] at hasks
        exact hasks.elim
    · refine .inr (.inr ⟨?_, ?_, by rw [Collection.history_put_of_ne hid, hnil]⟩)
      · cases hrequest : x.request <;> simp [Call.created?, hreply, hrequest, hv.entity_id, hid]
      · rintro ⟨e, _, hrequest, hid', _⟩
        rw [hrequest] at hasks
        exact hid (Option.some.inj (hasks.2.symm.trans hid'))

lemma DriftRun.current_none_of_deletes (h : DriftRun c SameVersions start log s) (hf : EntitiesFit log)
    (hown : ∀ x ∈ log, ∀ id ∈ x.supplied, ∀ u ∈ x.issued c, id < u) {later earlier : List (Call ε MemoryTables γ)}
    (hlog : log = later ++ x :: earlier) (hdeletes : x.Deletes c id)
    (hlater : ∀ y ∈ later, y.created? c ≠ some id ∧ ¬ y.Revives c id) : c.current s.tables id = .ok none := by
  induction h generalizing later with
  | start => simp at hlog
  | @call log s tables h drifts clock request ih =>
    cases later with
    | nil =>
      obtain ⟨rfl, _⟩ := List.cons.inj hlog
      exact Call.current_of_deletes hdeletes
    | cons y later =>
      obtain ⟨rfl, hrest⟩ := List.cons.inj hlog
      have hbefore : c.current tables id = .ok none := by
        rw [Collection.current_congr drifts]
        exact ih (fun y hy => hf y (List.mem_cons_of_mem _ hy)) (fun y hy => hown y (List.mem_cons_of_mem _ hy)) hrest
          fun y hy => hlater y (List.mem_cons_of_mem _ hy)
      obtain ⟨hcreated, hrevives⟩ := hlater _ List.mem_cons_self
      rcases Call.history_after_none (hf _ List.mem_cons_self) (hown _ List.mem_cons_self) hbefore with
        ⟨hid, _⟩ | ⟨hid, _⟩ | ⟨_, _, hnil⟩
      · exact absurd hid hcreated
      · exact absurd hid hrevives
      · exact Collection.history_eq_nil_iff.1 hnil

end

end Store

end Chronicle
