import Chronicle.Proofs.Store.Chains

/-! The primary table over a run, as a map from ids to the values that were written for them. -/

namespace Chronicle

namespace Collection

variable {ε : Type} [Entity ε] {c : Collection ε} {t t' : MemoryTables} {id : Identifier} {v : StoredVersion}
  {e : ε} {es : List ε}

structure Shows (c : Collection ε) (t : MemoryTables) (values : Identifier → List ε) : Prop where
  history : ∀ id, c.history t id = .ok (values id)
  own : ∀ id, ∀ e ∈ values id, Entity.id e = some id
  ascending : ∀ id, ∃ us : List Identifier, (values id).map Entity.update = us.map some ∧ us.Pairwise (· < ·)
  current : ∀ id, c.current t id = .ok (values id).getLast?
  version : ∀ id u, c.version t id u = .ok ((values id).find? fun e => Entity.update e == some u)
  ids : ∀ after, ∃ live : List Identifier, live.Pairwise (· < ·) ∧
    (∀ id, id ∈ live ↔ (∀ cursor ∈ after, cursor < id) ∧ values id ≠ []) ∧
    ∀ limit, limit ≠ 0 → c.ids t after limit = .ok (live.take limit)

lemma history_eq (c : Collection ε) (t : MemoryTables) (id : Identifier) :
    c.history t id = (t.chain c.table id).mapM c.decode := rfl

omit [Entity ε] in
lemma ids_eq (c : Collection ε) (t : MemoryTables) (after : Option Identifier) {limit : Nat} (hlimit : limit ≠ 0) :
    c.ids t after limit = .ok ((t.idsAfter c.table after).take limit) := by
  simp only [ids, Source.page, hlimit, if_false]
  rfl

lemma history_congr (h : t'.versions = t.versions) : c.history t' id = c.history t id := by
  rw [history_eq, history_eq, MemoryTables.chain, h]
  rfl

lemma history_put_self (h : ∀ u w, t.versions.get? ⟨c.table, v.id, u⟩ = some w → u < v.update)
    (hd : c.decode v = .ok e) (hes : c.history t v.id = .ok es) :
    c.history (t.put c.table v) v.id = .ok (es ++ [e]) := by
  rw [history_eq] at hes
  rw [history_eq, MemoryTables.chain_put_self h, List.mapM_append, hes, List.mapM_cons, List.mapM_nil, hd]
  rfl

lemma history_put_of_ne (h : v.id ≠ id) : c.history (t.put c.table v) id = c.history t id := by
  rw [history_eq, history_eq, MemoryTables.chain_put_of_ne h]

lemma history_dropChain_self : c.history (t.dropChain c.table id) id = .ok [] := by
  rw [history_eq, MemoryTables.chain_dropChain_self]
  rfl

lemma history_dropChain_of_ne {id' : Identifier} (h : id ≠ id') :
    c.history (t.dropChain c.table id) id' = c.history t id' := by
  rw [history_eq, history_eq, MemoryTables.chain_dropChain_of_ne h]

section

variable (h : c.RowsRead t)

include h

lemma RowsRead.of_mem_chain (hv : v ∈ t.chain c.table id) :
    t.versions.get? ⟨c.table, id, v.update⟩ = some v ∧ ∃ e, c.ReadsAs v id v.update e := by
  obtain ⟨u, hget⟩ := MemoryTables.mem_chain.1 hv
  obtain ⟨e, he⟩ := h id u v hget
  obtain rfl := he.update_eq
  exact ⟨hget, e, he⟩

lemma RowsRead.forall₂_history (hes : c.history t id = .ok es) :
    List.Forall₂ (fun v e => c.ReadsAs v id v.update e) (t.chain c.table id) es := by
  have hreads := (List.forall₂_and_left (t.chain c.table id) es).2
    ⟨fun v hv => (h.of_mem_chain hv).2, forall₂_of_mapM hes⟩
  refine hreads.imp ?_
  rintro v e ⟨⟨e', he'⟩, he⟩
  obtain rfl : e' = e := Except.ok.inj (he'.decode_eq.symm.trans he)
  exact he'

lemma RowsRead.pairwise_chain : (t.chain c.table id).Pairwise fun v w => v.update < w.update := by
  refine List.pairwise_map.2 ((t.pairwise_chain_entries c.table id).imp_of_mem fun ha hb hlt => ?_)
  have hupdate : ∀ d ∈ t.versions.scan (fun k => k.table == c.table && k.id == id), d.2.update = d.1.update := by
    rintro ⟨⟨table, id', u⟩, v⟩ hd
    obtain ⟨hmem, hk⟩ := OrderedMap.mem_scan.1 hd
    obtain ⟨rfl, rfl⟩ : table = c.table ∧ id' = id := by simpa using hk
    obtain ⟨e, he⟩ := h _ _ _ (OrderedMap.get?_eq_some_iff.2 hmem)
    exact he.update_eq
  rwa [hupdate _ ha, hupdate _ hb]

lemma RowsRead.get?_eq_find? (id u : Identifier) :
    t.versions.get? ⟨c.table, id, u⟩ = (t.chain c.table id).find? fun v => v.update == u := by
  apply Option.ext
  intro v
  constructor
  · intro hget
    obtain ⟨e, he⟩ := h id u v hget
    cases hfind : (t.chain c.table id).find? fun v => v.update == u with
    | none =>
      have hnone := List.find?_eq_none.1 hfind v (MemoryTables.mem_chain.2 ⟨u, hget⟩)
      simp [he.update_eq] at hnone
    | some w =>
      have hupdate : w.update = u := by simpa using List.find?_some hfind
      have hget' := (h.of_mem_chain (List.mem_of_find?_eq_some hfind)).1
      rw [hupdate, hget] at hget'
      exact hget'.symm
  · intro hfind
    have hupdate : v.update = u := by simpa using List.find?_some hfind
    exact hupdate ▸ (h.of_mem_chain (List.mem_of_find?_eq_some hfind)).1

lemma RowsRead.shows {values : Identifier → List ε} (hvalues : ∀ id, c.history t id = .ok (values id)) :
    c.Shows t values where
  history := hvalues
  own id e he := by
    obtain ⟨v, _, hv⟩ := exists_of_mem_right (h.forall₂_history (hvalues id)) he
    exact hv.entity_id
  ascending id := by
    refine ⟨(t.chain c.table id).map StoredVersion.update, ?_, List.pairwise_map.2 h.pairwise_chain⟩
    have hupdates : List.Forall₂ (· = ·) ((values id).map Entity.update)
        (((t.chain c.table id).map StoredVersion.update).map some) := by
      rw [List.forall₂_map_left_iff, List.map_map, List.forall₂_map_right_iff]
      exact ((h.forall₂_history (hvalues id)).imp fun _ _ he => he.entity_update).flip
    rwa [List.forall₂_eq_eq_eq] at hupdates
  current id := by
    rw [current_eq]
    exact mapM_getLast? ((h.forall₂_history (hvalues id)).imp fun _ _ he => he.decode_eq)
  version id u := by
    change (t.versions.get? ⟨c.table, id, u⟩).mapM c.decode = _
    rw [h.get?_eq_find?]
    refine mapM_find? ((h.forall₂_history (hvalues id)).imp fun _ _ he => ⟨he.decode_eq, ?_⟩)
    rw [he.entity_update]
    rfl
  ids after := by
    refine ⟨t.idsAfter c.table after, t.pairwise_idsAfter c.table after, fun id => ?_, fun limit hlimit => ?_⟩
    · rw [MemoryTables.mem_idsAfter, isAfter_iff, ← List.length_pos_iff, (h.forall₂_history (hvalues id)).length_eq,
        List.length_pos_iff]
    · exact ids_eq c t after hlimit

end

end Collection

namespace Store

variable {ε γ : Type} [Entity ε]

def Request.Asks : Request ε → Identifier → Identifier → ε → Prop
  | .create e, id, u, value => value = Entity.stamp e id u ∧ u = id ∧ ∀ given, Entity.id e = some given → id = given
  | .update e, id, u, value => value = Entity.withUpdate e u ∧ Entity.id e = some id
  | .delete _, _, _, _ => False

variable [Clock γ] {c : Collection ε} {start s : Store MemoryTables γ} {log : List (Call ε MemoryTables γ)}
  {x : Call ε MemoryTables γ} {t : MemoryTables} {r : Reply ε}

def Call.extend (c : Collection ε) (x : Call ε MemoryTables γ) (id : Identifier) (values : List ε) : List ε :=
  match x.reply c, x.request with
  | .written receipt, _ => if Entity.id receipt.value = some id then values ++ [receipt.value] else values
  | .deleted _, .delete id' => if id' = id then [] else values
  | _, _ => values

def written (c : Collection ε) : List (Call ε MemoryTables γ) → Identifier → List ε
  | [], _ => []
  | x :: log, id => x.extend c id (written c log id)

inductive Effect (c : Collection ε) (x : Call ε MemoryTables γ) : Reply ε → MemoryTables → Prop where
  | refused (err : Error) : Effect c x (.refused err) x.before.tables
  | written {v : StoredVersion} {receipt : Receipt ε} {t : MemoryTables}
      (asks : x.request.Asks v.id v.update receipt.value) (reads : c.ReadsAs v v.id v.update receipt.value)
      (above : ∀ u w, x.before.tables.versions.get? ⟨c.table, v.id, u⟩ = some w → u < v.update)
      (versions_eq : t.versions = (x.before.tables.put c.table v).versions) : Effect c x (.written receipt) t
  | deleted {id : Identifier} {receipt : Receipt (Option ε)} {t : MemoryTables} (request_eq : x.request = .delete id)
      (current_eq : c.current x.before.tables id = .ok receipt.value)
      (versions_eq : t.versions = (x.before.tables.dropChain c.table id).versions) : Effect c x (.deleted receipt) t

def SameVersions (t t' : MemoryTables) : Prop := t'.versions = t.versions

lemma Run.sameVersions (h : Run c start log s) : DriftRun c SameVersions start log s := by
  induction h with
  | start => exact .start
  | call _ clock request ih => exact ih.call rfl clock request

lemma Call.supplied_of_issued {e : ε} {id given : Identifier} (hrequest : x.request = .create e)
    (hissued : x.issued c = some id) (hgiven : Entity.id e = some given) : id = given := by
  rw [Call.issued, Call.issues, hrequest] at hissued
  simp [hgiven] at hissued

lemma Effect.history_eq (h : Effect c x (x.reply c) t) {values : Identifier → List ε}
    (hvalues : ∀ id, c.history x.before.tables id = .ok (values id)) (id : Identifier) :
    c.history t id = .ok (x.extend c id (values id)) := by
  generalize hr : x.reply c = r at h
  cases h with
  | refused err =>
    rw [Call.extend, hr]
    exact hvalues id
  | @written v receipt _ _ reads above heq =>
    rw [Collection.history_congr heq, Call.extend, hr]
    simp only [reads.entity_id, Option.some.injEq]
    split
    · next hid =>
      subst hid
      exact Collection.history_put_self above reads.decode_eq (hvalues v.id)
    · next hid => rw [Collection.history_put_of_ne hid, hvalues id]
  | @deleted id' receipt _ hrequest _ heq =>
    rw [Collection.history_congr heq, Call.extend, hr, hrequest]
    simp only
    split
    · next hid =>
      subst hid
      exact Collection.history_dropChain_self
    · next hid => rw [Collection.history_dropChain_of_ne hid, hvalues id]

lemma DriftRun.history_eq (h : DriftRun c SameVersions start log s) (hs : start.Opened .empty)
    (heffects : ∀ x ∈ log, Effect c x (x.reply c) (x.after c).tables) (id : Identifier) :
    c.history s.tables id = .ok (written c log id) := by
  induction h generalizing id with
  | start =>
    rw [hs.tables_eq]
    rfl
  | @call log s tables h drifts clock request ih =>
    refine (heffects _ List.mem_cons_self).history_eq (fun id => ?_) id
    rw [← ih (fun y hy => heffects y (List.mem_cons_of_mem _ hy)) id]
    exact Collection.history_congr drifts

variable [LawfulEntity ε]

lemma Step.written {receipt : Receipt ε} (h : Step c x (.written receipt) t)
    (hf : ∀ e ∈ x.request.entity?, LawfulEntity.Fits e) :
    ∃ v : StoredVersion, x.request.Asks v.id v.update receipt.value ∧ c.ReadsAs v v.id v.update receipt.value ∧
      t.versions = (x.before.tables.put c.table v).versions ∧
      ((x.suppliedToCreate = some v.id ∧ v.update = v.id ∧ ∀ u, x.before.tables.versions.get? ⟨c.table, v.id, u⟩ = none) ∨
        x.issued c = some v.update) := by
  cases h with
  | @created e id stamps tables receipt hrequest hchosen _ hput hvalue _ =>
    have hfit := LawfulEntity.fits_stamp id id (hf e (by rw [hrequest]; rfl))
    obtain rfl := MemoryTables.put_ok hput
    refine ⟨c.newVersion (Entity.stamp e id id) id id stamps, ?_, ?_, MemoryTables.versions_deliver .., ?_⟩
    · rw [hrequest]
      refine ⟨hvalue, rfl, fun given hgiven => ?_⟩
      rcases hchosen with ⟨hid, _⟩ | hissued
      · exact Option.some.inj (hid.symm.trans hgiven)
      · exact Call.supplied_of_issued hrequest hissued hgiven
    · rw [hvalue]
      exact Collection.readsAs_newVersion hfit LawfulEntity.id_stamp LawfulEntity.update_stamp stamps
    · refine hchosen.imp_left fun ⟨hid, hlatest⟩ => ⟨?_, rfl, MemoryTables.get?_of_latest?_none hlatest⟩
      rw [Call.suppliedToCreate, hrequest]
      exact hid
  | @updated e id u previous stamps tables receipt hrequest hid _ hissued _ hput hvalue _ =>
    have hfit := LawfulEntity.fits_withUpdate u (hf e (by rw [hrequest]; rfl))
    obtain rfl := MemoryTables.put_ok hput
    refine ⟨c.newVersion (Entity.withUpdate e u) id u stamps, ?_, ?_, MemoryTables.versions_deliver .., .inr hissued⟩
    · rw [hrequest]
      exact ⟨hvalue, hid⟩
    · rw [hvalue]
      exact Collection.readsAs_newVersion hfit (by rw [LawfulEntity.id_withUpdate, hid])
        (LawfulEntity.update_withUpdate ..) stamps

lemma Step.effect (h : Step c x r t) (hf : ∀ e ∈ x.request.entity?, LawfulEntity.Fits e)
    (hgreatest : ∀ v ∈ x.issued c, ∀ id u w, x.before.tables.versions.get? ⟨c.table, id, u⟩ = some w →
      id < v ∧ u < v) : Effect c x r t := by
  cases r with
  | refused err =>
    cases h
    exact .refused err
  | written receipt =>
    obtain ⟨v, hasks, hreads, heq, hchosen⟩ := h.written hf
    refine .written hasks hreads (fun u w hget => ?_) heq
    rcases hchosen with ⟨_, _, hnone⟩ | hissued
    · exact nomatch (hnone u).symm.trans hget
    · exact (hgreatest v.update hissued v.id u w hget).2
  | deleted receipt =>
    cases h with
    | deleted hrequest hcurrent hdrop hvalue _ =>
      obtain rfl := MemoryTables.dropChain_ok hdrop
      exact .deleted hrequest (hvalue ▸ hcurrent) (MemoryTables.versions_deliver ..)

lemma DriftRun.effects (h : DriftRun c SameVersions start log s) (hs : start.Opened .empty) (ho : Orderly c log)
    (hf : EntitiesFit log) : ∀ x ∈ log, Effect c x (x.reply c) (x.after c).tables := by
  induction h with
  | start => exact fun _ hx => nomatch hx
  | @call log s tables h drifts clock request ih =>
    have hf' : EntitiesFit log := fun y hy => hf y (List.mem_cons_of_mem _ hy)
    intro y hy
    rcases List.mem_cons.1 hy with rfl | hy
    · exact (Call.step c _).effect (hf _ List.mem_cons_self)
        (h.stored_lt_issued (fun _ _ heq => .of_eq heq) hs drifts ho hf')
    · exact ih ho.of_cons hf' y hy

end Store

end Chronicle
