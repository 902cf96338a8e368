import Chronicle.Proofs.Store.Chains
import Chronicle.Proofs.Store.Agreement

namespace Chronicle

open MemoryTables

namespace Collection

variable {ε : Type} [Entity ε] {c : Collection ε} {t : MemoryTables} {e : ε} {id id' u : Identifier} {stamps : Stamps}
  {k : NamedKey Identifier}

def created (c : Collection ε) (t : MemoryTables) (e : ε) (id : Identifier) (stamps : Stamps) : MemoryTables :=
  (c.createPlan e id stamps).indexWrites.foldl write (t.put c.table (c.newVersion e id id stamps))

def updated (c : Collection ε) (t : MemoryTables) (previous : Option ε) (e : ε) (id u : Identifier) (stamps : Stamps) :
    MemoryTables :=
  (c.updatePlan previous e id u stamps).indexWrites.foldl write (t.put c.table (c.newVersion e id u stamps))

def deleted (c : Collection ε) (t : MemoryTables) (current : Option ε) (id : Identifier) : MemoryTables :=
  (deletePlan current id).indexWrites.foldl write (t.dropChain c.table id)

def keys (attrs : List Attribute) (id u : Identifier) : List (NamedKey Identifier) :=
  (attrs.map fun a => a.entry id u).map IndexEntry.key

lemma mem_keys {attrs : List Attribute} : k ∈ keys attrs id u ↔ ∃ a ∈ attrs, (a.entry id u).key = k := by
  simp [keys]

def outdated (previous : Option ε) (e : ε) (id u : Identifier) : List (NamedKey Identifier) :=
  ((previousEntries id previous).filter fun entry => entry ∉ entityEntries (Entity.attributes e) id u).map
    IndexEntry.key

lemma get?_foldl_entries (attrs : List Attribute) (expires : Option Int64) :
    ((attrs.map fun a => .insert (a.entry id u) expires).foldl write t).indexes.get? k =
      if k ∈ keys attrs id u then some ⟨id, expires⟩ else t.indexes.get? k := by
  have hmap : (attrs.map fun a => .insert (a.entry id u) expires) =
      (attrs.map fun a => a.entry id u).map fun e => IndexWrite.insert e expires := by simp
  rw [hmap]
  exact get?_foldl_insert _ expires (by intro e he; obtain ⟨a, _, rfl⟩ := List.mem_map.1 he; rfl) k

lemma get?_created :
    (c.created t e id stamps).indexes.get? k =
      if k ∈ keys (Entity.attributes e) id id then some ⟨id, c.expiresAt stamps.rows⟩ else t.indexes.get? k := by
  rw [created, createPlan, WritePlan.indexWrites, List.append_nil, List.foldl_append, indexes_foldl_increment,
    get?_foldl_entries]
  rfl

lemma get?_updated {previous : Option ε} :
    (c.updated t previous e id u stamps).indexes.get? k =
      if k ∈ outdated previous e id u then none
      else if k ∈ keys ((Entity.attributes e).filter fun a =>
          a.scope = .version ∨ a.entry id u ∉ previousEntries id previous) id u then some ⟨id, c.expiresAt stamps.rows⟩
      else t.indexes.get? k := by
  rw [updated, updatePlan, WritePlan.indexWrites, List.append_nil, List.foldl_append, get?_foldl_retract,
    get?_foldl_entries]
  rfl

lemma get?_deleted (current : Option ε) :
    (c.deleted t current id).indexes.get? k =
      if ∃ e ∈ current, k ∈ keys (Entity.attributes e) id ((Entity.update e).getD id) then none
      else t.indexes.get? k := by
  cases current with
  | none => simp [deleted, deletePlan, WritePlan.indexWrites, dropChain]
  | some e =>
    have h := get?_foldl_retract (t := t.dropChain c.table id)
      ((Entity.attributes e).map fun a => a.entry id ((Entity.update e).getD id)) k
    simpa [deleted, deletePlan, WritePlan.indexWrites, keys, dropChain, Function.comp_def] using h

lemma versions_created : (c.created t e id stamps).versions = (t.put c.table (c.newVersion e id id stamps)).versions :=
  versions_foldl_write _

lemma versions_updated {previous : Option ε} :
    (c.updated t previous e id u stamps).versions = (t.put c.table (c.newVersion e id u stamps)).versions :=
  versions_foldl_write _

lemma versions_deleted {current : Option ε} : (c.deleted t current id).versions = (t.dropChain c.table id).versions :=
  versions_foldl_write _

lemma current_created_of_ne (h : id ≠ id') : c.current (c.created t e id stamps) id' = c.current t id' := by
  rw [current_congr versions_created, current_put_of_ne (v := c.newVersion e id id stamps) h]

lemma current_updated_of_ne {previous : Option ε} (h : id ≠ id') :
    c.current (c.updated t previous e id u stamps) id' = c.current t id' := by
  rw [current_congr versions_updated, current_put_of_ne (v := c.newVersion e id u stamps) h]

lemma current_deleted_self {current : Option ε} : c.current (c.deleted t current id) id = .ok none := by
  rw [current_congr versions_deleted, current_dropChain_self]

lemma current_deleted_of_ne {current : Option ε} (h : id ≠ id') :
    c.current (c.deleted t current id) id' = c.current t id' := by
  rw [current_congr versions_deleted, current_dropChain_of_ne h]

variable [LawfulEntity ε]

lemma decode_newVersion (hf : LawfulEntity.Fits e) (id u : Identifier) (stamps : Stamps) :
    c.decode (c.newVersion e id u stamps) = .ok e := by
  rw [decode, newVersion, LawfulEntity.readsBack_codec.read? hf]

lemma current_created_self (hf : LawfulEntity.Fits e) (h : ∀ u, t.versions.get? ⟨c.table, id, u⟩ = none) :
    c.current (c.created t e id stamps) id = .ok (some e) := by
  rw [current_congr versions_created]
  refine current_put_self (v := c.newVersion e id id stamps) (fun u w hw => ?_) (decode_newVersion hf ..)
  rw [newVersion, h u] at hw
  cases hw

lemma current_updated_self {previous : Option ε} (hf : LawfulEntity.Fits e)
    (h : ∀ w v, t.versions.get? ⟨c.table, id, w⟩ = some v → w < u) :
    c.current (c.updated t previous e id u stamps) id = .ok (some e) := by
  rw [current_congr versions_updated]
  exact current_put_self (v := c.newVersion e id u stamps) h (decode_newVersion hf ..)

end Collection

namespace Store

variable {ε γ : Type} [Entity ε] [Clock γ] {c : Collection ε} {start s : Store MemoryTables γ}
  {log : List (Call ε MemoryTables γ)} {x : Call ε MemoryTables γ}

inductive Settled (c : Collection ε) (x : Call ε MemoryTables γ) : MemoryTables → Prop where
  | idle : Settled c x x.before.tables
  | created {e : ε} {id : Identifier} {stamps : Stamps} (request_eq : x.request = .create e)
      (chosen : Entity.id e = some id ∨ x.issued c = some id)
      (absent : ∀ u, x.before.tables.versions.get? ⟨c.table, id, u⟩ = none)
      (free : c.refuseTaken x.before.tables id (Entity.attributes (Entity.stamp e id id)) = .ok ())
      (stamps_eq : stamps = x.stamps c)
      (reply_eq : ∃ receipt, x.reply c = .written receipt ∧ receipt.value = Entity.stamp e id id) :
      Settled c x (c.created x.before.tables (Entity.stamp e id id) id stamps)
  | updated {e : ε} {id u : Identifier} {previous : Option ε} {stamps : Stamps} (request_eq : x.request = .update e)
      (id_eq : Entity.id e = some id) (current_eq : c.current x.before.tables id = .ok previous)
      (issued_eq : x.issued c = some u)
      (greatest : ∀ id' w v, x.before.tables.versions.get? ⟨c.table, id', w⟩ = some v → w < u)
      (free : c.refuseTaken x.before.tables id (Entity.attributes (Entity.withUpdate e u)) = .ok ())
      (stamps_eq : stamps = x.stamps c)
      (reply_eq : ∃ receipt, x.reply c = .written receipt ∧ receipt.value = Entity.withUpdate e u) :
      Settled c x (c.updated x.before.tables previous (Entity.withUpdate e u) id u stamps)
  | deleted {id : Identifier} {current : Option ε} (request_eq : x.request = .delete id)
      (current_eq : c.current x.before.tables id = .ok current)
      (reply_eq : ∃ receipt, x.reply c = .deleted receipt) :
      Settled c x (c.deleted x.before.tables current id)

lemma Step.settled {t : MemoryTables} (h : Step c x (x.reply c) t)
    (hcomplete : ∀ report ∈ (x.reply c).report?, report.isComplete)
    (hgreatest : ∀ v ∈ x.issued c, ∀ id u w, x.before.tables.versions.get? ⟨c.table, id, u⟩ = some w →
      id < v ∧ u < v) : Settled c x t := by
  generalize hr : x.reply c = r at h hcomplete
  cases h with
  | refused err => exact .idle
  | @created e id stamps tables receipt hreq hchosen hfree hput hvalue hreport hstamps =>
    obtain rfl := put_ok hput
    rw [deliver_of_isComplete Collection.agrees_createPlan (hreport ▸ hcomplete _ rfl)]
    refine .created hreq (hchosen.imp_left And.left) (fun u => ?_) hfree hstamps ⟨receipt, hr, hvalue⟩
    rcases hchosen with ⟨_, hlatest⟩ | hissued
    · exact get?_of_latest?_none hlatest u
    · cases hget : x.before.tables.versions.get? ⟨c.table, id, u⟩ with
      | none => rfl
      | some w => exact absurd (hgreatest id hissued id u w hget).1 Int64.lt_irrefl
  | @updated e id u previous stamps tables receipt hreq hid hcurrent hissued hfree hput hvalue hreport hstamps =>
    obtain rfl := put_ok hput
    have hu : ∀ p ∈ previous, u ≠ id := fun p hp => by
      obtain ⟨w, v, hget⟩ := Collection.exists_version_of_current (hcurrent.trans (congrArg Except.ok hp))
      exact fun heq => absurd (hgreatest u hissued id w v hget).1 (heq ▸ Int64.lt_irrefl)
    rw [deliver_of_isComplete (Collection.agrees_updatePlan hu) (hreport ▸ hcomplete _ rfl)]
    exact .updated hreq hid hcurrent hissued (fun id' w v hget => (hgreatest u hissued id' w v hget).2) hfree hstamps
      ⟨receipt, hr, hvalue⟩
  | @deleted id current n tables receipt hreq hcurrent hdrop _ hreport =>
    obtain rfl := dropChain_ok hdrop
    rw [deliver_of_isComplete (Collection.agrees_deletePlan current) (hreport ▸ hcomplete _ rfl)]
    exact .deleted hreq hcurrent ⟨receipt, hr⟩

variable [LawfulEntity ε]

lemma DriftRun.settled {Drift : MemoryTables → MemoryTables → Prop}
    (hdrift : ∀ t t', Drift t t' → Collection.VersionsWithin t' t) (h : DriftRun c Drift start log s)
    (hs : start.Opened .empty) {tables : MemoryTables} (drifts : Drift s.tables tables) {clock : γ}
    {request : Request ε} (ho : Orderly c (⟨{ s with clock, tables }, request⟩ :: log))
    (hc : AllComplete c (⟨{ s with clock, tables }, request⟩ :: log)) (hf : EntitiesFit log) :
    Settled c ⟨{ s with clock, tables }, request⟩ (Call.after c ⟨{ s with clock, tables }, request⟩).tables :=
  (Call.step c _).settled (hc _ List.mem_cons_self) (h.stored_lt_issued hdrift hs drifts ho hf)

lemma Run.settled (h : Run c start log s) (hs : start.Opened .empty) {clock : γ} {request : Request ε}
    (ho : Orderly c (⟨{ s with clock }, request⟩ :: log))
    (hc : AllComplete c (⟨{ s with clock }, request⟩ :: log)) (hf : EntitiesFit log) :
    Settled c ⟨{ s with clock }, request⟩ (Call.after c ⟨{ s with clock }, request⟩).tables :=
  h.drift.settled (fun _ _ (heq : _ = _) => .of_eq (congrArg _ heq.symm)) hs rfl ho hc hf

end Store

end Chronicle
