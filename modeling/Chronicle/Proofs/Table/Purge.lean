import Chronicle.Proofs.Table.Expiry

namespace Chronicle

namespace Layout

variable {κ α : Type} [Ord κ] {l : Layout κ α} {m : OrderedMap κ α} {b : ByteMap} {expiry : α → Option Int64}
  {now : Int64} {target : Key.ExpiryTarget}

def overdue (l : Layout κ α) (expiry : α → Option Int64) (target : Key.ExpiryTarget) (m : OrderedMap κ α)
    (now : Int64) : List Bytes :=
  (m.entries.filter fun row => expired now (expiry row.2)).map fun row =>
    Key.expiry ((expiry row.2).getD 0) target (l.key row.1)

lemma expired_iff {expires : Option Int64} : expired now expires = true ↔ ∃ e, expires = some e ∧ e ≤ now := by
  cases expires <;> simp [expired]

lemma length_overdue (l : Layout κ α) (expiry : α → Option Int64) (target : Key.ExpiryTarget) (m : OrderedMap κ α)
    (now : Int64) : (l.overdue expiry target m now).length + (m.filter fun _ a => !expired now (expiry a)).size =
      m.size := by
  rw [overdue, List.length_map, OrderedMap.size, OrderedMap.size, OrderedMap.entries_filter, ← List.length_append]
  exact (List.filter_append_perm (fun row => expired now (expiry row.2)) m.entries).length_eq

variable [Std.TransOrd κ] [Std.LawfulEqOrd κ]

lemma mem_overdue {bs : Bytes} : bs ∈ l.overdue expiry target m now ↔
    ∃ e key, l.Expires expiry m e key ∧ e ≤ now ∧ Key.expiry e target key = bs := by
  simp only [overdue, List.mem_map, List.mem_filter, expired_iff]
  constructor
  · rintro ⟨⟨k, a⟩, ⟨hmem, e, he, hle⟩, rfl⟩
    exact ⟨e, l.key k, ⟨k, a, OrderedMap.get?_eq_some_iff.2 hmem, he, rfl⟩, hle, by simp [he]⟩
  · rintro ⟨e, key, ⟨k, a, hget, he, rfl⟩, hle, rfl⟩
    exact ⟨(k, a), ⟨OrderedMap.get?_eq_some_iff.1 hget, e, he, hle⟩, by simp [he]⟩

lemma Represents.nodup_overdue (h : l.Represents m b) : (l.overdue expiry target m now).Nodup := by
  refine List.pairwise_map.2 ((m.ascending.filter _).imp_of_mem fun {row row'} hrow hrow' hlt heq => ?_)
  have hget := OrderedMap.get?_eq_some_iff.2 (List.mem_filter.1 hrow).1
  have hget' := OrderedMap.get?_eq_some_iff.2 (List.mem_filter.1 hrow').1
  have hkey := l.injective (h.valid _ _ hget) (h.valid _ _ hget') (Key.expiry_injective heq).2.2
  rw [hkey, (Std.ReflCmp.compare_self : compare row'.1 row'.1 = .eq)] at hlt
  cases hlt

end Layout

namespace KeyedTables

def due (b : KeyedTables) (now : Int64) : List Bytes := (b.expiries.before (Key.expiryBound now)).map (·.1)

def settled (bs : Bytes) : List Change := (stageExpiry bs).toOption.getD []

def settledDue (b : KeyedTables) (now : Int64) : List Change := ((b.due now).map settled).flatten

lemma settled_expiry (e : Int64) (target : Key.ExpiryTarget) (key : Bytes) : settled (Key.expiry e target key) =
    [.remove target.space key, .remove .expiries (Key.expiry e target key)] := by
  rw [settled, Key.stageExpiry_expiry]
  rfl

lemma nodup_due (b : KeyedTables) (now : Int64) : (b.due now).Nodup := by
  refine List.pairwise_map.2 ((OrderedMap.pairwise_scan ..).imp fun {row row'} hlt heq => ?_)
  rw [heq, (Std.ReflCmp.compare_self : compare row'.1 row'.1 = .eq)] at hlt
  cases hlt

namespace Announces

variable {b : KeyedTables} {now : Int64} {P : Int64 → Key.ExpiryTarget → Bytes → Prop} (h : Announces b.expiries P)
include h

lemma mem_due {bs : Bytes} : bs ∈ b.due now ↔
    ∃ e target key, P e target key ∧ Key.Due now e ∧ Key.expiry e target key = bs := by
  simp only [due, ByteMap.before, List.mem_map, OrderedMap.mem_scan, beq_iff_eq]
  constructor
  · rintro ⟨⟨bs, w⟩, ⟨hmem, hlt⟩, rfl⟩
    obtain ⟨_, e, target, key, hexpires, rfl⟩ := (h bs w).1 (OrderedMap.get?_eq_some_iff.2 hmem)
    exact ⟨e, target, key, hexpires, Key.compare_expiry_expiryBound.1 hlt, rfl⟩
  · rintro ⟨e, target, key, hexpires, hdue, rfl⟩
    have hget := (h _ []).2 ⟨rfl, e, target, key, hexpires, rfl⟩
    exact ⟨(Key.expiry e target key, []), ⟨OrderedMap.get?_eq_some_iff.1 hget,
      Key.compare_expiry_expiryBound.2 hdue⟩, rfl⟩

lemma purge_eq : Tables.purge b now = .ok ((b.due now).length, b.commit (b.settledDue now)) := by
  have hstaged : (b.due now).mapM stageExpiry = .ok ((b.due now).map settled) := by
    refine mapM_ok fun bs hbs => ?_
    obtain ⟨e, target, key, _, _, rfl⟩ := h.mem_due.1 hbs
    rw [settled_expiry, Key.stageExpiry_expiry]
  change (do let staged ← (b.due now).mapM stageExpiry; return ((b.due now).length, b.commit staged.flatten)) = _
  rw [hstaged]
  rfl

lemma mem_settledDue {c : Change} : c ∈ b.settledDue now ↔ ∃ e target key, P e target key ∧ Key.Due now e ∧
    (c = .remove target.space key ∨ c = .remove .expiries (Key.expiry e target key)) := by
  simp only [settledDue, List.mem_flatten, List.mem_map, h.mem_due]
  constructor
  · rintro ⟨_, ⟨_, ⟨e, target, key, hexpires, hdue, rfl⟩, rfl⟩, hc⟩
    rw [settled_expiry] at hc
    exact ⟨e, target, key, hexpires, hdue, by simpa using hc⟩
  · rintro ⟨e, target, key, hexpires, hdue, hc⟩
    refine ⟨settled (Key.expiry e target key), ⟨_, ⟨e, target, key, hexpires, hdue, rfl⟩, rfl⟩, ?_⟩
    rw [settled_expiry]
    simpa using hc

lemma space_settledDue (s : Space) : (b.commit (b.settledDue now)).space s =
    (b.space s).filter fun k _ => decide (.remove s k ∉ b.settledDue now) := by
  apply space_commit_removals
  intro c hc
  obtain ⟨e, target, key, _, _, rfl | rfl⟩ := h.mem_settledDue.1 hc
  · exact ⟨_, _, rfl⟩
  · exact ⟨_, _, rfl⟩

lemma counters_settledDue : (b.commit (b.settledDue now)).counters = b.counters := by
  change (b.commit (b.settledDue now)).space .counters = b.space .counters
  rw [h.space_settledDue]
  refine OrderedMap.ext (List.filter_eq_self.2 fun row _ => decide_eq_true fun hmem => ?_)
  obtain ⟨_, target, _, _, _, heq | heq⟩ := h.mem_settledDue.1 hmem
  · cases target <;> cases heq
  · cases heq

lemma remove_space_mem_iff {target : Key.ExpiryTarget} {key : Bytes} :
    .remove target.space key ∈ b.settledDue now ↔ ∃ e, P e target key ∧ Key.Due now e := by
  rw [h.mem_settledDue]
  constructor
  · rintro ⟨e, target', key', hexpires, hdue, heq | heq⟩
    · obtain ⟨hspace, rfl⟩ := Change.remove.inj heq
      obtain rfl := Key.ExpiryTarget.space_injective hspace
      exact ⟨e, hexpires, hdue⟩
    · exact absurd (Change.remove.inj heq).1 target.space_ne_expiries
  · rintro ⟨e, hexpires, hdue⟩
    exact ⟨e, target, key, hexpires, hdue, .inl rfl⟩

lemma remove_expiries_mem_iff {e : Int64} {target : Key.ExpiryTarget} {key : Bytes} (hexpires : P e target key) :
    .remove .expiries (Key.expiry e target key) ∈ b.settledDue now ↔ Key.Due now e := by
  rw [h.mem_settledDue]
  constructor
  · rintro ⟨e', target', key', _, hdue, heq | heq⟩
    · exact absurd (Change.remove.inj heq).1.symm target'.space_ne_expiries
    · obtain ⟨rfl, _⟩ := Key.expiry_injective (Change.remove.inj heq).2
      exact hdue
  · intro hdue
    exact ⟨e, target, key, hexpires, hdue, .inr rfl⟩

lemma settledDue : Announces (b.commit (b.settledDue now)).expiries fun e target key =>
    P e target key ∧ ¬ Key.Due now e := by
  intro bs w
  change ((b.commit (b.settledDue now)).space .expiries).get? bs = some w ↔ _
  rw [h.space_settledDue, OrderedMap.get?_filter, Option.filter_eq_some_iff]
  change b.expiries.get? bs = some w ∧ _ ↔ _
  rw [h bs w, and_assoc]
  refine and_congr_right fun _ => ?_
  constructor
  · rintro ⟨⟨e, target, key, hexpires, rfl⟩, hnot⟩
    rw [decide_eq_true_eq, h.remove_expiries_mem_iff hexpires] at hnot
    exact ⟨e, target, key, ⟨hexpires, hnot⟩, rfl⟩
  · rintro ⟨e, target, key, ⟨hexpires, hnot⟩, rfl⟩
    refine ⟨⟨e, target, key, hexpires, rfl⟩, ?_⟩
    rwa [decide_eq_true_eq, h.remove_expiries_mem_iff hexpires]

end Announces

end KeyedTables

namespace MemoryTables

open KeyedTables

variable {t : MemoryTables} {b : KeyedTables} {now : Int64}

lemma expires_dropExpired {e : Int64} {target : Key.ExpiryTarget} {key : Bytes} :
    (t.dropExpired now).Expires e target key ↔ t.Expires e target key ∧ ¬ e ≤ now := by
  cases target
  · exact Layout.expires_filter_expired
  · exact Layout.expires_filter_expired

namespace Announced

variable (h : t.Announced b.expiries) (hnow : now < Int64.maxValue)
include h hnow

lemma dropExpired : (t.dropExpired now).Announced (b.commit (b.settledDue now)).expiries := by
  refine (Announces.settledDue h).congr fun e target key => ?_
  rw [expires_dropExpired, Key.due_iff hnow]

lemma represents_filter {κ α : Type} [Ord κ] [Std.TransOrd κ] [Std.LawfulEqOrd κ] {l : Layout κ α} {m : OrderedMap κ α}
    {expiry : α → Option Int64} (target : Key.ExpiryTarget) (hm : l.Represents m (b.space target.space))
    (hrows : ∀ e key, t.Expires e target key ↔ l.Expires expiry m e key) :
    l.Represents (m.filter fun _ a => !expired now (expiry a)) ((b.commit (b.settledDue now)).space target.space) := by
  rw [Announces.space_settledDue h]
  refine hm.filter fun k a hget => ?_
  rw [Bool.eq_iff_iff, decide_eq_true_eq, Bool.not_eq_true', ← Bool.not_eq_true, Layout.expired_iff]
  refine not_congr ((Announces.remove_space_mem_iff h).trans (exists_congr fun e => ?_))
  rw [hrows, Key.due_iff hnow, hm.expires_key_iff hget]

lemma mirrors_dropExpired (hm : Mirrors t b) : Mirrors (t.dropExpired now) (b.commit (b.settledDue now)) where
  versions := h.represents_filter hnow .version hm.versions fun _ _ => Iff.rfl
  indexes := h.represents_filter hnow .index hm.indexes fun _ _ => Iff.rfl
  counters := by
    rw [Announces.counters_settledDue h]
    exact hm.counters
  fits k v hget := by
    rw [MemoryTables.dropExpired, OrderedMap.get?_filter, Option.filter_eq_some_iff] at hget
    exact hm.fits k v hget.1

lemma length_due (hm : Mirrors t b) : (b.due now).length = t.rowCount - (t.dropExpired now).rowCount := by
  have hperm : (b.due now).Perm (Layout.versions.overdue StoredVersion.expires .version t.versions now ++
      Layout.indexes.overdue IndexCell.expires .index t.indexes now) := by
    refine (List.perm_ext_iff_of_nodup (b.nodup_due now) ?_).2 fun bs => ?_
    · refine List.nodup_append.2 ⟨hm.versions.nodup_overdue, hm.indexes.nodup_overdue, ?_⟩
      rintro bs hv _ hi rfl
      obtain ⟨_, _, _, _, heq⟩ := Layout.mem_overdue.1 hv
      obtain ⟨_, _, _, _, rfl⟩ := Layout.mem_overdue.1 hi
      cases (Key.expiry_injective heq).2.1
    · rw [Announces.mem_due h, List.mem_append, Layout.mem_overdue, Layout.mem_overdue]
      simp only [Key.due_iff hnow]
      constructor
      · rintro ⟨e, target, key, hexpires, hle, rfl⟩
        cases target with
        | version => exact .inl ⟨e, key, hexpires, hle, rfl⟩
        | index => exact .inr ⟨e, key, hexpires, hle, rfl⟩
      · rintro (⟨e, key, hexpires, hle, rfl⟩ | ⟨e, key, hexpires, hle, rfl⟩)
        · exact ⟨e, .version, key, hexpires, hle, rfl⟩
        · exact ⟨e, .index, key, hexpires, hle, rfl⟩
  have hv := Layout.length_overdue Layout.versions StoredVersion.expires .version t.versions now
  have hi := Layout.length_overdue Layout.indexes IndexCell.expires .index t.indexes now
  have hlength := hperm.length_eq
  rw [List.length_append] at hlength
  simp only [rowCount, MemoryTables.dropExpired]
  omega

end Announced

end MemoryTables

end Chronicle
