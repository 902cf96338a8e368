import Chronicle.Proofs.Table.Writes

namespace Chronicle

namespace Key

lemma ExpiryTarget.eq_of_tag_eq {target target' : ExpiryTarget} (h : target.tag = target'.tag) : target = target' := by
  cases target <;> cases target' <;> first | rfl | exact absurd h (by decide)

variable {e e' : Int64} {target target' : ExpiryTarget} {key key' : Bytes}

lemma expiry_injective (h : expiry e target key = expiry e' target' key') : e = e' ∧ target = target' ∧ key = key' := by
  obtain ⟨he, hrest⟩ := List.append_inj h (by simp)
  obtain ⟨htag, hkey⟩ := List.cons.inj hrest
  exact ⟨ordered_injective he, ExpiryTarget.eq_of_tag_eq htag, hkey⟩

lemma splitExpiry_append (e : Int64) (tag : UInt8) (key : Bytes) : splitExpiry (ordered e ++ tag :: key) =
    if tag = ExpiryTarget.version.tag then .ok (e, .version, key)
    else if tag = ExpiryTarget.index.tag then .ok (e, .index, key)
    else .error (.storage .unknownExpiryTarget) := by
  rw [splitExpiry, List.drop_left' (length_ordered e), List.take_left' (length_ordered e)]
  simp only [readOrdered_ordered]

lemma splitExpiry_expiry (e : Int64) (target : ExpiryTarget) (key : Bytes) :
    splitExpiry (expiry e target key) = .ok (e, target, key) := by
  rw [expiry, splitExpiry_append]
  cases target <;> rfl

/-- Whether an announced expiry is due. The last millisecond has no next one, so what expires then never is. -/
def Due (now e : Int64) : Prop := e ≤ now ∧ e < Int64.maxValue

lemma due_iff {now : Int64} (h : now < Int64.maxValue) : Due now e ↔ e ≤ now := by
  refine and_iff_left_of_imp fun hle => ?_
  rw [Int64.lt_iff_toInt_lt] at h ⊢
  rw [Int64.le_iff_toInt_le] at hle
  omega

lemma toInt_add_one (now : Int64) :
    (Saturating.add now 1).toInt = min (now.toInt + 1) Int64.maxValue.toInt := by
  have hlow := now.le_toInt
  have hmin := Int64.toInt_minValue
  have hmax := Int64.toInt_maxValue
  rw [Saturating.add, Saturating.toInt_int64, Int64.toInt_one]
  omega

lemma compare_expiry_expiryBound {now : Int64} :
    compare (expiry e target key) (expiryBound now) = .lt ↔ Due now e := by
  have hcompare : compare (expiry e target key) (expiryBound now) =
      (compare (ordered e) (ordered (Saturating.add now 1))).then (compare (target.tag :: key) []) := by
    have happend := Bytes.compare_append_of_length_eq (x := ordered e) (y := ordered (Saturating.add now 1)) (by simp)
      (target.tag :: key) []
    rwa [List.append_nil] at happend
  have hcons : compare (target.tag :: key) [] = .gt := rfl
  rw [hcompare, compare_ordered, hcons, Ordering.then_eq_lt, Std.compare_eq_lt, Due, Int64.lt_iff_toInt_lt,
    Int64.lt_iff_toInt_lt, Int64.le_iff_toInt_le, toInt_add_one]
  simp only [reduceCtorEq, and_false, or_false]
  omega

def ExpiryTarget.space : ExpiryTarget → KeyedTables.Space
  | version => .versions
  | index => .indexes

lemma ExpiryTarget.space_ne_expiries (target : ExpiryTarget) : target.space ≠ .expiries := by
  cases target <;> decide

lemma ExpiryTarget.space_injective (h : target.space = target'.space) : target = target' := by
  cases target <;> cases target' <;> first | rfl | exact absurd h (by decide)

lemma stageExpiry_expiry (e : Int64) (target : ExpiryTarget) (key : Bytes) :
    KeyedTables.stageExpiry (expiry e target key) =
      .ok [.remove target.space key, .remove .expiries (expiry e target key)] := by
  rw [KeyedTables.stageExpiry, splitExpiry_expiry]
  cases target <;> rfl

end Key

namespace Layout

variable {κ α : Type} [Ord κ] {l : Layout κ α} {m : OrderedMap κ α} {b : ByteMap} {k : κ} {a : α}
  {expiry : α → Option Int64} {e : Int64} {key : Bytes}

def Expires (l : Layout κ α) (expiry : α → Option Int64) (m : OrderedMap κ α) (e : Int64) (key : Bytes) : Prop :=
  ∃ k a, m.get? k = some a ∧ expiry a = some e ∧ l.key k = key

lemma Represents.expires_key_iff (h : l.Represents m b) (hget : m.get? k = some a) :
    l.Expires expiry m e (l.key k) ↔ expiry a = some e := by
  constructor
  · rintro ⟨k', a', hget', he, hkey⟩
    obtain rfl := l.injective (h.valid k' a' hget') (h.valid k a hget) hkey
    obtain rfl := Option.some.inj (hget'.symm.trans hget)
    exact he
  · intro he
    exact ⟨k, a, hget, he, rfl⟩

variable [Std.TransOrd κ] [Std.LawfulEqOrd κ]

lemma expires_filter {p : κ → α → Bool} (h : ∀ k a, m.get? k = some a → p k a = false → expiry a = none) :
    l.Expires expiry (m.filter p) e key ↔ l.Expires expiry m e key := by
  refine exists_congr fun k => exists_congr fun a => ?_
  rw [OrderedMap.get?_filter, Option.filter_eq_some_iff]
  constructor
  · rintro ⟨⟨hget, _⟩, he, hkey⟩
    exact ⟨hget, he, hkey⟩
  · rintro ⟨hget, he, hkey⟩
    refine ⟨⟨hget, ?_⟩, he, hkey⟩
    rw [← Bool.not_eq_false]
    intro hp
    rw [h k a hget hp] at he
    cases he

lemma expires_filter_expired {now : Int64} :
    l.Expires expiry (m.filter fun _ a => !expired now (expiry a)) e key ↔ l.Expires expiry m e key ∧ ¬ e ≤ now := by
  simp only [Expires, ← exists_and_right]
  refine exists_congr fun k => exists_congr fun a => ?_
  rw [OrderedMap.get?_filter, Option.filter_eq_some_iff]
  constructor
  · rintro ⟨⟨hget, hnot⟩, he, hkey⟩
    exact ⟨⟨hget, he, hkey⟩, by simpa [he, expired] using hnot⟩
  · rintro ⟨⟨hget, he, hkey⟩, hnot⟩
    exact ⟨⟨hget, by simpa [he, expired] using hnot⟩, he, hkey⟩

lemma expires_erase (h : ∀ a, m.get? k = some a → expiry a = none) :
    l.Expires expiry (m.erase k) e key ↔ l.Expires expiry m e key := by
  refine expires_filter fun k' a hget hk' => h a ?_
  have hcompare : compare k' k = .eq := by simpa using hk'
  rwa [← Std.LawfulEqOrd.eq_of_compare hcompare]

variable [DecidableEq κ]

lemma expires_insert (h : ∀ a, m.get? k = some a → expiry a = none) :
    l.Expires expiry (m.insert k a) e key ↔ l.Expires expiry m e key ∨ expiry a = some e ∧ l.key k = key := by
  constructor
  · rintro ⟨k', a', hget, he, hkey⟩
    rw [OrderedMap.get?_insert] at hget
    split at hget
    · next heq =>
      rw [← Option.some.inj hget] at he
      exact .inr ⟨he, heq ▸ hkey⟩
    · exact .inl ⟨k', a', hget, he, hkey⟩
  · rintro (⟨k', a', hget, he, hkey⟩ | ⟨he, hkey⟩)
    · refine ⟨k', a', ?_, he, hkey⟩
      rw [OrderedMap.get?_insert, if_neg, hget]
      rintro rfl
      rw [h a' hget] at he
      cases he
    · exact ⟨k, a, by rw [OrderedMap.get?_insert, if_pos rfl], he, hkey⟩

end Layout

namespace KeyedTables

variable {m : ByteMap} {P P' : Int64 → Key.ExpiryTarget → Bytes → Prop}

def Announces (m : ByteMap) (P : Int64 → Key.ExpiryTarget → Bytes → Prop) : Prop :=
  ∀ bs w, m.get? bs = some w ↔ w = [] ∧ ∃ e target key, P e target key ∧ Key.expiry e target key = bs

lemma Announces.empty : Announces ∅ fun _ _ _ => False := fun _ _ => ⟨nofun, fun ⟨_, _, _, _, h, _⟩ => h.elim⟩

lemma Announces.congr (h : Announces m P) (hrows : ∀ e target key, P' e target key ↔ P e target key) :
    Announces m P' := by
  intro bs w
  simp only [hrows]
  exact h bs w

lemma Announces.announced (h : Announces m P) {expires : Option Int64} {target : Key.ExpiryTarget} {key : Bytes}
    (hrows : ∀ e target' key', P' e target' key' ↔
      P e target' key' ∨ expires = some e ∧ target = target' ∧ key = key') :
    Announces (announced m expires target key) P' := by
  cases expires with
  | none => exact h.congr fun e target' key' => by simp [hrows]
  | some x =>
    intro bs w
    rw [KeyedTables.announced, OrderedMap.get?_insert]
    simp only [hrows, Option.some.injEq]
    split
    · next hbs =>
      rw [Option.some.injEq, eq_comm, and_iff_left ⟨x, target, key, .inr ⟨rfl, rfl, rfl⟩, hbs.symm⟩]
    · next hbs =>
      rw [h]
      refine and_congr_right fun _ => exists_congr fun e => exists_congr fun target' => exists_congr fun key' => ?_
      refine and_congr_left fun hkey => ⟨.inl, fun hor => hor.resolve_right ?_⟩
      rintro ⟨rfl, rfl, rfl⟩
      exact hbs hkey.symm

end KeyedTables

namespace MemoryTables

open KeyedTables

variable {t t' : MemoryTables} {b : KeyedTables} {m : ByteMap} {table : String} {id : Identifier} {v : StoredVersion}
  {w : IndexWrite} {ws : List IndexWrite}

def Expires (t : MemoryTables) (e : Int64) : Key.ExpiryTarget → Bytes → Prop
  | .version => Layout.versions.Expires StoredVersion.expires t.versions e
  | .index => Layout.indexes.Expires IndexCell.expires t.indexes e

def Announced (t : MemoryTables) (m : ByteMap) : Prop :=
  ∀ bs w, m.get? bs = some w ↔ w = [] ∧ ∃ e target key, t.Expires e target key ∧ Key.expiry e target key = bs

lemma announced_empty : Announced .empty ∅ := by
  refine Announces.empty.congr fun e target key => ?_
  cases target with
  | version => exact ⟨fun ⟨_, _, hget, _⟩ => (nomatch hget), False.elim⟩
  | index => exact ⟨fun ⟨_, _, hget, _⟩ => (nomatch hget), False.elim⟩

lemma Announced.put (h : t.Announced b.expiries)
    (hspares : ∀ old, t.versions.get? ⟨table, v.id, v.update⟩ = some old → old.expires = none) :
    (t.put table v).Announced (b.commit (stageVersion table v)).expiries := by
  rw [commit_stageVersion]
  refine Announces.announced h fun e target key => ?_
  cases target with
  | version => exact (Layout.expires_insert hspares).trans (or_congr Iff.rfl (by simp))
  | index => simp [Expires, MemoryTables.put]

lemma Announced.dropChain (h : t.Announced b.expiries) (hspares : ∀ v ∈ t.chain table id, v.expires = none) :
    (t.dropChain table id).Announced (b.commit (Mirrors.droppedChain b table id)).expiries := by
  change Announced _ ((b.commit (Mirrors.droppedChain b table id)).space .expiries)
  rw [Mirrors.space_droppedChain_of_ne (by decide)]
  refine Announces.congr h fun e target key => ?_
  cases target with
  | version =>
    refine Layout.expires_filter fun k v hget hk => hspares v (mem_chain.2 ⟨k.update, ?_⟩)
    obtain ⟨rfl, rfl⟩ : k.table = table ∧ k.id = id := by simpa using hk
    exact hget
  | index => rfl

end MemoryTables

namespace IndexWrite

def Spares (t : MemoryTables) : IndexWrite → Prop
  | .insert entry _ => ∀ cell ∈ t.indexes.get? entry.key, cell.expires = none
  | .retract entry => ∀ cell ∈ t.indexes.get? entry.key, cell.expires = none
  | .increment _ => True

def SpareEach (t : MemoryTables) : List IndexWrite → Prop
  | [] => True
  | w :: ws => w.Spares t ∧ SpareEach (t.write w) ws

instance (t : MemoryTables) : (w : IndexWrite) → Decidable (w.Spares t)
  | .insert entry _ => inferInstanceAs (Decidable (∀ cell ∈ t.indexes.get? entry.key, cell.expires = none))
  | .retract entry => inferInstanceAs (Decidable (∀ cell ∈ t.indexes.get? entry.key, cell.expires = none))
  | .increment _ => inferInstanceAs (Decidable True)

instance decidableSpareEach (t : MemoryTables) : (ws : List IndexWrite) → Decidable (SpareEach t ws)
  | [] => inferInstanceAs (Decidable True)
  | w :: ws =>
    have := decidableSpareEach (t.write w) ws
    inferInstanceAs (Decidable (w.Spares t ∧ SpareEach (t.write w) ws))

variable {t t' : MemoryTables} {w : IndexWrite} {ws : List IndexWrite}

lemma indexes_write_congr (h : t.indexes = t'.indexes) (w : IndexWrite) :
    (t.write w).indexes = (t'.write w).indexes := by
  cases w <;> simp only [MemoryTables.write, h]

lemma spares_congr (h : t.indexes = t'.indexes) : w.Spares t ↔ w.Spares t' := by
  cases w <;> simp only [Spares, h]

lemma spareEach_congr (h : t.indexes = t'.indexes) : SpareEach t ws ↔ SpareEach t' ws := by
  induction ws generalizing t t' with
  | nil => rfl
  | cons w ws ih => exact and_congr (spares_congr h) (ih (indexes_write_congr h w))

lemma spareEach_filter : SpareEach t (ws.filter KeyedTables.touchesIndex) ↔ SpareEach t ws := by
  induction ws generalizing t with
  | nil => rfl
  | cons w ws ih =>
    cases w with
    | increment inc =>
      refine ih.trans ?_
      rw [SpareEach, Spares, true_and]
      exact spareEach_congr rfl
    | _ => exact and_congr_right fun _ => ih

end IndexWrite

namespace MemoryTables

open KeyedTables

variable {t start : MemoryTables} {b : KeyedTables} {w : IndexWrite} {ws : List IndexWrite}

lemma Announced.write (h : t.Announced b.expiries) (hw : w.Spares t) :
    (t.write w).Announced (b.commit (stagedWrite start w)).expiries := by
  cases w with
  | insert entry expires =>
    rw [commit_staged_insert]
    refine Announces.announced h fun e target key => ?_
    cases target with
    | version => simp [Expires, MemoryTables.write]
    | index => exact (Layout.expires_insert hw).trans (or_congr Iff.rfl (by simp))
  | retract entry =>
    refine Announces.congr h fun e target key => ?_
    cases target with
    | version => rfl
    | index => exact Layout.expires_erase hw
  | increment inc => exact Announces.congr h fun e target key => by cases target <;> rfl

lemma Announced.foldl_write (h : t.Announced b.expiries) (hws : IndexWrite.SpareEach t ws) :
    (ws.foldl MemoryTables.write t).Announced (b.commit (ws.flatMap (stagedWrite start))).expiries := by
  induction ws generalizing t b with
  | nil => exact h
  | cons w ws ih =>
    rw [List.flatMap_cons, commit, List.foldl_append]
    exact ih (h.write hws.1) hws.2

lemma Announced.writeTogether (h : t.Announced b.expiries) (hws : IndexWrite.SpareEach t ws) :
    (ws.foldl MemoryTables.write t).Announced (b.commit (Mirrors.stagedBatch t ws)).expiries := by
  rw [← (gatherIncrements_spec ws).2 MemoryTables.addsUp_write]
  apply h.foldl_write
  rwa [← IndexWrite.spareEach_filter, filter_gatherIncrements, IndexWrite.spareEach_filter]

end MemoryTables

end Chronicle
