import Chronicle.Proofs.Table.Announcements
import Chronicle.Proofs.Table.Origins

/-! No row of keyed tables outlives a purge at which it has expired. -/

namespace Chronicle

namespace KeyedTables

variable {key bs : Bytes} {target : Key.ExpiryTarget}

def storedExpiry : Key.ExpiryTarget → Bytes → Except Error (Option Int64)
  | .version, bs => (readVersion bs).map StoredVersion.expires
  | .index, bs => (Codec.readStored Codec.indexCell bs).map IndexCell.expires

def Tells (P : Int64 → Key.ExpiryTarget → Bytes → Prop) (target : Key.ExpiryTarget) (key bs : Bytes) : Prop :=
  ∃ expires, storedExpiry target bs = .ok expires ∧ ∀ e ∈ expires, P e target key

lemma Tells.imp {P P' : Int64 → Key.ExpiryTarget → Bytes → Prop} (h : Tells P target key bs)
    (himp : ∀ e, P e target key → P' e target key) : Tells P' target key bs := by
  obtain ⟨expires, hexpires, hP⟩ := h
  exact ⟨expires, hexpires, fun e he => himp e (hP e he)⟩

end KeyedTables

namespace TableCall

open KeyedTables

variable {b : KeyedTables} {key bs : Bytes} {target : Key.ExpiryTarget} {c : TableCall}

lemma stamps_of_mem_indexWrites {w : IndexWrite} {e : Int64} (hmem : w ∈ c.indexWrites) (hw : w.Stamps e target key) :
    c.Stamps e target key := by
  cases c with
  | write w' => exact List.mem_singleton.1 hmem ▸ hw
  | writeTogether ws => exact ⟨w, hmem, hw⟩
  | _ => cases hmem

lemma tells_of_puts (hf : c.Fits) (h : c.Puts target.space key bs) : Tells c.Stamps target key bs := by
  cases target with
  | version =>
    change c.Puts .versions key bs at h
    cases h with
    | @version table v _ =>
      exact ⟨v.expires, by rw [storedExpiry, Mirrors.readVersion_encode hf]; rfl, fun e he => ⟨he, rfl, rfl⟩⟩
  | index =>
    change c.Puts .indexes key bs at h
    cases h with
    | @entry _ e expires hmem _ =>
      refine ⟨expires, ?_, fun e he => stamps_of_mem_indexWrites hmem ⟨he, rfl, rfl⟩⟩
      rw [storedExpiry, Codec.readStored, Codec.readsBack_indexCell.read? trivial]
      rfl

lemma row_of_purge {P : Int64 → Key.ExpiryTarget → Bytes → Prop} (hb : Announces b.expiries P) {now : Int64}
    (h : ((b.commit (b.settledDue now)).space target.space).get? key = some bs) :
    (b.space target.space).get? key = some bs ∧ ∀ e, P e target key → ¬ Key.Due now e := by
  rw [hb.space_settledDue, OrderedMap.get?_filter, Option.filter_eq_some_iff] at h
  refine ⟨h.1, fun e he hdue => of_decide_eq_true h.2 (hb.remove_space_mem_iff.2 ⟨e, he, hdue⟩)⟩

def Accounted (b : KeyedTables) (P : Int64 → Key.ExpiryTarget → Bytes → Prop) : Prop :=
  ∀ target key bs, (b.space target.space).get? key = some bs → Tells P target key bs

lemma accounted_after {P : Int64 → Key.ExpiryTarget → Bytes → Prop} (hb : Announces b.expiries P)
    (h : Accounted b P) (hf : c.Fits) : Accounted (c.after b) (c.Leaves b P) := by
  intro target key bs hrow
  by_cases hpurge : ∃ now, c = .purge now
  · obtain ⟨now, rfl⟩ := hpurge
    rw [TableCall.after, TableCall.perform, hb.purge_eq] at hrow
    obtain ⟨hrow, hdue⟩ := row_of_purge hb hrow
    refine (h target key bs hrow).imp fun e he => ⟨.inl he, ?_⟩
    rintro now' heq
    obtain rfl := TableCall.purge.inj heq
    exact hdue e he
  · have hpurge (now : Int64) : c ≠ .purge now := fun hc => hpurge ⟨now, hc⟩
    rcases row_of_after target.space_ne_expiries hrow with hrow | ⟨hok, hputs⟩
    · exact (h target key bs hrow).imp fun e he => ⟨.inl he, fun now hc => absurd hc (hpurge now)⟩
    · exact (tells_of_puts hf hputs).imp fun e he => ⟨.inr ⟨hok, he⟩, fun now hc => absurd hc (hpurge now)⟩

lemma accounted_run {calls : List TableCall} (hf : ∀ c ∈ calls, c.Fits) :
    Accounted (run KeyedTables.empty calls) (Outstanding calls) := by
  induction calls using List.reverseRecOn with
  | nil =>
    intro target key bs hrow
    cases target <;> cases hrow
  | append_singleton calls c ih =>
    rw [run_concat]
    intro target key bs hrow
    have hbefore := ih fun d hd => hf d (List.mem_append_left _ hd)
    have hafter := accounted_after (Announces.run calls) hbefore (hf c (List.mem_append_right _ List.mem_cons_self))
    exact (hafter target key bs hrow).imp fun e he => outstanding_concat.2 he

theorem purge_leaves_unexpired {calls : List TableCall} (hf : ∀ c ∈ calls, c.Fits) {now : Int64}
    (hnow : now < Int64.maxValue) :
    (∃ n t, Tables.purge (run MemoryTables.empty calls) now = .ok (n, t) ∧
      t.counters = (run MemoryTables.empty calls).counters ∧
      (∀ k v, t.versions.get? k = some v → expired now v.expires = false) ∧
      ∀ k cell, t.indexes.get? k = some cell → expired now cell.expires = false) ∧
    (∃ n b, Tables.purge (run KeyedTables.empty calls) now = .ok (n, b) ∧
      b.counters = (run KeyedTables.empty calls).counters ∧
      ∀ target key bs, (b.space target.space).get? key = some bs →
        ∃ expires, storedExpiry target bs = .ok expires ∧ expired now expires = false) ∧
    ∀ target key bs e, ((run KeyedTables.empty calls).space target.space).get? key = some bs →
      storedExpiry target bs = .ok (some e) →
      (run KeyedTables.empty calls).expiries.get? (Key.expiry e target key) = some [] := by
  have hb := Announces.run calls
  have hrows := accounted_run hf
  refine ⟨⟨_, _, rfl, rfl, fun k v hget => ?_, fun k cell hget => ?_⟩, ⟨_, _, hb.purge_eq, hb.counters_settledDue,
    fun target key bs hget => ?_⟩, fun target key bs e hget hstored => ?_⟩
  · rw [MemoryTables.dropExpired, OrderedMap.get?_filter, Option.filter_eq_some_iff] at hget
    simpa using hget.2
  · rw [MemoryTables.dropExpired, OrderedMap.get?_filter, Option.filter_eq_some_iff] at hget
    simpa using hget.2
  · obtain ⟨hget, hdue⟩ := row_of_purge hb hget
    obtain ⟨expires, hstored, hout⟩ := hrows target key bs hget
    refine ⟨expires, hstored, ?_⟩
    rw [← Bool.not_eq_true, Layout.expired_iff]
    rintro ⟨e, rfl, hle⟩
    exact hdue e (hout e rfl) ((Key.due_iff hnow).2 hle)
  · obtain ⟨expires, hexpires, hout⟩ := hrows target key bs hget
    obtain rfl := Except.ok.inj (hexpires.symm.trans hstored)
    exact (hb _ []).2 ⟨rfl, e, target, key, hout e rfl, rfl⟩

def renewals : List TableCall :=
  [.put "t" ⟨⟨1⟩, ⟨2⟩, [7], some 5⟩, .put "t" ⟨⟨1⟩, ⟨2⟩, [7], some 9⟩, .write (.insert ⟨"i", "v", ⟨2⟩, ⟨1⟩⟩ (some 6)),
    .write (.retract ⟨"i", "v", ⟨2⟩, ⟨1⟩⟩), .purge 5, .put "t" ⟨⟨1⟩, ⟨3⟩, [7], some 10⟩,
    .put "t" ⟨⟨1⟩, ⟨4⟩, [7], some 11⟩,
    .writeTogether [.increment ⟨"c", "k", 0, 1⟩, .insert ⟨"i", "v", ⟨2⟩, ⟨1⟩⟩ (some 10)]]

theorem purge_leaves_unexpired_renewals :
    (∀ c ∈ renewals, c.Fits) ∧ (10 : Int64) < Int64.maxValue ∧
      ∃ n b, Tables.purge (run KeyedTables.empty renewals) 10 = .ok (n, b) ∧ n = 4 ∧
        (run KeyedTables.empty renewals).versions.size = 2 ∧
        b.counters = (run KeyedTables.empty renewals).counters ∧
        ∀ target key bs, (b.space target.space).get? key = some bs →
          ∃ expires, storedExpiry target bs = .ok expires ∧ expired 10 expires = false := by
  have hf : ∀ c ∈ renewals, c.Fits := by decide +kernel
  have hnow : (10 : Int64) < Int64.maxValue := by decide
  obtain ⟨n, b, hpurge, hcounters, hleft⟩ := (purge_leaves_unexpired hf hnow).2.1
  have hcount : (Tables.purge (run KeyedTables.empty renewals) 10).map (·.1) = .ok 4 := by decide +kernel
  rw [hpurge] at hcount
  exact ⟨hf, hnow, n, b, hpurge, Except.ok.inj hcount, by decide +kernel, hcounters, hleft⟩

end TableCall

end Chronicle
