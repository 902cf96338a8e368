import Chronicle.Proofs.Store.Holders
import Chronicle.Proofs.Table.Walks

namespace Chronicle

section

variable {ε σ : Type} [Entity ε] [Tables σ] {c : Collection ε} {tables : σ} {id u : Identifier}

def Collection.Readable (c : Collection ε) (tables : σ) : Prop := ∀ id, ∃ es, c.history tables id = .ok es

structure ChainsAgree (tables : σ) : Prop where
  latest_eq : ∀ {table id vs}, Tables.chain tables table id = .ok vs →
    Tables.latest? tables table id = .ok vs.getLast?
  version_eq : ∀ {table id vs} (u : Identifier), Tables.chain tables table id = .ok vs →
    ∃ o, Tables.version? tables table id u = .ok o ∧ ∀ v ∈ o, v ∈ vs

namespace Collection

lemma Readable.exists_chain (h : c.Readable tables) (id : Identifier) :
    ∃ vs es, Tables.chain tables c.table id = .ok vs ∧ List.Forall₂ (fun v e => c.decode v = .ok e) vs es := by
  obtain ⟨es, hes⟩ := h id
  obtain ⟨vs, hvs, hes⟩ := exists_of_bind_ok hes
  exact ⟨vs, es, hvs, forall₂_of_mapM hes⟩

lemma Readable.current_ok (h : c.Readable tables) (ha : ChainsAgree tables) (id : Identifier) :
    ∃ o, c.current tables id = .ok o := by
  obtain ⟨vs, es, hvs, hes⟩ := h.exists_chain id
  refine ⟨es.getLast?, ?_⟩
  rw [current, ha.latest_eq hvs]
  exact mapM_getLast? hes

lemma Readable.version_ok (h : c.Readable tables) (ha : ChainsAgree tables) (id u : Identifier) :
    ∃ o, c.version tables id u = .ok o := by
  obtain ⟨vs, es, hvs, hes⟩ := h.exists_chain id
  obtain ⟨o, ho, hmem⟩ := ha.version_eq u hvs
  rw [version, ho]
  cases o with
  | none => exact ⟨none, rfl⟩
  | some v =>
    obtain ⟨e, _, he⟩ := exists_of_mem_right hes.flip (hmem v rfl)
    exact ⟨some e, mapM_some he⟩

lemma readable_of_chains (h : ∀ id, ∃ vs, Tables.chain tables c.table id = .ok vs ∧ ∀ v ∈ vs, (c.decode v).isOk) :
    c.Readable tables := by
  intro id
  obtain ⟨vs, hvs, hdecode⟩ := h id
  obtain ⟨es, hes, _⟩ := exists_mapM_ok (f := c.decode) (P := fun _ => True) fun v hv => by
    have hok := hdecode v hv
    cases he : c.decode v with
    | error err => rw [he] at hok; cases hok
    | ok e => exact ⟨e, rfl, trivial⟩
  exact ⟨es, by rw [history, hvs]; exact hes⟩

structure Resolves (c : Collection ε) (tables : σ) (index value : String) (holds : IndexRef → Prop) : Prop where
  lists : ∃ refs, (Source.ofIndex tables index value).Lists refs ∧ ∀ ref, ref ∈ refs ↔ holds ref
  current_ok : ∀ id, ∃ o, c.current tables id = .ok o
  version_ok : ∀ id u, ∃ o, c.version tables id u = .ok o

lemma Resolves.exists_confirmed {index value : String} {holds : IndexRef → Prop}
    (h : c.Resolves tables index value holds) : ∃ confirmed : Identifier → Option ε,
      (∀ id, c.confirm tables index value id = .ok (confirmed id)) ∧
      ∀ id e, confirmed id = some e ↔ c.current tables id = .ok (some e) ∧ Entity.Carries e index value := by
  choose current hcurrent using h.current_ok
  refine ⟨_, fun id => confirm_of_current (hcurrent id), fun id e => ?_⟩
  rw [Option.filter_eq_some_iff, decide_eq_true_eq, hcurrent, Except.ok.injEq]

end Collection

end

namespace MemoryTables

variable {ε : Type} [Entity ε] {c : Collection ε}

lemma chainsAgree (t : MemoryTables) : ChainsAgree t where
  latest_eq hvs := by
    obtain rfl := Except.ok.inj hvs
    rfl
  version_eq u hvs := by
    obtain rfl := Except.ok.inj hvs
    exact ⟨_, rfl, fun v hv => mem_chain.2 ⟨u, hv⟩⟩

lemma readable_of_rows {t : MemoryTables} (h : ∀ row ∈ t.versions.entries, (c.decode row.2).isOk) : c.Readable t := by
  refine Collection.readable_of_chains fun id => ⟨_, rfl, fun v hv => ?_⟩
  obtain ⟨u, hget⟩ := mem_chain.1 hv
  exact h _ (OrderedMap.get?_eq_some_iff.1 hget)

lemma resolves {t : MemoryTables} (h : c.Readable t) (index value : String) :
    c.Resolves t index value (t.Holds (.index index value)) where
  lists := t.lists (.index index value)
  current_ok := h.current_ok t.chainsAgree
  version_ok := h.version_ok t.chainsAgree

end MemoryTables

namespace KeyedTables

variable {ε : Type} [Entity ε] {c : Collection ε} {b : KeyedTables} {calls : List TableCall} {index value : String}

lemma chainsAgree (b : KeyedTables) : ChainsAgree b where
  latest_eq hvs := mapM_getLast? (forall₂_of_mapM hvs)
  version_eq {table id vs} u hvs := by
    change ∃ o, (b.versions.get? (Key.version table id u)).mapM readVersion = .ok o ∧ _
    cases hget : b.versions.get? (Key.version table id u) with
    | none => exact ⟨none, rfl, nofun⟩
    | some bs =>
      have hrow : (Key.version table id u, bs) ∈ b.storedChain table id :=
        OrderedMap.mem_scan.2 ⟨OrderedMap.get?_eq_some_iff.1 hget, List.isPrefixOf_iff_prefix.2 (List.prefix_append ..)⟩
      obtain ⟨v, hv, hread⟩ := exists_of_mem_right (forall₂_of_mapM hvs).flip hrow
      exact ⟨some v, mapM_some hread, fun w hw => Option.some.inj hw ▸ hv⟩

lemma readable_of_rows (h : ∀ row ∈ b.versions.entries, (readVersion row.2).toOption.any fun v => (c.decode v).isOk) :
    c.Readable b := by
  refine Collection.readable_of_chains fun id => exists_mapM_ok fun row hrow => ?_
  have hok := h row (OrderedMap.mem_scan.1 hrow).1
  cases hread : readVersion row.2 with
  | error err => rw [hread] at hok; cases hok
  | ok v =>
    rw [hread] at hok
    exact ⟨v, rfl, hok⟩

lemma resolves (hf : ∀ call ∈ calls, call.Fits) (hn : (Listing.index index value).NulFree)
    (h : c.Readable (TableCall.run empty calls)) :
    c.Resolves (TableCall.run empty calls) index value ((TableCall.run empty calls).Holds (.index index value)) where
  lists := by
    obtain ⟨_, ht⟩ := Mirrors.empty.exists_run hf
    exact ht.lists hn
  current_ok := h.current_ok (chainsAgree _)
  version_ok := h.version_ok (chainsAgree _)

end KeyedTables

end Chronicle
