import Chronicle.Proofs.Table.Equivalence

namespace Chronicle

namespace Mirrors

open KeyedTables

variable {t : MemoryTables} {b : KeyedTables} {w : IndexWrite} {ws : List IndexWrite} {calls : List TableCall}

lemma removals (h : Mirrors t b) {changes : List Change} (hchanges : ∀ c ∈ changes, ∃ s k, c = .remove s k) :
    ∃ t', Mirrors t' (b.commit changes) := by
  let keep (s : Space) (k : Bytes) : Bool := decide (.remove s k ∉ changes)
  have hspace (s : Space) : (b.commit changes).space s = (b.space s).filter fun k _ => keep s k :=
    space_commit_removals hchanges s
  refine ⟨⟨t.versions.filter fun k _ => keep .versions (Layout.versions.key k),
    t.indexes.filter fun k _ => keep .indexes (Layout.indexes.key k),
    t.counters.filter fun k _ => keep .counters (Layout.counters.key k)⟩, ?_, ?_, ?_, ?_⟩
  · rw [show (b.commit changes).versions = _ from hspace .versions]
    exact h.versions.filter_key (keep .versions)
  · rw [show (b.commit changes).indexes = _ from hspace .indexes]
    exact h.indexes.filter_key (keep .indexes)
  · rw [show (b.commit changes).counters = _ from hspace .counters]
    exact h.counters.filter_key (keep .counters)
  · intro k v hget
    rw [OrderedMap.get?_filter, Option.filter_eq_some_iff] at hget
    exact h.fits k v hget.1

lemma exists_stagedWrite (h : Mirrors t b) (start : MemoryTables) (hw : w.check = .ok ()) :
    ∃ t', Mirrors t' (b.commit (stagedWrite start w)) := by
  cases w with
  | insert entry expires =>
    have hnames := IndexWrite.nulFree_of_check (fun hr => by cases hr) hw
    rw [commit_staged_insert]
    exact ⟨{ t with indexes := t.indexes.insert entry.key ⟨entry.entity, expires⟩ }, h.versions,
      h.indexes.insert ((Layout.valid_indexes entry.key).2 hnames) _, h.counters, h.fits⟩
  | retract entry =>
    refine h.removals fun c hc => ?_
    obtain rfl := List.mem_singleton.1 hc
    exact ⟨_, _, rfl⟩
  | increment inc =>
    have hnames := IndexWrite.nulFree_of_check (fun hr => by cases hr) hw
    exact ⟨{ t with counters := t.counters.insert inc.bucketKey _ }, h.versions, h.indexes,
      h.counters.insert ((Layout.valid_counters inc.bucketKey).2 hnames) _, h.fits⟩

lemma exists_flatMap_stagedWrite (h : Mirrors t b) (start : MemoryTables) (hws : ∀ w ∈ ws, w.check = .ok ()) :
    ∃ t', Mirrors t' (b.commit (ws.flatMap (stagedWrite start))) := by
  induction ws generalizing t b with
  | nil => exact ⟨t, h⟩
  | cons w ws ih =>
    obtain ⟨t₁, h₁⟩ := h.exists_stagedWrite start (hws w List.mem_cons_self)
    rw [List.flatMap_cons, commit, List.foldl_append]
    exact ih h₁ fun w' hw' => hws w' (List.mem_cons_of_mem _ hw')

lemma exists_writeAll (h : Mirrors t b) {b' : KeyedTables} (hwrite : b.writeAll ws = .ok b') : ∃ t', Mirrors t' b' := by
  rw [h.writeAll_eq, ← forM_check_gatherIncrements] at hwrite
  cases hc : (gatherIncrements ws).forM IndexWrite.check with
  | error err => rw [hc] at hwrite; cases hwrite
  | ok =>
    rw [hc] at hwrite
    obtain rfl := Except.ok.inj hwrite
    exact h.exists_flatMap_stagedWrite t (forM_eq_ok_iff.1 hc)

lemma removes_of_stageExpiry {key : Bytes} {changes : List Change} (h : stageExpiry key = .ok changes) :
    ∀ c ∈ changes, ∃ s k, c = .remove s k := by
  rw [stageExpiry] at h
  cases hsplit : Key.splitExpiry key with
  | error err => rw [hsplit] at h; cases h
  | ok row =>
    obtain ⟨e, target, row⟩ := row
    rw [hsplit] at h
    cases target <;> obtain rfl := Except.ok.inj h <;> simp

lemma exists_purge (h : Mirrors t b) {now : Int64} {n : Nat} {b' : KeyedTables}
    (hpurge : Tables.purge b now = .ok (n, b')) : ∃ t', Mirrors t' b' := by
  change (do let staged ← (b.due now).mapM stageExpiry; return ((b.due now).length, b.commit staged.flatten)) = _
    at hpurge
  cases hstaged : (b.due now).mapM stageExpiry with
  | error err => rw [hstaged] at hpurge; cases hpurge
  | ok staged =>
    rw [hstaged] at hpurge
    obtain rfl := (Prod.mk.inj (Except.ok.inj hpurge)).2
    refine h.removals fun c hc => ?_
    obtain ⟨changes, hchanges, hc⟩ := List.mem_flatten.1 hc
    obtain ⟨key, _, hkey⟩ := exists_of_mem_right (forall₂_of_mapM hstaged) hchanges
    exact removes_of_stageExpiry hkey c hc

lemma exists_after (h : Mirrors t b) (c : TableCall) (hf : c.Fits) : ∃ t', Mirrors t' (c.after b) := by
  cases hperform : c.perform b with
  | error err =>
    rw [TableCall.after, hperform]
    exact ⟨t, h⟩
  | ok p =>
    rw [TableCall.after, hperform]
    cases c with
    | put table v =>
      obtain ⟨b', hput, rfl⟩ := exists_of_map_ok hperform
      change (do refuseNul .table table; return b.commit (stageVersion table v)) = _ at hput
      rw [refuseNul_eq] at hput
      split at hput
      · next htable =>
        obtain rfl := Except.ok.inj hput
        exact ⟨_, h.put htable hf⟩
      · cases hput
    | dropChain table id =>
      obtain rfl := Except.ok.inj hperform
      refine h.removals fun c hc => ?_
      obtain ⟨k, _, rfl⟩ := List.mem_map.1 hc
      exact ⟨_, _, rfl⟩
    | write w =>
      obtain ⟨b', hwrite, rfl⟩ := exists_of_map_ok hperform
      exact h.exists_writeAll hwrite
    | writeTogether ws =>
      obtain ⟨b', hwrite, rfl⟩ := exists_of_map_ok hperform
      exact h.exists_writeAll hwrite
    | purge now =>
      obtain ⟨⟨n, b'⟩, hpurge, rfl⟩ := exists_of_map_ok hperform
      exact h.exists_purge hpurge
    | version | latest | chain | idsAfter | refsAfter | countsAfter =>
      obtain ⟨_, _, rfl⟩ := exists_of_map_ok hperform
      exact ⟨t, h⟩

lemma exists_run (h : Mirrors t b) (hf : ∀ c ∈ calls, c.Fits) : ∃ t', Mirrors t' (TableCall.run b calls) := by
  induction calls generalizing t b with
  | nil => exact ⟨t, h⟩
  | cons c cs ih =>
    obtain ⟨t₁, h₁⟩ := h.exists_after c (hf c List.mem_cons_self)
    exact ih h₁ fun d hd => hf d (List.mem_cons_of_mem _ hd)

end Mirrors

end Chronicle
