import Mathlib.Data.List.Induction
import Chronicle.Proofs.Table.Reachable

namespace Chronicle

namespace KeyedTables

variable {b : KeyedTables} {s : Space} {key bs : Bytes}

lemma space_put (b : KeyedTables) (s s' : Space) (k v : Bytes) :
    (b.change (.put s k v)).space s' = if s' = s then (b.space s').insert k v else b.space s' := by
  cases s <;> cases s' <;> rfl

lemma row_of_change {c : Change} (h : ((b.change c).space s).get? key = some bs) :
    (b.space s).get? key = some bs ∨ c = .put s key bs := by
  cases c with
  | put s' k v =>
    rw [space_put] at h
    split at h
    · next hs =>
      rw [OrderedMap.get?_insert] at h
      split at h
      · next hk => exact .inr (by rw [hs, hk, Option.some.inj h])
      · exact .inl h
    · exact .inl h
  | remove s' k =>
    rw [space_remove] at h
    split at h
    · rw [OrderedMap.get?_erase] at h
      split at h
      · cases h
      · exact .inl h
    · exact .inl h

lemma row_of_commit {cs : List Change} (h : ((b.commit cs).space s).get? key = some bs) :
    (b.space s).get? key = some bs ∨ .put s key bs ∈ cs := by
  induction cs generalizing b with
  | nil => exact .inl h
  | cons c cs ih =>
    rcases ih h with hrow | hput
    · exact (row_of_change hrow).imp_right fun hc => List.mem_cons.2 (.inl hc.symm)
    · exact .inr (List.mem_cons_of_mem _ hput)

lemma eq_of_put_announce {expires : Option Int64} {target : Key.ExpiryTarget} {row value : Bytes} {s' : Space}
    (h : .put s key bs ∈ announce expires target row ++ [.put s' row value]) (hs : s ≠ .expiries) :
    s = s' ∧ key = row ∧ bs = value := by
  rcases List.mem_append.1 h with h | h
  · obtain ⟨e, _, heq⟩ := List.mem_map.1 h
    exact absurd (Change.put.inj heq).1.symm hs
  · exact Change.put.inj (List.mem_singleton.1 h)

end KeyedTables

namespace TableCall

open KeyedTables

variable {b b' : KeyedTables} {s : Space} {key bs : Bytes} {c : TableCall} {calls : List TableCall}

def indexWrites : TableCall → List IndexWrite
  | write w => [w]
  | writeTogether ws => ws
  | _ => []

inductive Puts : TableCall → Space → Bytes → Bytes → Prop where
  | version {table : String} {v : StoredVersion} (free : Chronicle.NulFree table) :
      Puts (put table v) .versions (Key.version table v.id v.update) (Codec.storedVersion.encode v)
  | entry {c : TableCall} {e : IndexEntry} {expires : Option Int64} (mem : .insert e expires ∈ c.indexWrites)
      (free : (IndexWrite.insert e expires).NulFree) :
      Puts c .indexes (Key.index e.index e.value e.place) (Codec.indexCell.encode ⟨e.entity, expires⟩)
  | count {c : TableCall} {inc : Increment} (n : UInt64) (mem : .increment inc ∈ c.indexWrites)
      (free : (IndexWrite.increment inc).NulFree) :
      Puts c .counters (Key.counter inc.counter inc.key inc.bucket) (Codec.encodeCount n)

def Succeeded (calls : List TableCall) (c : TableCall) : Prop :=
  ∃ before rest, calls = before ++ c :: rest ∧ (c.perform (run KeyedTables.empty before)).isOk

lemma Succeeded.mem (h : Succeeded calls c) : c ∈ calls := by
  obtain ⟨before, rest, rfl, _⟩ := h
  exact List.mem_append_right _ List.mem_cons_self

lemma Succeeded.concat {d : TableCall} (h : Succeeded calls c) : Succeeded (calls ++ [d]) c := by
  obtain ⟨before, rest, rfl, hok⟩ := h
  exact ⟨before, rest ++ [d], by simp, hok⟩

lemma succeeded_last (h : (c.perform (run KeyedTables.empty calls)).isOk) : Succeeded (calls ++ [c]) c :=
  ⟨calls, [], rfl, h⟩

lemma puts_of_writeAll (hw : b.writeAll c.indexWrites = .ok b') (hs : s ≠ .expiries)
    (h : (b'.space s).get? key = some bs) : (b.space s).get? key = some bs ∨ c.Puts s key bs := by
  obtain ⟨staged, hstaged, heq⟩ := exists_of_bind_ok hw
  cases heq
  refine (row_of_commit h).imp_right fun hput => ?_
  obtain ⟨cs, hcs, hput⟩ := List.mem_flatten.1 hput
  obtain ⟨w, hmem, hstage⟩ := exists_of_mem_right (forall₂_of_mapM hstaged) hcs
  obtain ⟨_, hcheck, hstage⟩ := exists_of_bind_ok hstage
  cases w with
  | insert e expires =>
    cases hstage
    obtain ⟨rfl, rfl, rfl⟩ := eq_of_put_announce hput hs
    -- inserts are gathered as they are
    have hmem : .insert e expires ∈ (gatherIncrements c.indexWrites).filter touchesIndex := List.mem_filter.2 ⟨hmem, rfl⟩
    rw [filter_gatherIncrements] at hmem
    exact .entry (List.mem_filter.1 hmem).1 (IndexWrite.nulFree_of_check (fun hr => by cases hr) hcheck)
  | retract e =>
    cases hstage
    cases List.mem_singleton.1 hput
  | increment inc =>
    obtain ⟨count, _, hstage⟩ := exists_of_bind_ok hstage
    cases hstage
    obtain ⟨rfl, rfl, rfl⟩ := Change.put.inj (List.mem_singleton.1 hput)
    obtain ⟨w, hw, hbucket⟩ := (exists_bucket_gatherIncrements _ _).1 ⟨_, hmem, rfl⟩
    cases w with
    | increment inc' =>
      have hfree := IndexWrite.nulFree_of_check (fun hr => by cases hr) hcheck
      obtain ⟨hcounter, hkey, hnumber⟩ := NamedKey.mk.inj (Option.some.inj hbucket)
      simp only [IndexWrite.NulFree, ← hcounter, ← hkey, ← hnumber] at hfree ⊢
      exact .count _ hw hfree
    | _ => cases hbucket

lemma row_of_perform {a : TableAnswer} (hperform : c.perform b = .ok (a, b')) (hs : s ≠ .expiries)
    (h : (b'.space s).get? key = some bs) : (b.space s).get? key = some bs ∨ c.Puts s key bs := by
  cases c with
  | put table v =>
    obtain ⟨b'', hput, heq⟩ := exists_of_map_ok hperform
    obtain ⟨_, hfree, hput⟩ := exists_of_bind_ok hput
    cases hput
    cases heq
    refine (row_of_commit h).imp_right fun hput => ?_
    obtain ⟨rfl, rfl, rfl⟩ := eq_of_put_announce hput hs
    exact .version (refuseNul_eq_ok_iff.1 hfree)
  | dropChain table id =>
    have hdrop : (TableCall.dropChain table id).perform b = .ok (_, b.commit (Mirrors.droppedChain b table id)) := rfl
    cases hdrop.symm.trans hperform
    refine (row_of_commit h).imp_right fun hput => ?_
    obtain ⟨_, _, heq⟩ := List.mem_map.1 hput
    cases heq
  | write w =>
    obtain ⟨b'', hwrite, heq⟩ := exists_of_map_ok hperform
    cases heq
    exact puts_of_writeAll (c := .write w) hwrite hs h
  | writeTogether ws =>
    obtain ⟨b'', hwrite, heq⟩ := exists_of_map_ok hperform
    cases heq
    exact puts_of_writeAll (c := .writeTogether ws) hwrite hs h
  | purge now =>
    obtain ⟨⟨n, b''⟩, hpurge, heq⟩ := exists_of_map_ok hperform
    obtain ⟨staged, hstaged, hpurge⟩ := exists_of_bind_ok hpurge
    cases hpurge
    cases heq
    refine (row_of_commit h).imp_right fun hput => ?_
    obtain ⟨changes, hchanges, hput⟩ := List.mem_flatten.1 hput
    obtain ⟨key, _, hkey⟩ := exists_of_mem_right (forall₂_of_mapM hstaged) hchanges
    obtain ⟨_, _, heq⟩ := Mirrors.removes_of_stageExpiry hkey _ hput
    cases heq
  | version | latest | chain | idsAfter | refsAfter | countsAfter =>
    obtain ⟨_, _, heq⟩ := exists_of_map_ok hperform
    cases heq
    exact .inl h

lemma row_of_after (hs : s ≠ .expiries) (h : ((c.after b).space s).get? key = some bs) :
    (b.space s).get? key = some bs ∨ (c.perform b).isOk ∧ c.Puts s key bs := by
  unfold after at h
  cases hperform : c.perform b with
  | error err =>
    rw [hperform] at h
    exact .inl h
  | ok done =>
    rw [hperform] at h
    exact (row_of_perform hperform hs h).imp_right fun hputs => ⟨rfl, hputs⟩

lemma exists_puts (hs : s ≠ .expiries) (h : ((run KeyedTables.empty calls).space s).get? key = some bs) :
    ∃ c, Succeeded calls c ∧ c.Puts s key bs := by
  induction calls using List.reverseRecOn with
  | nil => cases s <;> cases h
  | append_singleton calls c ih =>
    rw [run_concat] at h
    rcases row_of_after hs h with h | ⟨hok, hputs⟩
    · obtain ⟨d, hd, hputs⟩ := ih h
      exact ⟨d, hd.concat, hputs⟩
    · exact ⟨c, succeeded_last hok, hputs⟩

end TableCall

end Chronicle
