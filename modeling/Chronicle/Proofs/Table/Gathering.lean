import Chronicle.Proofs.OrderedMap.Scan
import Chronicle.Proofs.Traversal
import Chronicle.Table.Keyed

namespace Chronicle

namespace Saturating

lemma addCount_assoc (a b c : UInt64) : addCount (addCount a b) c = addCount a (addCount b c) := by
  apply UInt64.toNat_inj.1
  simp only [addCount, toNat_uint64]
  omega

lemma addCount_comm (a b : UInt64) : addCount a b = addCount b a := by
  rw [addCount, addCount, Nat.add_comm]

end Saturating

def Increment.bucketKey (inc : Increment) : NamedKey Int64 := ⟨inc.counter, inc.key, inc.bucket⟩

def IndexWrite.bucket? : IndexWrite → Option (NamedKey Int64)
  | .increment inc => some inc.bucketKey
  | _ => none

structure AddsUp {τ : Type} (f : τ → IndexWrite → τ) : Prop where
  merge : ∀ (t : τ) (e inc : Increment), e.bucketKey = inc.bucketKey →
    f (f t (.increment e)) (.increment inc) =
      f t (.increment { e with amount := Saturating.addCount e.amount inc.amount })
  comm : ∀ (t : τ) (w : IndexWrite) (inc : Increment), w.bucket? ≠ some inc.bucketKey →
    f (f t w) (.increment inc) = f (f t (.increment inc)) w

lemma AddsUp.foldl_comm {τ : Type} {f : τ → IndexWrite → τ} (h : AddsUp f) {inc : Increment} {ws : List IndexWrite}
    (hws : ∀ w ∈ ws, w.bucket? ≠ some inc.bucketKey) (t : τ) :
    f (ws.foldl f t) (.increment inc) = ws.foldl f (f t (.increment inc)) := by
  induction ws generalizing t with
  | nil => rfl
  | cons w ws ih =>
    rw [List.foldl_cons, List.foldl_cons, ih fun w' hw' => hws w' (List.mem_cons_of_mem _ hw'),
      h.comm _ _ _ (hws w List.mem_cons_self)]

namespace KeyedTables

variable {inc e : Increment} {w : IndexWrite}

lemma sameBucket_iff : sameBucket e inc = true ↔ e.bucketKey = inc.bucketKey := by
  simp [sameBucket, Increment.bucketKey]

lemma sharesBucket_iff : sharesBucket inc w = true ↔ w.bucket? = some inc.bucketKey := by
  cases w <;> simp [sharesBucket, sameBucket_iff, IndexWrite.bucket?]

lemma absorb_of_ne (h : w.bucket? ≠ some inc.bucketKey) : absorb inc w = w := by
  cases w with
  | increment e => exact if_neg fun hsame => h (congrArg some (sameBucket_iff.1 hsame))
  | _ => rfl

lemma absorb_of_eq (h : e.bucketKey = inc.bucketKey) : absorb inc (.increment e) =
    .increment { e with amount := Saturating.addCount e.amount inc.amount } :=
  if_pos (sameBucket_iff.2 h)

lemma check_absorb (inc : Increment) (w : IndexWrite) : (absorb inc w).check = w.check := by
  cases w with
  | increment e =>
    rw [absorb]
    split <;> rfl
  | _ => rfl

lemma bucket?_absorb (inc : Increment) (w : IndexWrite) : (absorb inc w).bucket? = w.bucket? := by
  cases w with
  | increment e =>
    rw [absorb]
    split <;> rfl
  | _ => rfl

end KeyedTables

namespace MemoryTables

variable {t : MemoryTables} {inc e : Increment} {w : IndexWrite}

lemma write_increment (t : MemoryTables) (inc : Increment) : t.write (.increment inc) =
    { t with counters := t.counters.insert inc.bucketKey
              (Saturating.addCount ((t.counters.get? inc.bucketKey).getD 0) inc.amount) } := rfl

lemma get?_write_increment_self : (t.write (.increment inc)).counters.get? inc.bucketKey =
    some (Saturating.addCount ((t.counters.get? inc.bucketKey).getD 0) inc.amount) := by
  rw [write_increment, OrderedMap.get?_insert, if_pos rfl]

lemma get?_counters_write_of_ne {k : NamedKey Int64} (h : w.bucket? ≠ some k) :
    (t.write w).counters.get? k = t.counters.get? k := by
  cases w with
  | increment e =>
    rw [write_increment, OrderedMap.get?_insert, if_neg]
    rintro rfl
    exact h rfl
  | _ => rfl

lemma write_increment_increment (h : e.bucketKey = inc.bucketKey) :
    (t.write (.increment e)).write (.increment inc) =
      t.write (.increment { e with amount := Saturating.addCount e.amount inc.amount }) := by
  have hcount : (t.write (.increment e)).counters.get? inc.bucketKey =
      some (Saturating.addCount ((t.counters.get? e.bucketKey).getD 0) e.amount) := by
    rw [← h, get?_write_increment_self]
  rw [write_increment (t.write _), hcount, write_increment, write_increment, h, OrderedMap.insert_insert,
    Option.getD_some, Saturating.addCount_assoc, ← h]
  rfl

lemma write_comm (h : w.bucket? ≠ some inc.bucketKey) :
    (t.write w).write (.increment inc) = (t.write (.increment inc)).write w := by
  cases w with
  | increment e =>
    have hne : e.bucketKey ≠ inc.bucketKey := fun heq => h (congrArg some heq)
    have hinc : (t.write (.increment e)).counters.get? inc.bucketKey = t.counters.get? inc.bucketKey :=
      get?_counters_write_of_ne h
    have he : (t.write (.increment inc)).counters.get? e.bucketKey = t.counters.get? e.bucketKey :=
      get?_counters_write_of_ne fun heq => hne (Option.some.inj heq).symm
    rw [write_increment (t.write _), write_increment (t.write _), hinc, he, write_increment, write_increment,
      OrderedMap.insert_comm _ fun heq => absurd heq hne]
  | _ => rfl

lemma addsUp_write : AddsUp write where
  merge _ _ _ := write_increment_increment
  comm _ _ _ := write_comm

end MemoryTables

namespace KeyedTables

variable {τ : Type} {f : τ → IndexWrite → τ} {inc : Increment} {w : IndexWrite} {ws gs : List IndexWrite}

def DistinctBuckets (ws : List IndexWrite) : Prop :=
  ws.Pairwise fun w w' => ∀ k, w.bucket? = some k → w'.bucket? ≠ some k

lemma any_sharesBucket : gs.any (sharesBucket inc) = true ↔ ∃ w ∈ gs, w.bucket? = some inc.bucketKey := by
  simp [List.any_eq_true, sharesBucket_iff]

lemma foldl_map_absorb (hf : AddsUp f) (hd : DistinctBuckets gs) (h : ∃ w ∈ gs, w.bucket? = some inc.bucketKey)
    (t : τ) : (gs.map (absorb inc)).foldl f t = f (gs.foldl f t) (.increment inc) := by
  induction gs generalizing t with
  | nil => simp at h
  | cons w gs ih =>
    obtain ⟨hw, hd⟩ := List.pairwise_cons.1 hd
    rw [List.map_cons, List.foldl_cons, List.foldl_cons]
    by_cases hs : w.bucket? = some inc.bucketKey
    · -- no other write adds to the bucket, so the new increment moves up to the one that is there
      have hrest : ∀ w' ∈ gs, w'.bucket? ≠ some inc.bucketKey := fun w' hw' => hw w' hw' _ hs
      have hmap : gs.map (absorb inc) = gs :=
        (List.map_congr_left fun w' hw' => absorb_of_ne (hrest w' hw')).trans (List.map_id' gs)
      cases w with
      | increment e =>
        have hkey : e.bucketKey = inc.bucketKey := Option.some.inj hs
        rw [hmap, absorb_of_eq hkey, ← hf.merge _ _ _ hkey, hf.foldl_comm hrest]
      | _ => cases hs
    · rw [absorb_of_ne hs]
      refine ih hd ?_ _
      obtain ⟨w', hw', hkey⟩ := h
      rcases List.mem_cons.1 hw' with rfl | hw'
      · exact absurd hkey hs
      · exact ⟨w', hw', hkey⟩

lemma foldl_gather (hf : AddsUp f) (hd : DistinctBuckets gs) (w : IndexWrite) (t : τ) :
    (gather gs w).foldl f t = f (gs.foldl f t) w := by
  cases w with
  | increment inc =>
    rw [gather]
    split
    · next h => exact foldl_map_absorb hf hd (any_sharesBucket.1 h) t
    · rw [List.foldl_append]
      rfl
  | _ =>
    change (gs ++ [_]).foldl f t = _
    rw [List.foldl_append]
    rfl

lemma DistinctBuckets.concat (hd : DistinctBuckets gs) (h : ∀ k, w.bucket? = some k → ∀ w' ∈ gs, w'.bucket? ≠ some k) :
    DistinctBuckets (gs ++ [w]) := by
  refine List.pairwise_append.2 ⟨hd, List.pairwise_singleton .., fun w' hw' w'' hw'' k hk hk' => ?_⟩
  obtain rfl := List.mem_singleton.1 hw''
  exact h k hk' w' hw' hk

lemma DistinctBuckets.gather (hd : DistinctBuckets gs) (w : IndexWrite) : DistinctBuckets (gather gs w) := by
  cases w with
  | increment inc =>
    rw [KeyedTables.gather]
    split
    · refine List.pairwise_map.2 (hd.imp fun {w w'} h => ?_)
      rw [bucket?_absorb, bucket?_absorb]
      exact h
    · next h =>
      refine hd.concat fun k hk w' hw' hk' => h (any_sharesBucket.2 ⟨w', hw', hk'.trans hk.symm⟩)
  | _ => exact hd.concat fun _ h => by cases h

lemma gatherIncrements_spec (ws : List IndexWrite) :
    DistinctBuckets (gatherIncrements ws) ∧
      ∀ {τ : Type} {f : τ → IndexWrite → τ}, AddsUp f → ∀ t : τ, (gatherIncrements ws).foldl f t = ws.foldl f t := by
  suffices h : ∀ gs, DistinctBuckets gs → DistinctBuckets (ws.foldl gather gs) ∧
      ∀ {τ : Type} {f : τ → IndexWrite → τ}, AddsUp f →
        ∀ t : τ, (ws.foldl gather gs).foldl f t = ws.foldl f (gs.foldl f t) from h [] List.Pairwise.nil
  induction ws with
  | nil => exact fun gs hd => ⟨hd, fun _ _ => rfl⟩
  | cons w ws ih =>
    intro gs hd
    obtain ⟨hdistinct, hwrites⟩ := ih (gather gs w) (hd.gather w)
    refine ⟨hdistinct, fun hf t => ?_⟩
    rw [List.foldl_cons, hwrites hf, foldl_gather hf hd]
    rfl

def touchesIndex (w : IndexWrite) : Bool := w.bucket?.isNone

lemma filter_map_absorb (inc : Increment) (gs : List IndexWrite) :
    (gs.map (absorb inc)).filter touchesIndex = gs.filter touchesIndex := by
  induction gs with
  | nil => rfl
  | cons w gs ih =>
    cases w with
    | increment e =>
      have hnot : ¬ touchesIndex (absorb inc (.increment e)) = true := by
        rw [touchesIndex, bucket?_absorb]
        simp [IndexWrite.bucket?]
      rw [List.map_cons, List.filter_cons_of_neg hnot, ih]
      rfl
    | _ => exact congrArg (_ :: ·) ih

lemma filter_gather (gs : List IndexWrite) (w : IndexWrite) :
    (gather gs w).filter touchesIndex = (gs ++ [w]).filter touchesIndex := by
  cases w with
  | increment inc =>
    rw [gather]
    split
    · rw [filter_map_absorb, List.filter_append]
      exact (List.append_nil _).symm
    · rfl
  | _ => rfl

lemma filter_gatherIncrements (ws : List IndexWrite) :
    (gatherIncrements ws).filter touchesIndex = ws.filter touchesIndex := by
  suffices h : ∀ gs, (ws.foldl gather gs).filter touchesIndex = (gs ++ ws).filter touchesIndex from h []
  induction ws with
  | nil => exact fun gs => by rw [List.append_nil]; rfl
  | cons w ws ih =>
    intro gs
    rw [List.foldl_cons, ih, List.filter_append, filter_gather, ← List.filter_append, List.append_assoc]
    rfl

lemma exists_bucket_gatherIncrements (ws : List IndexWrite) (k : NamedKey Int64) :
    (∃ w ∈ gatherIncrements ws, w.bucket? = some k) ↔ ∃ w ∈ ws, w.bucket? = some k := by
  let sees : Prop → IndexWrite → Prop := fun seen w => seen ∨ w.bucket? = some k
  have hsees : AddsUp sees := by
    refine ⟨fun seen e inc hkey => ?_, fun seen w inc _ => propext or_right_comm⟩
    change ((seen ∨ some e.bucketKey = some k) ∨ some inc.bucketKey = some k) = (seen ∨ some e.bucketKey = some k)
    rw [hkey, or_assoc, or_self]
  have hfoldl (gs : List IndexWrite) (seen : Prop) : gs.foldl sees seen ↔ seen ∨ ∃ w ∈ gs, w.bucket? = some k := by
    induction gs generalizing seen with
    | nil => simp
    | cons w gs ih => simp [ih, sees, or_assoc]
  have heq := (gatherIncrements_spec ws).2 hsees False
  rw [eq_iff_iff, hfoldl, hfoldl, false_or, false_or] at heq
  exact heq

lemma forM_check_append (ws ws' : List IndexWrite) : (ws ++ ws').forM IndexWrite.check =
    ws.forM IndexWrite.check >>= fun _ => ws'.forM IndexWrite.check :=
  List.forM_append

lemma check_of_bucket?_eq (h : w.bucket? = some inc.bucketKey) : w.check = (IndexWrite.increment inc).check := by
  cases w with
  | increment e =>
    have hkey : e.bucketKey = inc.bucketKey := Option.some.inj h
    obtain ⟨hcounter, hkey, _⟩ := NamedKey.mk.inj hkey
    simp only [IndexWrite.check, hcounter, hkey]
  | _ => cases h

lemma forM_check_gather (gs : List IndexWrite) (w : IndexWrite) :
    (gather gs w).forM IndexWrite.check = (gs ++ [w]).forM IndexWrite.check := by
  cases w with
  | increment inc =>
    rw [gather]
    split
    · next h =>
      obtain ⟨w, hw, hkey⟩ := any_sharesBucket.1 h
      have hmap : (gs.map (absorb inc)).forM IndexWrite.check = gs.forM IndexWrite.check := by
        refine List.forM_map.trans ?_
        congr 1
        exact funext (check_absorb inc)
      rw [hmap, forM_check_append]
      cases hc : gs.forM IndexWrite.check with
      | error e => rfl
      | ok =>
        change _ = ((IndexWrite.increment inc).check >>= fun _ => .ok ())
        rw [← check_of_bucket?_eq hkey, forM_eq_ok_iff.1 hc w hw]
        rfl
    · rfl
  | _ => rfl

lemma forM_check_gatherIncrements (ws : List IndexWrite) :
    (gatherIncrements ws).forM IndexWrite.check = ws.forM IndexWrite.check := by
  suffices h : ∀ gs, (ws.foldl gather gs).forM IndexWrite.check = (gs ++ ws).forM IndexWrite.check from h []
  induction ws with
  | nil => exact fun gs => by rw [List.append_nil]; rfl
  | cons w ws ih =>
    intro gs
    rw [List.foldl_cons, ih, forM_check_append, forM_check_gather, ← forM_check_append, List.append_assoc]
    rfl

end KeyedTables

end Chronicle
