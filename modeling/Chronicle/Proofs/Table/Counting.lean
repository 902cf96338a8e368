import Mathlib.Algebra.GroupWithZero.Nat
import Mathlib.Data.List.Induction
import Chronicle.Proofs.Table.Commuting
import Chronicle.Proofs.Table.Listings
import Chronicle.Proofs.Table.Ranges

namespace Chronicle

namespace Saturating

lemma addCount_uint64 (n : Nat) (b : UInt64) : addCount (uint64 n) b = uint64 (n + b.toNat) := by
  apply UInt64.toNat_inj.1
  have hb := b.toNat_lt
  simp only [addCount, toNat_uint64, UInt64.size]
  omega

end Saturating

def IndexWrite.increment? : IndexWrite → Option Increment
  | .increment inc => some inc
  | _ => none

namespace MemoryTables

def addAll (t : MemoryTables) (incs : List Increment) : MemoryTables :=
  incs.foldl (fun t inc => t.write (.increment inc)) t

def SmallBuckets (t : MemoryTables) : Prop :=
  ∀ k count, t.counters.get? k = some count → 0 ≤ k.number.toInt ∧ k.number.toInt < 2 ^ 56

def total (incs : List Increment) (k : NamedKey Int64) : Nat :=
  ((incs.filter fun inc => inc.bucketKey = k).map fun inc => inc.amount.toNat).sum

variable {incs : List Increment} {k : NamedKey Int64}

lemma addAll_append (t : MemoryTables) (incs incs' : List Increment) :
    t.addAll (incs ++ incs') = (t.addAll incs).addAll incs' := List.foldl_append

lemma total_append (incs incs' : List Increment) : total (incs ++ incs') k = total incs k + total incs' k := by
  simp [total]

lemma total_eq_countP (h : ∀ inc ∈ incs, inc.amount = 1) : total incs k = incs.countP fun inc => inc.bucketKey = k := by
  rw [total, List.countP_eq_length_filter]
  have hones : ∀ n ∈ (incs.filter fun inc => inc.bucketKey = k).map fun inc => inc.amount.toNat, n = 1 := by
    intro n hn
    obtain ⟨inc, hinc, rfl⟩ := List.mem_map.1 hn
    rw [h inc (List.mem_filter.1 hinc).1]
    rfl
  rw [List.eq_replicate_of_mem hones, List.sum_replicate_nat, List.length_map, Nat.mul_one]

lemma get?_addAll_empty (incs : List Increment) (k : NamedKey Int64) : (empty.addAll incs).counters.get? k =
    if ∃ inc ∈ incs, inc.bucketKey = k then some (Saturating.uint64 (total incs k)) else none := by
  -- tables take increments in at the end of the list
  induction incs using List.reverseRecOn with
  | nil => rfl
  | append_singleton incs inc ih =>
    have hstep : empty.addAll (incs ++ [inc]) = (empty.addAll incs).write (.increment inc) := addAll_append ..
    rw [hstep, total_append]
    by_cases hk : inc.bucketKey = k
    · subst hk
      have hcount : ((empty.addAll incs).counters.get? inc.bucketKey).getD 0 =
          Saturating.uint64 (total incs inc.bucketKey) := by
        rw [ih]
        split
        · rfl
        · next hnone =>
          have hzero : total incs inc.bucketKey = 0 := by
            rw [total, List.filter_eq_nil_iff.2 fun e he => by simpa using fun heq => hnone ⟨e, he, heq⟩]
            rfl
          rw [hzero]
          rfl
      rw [get?_write_increment_self, hcount, Saturating.addCount_uint64, if_pos ⟨inc, by simp, rfl⟩]
      simp [total]
    · have hne : (IndexWrite.increment inc).bucket? ≠ some k := fun heq => hk (Option.some.inj heq)
      rw [get?_counters_write_of_ne hne, ih]
      have hzero : total [inc] k = 0 := by simp [total, hk]
      simp [hzero, hk]

lemma get?_addAll_eq_some_iff {count : UInt64} : (empty.addAll incs).counters.get? k = some count ↔
    (∃ inc ∈ incs, inc.bucketKey = k) ∧ Saturating.uint64 (total incs k) = count := by
  rw [get?_addAll_empty]
  split
  · next h => simp [h]
  · next h => simp [h]

end MemoryTables

structure KeepsCounts {σ τ : Type} [Tables σ] (counters : σ → τ) (Agree : τ → MemoryTables → Prop) : Prop where
  interchanges : Interchanges σ
  put : ∀ {t t' : σ} {table : String} {v : StoredVersion}, Tables.put t table v = .ok t' → counters t' = counters t
  dropChain : ∀ {t t' : σ} {table : String} {id : Identifier} {n : Nat},
    Tables.dropChain t table id = .ok (n, t') → counters t' = counters t
  spared : ∀ {t : σ} {w : IndexWrite}, w.increment? = none → counters (attempt t w) = counters t
  added : ∀ {t : σ} {m : MemoryTables} {inc : Increment}, refusal? t (.increment inc) = none → Agree (counters t) m →
    Agree (counters (attempt t (.increment inc))) (m.write (.increment inc))
  read_congr : ∀ {t t' : σ}, counters t' = counters t → ∀ counter key after limit,
    Tables.countsAfter t' counter key after limit = Tables.countsAfter t counter key after limit
  read : ∀ {t : σ} {m : MemoryTables}, Agree (counters t) m → m.SmallBuckets → ∀ counter key after limit,
    Tables.countsAfter t counter key after limit = Tables.countsAfter m counter key after limit

namespace KeepsCounts

variable {σ τ : Type} [Tables σ] {counters : σ → τ} {Agree : τ → MemoryTables → Prop} {t : σ} {m : MemoryTables}
  {ws : List IndexWrite} {plan : WritePlan}

lemma foldl_spared (h : KeepsCounts counters Agree) (hws : ∀ w ∈ ws, w.increment? = none) :
    counters (ws.foldl attempt t) = counters t := by
  induction ws generalizing t with
  | nil => rfl
  | cons w ws ih =>
    obtain ⟨hw, hws⟩ := List.forall_mem_cons.1 hws
    rw [List.foldl_cons, ih hws, h.spared hw]

lemma foldl_added (h : KeepsCounts counters Agree) (hnone : ∀ w ∈ ws, refusal? t w = none)
    (hm : Agree (counters t) m) :
    Agree (counters (ws.foldl attempt t)) (m.addAll (ws.filterMap IndexWrite.increment?)) := by
  induction ws generalizing t m with
  | nil => exact hm
  | cons w ws ih =>
    obtain ⟨hw, hws⟩ := List.forall_mem_cons.1 hnone
    have hrest : ∀ w' ∈ ws, refusal? (attempt t w) w' = none := fun w' hw' => by
      rw [h.interchanges.steady, hws w' hw']
    cases hinc : w.increment? with
    | none =>
      rw [List.foldl_cons, List.filterMap_cons_none hinc]
      exact ih hrest ((h.spared hinc).symm ▸ hm)
    | some inc =>
      cases w with
      | increment e =>
        rw [List.foldl_cons, List.filterMap_cons_some hinc]
        obtain rfl : e = inc := Option.some.inj hinc
        exact ih hrest (h.added hw hm)
      | _ => cases hinc

lemma deliver_spared (h : KeepsCounts counters Agree) (hplan : plan.indexWrites.filterMap IndexWrite.increment? = [])
    (delivery : Delivery) (t : σ) : counters (deliver delivery t plan).1 = counters t := by
  rcases h.interchanges.deliver_eq_or delivery t plan with ⟨ws, hp, heq⟩ | heq
  · rw [heq]
    exact h.foldl_spared fun w hw => List.filterMap_eq_nil_iff.1 hplan w (hp.mem_iff.1 hw)
  · rw [heq]

lemma deliver_added (h : KeepsCounts counters Agree) {delivery : Delivery}
    (hagrees : ∀ w ∈ plan.indexWrites, ∀ w' ∈ plan.indexWrites, w.Agrees w')
    (hcomplete : (deliver delivery t plan).2.isComplete = true) (hm : Agree (counters t) m) :
    Agree (counters (deliver delivery t plan).1) (m.addAll (plan.indexWrites.filterMap IndexWrite.increment?)) := by
  obtain ⟨hnone, ws, hp, heq⟩ := h.interchanges.deliver_of_isComplete hcomplete
  rw [heq, h.interchanges.foldl_perm hagrees hp]
  exact h.foldl_added hnone hm

end KeepsCounts

lemma MemoryTables.keepsCounts : KeepsCounts MemoryTables.counters fun counts m => counts = m.counters where
  interchanges := interchanges
  put h := by
    obtain ⟨_, _, h⟩ := exists_of_bind_ok h
    rw [← Except.ok.inj h]
    rfl
  dropChain h := by
    rw [← (Prod.mk.inj (Except.ok.inj h)).2]
    rfl
  spared {t w} hw := by
    rw [attempt_eq, guarded]
    cases w.check with
    | error err => rfl
    | ok =>
      cases w with
      | increment inc => cases hw
      | _ => rfl
  added {t m inc} hnone hm := by
    rw [attempt_eq, guarded, refusal?_eq_none_iff.1 hnone]
    simp only [write_increment, hm]
  read_congr h counter key after limit := by
    change Except.ok ((countsAfter _ counter key after).take limit) = .ok ((countsAfter _ counter key after).take limit)
    rw [countsAfter, h]
    rfl
  read h _ counter key after limit := by
    change Except.ok ((countsAfter _ counter key after).take limit) = .ok ((countsAfter _ counter key after).take limit)
    rw [countsAfter, h]
    rfl

namespace KeyedTables

variable {b : KeyedTables} {m : MemoryTables} {counter key : String}

lemma countsAfter_of_not_nulFree (h : Layout.counters.Represents m.counters b.counters) (hbuckets : m.SmallBuckets)
    (hnames : ¬ (NulFree counter ∧ NulFree key)) (after : Option Int64) (limit : Nat) :
    Tables.countsAfter b counter key after limit = Tables.countsAfter m counter key after limit := by
  have hkeyed : entriesAfter b.counters (Key.texts [counter, key]) after = [] := by
    refine List.eq_nil_iff_forall_not_mem.2 fun e he => ?_
    obtain ⟨x, he⟩ := exists_mem_range_of_mem_entriesAfter he
    obtain ⟨hmem, hrange⟩ := OrderedMap.mem_scan.1 he
    obtain ⟨hfrom, hto⟩ : (compare (Key.texts [counter, key] ++ x) e.1).isLE = true ∧
        compare e.1 (Key.pastPrefix (Key.texts [counter, key])) = .lt := by simpa using hrange
    obtain ⟨⟨name, value, bucket⟩, count, hget, hkey, _⟩ :=
      (h.get?_eq_some_iff _ _).1 (OrderedMap.get?_eq_some_iff.2 hmem)
    obtain ⟨hname, hvalue⟩ := (Layout.valid_counters _).1 (h.valid _ _ hget)
    obtain ⟨hlow, hhigh⟩ := hbuckets _ _ hget
    obtain ⟨r, hr, hfirst⟩ := Key.exists_ordered_eq hlow hhigh
    have hbegin : Key.texts [counter, key] <+: Key.texts [name, value] ++ Key.ordered bucket := by
      have hprefix := Key.prefix_of_range (by simp) hfrom hto
      rwa [← hkey] at hprefix
    -- what follows the names begins with the bit of the sign, as no character does
    rw [hr] at hbegin
    have hfree : ∀ q ∈ [name, value], NulFree q := by simp [hname, hvalue]
    have hne : [counter, key] ≠ [name, value] := by
      intro heq
      obtain ⟨rfl, rfl⟩ : counter = name ∧ key = value := by simpa using heq
      exact hnames ⟨hname, hvalue⟩
    have hlength : [counter, key].length = [name, value].length := rfl
    exact Key.not_prefix_of_ne hlength hfree hne hfirst r hbegin
  have htyped : m.countsAfter counter key after = [] := by
    refine List.map_eq_nil_iff.2 (List.eq_nil_iff_forall_not_mem.2 fun e he => ?_)
    obtain ⟨⟨name, value, bucket⟩, count⟩ := e
    obtain ⟨hmem, hk⟩ := OrderedMap.mem_scan.1 he
    obtain ⟨⟨rfl, rfl⟩, _⟩ : (name = counter ∧ value = key) ∧ _ := by simpa using hk
    exact hnames ((Layout.valid_counters _).1 (h.valid _ _ (OrderedMap.get?_eq_some_iff.2 hmem)))
  change ((entriesAfter b.counters (Key.texts [counter, key]) after).take limit).mapM
    (readBucket (Key.texts [counter, key]).length) = .ok ((m.countsAfter counter key after).take limit)
  rw [hkeyed, htyped, List.take_nil, List.take_nil]
  rfl

lemma keepsCounts : KeepsCounts counters fun counts m => Layout.counters.Represents m.counters counts where
  interchanges := interchanges
  put {b b' table v} h := by
    obtain ⟨_, _, h⟩ := exists_of_bind_ok h
    rw [← Except.ok.inj h, commit_stageVersion]
  dropChain {b b' table id n} h := by
    rw [← (Prod.mk.inj (Except.ok.inj h)).2]
    exact Mirrors.space_droppedChain_of_ne (s := .counters) (by decide)
  spared {b w} hw := by
    rw [attempt_eq, guarded]
    cases w.check with
    | error err => rfl
    | ok =>
      cases w with
      | increment inc => cases hw
      | _ => rfl
  added {b m inc} hnone hm := by
    have hcheck := (admits_eq_ok_iff.1 (refusal?_eq_none_iff.1 hnone)).1
    have hfree := IndexWrite.nulFree_of_check (fun hr => by cases hr) hcheck
    rw [attempt_eq, guarded, hcheck, carry, addTo_ok (readCounter_eq hm hfree)]
    exact hm.insert ((Layout.valid_counters inc.bucketKey).2 hfree) _
  read_congr {b b'} h counter key after limit := by
    change ((entriesAfter b'.counters _ after).take limit).mapM _ = ((entriesAfter b.counters _ after).take limit).mapM _
    rw [h]
  read {b m} hm hbuckets counter key after limit := by
    by_cases hnames : NulFree counter ∧ NulFree key
    · exact countsAfter_eq hm hnames.1 hnames.2 after limit
    · exact countsAfter_of_not_nulFree hm hbuckets hnames after limit

end KeyedTables

end Chronicle
