import Chronicle.Proofs.Table.Purge
import Chronicle.Proofs.Table.Ranges

/-! Typed tables and keyed tables answer every sequence of calls alike, errors included. -/

namespace Chronicle

inductive TableCall where
  | put (table : String) (v : StoredVersion)
  | version (table : String) (id update : Identifier)
  | latest (table : String) (id : Identifier)
  | chain (table : String) (id : Identifier)
  | dropChain (table : String) (id : Identifier)
  | idsAfter (table : String) (after : Option Identifier) (limit : Nat)
  | write (w : IndexWrite)
  | writeTogether (ws : List IndexWrite)
  | refsAfter (index value : String) (after : Option Identifier) (limit : Nat)
  | countsAfter (counter key : String) (after : Option Int64) (limit : Nat)
  | purge (now : Int64)
deriving DecidableEq

inductive TableAnswer where
  | done
  | version (v : Option StoredVersion)
  | chain (vs : List StoredVersion)
  | number (n : Nat)
  | ids (ids : List Identifier)
  | refs (refs : List IndexRef)
  | counts (counts : List (Int64 × UInt64))
deriving DecidableEq

namespace TableCall

section

variable {σ : Type} [Tables σ]

def perform (t : σ) : TableCall → Except Error (TableAnswer × σ)
  | put table v => (Tables.put t table v).map fun t' => (.done, t')
  | version table id u => (Tables.version? t table id u).map fun v => (.version v, t)
  | latest table id => (Tables.latest? t table id).map fun v => (.version v, t)
  | chain table id => (Tables.chain t table id).map fun vs => (.chain vs, t)
  | dropChain table id => (Tables.dropChain t table id).map fun (n, t') => (.number n, t')
  | idsAfter table after limit => (Tables.idsAfter t table after limit).map fun ids => (.ids ids, t)
  | write w => (Tables.write t w).map fun t' => (.done, t')
  | writeTogether ws => (Tables.writeTogether t ws).map fun t' => (.done, t')
  | refsAfter index value after limit => (Tables.refsAfter t index value after limit).map fun refs => (.refs refs, t)
  | countsAfter counter key after limit => (Tables.countsAfter t counter key after limit).map fun cs => (.counts cs, t)
  | purge now => (Tables.purge t now).map fun (n, t') => (.number n, t')

def answer (t : σ) (c : TableCall) : Except Error TableAnswer := (c.perform t).map (·.1)

def after (t : σ) (c : TableCall) : σ :=
  match c.perform t with
  | .ok (_, t') => t'
  | .error _ => t

def answers (t : σ) : List TableCall → List (Except Error TableAnswer)
  | [] => []
  | c :: cs => c.answer t :: answers (c.after t) cs

def run (t : σ) (calls : List TableCall) : σ := calls.foldl after t

lemma run_concat (t : σ) (calls : List TableCall) (c : TableCall) : run t (calls ++ [c]) = c.after (run t calls) := by
  rw [run, List.foldl_append]
  rfl

end

def NulFree : TableCall → Prop
  | put _ _ => True
  | version table _ _ => Chronicle.NulFree table
  | latest table _ => Chronicle.NulFree table
  | chain table _ => Chronicle.NulFree table
  | dropChain table _ => Chronicle.NulFree table
  | idsAfter table _ _ => Chronicle.NulFree table
  | write w => w.isRetract = true → w.NulFree
  | writeTogether ws => ∀ w ∈ ws, w.isRetract = true → w.NulFree
  | refsAfter index value _ _ => Chronicle.NulFree index ∧ Chronicle.NulFree value
  | countsAfter counter key _ _ => Chronicle.NulFree counter ∧ Chronicle.NulFree key
  | purge _ => True

instance : (c : TableCall) → Decidable c.NulFree
  | put .. | purge _ => inferInstanceAs (Decidable True)
  | version table .. | latest table _ | chain table _ | dropChain table _ | idsAfter table .. =>
    inferInstanceAs (Decidable (Chronicle.NulFree table))
  | write w => inferInstanceAs (Decidable (w.isRetract = true → w.NulFree))
  | writeTogether ws => inferInstanceAs (Decidable (∀ w ∈ ws, w.isRetract = true → w.NulFree))
  | refsAfter name value .. | countsAfter name value .. =>
    inferInstanceAs (Decidable (Chronicle.NulFree name ∧ Chronicle.NulFree value))

def Fits : TableCall → Prop
  | put _ v => v.payload.Fits
  | _ => True

instance : (c : TableCall) → Decidable c.Fits
  | put _ v => inferInstanceAs (Decidable v.payload.Fits)
  | version .. | latest .. | chain .. | dropChain .. | idsAfter .. | write _ | writeTogether _ | refsAfter ..
  | countsAfter .. | purge _ => inferInstanceAs (Decidable True)

def Spares (t : MemoryTables) : TableCall → Prop
  | put table v => ∀ old ∈ t.versions.get? ⟨table, v.id, v.update⟩, old.expires = none
  | dropChain table id => ∀ v ∈ t.chain table id, v.expires = none
  | write w => w.Spares t
  | writeTogether ws => ws.forM IndexWrite.check = .ok () → IndexWrite.SpareEach t ws
  | _ => True

def SpareEach (t : MemoryTables) : List TableCall → Prop
  | [] => True
  | c :: cs => c.Spares t ∧ SpareEach (c.after t) cs

instance (t : MemoryTables) : (c : TableCall) → Decidable (c.Spares t)
  | put table v => inferInstanceAs (Decidable (∀ old ∈ t.versions.get? ⟨table, v.id, v.update⟩, old.expires = none))
  | dropChain table id => inferInstanceAs (Decidable (∀ v ∈ t.chain table id, v.expires = none))
  | write w => inferInstanceAs (Decidable (w.Spares t))
  | writeTogether ws => inferInstanceAs (Decidable (ws.forM IndexWrite.check = .ok () → IndexWrite.SpareEach t ws))
  | version .. | latest .. | chain .. | idsAfter .. | refsAfter .. | countsAfter .. | purge _ =>
    inferInstanceAs (Decidable True)

instance decidableSpareEach (t : MemoryTables) : (calls : List TableCall) → Decidable (SpareEach t calls)
  | [] => inferInstanceAs (Decidable True)
  | c :: cs =>
    have := decidableSpareEach (c.after t) cs
    inferInstanceAs (Decidable (c.Spares t ∧ SpareEach (c.after t) cs))

def PurgesInTime (calls : List TableCall) : Prop :=
  ∀ before now rest, calls = before ++ .purge now :: rest → now < Int64.maxValue ∧ SpareEach .empty before

/-- Both fail alike, or both answer alike and leave tables that are related. -/
inductive Alike (P : MemoryTables → KeyedTables → Prop) :
    Except Error (TableAnswer × MemoryTables) → Except Error (TableAnswer × KeyedTables) → Prop
  | error (e : Error) : Alike P (.error e) (.error e)
  | ok {t : MemoryTables} {b : KeyedTables} (a : TableAnswer) (h : P t b) : Alike P (.ok (a, t)) (.ok (a, b))

variable {P : MemoryTables → KeyedTables → Prop} {t : MemoryTables} {b : KeyedTables} {c : TableCall}

lemma Alike.read {α : Type} {x : Except Error α} {y : Except Error α} (h : y = x) (hP : P t b) (f : α → TableAnswer) :
    Alike P (x.map fun a => (f a, t)) (y.map fun a => (f a, b)) := by
  subst h
  cases y with
  | error e => exact .error e
  | ok a => exact .ok (f a) hP

lemma Alike.answer_eq (h : Alike P (c.perform t) (c.perform b)) : c.answer t = c.answer b := by
  unfold answer
  generalize c.perform t = x at h
  generalize c.perform b = y at h
  cases h <;> rfl

lemma Alike.after (h : Alike P (c.perform t) (c.perform b)) (hP : P t b) : P (c.after t) (c.after b) := by
  unfold TableCall.after
  generalize c.perform t = x at h
  generalize c.perform b = y at h
  cases h with
  | error e => exact hP
  | ok a h => exact h

def Keeps (c : TableCall) (t : MemoryTables) (b : KeyedTables) (t' : MemoryTables) (b' : KeyedTables) : Prop :=
  Mirrors t' b' ∧ (t.Announced b.expiries → c.Spares t → t'.Announced b'.expiries)

lemma alike_writeTogether (hm : Mirrors t b) {ws : List IndexWrite} (hws : ∀ w ∈ ws, w.isRetract = true → w.NulFree)
    (hs : ws.forM IndexWrite.check = .ok () → c.Spares t → IndexWrite.SpareEach t ws) :
    Alike (c.Keeps t b) ((writeTogether ws).perform t) ((writeTogether ws).perform b) := by
  change Alike _ ((do ws.forM IndexWrite.check; return ws.foldl MemoryTables.write t : Except Error MemoryTables).map _)
    ((b.writeAll ws).map _)
  rw [hm.writeAll_eq]
  cases hc : ws.forM IndexWrite.check with
  | error e => exact .error e
  | ok => exact .ok .done ⟨hm.writeTogether hc hws, fun ha hspares => ha.writeTogether (hs hc hspares)⟩

lemma perform_write (t : MemoryTables) (w : IndexWrite) : (write w).perform t = (writeTogether [w]).perform t := by
  change (do w.check; return t.write w : Except Error MemoryTables).map _ =
    (do (w.check >>= fun _ => .ok ()); return t.write w : Except Error MemoryTables).map _
  cases w.check <;> rfl

lemma alike_perform (hm : Mirrors t b) (hc : c.NulFree) (hf : c.Fits)
    (hpurge : ∀ now, c = .purge now → now < Int64.maxValue ∧ t.Announced b.expiries) :
    Alike (c.Keeps t b) (c.perform t) (c.perform b) := by
  have hsame : c.Keeps t b t b := ⟨hm, fun ha _ => ha⟩
  cases c with
  | put table v =>
    change Alike _ ((do refuseNul .table table; return t.put table v : Except Error MemoryTables).map _)
      ((do refuseNul .table table; return b.commit (KeyedTables.stageVersion table v)).map _)
    rw [refuseNul_eq]
    split
    · next htable => exact .ok .done ⟨hm.put htable hf, fun ha hs => ha.put hs⟩
    · exact .error _
  | version table id u => exact .read (hm.version?_eq hc id u) hsame _
  | latest table id => exact .read (hm.latest?_eq hc id) hsame _
  | chain table id => exact .read (hm.chain_eq hc id) hsame _
  | dropChain table id =>
    change Alike _ (.ok (.number (t.chain table id).length, t.dropChain table id))
      (.ok (.number ((b.storedChain table id).map (·.1)).length, b.commit (Mirrors.droppedChain b table id)))
    rw [List.length_map, hm.length_storedChain hc]
    exact .ok _ ⟨hm.dropChain hc id, fun ha hs => ha.dropChain hs⟩
  | idsAfter table after limit => exact .read (hm.idsAfter_eq hc after limit) hsame _
  | write w =>
    rw [perform_write]
    refine alike_writeTogether hm (fun w' hw' => ?_) fun _ hs => ⟨hs, trivial⟩
    obtain rfl := List.mem_singleton.1 hw'
    exact hc
  | writeTogether ws => exact alike_writeTogether hm hc fun hok hs => hs hok
  | refsAfter index value after limit => exact .read (hm.refsAfter_eq hc.1 hc.2 after limit) hsame _
  | countsAfter counter key after limit =>
    exact .read (KeyedTables.countsAfter_eq hm.counters hc.1 hc.2 after limit) hsame _
  | purge now =>
    obtain ⟨hnow, ha⟩ := hpurge now rfl
    change Alike _ (.ok (.number (t.rowCount - (t.dropExpired now).rowCount), t.dropExpired now))
      ((Tables.purge b now).map _)
    rw [KeyedTables.Announces.purge_eq ha, ← ha.length_due hnow hm]
    exact .ok _ ⟨ha.mirrors_dropExpired hnow hm, fun _ _ => ha.dropExpired hnow⟩

lemma answers_eq_of_mirrors {calls : List TableCall} (hm : Mirrors t b) (hc : ∀ c ∈ calls, c.NulFree)
    (hf : ∀ c ∈ calls, c.Fits) (hpurges : ∀ before now rest, calls = before ++ .purge now :: rest →
      now < Int64.maxValue ∧ t.Announced b.expiries ∧ SpareEach t before) :
    answers t calls = answers b calls := by
  induction calls generalizing t b with
  | nil => rfl
  | cons c cs ih =>
    have hpurge : ∀ now, c = .purge now → now < Int64.maxValue ∧ t.Announced b.expiries := by
      rintro now rfl
      obtain ⟨hnow, ha, _⟩ := hpurges [] now cs rfl
      exact ⟨hnow, ha⟩
    have halike := alike_perform hm (hc c List.mem_cons_self) (hf c List.mem_cons_self) hpurge
    obtain ⟨hm', ha'⟩ := halike.after ⟨hm, fun ha _ => ha⟩
    rw [answers, answers, halike.answer_eq]
    congr 1
    refine ih hm' (fun d hd => hc d (List.mem_cons_of_mem _ hd)) (fun d hd => hf d (List.mem_cons_of_mem _ hd)) ?_
    rintro before now rest rfl
    obtain ⟨hnow, ha, hs, hrest⟩ := hpurges (c :: before) now rest rfl
    exact ⟨hnow, ha' ha hs, hrest⟩

theorem answers_memory_eq_answers_keyed (calls : List TableCall) (hc : ∀ c ∈ calls, c.NulFree)
    (hf : ∀ c ∈ calls, c.Fits) (hpurges : PurgesInTime calls) :
    answers MemoryTables.empty calls = answers KeyedTables.empty calls := by
  refine answers_eq_of_mirrors Mirrors.empty hc hf fun before now rest hsplit => ?_
  obtain ⟨hnow, hs⟩ := hpurges before now rest hsplit
  exact ⟨hnow, MemoryTables.announced_empty, hs⟩

def shortCalls : List TableCall :=
  [.put "t" ⟨⟨1⟩, ⟨2⟩, [7], some 5⟩, .write (.insert ⟨"i", "v", ⟨Int64.maxValue⟩, ⟨1⟩⟩ (some 9)),
    .put "a\x00b" ⟨⟨1⟩, ⟨3⟩, [], none⟩,
    .writeTogether [.increment ⟨"c", "k", Int64.minValue, 18446744073709551615⟩, .retract ⟨"i", "w", ⟨1⟩, ⟨1⟩⟩,
      .increment ⟨"c", "k", Int64.minValue, 1⟩],
    .purge 8, .latest "t" ⟨1⟩, .refsAfter "i" "v" (some ⟨Int64.minValue⟩) 2,
    .refsAfter "i" "v" (some ⟨Int64.maxValue⟩) 2,
    .countsAfter "c" "k" none 1, .idsAfter "t" none 0]

theorem answers_keyed_shortCalls :
    (∀ c ∈ shortCalls, c.NulFree) ∧ (∀ c ∈ shortCalls, c.Fits) ∧ PurgesInTime shortCalls ∧
      answers KeyedTables.empty shortCalls = [
        .ok .done, .ok .done, .error (.argument (.holdsNul .table "a\x00b")), .ok .done, .ok (.number 1),
        .ok (.version none), .ok (.refs [⟨⟨Int64.maxValue⟩, ⟨1⟩⟩]), .ok (.refs []),
        .ok (.counts [(Int64.minValue, 18446744073709551615)]), .ok (.ids [])] := by
  have hc : ∀ c ∈ shortCalls, c.NulFree := by decide +kernel
  have hf : ∀ c ∈ shortCalls, c.Fits := by decide +kernel
  have hp : PurgesInTime shortCalls := by
    intro before now rest h
    simp only [shortCalls, List.cons_eq_append_iff, List.nil_eq_append_iff, List.cons.injEq, purge.injEq, reduceCtorEq,
      and_false, false_and, or_false, false_or, exists_false] at h
    obtain ⟨_, rfl, _, rfl, _, rfl, _, rfl, rfl, rfl, rfl⟩ := h
    exact ⟨by decide, by decide +kernel⟩
  refine ⟨hc, hf, hp, ?_⟩
  rw [← answers_memory_eq_answers_keyed shortCalls hc hf hp]
  decide +kernel

end TableCall

end Chronicle
