import Mathlib.Data.List.Induction
import Mathlib.Data.List.Nodup
import Chronicle.Proofs.Table.Equivalence

namespace Chronicle

def IndexWrite.Stamps (w : IndexWrite) (e : Int64) (target : Key.ExpiryTarget) (key : Bytes) : Prop :=
  match w with
  | insert entry expires => expires = some e ∧ .index = target ∧ Key.index entry.index entry.value entry.place = key
  | _ => False

namespace TableCall

variable {calls : List TableCall} {c : TableCall} {e : Int64} {target : Key.ExpiryTarget} {key : Bytes}

def Stamps (c : TableCall) (e : Int64) (target : Key.ExpiryTarget) (key : Bytes) : Prop :=
  match c with
  | put table v => v.expires = some e ∧ .version = target ∧ Key.version table v.id v.update = key
  | write w => w.Stamps e target key
  | writeTogether ws => ∃ w ∈ ws, w.Stamps e target key
  | _ => False

def Outstanding (calls : List TableCall) (e : Int64) (target : Key.ExpiryTarget) (key : Bytes) : Prop :=
  ∃ before c rest, calls = before ++ c :: rest ∧ (c.perform (run KeyedTables.empty before)).isOk ∧
    c.Stamps e target key ∧ ∀ now, .purge now ∈ rest → ¬ Key.Due now e

def Leaves (c : TableCall) (b : KeyedTables) (P : Int64 → Key.ExpiryTarget → Bytes → Prop) (e : Int64)
    (target : Key.ExpiryTarget) (key : Bytes) : Prop :=
  (P e target key ∨ (c.perform b).isOk ∧ c.Stamps e target key) ∧ ∀ now, c = .purge now → ¬ Key.Due now e

lemma outstanding_concat : Outstanding (calls ++ [c]) e target key ↔
    c.Leaves (run KeyedTables.empty calls) (Outstanding calls) e target key := by
  constructor
  · rintro ⟨before, d, rest, heq, hok, hstamps, hrest⟩
    obtain rfl | ⟨rest, x, rfl⟩ := List.eq_nil_or_concat rest
    · obtain ⟨rfl, rfl⟩ := List.append_singleton_inj.1 heq
      refine ⟨.inr ⟨hok, hstamps⟩, ?_⟩
      rintro now rfl
      cases hstamps
    · rw [List.concat_eq_append, ← List.cons_append, ← List.append_assoc] at heq
      obtain ⟨rfl, rfl⟩ := List.append_singleton_inj.1 heq
      refine ⟨.inl ⟨before, d, rest, rfl, hok, hstamps, fun now hnow => hrest now (by simp [hnow])⟩, ?_⟩
      rintro now rfl
      exact hrest now (by simp)
  · rintro ⟨⟨before, d, rest, rfl, hok, hstamps, hrest⟩ | ⟨hok, hstamps⟩, hpurge⟩
    · refine ⟨before, d, rest ++ [c], by simp, hok, hstamps, fun now hnow => ?_⟩
      rcases List.mem_append.1 hnow with hnow | hnow
      · exact hrest now hnow
      · exact hpurge now (List.mem_singleton.1 hnow).symm
    · exact ⟨calls, c, [], rfl, hok, hstamps, fun now hnow => by cases hnow⟩

end TableCall

namespace KeyedTables

namespace Announces

variable {b b' : KeyedTables} {P : Int64 → Key.ExpiryTarget → Bytes → Prop} {w : IndexWrite} {ws : List IndexWrite}

lemma stage {changes : List Change} (h : Announces b'.expiries P) (hstage : b.stage w = .ok changes) :
    Announces (b'.commit changes).expiries fun e target key => P e target key ∨ w.Stamps e target key := by
  unfold KeyedTables.stage at hstage
  cases hc : w.check with
  | error err => rw [hc] at hstage; cases hstage
  | ok =>
    rw [hc] at hstage
    cases w with
    | insert entry expires =>
      obtain rfl := Except.ok.inj hstage
      change Announces (b'.commit (stagedWrite .empty (.insert entry expires))).expiries _
      rw [commit_staged_insert]
      exact h.announced fun e target key => Iff.rfl
    | retract entry =>
      obtain rfl := Except.ok.inj hstage
      exact h.congr fun e target key => or_iff_left id
    | increment inc =>
      change (do let count ← b.readCounter _; return [Change.put .counters _ _]) = _ at hstage
      cases hcount : b.readCounter (Key.counter inc.counter inc.key inc.bucket) with
      | error err => rw [hcount] at hstage; cases hstage
      | ok count =>
        rw [hcount] at hstage
        obtain rfl := Except.ok.inj hstage
        exact h.congr fun e target key => or_iff_left id

lemma stageEach {changes : List (List Change)} (h : Announces b'.expiries P) (hstaged : ws.mapM b.stage = .ok changes) :
    Announces (b'.commit changes.flatten).expiries fun e target key =>
      P e target key ∨ ∃ w ∈ ws, w.Stamps e target key := by
  replace hstaged := forall₂_of_mapM hstaged
  induction hstaged generalizing b' P with
  | nil => exact h.congr fun e target key => by simp
  | cons hw _ ih =>
    rw [List.flatten_cons, commit, List.foldl_append]
    exact (ih (h.stage hw)).congr fun e target key => by simp [or_assoc]

lemma exists_stamps_gatherIncrements {e : Int64} {target : Key.ExpiryTarget} {key : Bytes} :
    (∃ w ∈ gatherIncrements ws, w.Stamps e target key) ↔ ∃ w ∈ ws, w.Stamps e target key := by
  have htouches : ∀ w : IndexWrite, w.Stamps e target key → touchesIndex w = true := by
    intro w hw
    cases w with
    | insert entry expires => rfl
    | _ => cases hw
  have hfilter : ∀ gs : List IndexWrite,
      (∃ w ∈ gs, w.Stamps e target key) ↔ ∃ w ∈ gs.filter touchesIndex, w.Stamps e target key := by
    intro gs
    refine exists_congr fun w => and_congr_left fun hw => ?_
    rw [List.mem_filter, and_iff_left (htouches w hw)]
  rw [hfilter, filter_gatherIncrements, ← hfilter]

variable {c : TableCall} {err : Error} {a : TableAnswer}

lemma after_error (h : Announces b.expiries P) (hperform : c.perform b = .error err) (hpurge : ∀ now, c ≠ .purge now) :
    Announces (c.after b).expiries (c.Leaves b P) := by
  rw [TableCall.after, hperform]
  refine h.congr fun e target key => ?_
  simp [TableCall.Leaves, hperform, hpurge, Except.isOk, Except.toBool]

lemma after_ok (hperform : c.perform b = .ok (a, b'))
    (h : Announces b'.expiries fun e target key => P e target key ∨ c.Stamps e target key)
    (hpurge : ∀ now, c ≠ .purge now) : Announces (c.after b).expiries (c.Leaves b P) := by
  rw [TableCall.after, hperform]
  refine h.congr fun e target key => ?_
  simp [TableCall.Leaves, hperform, hpurge, Except.isOk, Except.toBool]

lemma after_read {α : Type} {x : Except Error α} {f : α → TableAnswer} (h : Announces b.expiries P)
    (hperform : c.perform b = x.map fun a => (f a, b)) (hstamps : ∀ e target key, ¬ c.Stamps e target key)
    (hpurge : ∀ now, c ≠ .purge now) : Announces (c.after b).expiries (c.Leaves b P) := by
  cases x with
  | error err => exact h.after_error hperform hpurge
  | ok a => exact after_ok hperform (h.congr fun e target key => by simp [hstamps]) hpurge

lemma after_write (h : Announces b.expiries P) (hperform : c.perform b = (b.writeAll ws).map fun b' => (.done, b'))
    (hstamps : ∀ e target key, c.Stamps e target key ↔ ∃ w ∈ ws, w.Stamps e target key)
    (hpurge : ∀ now, c ≠ .purge now) : Announces (c.after b).expiries (c.Leaves b P) := by
  rw [writeAll] at hperform
  cases hstaged : (gatherIncrements ws).mapM b.stage with
  | error err =>
    rw [hstaged] at hperform
    exact h.after_error hperform hpurge
  | ok staged =>
    rw [hstaged] at hperform
    refine after_ok hperform ((h.stageEach hstaged).congr fun e target key => ?_) hpurge
    rw [hstamps, exists_stamps_gatherIncrements]

lemma after (h : Announces b.expiries P) (c : TableCall) : Announces (c.after b).expiries (c.Leaves b P) := by
  cases c with
  | put table v =>
    have hperform : (TableCall.put table v).perform b =
        (refuseNul .table table).map fun _ => (.done, b.commit (stageVersion table v)) := by
      change (do refuseNul .table table; return b.commit (stageVersion table v)).map _ = _
      cases refuseNul .table table <;> rfl
    cases hnul : refuseNul .table table with
    | error err =>
      rw [hnul] at hperform
      exact h.after_error hperform (by simp)
    | ok =>
      rw [hnul] at hperform
      refine after_ok hperform ?_ (by simp)
      rw [commit_stageVersion]
      exact h.announced fun e target key => Iff.rfl
  | dropChain table id =>
    change Announces ((b.commit (Mirrors.droppedChain b table id)).space .expiries) _
    rw [Mirrors.space_droppedChain_of_ne (by decide)]
    exact h.congr fun e target key => by simp [TableCall.Leaves, TableCall.Stamps]
  | write w => exact h.after_write rfl (fun e target key => by simp [TableCall.Stamps]) (by simp)
  | writeTogether ws => exact h.after_write rfl (fun e target key => Iff.rfl) (by simp)
  | purge now =>
    rw [TableCall.after, TableCall.perform, h.purge_eq]
    refine h.settledDue.congr fun e target key => ?_
    simp [TableCall.Leaves, TableCall.Stamps]
  | version | latest | chain | idsAfter | refsAfter | countsAfter =>
    exact h.after_read rfl (fun e target key => by simp [TableCall.Stamps]) (by simp)

lemma run (calls : List TableCall) :
    Announces (TableCall.run KeyedTables.empty calls).expiries (TableCall.Outstanding calls) := by
  induction calls using List.reverseRecOn with
  | nil =>
    refine Announces.empty.congr fun e target key => ?_
    simp [TableCall.Outstanding]
  | append_singleton calls c ih =>
    rw [TableCall.run_concat]
    exact (ih.after c).congr fun e target key => TableCall.outstanding_concat

end Announces

end KeyedTables

namespace TableCall

open KeyedTables

theorem purge_takes_announced (calls : List TableCall) (now : Int64) :
    ∃ (due : List (Int64 × Key.ExpiryTarget × Bytes)) (b : KeyedTables),
      due.Nodup ∧
      (∀ e target key, (e, target, key) ∈ due ↔ Outstanding calls e target key ∧ Key.Due now e) ∧
      Tables.purge (run KeyedTables.empty calls) now = .ok (due.length, b) ∧
      b.counters = (run KeyedTables.empty calls).counters ∧
      (∀ e target key, (e, target, key) ∈ due → (b.space target.space).get? key = none) ∧
      ∀ target key, (∀ e, (e, target, key) ∉ due) →
        (b.space target.space).get? key = ((run KeyedTables.empty calls).space target.space).get? key := by
  have h := Announces.run calls
  generalize run KeyedTables.empty calls = b at h ⊢
  let row (bs : Bytes) : Int64 × Key.ExpiryTarget × Bytes := (Key.splitExpiry bs).toOption.getD (0, .version, [])
  have hrow (e : Int64) (target : Key.ExpiryTarget) (key : Bytes) : row (Key.expiry e target key) = (e, target, key) := by
    simp only [row, Key.splitExpiry_expiry]
    rfl
  have hmem (e : Int64) (target : Key.ExpiryTarget) (key : Bytes) :
      (e, target, key) ∈ (b.due now).map row ↔ Outstanding calls e target key ∧ Key.Due now e := by
    simp only [List.mem_map, h.mem_due]
    constructor
    · rintro ⟨_, ⟨e', target', key', hout, hdue, rfl⟩, heq⟩
      rw [hrow] at heq
      obtain ⟨rfl, rfl, rfl⟩ : e' = e ∧ target' = target ∧ key' = key := by simpa using heq
      exact ⟨hout, hdue⟩
    · rintro ⟨hout, hdue⟩
      exact ⟨_, ⟨e, target, key, hout, hdue, rfl⟩, hrow e target key⟩
  refine ⟨(b.due now).map row, b.commit (b.settledDue now), ?_, hmem, ?_, h.counters_settledDue, ?_, ?_⟩
  · refine (b.nodup_due now).map_on fun bs hbs bs' hbs' heq => ?_
    obtain ⟨e, target, key, _, _, rfl⟩ := h.mem_due.1 hbs
    obtain ⟨e', target', key', _, _, rfl⟩ := h.mem_due.1 hbs'
    rw [hrow, hrow] at heq
    obtain ⟨rfl, rfl, rfl⟩ : e = e' ∧ target = target' ∧ key = key' := by simpa using heq
    rfl
  · rw [List.length_map, h.purge_eq]
  · intro e target key hdue
    have hremove := h.remove_space_mem_iff.2 ⟨e, (hmem e target key).1 hdue⟩
    rw [h.space_settledDue, OrderedMap.get?_filter]
    simp [hremove]
  · intro target key hnot
    have hkeep : .remove target.space key ∉ b.settledDue now := by
      rw [h.remove_space_mem_iff]
      rintro ⟨e, he⟩
      exact hnot e ((hmem e target key).2 he)
    rw [h.space_settledDue, OrderedMap.get?_filter]
    simp only [hkeep, not_false_eq_true, decide_true]
    cases (b.space target.space).get? key <;> rfl

def rewrites : List TableCall :=
  [.put "t" ⟨⟨1⟩, ⟨2⟩, [7], some 5⟩, .put "t" ⟨⟨1⟩, ⟨2⟩, [7], none⟩, .write (.insert ⟨"i", "v", ⟨2⟩, ⟨1⟩⟩ (some 6)),
    .write (.retract ⟨"i", "v", ⟨2⟩, ⟨1⟩⟩), .version "t" ⟨1⟩ ⟨2⟩, .purge 10, .version "t" ⟨1⟩ ⟨2⟩]

theorem purge_takes_unexpired :
    answers KeyedTables.empty rewrites = [.ok .done, .ok .done, .ok .done, .ok .done,
        .ok (.version (some ⟨⟨1⟩, ⟨2⟩, [7], none⟩)), .ok (.number 2), .ok (.version none)] ∧
      answers MemoryTables.empty rewrites = [.ok .done, .ok .done, .ok .done, .ok .done,
        .ok (.version (some ⟨⟨1⟩, ⟨2⟩, [7], none⟩)), .ok (.number 0), .ok (.version (some ⟨⟨1⟩, ⟨2⟩, [7], none⟩))] := by
  decide +kernel

end TableCall

end Chronicle
