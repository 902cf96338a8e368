import Chronicle.Proofs.Table.Commuting
import Chronicle.Proofs.Table.Origins

namespace Chronicle

namespace IndexWrite

variable {w : IndexWrite}

def Invalid (w : IndexWrite) : Prop := w.isRetract = false ∧ ¬ w.NulFree

instance (w : IndexWrite) : Decidable w.Invalid := inferInstanceAs (Decidable (_ ∧ _))

lemma check_of_nulFree (h : w.NulFree) : w.check = .ok () := by
  cases w with
  | insert entry expires =>
    change (do refuseNul .index entry.index; refuseNul .indexValue entry.value) = _
    rw [refuseNul_eq_ok_iff.2 h.1]
    exact refuseNul_eq_ok_iff.2 h.2
  | retract entry => rfl
  | increment inc =>
    change (do refuseNul .counter inc.counter; refuseNul .counterKey inc.key) = _
    rw [refuseNul_eq_ok_iff.2 h.1]
    exact refuseNul_eq_ok_iff.2 h.2

lemma check_eq_ok_iff : w.check = .ok () ↔ ¬ w.Invalid := by
  constructor
  · rintro hcheck ⟨hretract, hnul⟩
    exact hnul (nulFree_of_check (fun hr => by rw [hretract] at hr; cases hr) hcheck)
  · intro h
    by_cases hnul : w.NulFree
    · exact check_of_nulFree hnul
    · cases w with
      | retract entry => rfl
      | _ => exact absurd ⟨rfl, hnul⟩ h

lemma exists_check_error (h : w.Invalid) : ∃ e, w.check = .error e := by
  cases hcheck : w.check with
  | error e => exact ⟨e, rfl⟩
  | ok => exact absurd h (check_eq_ok_iff.1 hcheck)

end IndexWrite

section

variable {σ : Type} [Tables σ] {t : σ} {ws : List IndexWrite}

lemma write_eq_of_refusal? {w : IndexWrite} (h : refusal? t w = none) : Tables.write t w = .ok (attempt t w) := by
  unfold refusal? at h
  unfold attempt
  cases hwrite : Tables.write t w with
  | ok t' => rfl
  | error e =>
    rw [hwrite] at h
    cases h

lemma Interchanges.foldlM_write (h : Interchanges σ) (hnone : ∀ w ∈ ws, refusal? t w = none) :
    ws.foldlM Tables.write t = .ok (ws.foldl attempt t) := by
  induction ws generalizing t with
  | nil => rfl
  | cons w ws ih =>
    obtain ⟨hw, hrest⟩ := List.forall_mem_cons.1 hnone
    rw [List.foldlM_cons, write_eq_of_refusal? hw]
    refine ih fun w' hw' => ?_
    rw [h.steady]
    exact hrest w' hw'

structure InTurnOrNone (t : σ) (ws : List IndexWrite) : Prop where
  in_turn : (∀ w ∈ ws, ¬ w.Invalid) → ∃ t', Tables.writeTogether t ws = .ok t' ∧ ws.foldlM Tables.write t = .ok t'
  none : ∀ before w after, ws = before ++ w :: after → (∀ w' ∈ before, ¬ w'.Invalid) → w.Invalid →
    (∃ e, Tables.write t w = .error e ∧ Tables.writeTogether t ws = .error e) ∧
      (TableCall.writeTogether ws).after t = t

lemma Interchanges.inTurnOrNone (h : Interchanges σ)
    (hwrite : ∀ w, (Tables.write t w).map (fun _ => ()) = w.check)
    (hbatch : ∀ e, ws.forM IndexWrite.check = .error e → Tables.writeTogether t ws = .error e) : InTurnOrNone t ws := by
  refine ⟨fun hvalid => ?_, fun before w after heq hbefore hw => ?_⟩
  · have hnone (w : IndexWrite) (hw : w ∈ ws) : refusal? t w = .none := by
      have hcheck := hwrite w
      rw [IndexWrite.check_eq_ok_iff.2 (hvalid w hw)] at hcheck
      obtain ⟨t', ht', _⟩ := exists_of_map_ok hcheck
      rw [refusal?, ht']
    exact ⟨_, h.together.2 ⟨hnone, rfl⟩, h.foldlM_write hnone⟩
  · obtain ⟨e, he⟩ := IndexWrite.exists_check_error hw
    have hfirst : ws.forM IndexWrite.check = .error e := by
      rw [heq]
      exact forM_of_first (fun w' hw' => IndexWrite.check_eq_ok_iff.2 (hbefore w' hw')) he
    have herror := hbatch e hfirst
    refine ⟨⟨e, eq_error_of_map ((hwrite w).trans he), herror⟩, ?_⟩
    rw [TableCall.after, TableCall.perform, herror]
    rfl

end

namespace MemoryTables

lemma writeTogether_eq (t : MemoryTables) (ws : List IndexWrite) :
    Tables.writeTogether t ws = (ws.forM IndexWrite.check).map fun _ => ws.foldl write t := by
  change (do ws.forM IndexWrite.check; return ws.foldl write t : Except Error MemoryTables) = _
  cases ws.forM IndexWrite.check <;> rfl

lemma foldlM_write {t : MemoryTables} {ws : List IndexWrite} (h : ∀ w ∈ ws, w.check = .ok ()) :
    ws.foldlM Tables.write t = .ok (ws.foldl write t) := by
  rw [interchanges.foldlM_write fun w hw => refusal?_eq_none_iff.2 (h w hw), foldl_attempt h]

lemma inTurnOrNone (t : MemoryTables) (ws : List IndexWrite) : InTurnOrNone t ws := by
  refine interchanges.inTurnOrNone (fun w => ?_) fun e he => ?_
  · rw [write_eq]
    cases w.check <;> rfl
  · rw [writeTogether_eq, he]
    rfl

end MemoryTables

namespace KeyedTables

variable {b : KeyedTables} {ws : List IndexWrite}

def Legible (b : KeyedTables) : Prop := ∀ key, ∃ count, b.readCounter key = .ok count

lemma legible_run (calls : List TableCall) : (TableCall.run KeyedTables.empty calls).Legible := by
  intro key
  rw [readCounter]
  cases hget : (TableCall.run KeyedTables.empty calls).counters.get? key with
  | none => exact ⟨0, rfl⟩
  | some bs =>
    obtain ⟨c, _, hputs⟩ := TableCall.exists_puts (s := .counters) (by decide) hget
    cases hputs with
    | count n _ _ => exact ⟨n, Codec.readCount_encodeCount n⟩

lemma Legible.admits_eq (h : b.Legible) (w : IndexWrite) : b.admits w = w.check := by
  unfold admits
  cases w.check with
  | error e => rfl
  | ok =>
    cases w.bucket? with
    | none => rfl
    | some k =>
      obtain ⟨count, hcount⟩ := h (Layout.counters.key k)
      change ((b.readCounter (Layout.counters.key k)).map fun _ => ()) = _
      rw [hcount]
      rfl

lemma Legible.map_stage (h : b.Legible) (w : IndexWrite) : ((b.stage w).map fun _ => ()) = w.check :=
  (KeyedTables.map_stage b w).trans (h.admits_eq w)

lemma Legible.map_mapM_stage (h : b.Legible) (ws : List IndexWrite) :
    ((ws.mapM b.stage).map fun _ => ()) = ws.forM IndexWrite.check := by
  induction ws with
  | nil => rfl
  | cons w ws ih =>
    change _ = (w.check >>= fun _ => ws.forM IndexWrite.check)
    rw [List.mapM_cons, ← ih, ← h.map_stage w]
    cases b.stage w with
    | error e => rfl
    | ok changes => cases ws.mapM b.stage <;> rfl

lemma Legible.inTurnOrNone (h : b.Legible) (ws : List IndexWrite) : InTurnOrNone b ws := by
  refine interchanges.inTurnOrNone (fun w => ?_) fun e he => ?_
  · rw [write_eq, ← h.map_stage w]
    cases b.stage w <;> rfl
  · rw [← forM_check_gatherIncrements, ← h.map_mapM_stage] at he
    change b.writeAll ws = _
    unfold writeAll
    rw [eq_error_of_map he]
    rfl

end KeyedTables

theorem writeTogether_in_turn_or_none (ws : List IndexWrite) :
    (∀ t : MemoryTables, InTurnOrNone t ws) ∧
      ∀ calls : List TableCall, InTurnOrNone (TableCall.run KeyedTables.empty calls) ws :=
  ⟨fun t => t.inTurnOrNone ws, fun calls => (KeyedTables.legible_run calls).inTurnOrNone ws⟩

end Chronicle
