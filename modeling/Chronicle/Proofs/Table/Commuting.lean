import Chronicle.Proofs.Table.Writes

/-! Index writes that may be carried out one by one in every order, or as a batch. -/

namespace Chronicle

section

variable {σ : Type} [Tables σ]

def attempt (t : σ) (w : IndexWrite) : σ :=
  match Tables.write t w with
  | .ok t' => t'
  | .error _ => t

def refusal? (t : σ) (w : IndexWrite) : Option Error :=
  match Tables.write t w with
  | .ok _ => none
  | .error e => some e

def IndexWrite.Agrees : IndexWrite → IndexWrite → Prop
  | insert entry expires, insert entry' expires' =>
    entry.key = entry'.key → entry.entity = entry'.entity ∧ expires = expires'
  | insert entry _, retract entry' => entry.key ≠ entry'.key
  | retract entry, insert entry' _ => entry.key ≠ entry'.key
  | _, _ => True

def Steady (σ : Type) [Tables σ] : Prop :=
  ∀ (t : σ) (w w' : IndexWrite), refusal? (attempt t w) w' = refusal? t w'

/-- Tables on which index writes do not get into each other's way. -/
structure Interchanges (σ : Type) [Tables σ] : Prop where
  steady : Steady σ
  comm : ∀ (t : σ) (w w' : IndexWrite), w.Agrees w' → attempt (attempt t w) w' = attempt (attempt t w') w
  together : ∀ {t t' : σ} {ws : List IndexWrite},
    Tables.writeTogether t ws = .ok t' ↔ (∀ w ∈ ws, refusal? t w = none) ∧ ws.foldl attempt t = t'

/-- In every order the index writes leave the same tables, and each fails where it fails on its own. The report on tasks
for them is the same under every schedule. If none fails, they may be carried out as a batch. -/
structure OrderFree (t : σ) (ws : List IndexWrite) : Prop where
  tables_eq : ∀ ws' : List IndexWrite, ws'.Perm ws → ws'.foldl attempt t = ws.foldl attempt t
  refusal_eq : ∀ before w after, (before ++ w :: after).Perm ws → refusal? (before.foldl attempt t) w = refusal? t w
  each_eq : ∀ ws' : List IndexWrite, ws'.Perm ws → ∀ schedule, deliverEach schedule t ws' =
    (ws.foldl attempt t, ws'.countP fun w => (refusal? t w).isNone,
      ws'.filterMap fun w => (refusal? t w).map (Undelivered.of w))
  together : (∀ w ∈ ws, refusal? t w = none) → ∀ ws' : List IndexWrite, ws'.Perm ws → ∀ schedule,
    deliverTogether t ws' = deliverEach schedule t ws

namespace Schedule

variable (schedule : Schedule) (ws : List IndexWrite)

def writes : List IndexWrite := (schedule.order ws).map Prod.fst

lemma perm_writes : (schedule.writes ws).Perm ws := by
  have h := (schedule.perm ws).map Prod.fst
  rwa [List.zipIdx_map_fst] at h

lemma writes_inOrder : inOrder.writes ws = ws := List.zipIdx_map_fst 0 ws

lemma nodup_places : ((schedule.order ws).map Prod.snd).Nodup := by
  have h := (schedule.perm ws).map Prod.snd
  rw [List.zipIdx_map_snd] at h
  exact h.nodup_iff.2 (List.nodup_range' 1)

end Schedule

section Tasks

variable {t : σ} {met : Nat → Option Error} {tasks : List (IndexWrite × Nat)}

lemma runTasks_cons (t : σ) (met : Nat → Option Error) (task : IndexWrite × Nat) (tasks : List (IndexWrite × Nat)) :
    runTasks t met (task :: tasks) =
      runTasks (attempt t task.1) (fun p => if p = task.2 then (refusal? t task.1).or (met p) else met p) tasks := by
  rw [runTasks, attempt, refusal?]
  cases Tables.write t task.1 with
  | ok t' => simp
  | error e => simp

lemma fst_runTasks (t : σ) (met : Nat → Option Error) (tasks : List (IndexWrite × Nat)) :
    (runTasks t met tasks).1 = (tasks.map Prod.fst).foldl attempt t := by
  induction tasks generalizing t met with
  | nil => rfl
  | cons task tasks ih => rw [runTasks_cons, ih, List.map_cons, List.foldl_cons]

lemma snd_runTasks_of_notMem {place : Nat} (h : place ∉ tasks.map Prod.snd) :
    (runTasks t met tasks).2 place = met place := by
  induction tasks generalizing t met with
  | nil => rfl
  | cons task tasks ih =>
    rw [List.map_cons, List.mem_cons, not_or] at h
    rw [runTasks_cons, ih h.2, if_neg h.1]

lemma Steady.snd_runTasks (h : Steady σ) (hd : (tasks.map Prod.snd).Nodup)
    (hmet : ∀ task ∈ tasks, met task.2 = none) {task : IndexWrite × Nat} (htask : task ∈ tasks) :
    (runTasks t met tasks).2 task.2 = refusal? t task.1 := by
  induction tasks generalizing t met with
  | nil => cases htask
  | cons first tasks ih =>
    rw [List.map_cons, List.nodup_cons] at hd
    obtain ⟨hfirst, hmet⟩ := List.forall_mem_cons.1 hmet
    rw [runTasks_cons]
    rcases List.mem_cons.1 htask with rfl | htask
    · rw [snd_runTasks_of_notMem hd.1, if_pos rfl, hfirst, Option.or_none]
    · have hother : ∀ task ∈ tasks, task.2 ≠ first.2 := fun task htask heq =>
        hd.1 (heq ▸ List.mem_map_of_mem htask)
      rw [ih hd.2 (fun task htask => by rw [if_neg (hother task htask), hmet task htask]) htask, h]

end Tasks

variable {t : σ} {ws : List IndexWrite}

lemma Steady.deliverEach_eq (h : Steady σ) (schedule : Schedule) (t : σ) (ws : List IndexWrite) :
    deliverEach schedule t ws = ((schedule.writes ws).foldl attempt t, ws.countP fun w => (refusal? t w).isNone,
      ws.filterMap fun w => (refusal? t w).map (Undelivered.of w)) := by
  have hmet : ∀ task ∈ ws.zipIdx, (runTasks t (fun _ => none) (schedule.order ws)).2 task.2 = refusal? t task.1 :=
    fun task htask => h.snd_runTasks (schedule.nodup_places ws) (fun _ _ => rfl) ((schedule.perm ws).mem_iff.2 htask)
  have hcount : ws.zipIdx.countP (fun task => ((runTasks t (fun _ => none) (schedule.order ws)).2 task.2).isNone) =
      (ws.zipIdx.map Prod.fst).countP fun w => (refusal? t w).isNone := by
    rw [List.countP_map]
    exact List.countP_congr fun task htask => by rw [hmet task htask]; rfl
  have hfailed : ws.zipIdx.filterMap (fun task => ((runTasks t (fun _ => none) (schedule.order ws)).2 task.2).map
      (Undelivered.of task.1)) = (ws.zipIdx.map Prod.fst).filterMap fun w => (refusal? t w).map (Undelivered.of w) := by
    rw [List.filterMap_map]
    exact List.filterMap_congr fun task htask => by rw [hmet task htask]; rfl
  change (_, _, _) = _
  rw [hcount, hfailed, fst_runTasks, List.zipIdx_map_fst, Schedule.writes]

lemma Steady.refusal?_foldl (h : Steady σ) (t : σ) (ws : List IndexWrite) (w : IndexWrite) :
    refusal? (ws.foldl attempt t) w = refusal? t w := by
  induction ws generalizing t with
  | nil => rfl
  | cons w' ws ih => rw [List.foldl_cons, ih, h]

namespace Interchanges

lemma deliverEach_of_admitted (h : Interchanges σ) (hnone : ∀ w ∈ ws, refusal? t w = none) (schedule : Schedule) :
    deliverEach schedule t ws = ((schedule.writes ws).foldl attempt t, ws.length, []) := by
  have hcount : ws.countP (fun w => (refusal? t w).isNone) = ws.length :=
    List.countP_eq_length.2 fun w hw => by rw [hnone w hw]; rfl
  have hfailed : (ws.filterMap fun w => (refusal? t w).map (Undelivered.of w)) = [] :=
    List.filterMap_eq_nil_iff.2 fun w hw => by rw [hnone w hw]; rfl
  rw [h.steady.deliverEach_eq, hcount, hfailed]

lemma foldl_perm (h : Interchanges σ) (hagrees : ∀ w ∈ ws, ∀ w' ∈ ws, w.Agrees w') {ws' : List IndexWrite}
    (hp : ws'.Perm ws) (t : σ) : ws'.foldl attempt t = ws.foldl attempt t :=
  hp.foldl_eq' (fun w hw w' hw' z => h.comm z w w' (hagrees w (hp.mem_iff.1 hw) w' (hp.mem_iff.1 hw'))) t

lemma orderFree (h : Interchanges σ) (hagrees : ∀ w ∈ ws, ∀ w' ∈ ws, w.Agrees w') (t : σ) : OrderFree t ws := by
  refine ⟨fun ws' hp => h.foldl_perm hagrees hp t, fun before w _ _ => h.steady.refusal?_foldl t before w,
    fun ws' hp schedule => ?_, fun hnone ws' hp schedule => ?_⟩
  · rw [h.steady.deliverEach_eq, h.foldl_perm hagrees ((schedule.perm_writes ws').trans hp)]
  · rw [deliverTogether, h.together.2 ⟨fun w hw => hnone w (hp.mem_iff.1 hw), rfl⟩, h.deliverEach_of_admitted hnone,
      h.foldl_perm hagrees (schedule.perm_writes ws), h.foldl_perm hagrees hp, hp.length_eq]

lemma deliver_independent (h : Interchanges σ) (schedule : Schedule) (t : σ) (plan : WritePlan) :
    (deliver (.independent schedule) t plan).1 = (schedule.writes plan.indexWrites).foldl attempt t := by
  change (deliverEach schedule t plan.indexWrites).1 = _
  rw [h.steady.deliverEach_eq]

lemma deliver_eq_or (h : Interchanges σ) (delivery : Delivery) (t : σ) (plan : WritePlan) :
    (∃ ws : List IndexWrite, ws.Perm plan.indexWrites ∧ (deliver delivery t plan).1 = ws.foldl attempt t) ∨
      (deliver delivery t plan).1 = t := by
  cases delivery with
  | independent schedule => exact .inl ⟨_, schedule.perm_writes _, h.deliver_independent schedule t plan⟩
  | batched =>
    change (∃ ws : List IndexWrite, _ ∧ (deliverTogether t plan.indexWrites).1 = _) ∨
      (deliverTogether t plan.indexWrites).1 = _
    unfold deliverTogether
    split
    · next t' ht' => exact .inl ⟨_, .refl _, (h.together.1 ht').2.symm⟩
    · exact .inr rfl

lemma deliver_of_isComplete (h : Interchanges σ) {delivery : Delivery} {plan : WritePlan}
    (hcomplete : (deliver delivery t plan).2.isComplete = true) :
    (∀ w ∈ plan.indexWrites, refusal? t w = none) ∧
      ∃ ws : List IndexWrite, ws.Perm plan.indexWrites ∧ (deliver delivery t plan).1 = ws.foldl attempt t := by
  cases delivery with
  | independent schedule =>
    refine ⟨?_, _, schedule.perm_writes _, h.deliver_independent schedule t plan⟩
    have hfailed : (deliverEach schedule t plan.indexWrites).2.2 = [] := by
      simpa [deliver, DeliveryReport.isComplete] using hcomplete
    rw [h.steady.deliverEach_eq, List.filterMap_eq_nil_iff] at hfailed
    exact fun w hw => by simpa using hfailed w hw
  | batched =>
    have hfailed : (deliverTogether t plan.indexWrites).2.2 = [] := by
      simpa [deliver, DeliveryReport.isComplete] using hcomplete
    change _ ∧ ∃ ws : List IndexWrite, _ ∧ (deliverTogether t plan.indexWrites).1 = _
    unfold deliverTogether at hfailed ⊢
    split
    · next t' ht' =>
      obtain ⟨hnone, hfold⟩ := h.together.1 ht'
      exact ⟨hnone, _, .refl _, hfold.symm⟩
    · next err herr =>
      simp only [herr, List.map_eq_nil_iff] at hfailed
      rw [hfailed]
      exact ⟨List.forall_mem_nil _, [], .refl _, rfl⟩

end Interchanges

lemma OrderFree.deliver_eq {plan : WritePlan} (h : OrderFree t plan.indexWrites)
    (hnone : ∀ w ∈ plan.indexWrites, refusal? t w = none) (schedule : Schedule) :
    deliver .batched t plan = deliver (.independent schedule) t plan := by
  simp only [deliver, h.together hnone _ (List.Perm.refl _) schedule]

end

def guarded {τ : Type} (f : τ → IndexWrite → τ) (t : τ) (w : IndexWrite) : τ :=
  match w.check with
  | .ok _ => f t w
  | .error _ => t

structure Exchanges {τ : Type} (f : τ → IndexWrite → τ) : Prop where
  merge : ∀ (t : τ) (e inc : Increment), e.bucketKey = inc.bucketKey →
    f (f t (.increment e)) (.increment inc) =
      f t (.increment { e with amount := Saturating.addCount e.amount inc.amount })
  comm : ∀ (t : τ) (w w' : IndexWrite), w.check = .ok () → w'.check = .ok () → w.Agrees w' →
    f (f t w) w' = f (f t w') w

namespace Exchanges

variable {τ : Type} {f : τ → IndexWrite → τ}

lemma guarded_comm (h : Exchanges f) (t : τ) {w w' : IndexWrite} (hagrees : w.Agrees w') :
    guarded f (guarded f t w) w' = guarded f (guarded f t w') w := by
  unfold guarded
  cases hw : w.check <;> cases hw' : w'.check <;> simp only
  exact h.comm t w w' hw hw' hagrees

lemma addsUp (h : Exchanges f) : AddsUp (guarded f) where
  merge t e inc hkey := by
    have hcheck : (IndexWrite.increment e).check = (IndexWrite.increment inc).check :=
      KeyedTables.check_of_bucket?_eq (congrArg some hkey)
    have hmerged (amount : UInt64) :
        (IndexWrite.increment { e with amount }).check = (IndexWrite.increment e).check := rfl
    simp only [guarded, hmerged, hcheck]
    cases (IndexWrite.increment inc).check with
    | ok => exact h.merge t e inc hkey
    | error err => rfl
  comm t w inc _ := h.guarded_comm t (by cases w <;> trivial)

end Exchanges

lemma increments_comm {τ : Type} {f : τ → IndexWrite → τ} {e inc : Increment} (hkey : e.bucketKey = inc.bucketKey)
    (hmerge : ∀ (t : τ) (e inc : Increment), e.bucketKey = inc.bucketKey → f (f t (.increment e)) (.increment inc) =
      f t (.increment { e with amount := Saturating.addCount e.amount inc.amount })) (t : τ) :
    f (f t (.increment e)) (.increment inc) = f (f t (.increment inc)) (.increment e) := by
  rw [hmerge t e inc hkey, hmerge t inc e hkey.symm]
  obtain ⟨counter, key, bucket, amount⟩ := e
  obtain ⟨counter', key', bucket', amount'⟩ := inc
  obtain ⟨rfl, rfl, rfl⟩ := NamedKey.mk.inj hkey
  rw [Saturating.addCount_comm]

namespace MemoryTables

lemma exchanges_write : Exchanges write where
  merge _ _ _ := write_increment_increment
  comm t w w' _ _ h := by
    cases w with
    | insert entry expires =>
      cases w' with
      | insert entry' expires' =>
        have hcell : entry.key = entry'.key → IndexCell.mk entry.entity expires = ⟨entry'.entity, expires'⟩ := by
          intro hkey
          obtain ⟨hentity, hexpires⟩ := h hkey
          rw [hentity, hexpires]
        exact congrArg (fun m => { t with indexes := m }) (OrderedMap.insert_comm _ hcell)
      | retract entry' => exact congrArg (fun m => { t with indexes := m }) (OrderedMap.insert_erase_comm _ h _)
      | increment inc => rfl
    | retract entry =>
      cases w' with
      | insert entry' expires' =>
        exact congrArg (fun m => { t with indexes := m }) (OrderedMap.insert_erase_comm _ (Ne.symm h) _).symm
      | retract entry' => exact congrArg (fun m => { t with indexes := m }) (OrderedMap.erase_comm ..)
      | increment inc => rfl
    | increment e =>
      cases w' with
      | increment inc =>
        by_cases hkey : e.bucketKey = inc.bucketKey
        · exact increments_comm hkey (fun _ _ _ => write_increment_increment) t
        · exact write_comm fun heq => hkey (Option.some.inj heq)
      | _ => rfl

lemma write_eq (t : MemoryTables) (w : IndexWrite) : Tables.write t w = w.check.map fun _ => t.write w := by
  change (do w.check; return t.write w : Except Error MemoryTables) = _
  cases w.check <;> rfl

lemma attempt_eq (t : MemoryTables) : attempt t = guarded write t := by
  funext w
  rw [attempt, guarded, write_eq]
  cases w.check <;> rfl

lemma refusal?_eq_none_iff {t : MemoryTables} {w : IndexWrite} : refusal? t w = none ↔ w.check = .ok () := by
  rw [refusal?, write_eq]
  cases w.check <;> simp [Except.map]

lemma foldl_attempt {t : MemoryTables} {ws : List IndexWrite} (h : ∀ w ∈ ws, w.check = .ok ()) :
    ws.foldl attempt t = ws.foldl write t :=
  List.foldl_ext _ _ t fun t' w hw => by rw [attempt_eq, guarded, h w hw]

lemma interchanges : Interchanges MemoryTables where
  steady t w w' := by
    rw [refusal?, refusal?, write_eq, write_eq]
    cases w'.check <;> rfl
  comm t w w' h := by
    simp only [attempt_eq]
    exact exchanges_write.guarded_comm t h
  together {t t' ws} := by
    simp only [refusal?_eq_none_iff]
    constructor
    · intro h
      obtain ⟨_, hforM, _⟩ := exists_of_bind_ok h
      have hcheck := forM_eq_ok_iff.1 hforM
      exact ⟨hcheck, (foldl_attempt hcheck).trans (writeTogether_ok h).symm⟩
    · rintro ⟨hcheck, rfl⟩
      change (do ws.forM IndexWrite.check; return ws.foldl write t : Except Error MemoryTables) = _
      rw [forM_eq_ok_iff.2 hcheck, foldl_attempt hcheck]
      rfl

lemma deliver_of_isComplete {t : MemoryTables} {delivery : Delivery} {plan : WritePlan}
    (hagrees : ∀ w ∈ plan.indexWrites, ∀ w' ∈ plan.indexWrites, w.Agrees w')
    (h : (deliver delivery t plan).2.isComplete = true) :
    (deliver delivery t plan).1 = plan.indexWrites.foldl write t := by
  obtain ⟨hnone, ws, hp, heq⟩ := interchanges.deliver_of_isComplete h
  rw [heq, interchanges.foldl_perm hagrees hp, foldl_attempt fun w hw => refusal?_eq_none_iff.1 (hnone w hw)]

end MemoryTables

namespace KeyedTables

variable {b b' : KeyedTables} {w : IndexWrite} {ws : List IndexWrite}

def addTo (b : KeyedTables) (key : Bytes) (amount : UInt64) : KeyedTables :=
  match b.readCounter key with
  | .ok count =>
    { b with counters := b.counters.insert key (Layout.counters.form (Saturating.addCount count amount)) }
  | .error _ => b

def carry (b : KeyedTables) : IndexWrite → KeyedTables
  | .insert entry expires =>
    { b with
      indexes := b.indexes.insert (Layout.indexes.key entry.key) (Layout.indexes.form ⟨entry.entity, expires⟩)
      expiries := announced b.expiries expires .index (Layout.indexes.key entry.key) }
  | .retract entry => { b with indexes := b.indexes.erase (Layout.indexes.key entry.key) }
  | .increment inc => b.addTo (Layout.counters.key inc.bucketKey) inc.amount

lemma addTo_ok {key : Bytes} {count : UInt64} (h : b.readCounter key = .ok count) (amount : UInt64) :
    b.addTo key amount =
      { b with counters := b.counters.insert key (Layout.counters.form (Saturating.addCount count amount)) } := by
  rw [addTo, h]

lemma addTo_error {key : Bytes} {err : Error} (h : b.readCounter key = .error err) (amount : UInt64) :
    b.addTo key amount = b := by
  rw [addTo, h]

lemma readCounter_addTo (b : KeyedTables) (key key' : Bytes) (amount : UInt64) :
    (b.addTo key amount).readCounter key' =
      if key' = key then (b.readCounter key).map fun count => Saturating.addCount count amount
      else b.readCounter key' := by
  cases hcount : b.readCounter key with
  | error err =>
    rw [addTo_error hcount]
    split
    · next hkey => rw [hkey, hcount]; rfl
    · rfl
  | ok count =>
    rw [addTo_ok hcount, readCounter, OrderedMap.get?_insert]
    by_cases hkey : key' = key
    · rw [if_pos hkey, if_pos hkey]
      exact Codec.readCount_encodeCount _
    · rw [if_neg hkey, if_neg hkey]
      rfl

lemma addTo_addTo (b : KeyedTables) (key : Bytes) (amount amount' : UInt64) :
    (b.addTo key amount).addTo key amount' = b.addTo key (Saturating.addCount amount amount') := by
  cases hcount : b.readCounter key with
  | error err => rw [addTo_error hcount, addTo_error hcount, addTo_error hcount]
  | ok count =>
    have hnext : (b.addTo key amount).readCounter key = .ok (Saturating.addCount count amount) := by
      rw [readCounter_addTo, if_pos rfl, hcount]
      rfl
    rw [addTo_ok hnext, addTo_ok hcount, addTo_ok hcount, OrderedMap.insert_insert, Saturating.addCount_assoc]

lemma addTo_comm (b : KeyedTables) {key key' : Bytes} (hne : key ≠ key') (amount amount' : UInt64) :
    (b.addTo key amount).addTo key' amount' = (b.addTo key' amount').addTo key amount := by
  have hafter : (b.addTo key amount).readCounter key' = b.readCounter key' := by
    rw [readCounter_addTo, if_neg hne.symm]
  have hbefore : (b.addTo key' amount').readCounter key = b.readCounter key := by
    rw [readCounter_addTo, if_neg hne]
  cases hcount : b.readCounter key with
  | error err => rw [addTo_error hcount, addTo_error (hbefore.trans hcount)]
  | ok count =>
    cases hcount' : b.readCounter key' with
    | error err => rw [addTo_error hcount', addTo_error (hafter.trans hcount')]
    | ok count' =>
      rw [addTo_ok (hafter.trans hcount'), addTo_ok (hbefore.trans hcount), addTo_ok hcount, addTo_ok hcount',
        OrderedMap.insert_comm _ fun hkey => absurd hkey hne]

lemma write_eq (b : KeyedTables) (w : IndexWrite) : Tables.write b w = (b.stage w).map b.commit := by
  have hgather : gatherIncrements [w] = [w] := by cases w <;> rfl
  change b.writeAll [w] = _
  rw [writeAll, hgather]
  cases hstage : b.stage w <;> simp [hstage, Except.map]

lemma stage_increment (b : KeyedTables) {inc : Increment} (h : (IndexWrite.increment inc).check = .ok ()) :
    b.stage (.increment inc) = (b.readCounter (Layout.counters.key inc.bucketKey)).map fun count =>
      [.put .counters (Layout.counters.key inc.bucketKey)
        (Layout.counters.form (Saturating.addCount count inc.amount))] := by
  unfold stage
  rw [h]
  change (do let count ← b.readCounter (Layout.counters.key inc.bucketKey); return _) = _
  cases b.readCounter (Layout.counters.key inc.bucketKey) <;> rfl

lemma attempt_eq (b : KeyedTables) : attempt b = guarded carry b := by
  funext w
  rw [attempt, guarded, write_eq]
  cases hw : w.check with
  | error e =>
    have hstage : b.stage w = .error e := by
      unfold stage
      rw [hw]
      rfl
    rw [hstage]
    rfl
  | ok =>
    cases w with
    | insert entry expires =>
      unfold stage
      rw [hw]
      cases expires <;> rfl
    | retract entry => rfl
    | increment inc =>
      rw [stage_increment b hw]
      simp only [carry, addTo]
      cases b.readCounter (Layout.counters.key inc.bucketKey) <;> rfl

lemma announced_comm (m : ByteMap) (expires expires' : Option Int64) (target target' : Key.ExpiryTarget)
    (key key' : Bytes) : announced (announced m expires target key) expires' target' key' =
      announced (announced m expires' target' key') expires target key := by
  cases expires with
  | none => rfl
  | some e =>
    cases expires' with
    | none => rfl
    | some e' => exact OrderedMap.insert_comm _ fun _ => rfl

lemma entryKey_eq_of_valid {k k' : NamedKey Identifier} (h : Layout.indexes.Valid k)
    (heq : Layout.indexes.key k' = Layout.indexes.key k) : k' = k := by
  obtain ⟨name, value, place⟩ := k
  obtain ⟨name', value', place'⟩ := k'
  have hvalid : NulFree name ∧ NulFree value := h
  have hq : ∀ q ∈ [name, value], NulFree q := by simpa using hvalid
  obtain ⟨hnames, hplace⟩ := Key.names_eq_of_key_eq (show [name', value'].length = [name, value].length from rfl) hq
    (by simp) heq
  obtain ⟨rfl, rfl⟩ : name' = name ∧ value' = value := by simpa using hnames
  obtain rfl := Key.identifier_eq_of_ordered hplace
  rfl

lemma valid_of_check {k : NamedKey Int64} (hw : w.check = .ok ()) (hk : w.bucket? = some k) :
    Layout.counters.Valid k := by
  cases w with
  | increment inc =>
    obtain rfl := Option.some.inj hk
    exact (Layout.valid_counters _).2 (IndexWrite.nulFree_of_check (fun hr => by cases hr) hw)
  | _ => cases hk

lemma carry_merge (b : KeyedTables) {e inc : Increment} (hkey : e.bucketKey = inc.bucketKey) :
    (b.carry (.increment e)).carry (.increment inc) =
      b.carry (.increment { e with amount := Saturating.addCount e.amount inc.amount }) := by
  change (b.addTo (Layout.counters.key e.bucketKey) e.amount).addTo (Layout.counters.key inc.bucketKey) inc.amount =
    b.addTo (Layout.counters.key e.bucketKey) (Saturating.addCount e.amount inc.amount)
  rw [← hkey, addTo_addTo]

lemma carry_addTo (b : KeyedTables) (hw : w.bucket? = none) (key : Bytes) (amount : UInt64) :
    (b.carry w).addTo key amount = (b.addTo key amount).carry w := by
  have hcount : (b.carry w).readCounter key = b.readCounter key := by
    cases w with
    | increment inc => cases hw
    | _ => rfl
  cases hread : b.readCounter key with
  | error err => rw [addTo_error hread, addTo_error (hcount.trans hread)]
  | ok count =>
    rw [addTo_ok hread, addTo_ok (hcount.trans hread)]
    cases w with
    | increment inc => cases hw
    | _ => rfl

lemma exchanges_carry : Exchanges carry where
  merge b _ _ := b.carry_merge
  comm b w w' hw hw' h := by
    have hvalid {entry : IndexEntry} {expires : Option Int64} (hcheck : (IndexWrite.insert entry expires).check = .ok ()) :
        Layout.indexes.Valid entry.key :=
      (Layout.valid_indexes _).2 (IndexWrite.nulFree_of_check (fun hr => by cases hr) hcheck)
    cases w with
    | insert entry expires =>
      cases w' with
      | insert entry' expires' =>
        have hform : Layout.indexes.key entry.key = Layout.indexes.key entry'.key →
            Layout.indexes.form ⟨entry.entity, expires⟩ = Layout.indexes.form ⟨entry'.entity, expires'⟩ := by
          intro hkey
          obtain ⟨hentity, hexpires⟩ := h (entryKey_eq_of_valid (hvalid hw') hkey)
          rw [hentity, hexpires]
        simp only [carry]
        rw [OrderedMap.insert_comm _ hform, announced_comm]
      | retract entry' =>
        have hne : Layout.indexes.key entry.key ≠ Layout.indexes.key entry'.key :=
          fun hkey => h (entryKey_eq_of_valid (hvalid hw) hkey.symm).symm
        simp only [carry]
        rw [OrderedMap.insert_erase_comm _ hne]
      | increment inc => exact b.carry_addTo rfl _ _
    | retract entry =>
      cases w' with
      | insert entry' expires' =>
        have hne : Layout.indexes.key entry'.key ≠ Layout.indexes.key entry.key :=
          fun hkey => h (entryKey_eq_of_valid (hvalid hw') hkey.symm)
        simp only [carry]
        rw [OrderedMap.insert_erase_comm _ hne]
      | retract entry' =>
        simp only [carry]
        rw [OrderedMap.erase_comm]
      | increment inc => exact b.carry_addTo rfl _ _
    | increment e =>
      cases w' with
      | increment inc =>
        by_cases hkey : e.bucketKey = inc.bucketKey
        · exact increments_comm hkey (fun b _ _ => b.carry_merge) b
        · refine b.addTo_comm (fun heq => hkey ?_) ..
          exact Layout.counters.injective (valid_of_check hw rfl) (valid_of_check hw' rfl) heq
      | _ => exact (b.carry_addTo rfl _ _).symm

def admits (b : KeyedTables) (w : IndexWrite) : Except Error Unit := do
  w.check
  match w.bucket? with
  | some k => (b.readCounter (Layout.counters.key k)).map fun _ => ()
  | none => .ok ()

lemma stage_of_check_error {err : Error} (h : w.check = .error err) (b : KeyedTables) : b.stage w = .error err := by
  unfold stage
  rw [h]
  rfl

lemma stage_congr (h : ∀ k, w.bucket? = some k →
    b'.readCounter (Layout.counters.key k) = b.readCounter (Layout.counters.key k)) : b'.stage w = b.stage w := by
  cases w with
  | increment inc =>
    cases hcheck : (IndexWrite.increment inc).check with
    | error err => rw [stage_of_check_error hcheck, stage_of_check_error hcheck]
    | ok => rw [stage_increment _ hcheck, stage_increment _ hcheck, h _ rfl]
  | _ => rfl

lemma map_stage (b : KeyedTables) (w : IndexWrite) : ((b.stage w).map fun _ => ()) = b.admits w := by
  unfold admits
  cases hcheck : w.check with
  | error err =>
    rw [stage_of_check_error hcheck]
    rfl
  | ok =>
    cases w with
    | increment inc =>
      rw [stage_increment _ hcheck]
      change ((b.readCounter (Layout.counters.key inc.bucketKey)).map _).map _ =
        (b.readCounter (Layout.counters.key inc.bucketKey)).map _
      cases b.readCounter (Layout.counters.key inc.bucketKey) <;> rfl
    | _ =>
      unfold stage
      rw [hcheck]
      rfl

lemma refusal?_eq (b : KeyedTables) (w : IndexWrite) : refusal? b w =
    match b.admits w with
    | .ok _ => none
    | .error e => some e := by
  rw [refusal?, write_eq, ← map_stage]
  cases b.stage w <;> rfl

lemma readCounter_carry (b : KeyedTables) {key : Bytes} (h : ∀ k, w.bucket? = some k → key ≠ Layout.counters.key k) :
    (b.carry w).readCounter key = b.readCounter key := by
  cases w with
  | increment inc => rw [carry, readCounter_addTo, if_neg (h _ rfl)]
  | _ => rfl

lemma map_readCounter_carry (b : KeyedTables) (w : IndexWrite) (key : Bytes) :
    (((b.carry w).readCounter key).map fun _ => ()) = (b.readCounter key).map fun _ => () := by
  cases w with
  | increment inc =>
    rw [carry, readCounter_addTo]
    split
    · next hkey =>
      rw [hkey]
      cases b.readCounter (Layout.counters.key inc.bucketKey) <;> rfl
    · rfl
  | _ => rfl

lemma admits_attempt (b : KeyedTables) (w w' : IndexWrite) : (attempt b w).admits w' = b.admits w' := by
  rw [attempt_eq, guarded]
  unfold admits
  cases w.check with
  | error err => rfl
  | ok =>
    cases w'.bucket? with
    | none => rfl
    | some k => simp only [map_readCounter_carry]

lemma stage_attempt {w w' : IndexWrite} (hw : w.check = .ok ()) (hw' : w'.check = .ok ())
    (hne : ∀ k, w.bucket? = some k → w'.bucket? ≠ some k) : (attempt b w).stage w' = b.stage w' := by
  refine stage_congr fun k' hk' => ?_
  rw [attempt_eq, guarded, hw]
  refine b.readCounter_carry fun k hk hkey => hne k hk ?_
  rw [hk', Layout.counters.injective (valid_of_check hw' hk') (valid_of_check hw hk) hkey]

lemma admits_eq_ok_iff : b.admits w = .ok () ↔ w.check = .ok () ∧ ∃ changes, b.stage w = .ok changes := by
  rw [← map_stage]
  constructor
  · intro h
    cases hcheck : w.check with
    | error err =>
      rw [stage_of_check_error hcheck] at h
      cases h
    | ok =>
      obtain ⟨changes, hchanges, _⟩ := exists_of_map_ok h
      exact ⟨rfl, changes, hchanges⟩
  · rintro ⟨_, changes, hchanges⟩
    rw [hchanges]
    rfl

lemma commit_stages {gs : List IndexWrite} (hd : DistinctBuckets gs) (hadmits : ∀ w ∈ gs, b.admits w = .ok ())
    (hsame : ∀ w ∈ gs, b'.stage w = b.stage w) :
    ∃ staged, gs.mapM b.stage = .ok staged ∧ b'.commit staged.flatten = gs.foldl attempt b' := by
  induction gs generalizing b' with
  | nil => exact ⟨[], rfl, rfl⟩
  | cons w gs ih =>
    obtain ⟨hw, hd⟩ := List.pairwise_cons.1 hd
    obtain ⟨hpass, hadmits⟩ := List.forall_mem_cons.1 hadmits
    obtain ⟨hfirst, hsame⟩ := List.forall_mem_cons.1 hsame
    obtain ⟨hcheck, changes, hchanges⟩ := admits_eq_ok_iff.1 hpass
    have hattempt : attempt b' w = b'.commit changes := by
      rw [attempt, write_eq, hfirst, hchanges]
      rfl
    have hrest : ∀ w' ∈ gs, (b'.commit changes).stage w' = b.stage w' := by
      intro w' hw'
      rw [← hattempt, stage_attempt hcheck (admits_eq_ok_iff.1 (hadmits w' hw')).1 (hw w' hw'), hsame w' hw']
    obtain ⟨staged, hstaged, hcommit⟩ := ih hd hadmits hrest
    refine ⟨changes :: staged, ?_, ?_⟩
    · rw [List.mapM_cons, hchanges, hstaged]
      rfl
    · rw [List.foldl_cons, hattempt, ← hcommit, List.flatten_cons, commit, List.foldl_append]
      rfl

lemma admits_of_mapM_stage {staged : List (List Change)} (h : ws.mapM b.stage = .ok staged) :
    ∀ w ∈ ws, b.admits w = .ok () := by
  induction ws generalizing staged with
  | nil => exact List.forall_mem_nil _
  | cons w ws ih =>
    rw [List.mapM_cons] at h
    obtain ⟨changes, hchanges, h⟩ := exists_of_bind_ok h
    obtain ⟨rest, hrest, _⟩ := exists_of_bind_ok h
    have hfirst : b.admits w = .ok () := by
      rw [← map_stage, hchanges]
      rfl
    exact List.forall_mem_cons.2 ⟨hfirst, ih hrest⟩

lemma refusal?_eq_none_iff : refusal? b w = none ↔ b.admits w = .ok () := by
  rw [refusal?_eq]
  cases b.admits w <;> simp

lemma admits_congr {w' : IndexWrite} {k : NamedKey Int64} (hk : w.bucket? = some k) (hk' : w'.bucket? = some k) :
    b.admits w = b.admits w' := by
  cases w' with
  | increment inc =>
    unfold admits
    rw [check_of_bucket?_eq (hk.trans hk'.symm), hk, hk']
  | _ => cases hk'

lemma forall_admits_gatherIncrements (ws : List IndexWrite) :
    (∀ w ∈ gatherIncrements ws, b.admits w = .ok ()) ↔ ∀ w ∈ ws, b.admits w = .ok () := by
  -- what admits one batch admits another of the same buckets and with the same other writes
  have hmono {gs ws : List IndexWrite} (hfilter : ws.filter touchesIndex = gs.filter touchesIndex)
      (hbuckets : ∀ k, (∃ w ∈ ws, w.bucket? = some k) → ∃ w ∈ gs, w.bucket? = some k)
      (h : ∀ w ∈ gs, b.admits w = .ok ()) : ∀ w ∈ ws, b.admits w = .ok () := by
    intro w hw
    cases hk : w.bucket? with
    | none =>
      have hmem : w ∈ ws.filter touchesIndex := List.mem_filter.2 ⟨hw, by rw [touchesIndex, hk]; rfl⟩
      rw [hfilter] at hmem
      exact h w (List.mem_filter.1 hmem).1
    | some k =>
      obtain ⟨w', hw', hk'⟩ := hbuckets k ⟨w, hw, hk⟩
      rw [admits_congr hk hk', h w' hw']
  exact ⟨hmono (filter_gatherIncrements ws).symm fun k => (exists_bucket_gatherIncrements ws k).2,
    hmono (filter_gatherIncrements ws) fun k => (exists_bucket_gatherIncrements ws k).1⟩

lemma interchanges : Interchanges KeyedTables where
  steady b w w' := by
    rw [refusal?_eq, refusal?_eq, admits_attempt]
  comm b w w' h := by
    simp only [attempt_eq]
    exact exchanges_carry.guarded_comm b h
  together {b b' ws} := by
    have hattempt : (attempt : KeyedTables → IndexWrite → KeyedTables) = guarded carry := funext attempt_eq
    obtain ⟨hd, hwrites⟩ := gatherIncrements_spec ws
    have hfold : (gatherIncrements ws).foldl attempt b = ws.foldl attempt b := by
      rw [hattempt, hwrites exchanges_carry.addsUp]
    simp only [refusal?_eq_none_iff]
    rw [← forall_admits_gatherIncrements, ← hfold]
    change b.writeAll ws = .ok b' ↔ _
    constructor
    · intro h
      obtain ⟨staged, hstaged, hcommit⟩ := exists_of_bind_ok h
      have hadmits := admits_of_mapM_stage hstaged
      obtain ⟨staged', hstaged', hcommit'⟩ := commit_stages hd hadmits fun _ _ => rfl
      obtain rfl := Except.ok.inj (hstaged.symm.trans hstaged')
      exact ⟨hadmits, hcommit'.symm.trans (Except.ok.inj hcommit)⟩
    · rintro ⟨hadmits, rfl⟩
      obtain ⟨staged, hstaged, hcommit⟩ := commit_stages hd hadmits fun _ _ => rfl
      rw [writeAll, hstaged, ← hcommit]
      rfl

end KeyedTables

end Chronicle
