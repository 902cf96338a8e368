import Mathlib.Tactic.Choose
import Chronicle.Proofs.Store.Outcome
import Chronicle.Proofs.Table.Batches
import Chronicle.Table.Failing

/-! Reports on index writes, on tables that may fail at one point. -/

namespace Chronicle

def FailurePoint.checkNamed (point : FailurePoint) (w : IndexWrite) : Except Error Unit := do
  point.checkWrite w
  w.check

def FailurePoint.Strikes (point : FailurePoint) (w : IndexWrite) : Prop := point = .on w.target ∨ w.Invalid

instance (point : FailurePoint) (w : IndexWrite) : Decidable (point.Strikes w) := inferInstanceAs (Decidable (_ ∨ _))

namespace Delivery

def left (point : FailurePoint) (ws : List IndexWrite) : Delivery → List IndexWrite
  | independent _ => ws.filter (point.Strikes ·)
  | batched => if ∃ w ∈ ws, point.Strikes w then ws else []

def carried (point : FailurePoint) (ws : List IndexWrite) : Delivery → List IndexWrite
  | independent _ => ws.filter (¬ point.Strikes ·)
  | batched => if ∃ w ∈ ws, point.Strikes w then [] else ws

def carriedInTurn (point : FailurePoint) (ws : List IndexWrite) : Delivery → List IndexWrite
  | independent schedule => (schedule.writes ws).filter (¬ point.Strikes ·)
  | batched => carried point ws batched

end Delivery

/-- The tables have what was carried out, as it was: in the order of issue if tasks run in that order, and as if in that
order if the index writes agree. The report lists what failed, in the order of issue, and together they make up the
plan. A deletion fails by the number of retractions among them. -/
structure AccountsFor (delivery : Delivery) (t : FailingTables MemoryTables) (plan : WritePlan)
    (outcome : FailingTables MemoryTables × DeliveryReport) : Prop where
  tables : ∃ tables, (delivery.carriedInTurn t.point plan.indexWrites).foldlM Tables.write t.tables = .ok tables ∧
    outcome.1 = t.withTables tables
  perm : (delivery.carriedInTurn t.point plan.indexWrites).Perm (delivery.carried t.point plan.indexWrites)
  in_order : delivery = .batched ∨ delivery = .independent .inOrder →
    delivery.carriedInTurn t.point plan.indexWrites = delivery.carried t.point plan.indexWrites
  agreeing : (∀ w ∈ delivery.carried t.point plan.indexWrites, ∀ w' ∈ delivery.carried t.point plan.indexWrites,
      w.Agrees w') →
    (delivery.carriedInTurn t.point plan.indexWrites).foldlM Tables.write t.tables =
      (delivery.carried t.point plan.indexWrites).foldlM Tables.write t.tables
  report : ∃ cause : IndexWrite → Error,
    (∀ w ∈ delivery.left t.point plan.indexWrites, ∃ w' ∈ delivery.left t.point plan.indexWrites,
      t.point.checkNamed w' = .error (cause w) ∧ (delivery ≠ .batched → w' = w)) ∧
    outcome.2 = ⟨plan.id, plan.action, (delivery.carried t.point plan.indexWrites).length,
      (delivery.left t.point plan.indexWrites).map fun w => .of w (cause w)⟩
  total : outcome.2.applied + outcome.2.failed.length = plan.indexWrites.length
  verdict : outcome.2.verdict =
    let retractions := (delivery.left t.point plan.indexWrites).countP (·.isRetract)
    if plan.action = .delete ∧ 0 < retractions then .error (.entriesLeft plan.id retractions) else .ok outcome.2

namespace FailurePoint

variable {point : FailurePoint} {w : IndexWrite}

lemma checkNamed_eq_ok_iff : point.checkNamed w = .ok () ↔ ¬ point.Strikes w := by
  unfold checkNamed Strikes checkWrite
  rw [not_or, ← IndexWrite.check_eq_ok_iff]
  split
  · next h =>
    constructor
    · intro herror
      cases herror
    · exact fun hnot => absurd h hnot.1
  · next h => exact (and_iff_right h).symm

lemma exists_error (h : point.Strikes w) : ∃ e, point.checkNamed w = .error e := by
  cases hcheck : point.checkNamed w with
  | ok => exact absurd h (checkNamed_eq_ok_iff.1 hcheck)
  | error e => exact ⟨e, rfl⟩

lemma exists_cause (point : FailurePoint) :
    ∃ cause : IndexWrite → Error, ∀ w, point.Strikes w → point.checkNamed w = .error (cause w) := by
  have : Inhabited Error := ⟨.storage .injectedPrimary⟩
  have hcause (w : IndexWrite) (h : point.Strikes w) : ∃ e, point.checkNamed w = .error e := exists_error h
  choose! cause hcause using hcause
  exact ⟨cause, hcause⟩

end FailurePoint

namespace FailingTables

variable {ws : List IndexWrite}

lemma write_eq (t : FailingTables MemoryTables) (w : IndexWrite) :
    Tables.write t w = (t.point.checkNamed w).map fun _ => t.withTables (t.tables.write w) := by
  change (do
    t.point.checkWrite w
    return t.withTables (← Tables.write t.tables w)) = _
  rw [MemoryTables.write_eq, FailurePoint.checkNamed]
  cases t.point.checkWrite w with
  | error e => rfl
  | ok => cases w.check <;> rfl

lemma refusal?_eq (t : FailingTables MemoryTables) (w : IndexWrite) :
    refusal? t w = match t.point.checkNamed w with
      | .ok _ => none
      | .error e => some e := by
  rw [refusal?, write_eq]
  cases t.point.checkNamed w <;> rfl

lemma refusal?_eq_none_iff {t : FailingTables MemoryTables} {w : IndexWrite} :
    refusal? t w = none ↔ ¬ t.point.Strikes w := by
  rw [refusal?_eq, ← FailurePoint.checkNamed_eq_ok_iff]
  cases t.point.checkNamed w <;> simp

lemma attempt_eq (t : FailingTables MemoryTables) (w : IndexWrite) :
    attempt t w = if t.point.Strikes w then t else t.withTables (t.tables.write w) := by
  by_cases hw : t.point.Strikes w
  · obtain ⟨e, he⟩ := FailurePoint.exists_error hw
    rw [attempt, write_eq, he, if_pos hw]
    rfl
  · rw [attempt, write_eq, FailurePoint.checkNamed_eq_ok_iff.2 hw, if_neg hw]
    rfl

lemma steady : Steady (FailingTables MemoryTables) := by
  intro t w w'
  have hpoint : (attempt t w).point = t.point := by
    rw [attempt_eq]
    split <;> rfl
  rw [refusal?_eq, refusal?_eq, hpoint]

lemma foldl_attempt (t : FailingTables MemoryTables) (ws : List IndexWrite) :
    ws.foldl attempt t = t.withTables ((ws.filter (¬ t.point.Strikes ·)).foldl MemoryTables.write t.tables) := by
  induction ws generalizing t with
  | nil => rfl
  | cons w ws ih =>
    rw [List.foldl_cons, ih, attempt_eq]
    by_cases hw : t.point.Strikes w
    · simp [hw]
    · simp [hw, withTables]

lemma filterMap_refusal? {cause : IndexWrite → Error} (t : FailingTables MemoryTables)
    (hcause : ∀ w, t.point.Strikes w → t.point.checkNamed w = .error (cause w)) (ws : List IndexWrite) :
    ws.filterMap (fun w => (refusal? t w).map (Undelivered.of w)) =
      (ws.filter (t.point.Strikes ·)).map fun w => .of w (cause w) := by
  induction ws with
  | nil => rfl
  | cons w ws ih =>
    by_cases hw : t.point.Strikes w
    · have hrefused : refusal? t w = some (cause w) := by rw [refusal?_eq, hcause w hw]
      simp [hrefused, hw, ih]
    · simp [refusal?_eq_none_iff.2 hw, hw, ih]

lemma deliverEach_eq {cause : IndexWrite → Error} (schedule : Schedule) (t : FailingTables MemoryTables)
    (hcause : ∀ w, t.point.Strikes w → t.point.checkNamed w = .error (cause w)) (ws : List IndexWrite) :
    deliverEach schedule t ws =
      (t.withTables (((schedule.writes ws).filter (¬ t.point.Strikes ·)).foldl MemoryTables.write t.tables),
        (ws.filter (¬ t.point.Strikes ·)).length, (ws.filter (t.point.Strikes ·)).map fun w => .of w (cause w)) := by
  have hcount : ws.countP (fun w => (refusal? t w).isNone) = (ws.filter (¬ t.point.Strikes ·)).length := by
    rw [← List.countP_eq_length_filter]
    exact List.countP_congr fun w _ => by simp [← refusal?_eq_none_iff]
  rw [steady.deliverEach_eq, foldl_attempt, hcount, filterMap_refusal? t hcause]

lemma writeTogether_cases (t : FailingTables MemoryTables) (ws : List IndexWrite) :
    (∀ w ∈ ws, ¬ t.point.Strikes w) ∧
        Tables.writeTogether t ws = .ok (t.withTables (ws.foldl MemoryTables.write t.tables)) ∨
      ∃ w ∈ ws, ∃ e, t.point.checkNamed w = .error e ∧ Tables.writeTogether t ws = .error e := by
  have hbatch : Tables.writeTogether t ws = do
      ws.forM t.point.checkWrite
      return t.withTables (← Tables.writeTogether t.tables ws) := rfl
  rw [hbatch, MemoryTables.writeTogether_eq]
  cases hpoint : ws.forM t.point.checkWrite with
  | error e =>
    obtain ⟨w, hw, he⟩ := exists_of_forM_error hpoint
    refine .inr ⟨w, hw, e, ?_, rfl⟩
    rw [FailurePoint.checkNamed, he]
    rfl
  | ok =>
    cases hnames : ws.forM IndexWrite.check with
    | error e =>
      obtain ⟨w, hw, he⟩ := exists_of_forM_error hnames
      refine .inr ⟨w, hw, e, ?_, rfl⟩
      rw [FailurePoint.checkNamed, forM_eq_ok_iff.1 hpoint w hw]
      exact he
    | ok =>
      refine .inl ⟨fun w hw => ?_, rfl⟩
      rw [← FailurePoint.checkNamed_eq_ok_iff, FailurePoint.checkNamed, forM_eq_ok_iff.1 hpoint w hw]
      exact forM_eq_ok_iff.1 hnames w hw

end FailingTables

namespace Delivery

variable {delivery : Delivery} {point : FailurePoint} {ws : List IndexWrite} {w : IndexWrite}

lemma length_carried_add_length_left (delivery : Delivery) (point : FailurePoint) (ws : List IndexWrite) :
    (delivery.carried point ws).length + (delivery.left point ws).length = ws.length := by
  cases delivery with
  | independent schedule =>
    rw [carried, left, Nat.add_comm]
    simpa using (List.length_eq_length_filter_add (l := ws) (point.Strikes ·)).symm
  | batched =>
    by_cases h : ∃ w ∈ ws, point.Strikes w
    · simp only [carried, left, if_pos h, List.length_nil, Nat.zero_add]
    · simp only [carried, left, if_neg h, List.length_nil, Nat.add_zero]

lemma perm_carriedInTurn (delivery : Delivery) (point : FailurePoint) (ws : List IndexWrite) :
    (delivery.carriedInTurn point ws).Perm (delivery.carried point ws) := by
  cases delivery with
  | independent schedule => exact (schedule.perm_writes ws).filter _
  | batched => exact .refl _

lemma carriedInTurn_eq (h : delivery = .batched ∨ delivery = .independent .inOrder) :
    delivery.carriedInTurn point ws = delivery.carried point ws := by
  rcases h with rfl | rfl
  · rfl
  · rw [carriedInTurn, carried, Schedule.writes_inOrder]

lemma not_strikes_of_carried (h : w ∈ delivery.carried point ws) : ¬ point.Strikes w := by
  cases delivery with
  | independent schedule => simpa using (List.mem_filter.1 h).2
  | batched =>
    by_cases hsome : ∃ w ∈ ws, point.Strikes w
    · rw [carried, if_pos hsome] at h
      cases h
    · rw [carried, if_neg hsome] at h
      exact fun hw => hsome ⟨w, h, hw⟩

lemma check_of_carried (h : w ∈ delivery.carried point ws) : w.check = .ok () :=
  IndexWrite.check_eq_ok_iff.2 fun hinvalid => not_strikes_of_carried h (.inr hinvalid)

lemma check_of_carriedInTurn (h : w ∈ delivery.carriedInTurn point ws) : w.check = .ok () :=
  check_of_carried ((delivery.perm_carriedInTurn point ws).mem_iff.1 h)

lemma foldlM_carriedInTurn (hagrees : ∀ w ∈ delivery.carried point ws, ∀ w' ∈ delivery.carried point ws, w.Agrees w')
    (t : MemoryTables) :
    (delivery.carriedInTurn point ws).foldlM Tables.write t = (delivery.carried point ws).foldlM Tables.write t := by
  rw [MemoryTables.foldlM_write fun _ hw => check_of_carriedInTurn hw,
    MemoryTables.foldlM_write fun _ hw => check_of_carried hw,
    ← MemoryTables.foldl_attempt fun _ hw => check_of_carriedInTurn hw,
    ← MemoryTables.foldl_attempt fun _ hw => check_of_carried hw,
    MemoryTables.interchanges.foldl_perm hagrees (delivery.perm_carriedInTurn point ws)]

end Delivery

lemma AccountsFor.of_lists {delivery : Delivery} {t : FailingTables MemoryTables} {plan : WritePlan}
    {outcome : FailingTables MemoryTables × DeliveryReport} (cause : IndexWrite → Error)
    (hcause : ∀ w ∈ delivery.left t.point plan.indexWrites, ∃ w' ∈ delivery.left t.point plan.indexWrites,
      t.point.checkNamed w' = .error (cause w) ∧ (delivery ≠ .batched → w' = w))
    (houtcome : outcome =
      (t.withTables ((delivery.carriedInTurn t.point plan.indexWrites).foldl MemoryTables.write t.tables),
        ⟨plan.id, plan.action, (delivery.carried t.point plan.indexWrites).length,
          (delivery.left t.point plan.indexWrites).map fun w => .of w (cause w)⟩)) :
    AccountsFor delivery t plan outcome where
  tables := by
    rw [houtcome]
    exact ⟨_, MemoryTables.foldlM_write fun _ hw => Delivery.check_of_carriedInTurn hw, rfl⟩
  perm := delivery.perm_carriedInTurn t.point plan.indexWrites
  in_order := Delivery.carriedInTurn_eq
  agreeing hagrees := Delivery.foldlM_carriedInTurn hagrees t.tables
  report := ⟨cause, hcause, by rw [houtcome]⟩
  total := by
    rw [houtcome, List.length_map]
    exact delivery.length_carried_add_length_left t.point plan.indexWrites
  verdict := by
    have hcount :
        (((delivery.left t.point plan.indexWrites).map fun w => Undelivered.of w (cause w)).countP (·.retract)) =
        (delivery.left t.point plan.indexWrites).countP (·.isRetract) := List.countP_map
    rw [houtcome]
    simp only [DeliveryReport.verdict, hcount]

lemma accounts_deliver (delivery : Delivery) (t : FailingTables MemoryTables) (plan : WritePlan) :
    AccountsFor delivery t plan (deliver delivery t plan) := by
  cases delivery with
  | independent schedule =>
    obtain ⟨cause, hcause⟩ := t.point.exists_cause
    refine .of_lists cause (fun w hw => ⟨w, hw, hcause w ?_, fun _ => rfl⟩) ?_
    · simpa using (List.mem_filter.1 hw).2
    · simp only [deliver, FailingTables.deliverEach_eq schedule t hcause, Delivery.carriedInTurn, Delivery.carried,
        Delivery.left]
  | batched =>
    rcases FailingTables.writeTogether_cases t plan.indexWrites with ⟨hnone, hbatch⟩ | ⟨w, hw, e, he, hbatch⟩
    · have hno : ¬ ∃ w ∈ plan.indexWrites, t.point.Strikes w := by
        rintro ⟨w, hw, hstrikes⟩
        exact hnone w hw hstrikes
      refine .of_lists (fun _ => .storage .injectedPrimary) (fun w hw => ?_) ?_
      · rw [Delivery.left, if_neg hno] at hw
        cases hw
      · simp only [deliver, deliverTogether, hbatch, Delivery.carriedInTurn, Delivery.carried, Delivery.left,
          if_neg hno, List.map_nil]
    · have hstrikes : t.point.Strikes w := by
        by_contra hnot
        rw [FailurePoint.checkNamed_eq_ok_iff.2 hnot] at he
        cases he
      have hsome : ∃ w ∈ plan.indexWrites, t.point.Strikes w := ⟨w, hw, hstrikes⟩
      refine .of_lists (fun _ => e) (fun _ _ => ⟨w, ?_, he, fun hne => absurd rfl hne⟩) ?_
      · rw [Delivery.left, if_pos hsome]
        exact hw
      · simp only [deliver, deliverTogether, hbatch, Delivery.carriedInTurn, Delivery.carried, Delivery.left,
          if_pos hsome, List.foldl_nil, List.length_nil]
        rfl

theorem deliveries_accounted {α γ : Type} (s : Store (FailingTables MemoryTables) γ) (table : String) (value : α)
    (plan : WritePlan) :
    (∀ t, AccountsFor s.delivery t plan (deliver s.delivery t plan)) ∧
      (s.carryOut table (.ok (value, plan))).1 = (Store.changePrimary s.tables table plan).map fun t =>
        let report := (deliver s.delivery t plan).2
        ⟨value, report.applied + report.failed.length, report⟩ := by
  have haccounts (t : FailingTables MemoryTables) := accounts_deliver s.delivery t plan
  refine ⟨haccounts, ?_⟩
  simp only [fun t => (haccounts t).total]
  simp only [Store.carryOut_eq]
  cases Store.changePrimary s.tables table plan <;> rfl

def Schedule.reversed : Schedule := ⟨fun ws => ws.zipIdx.reverse, fun _ => List.reverse_perm _⟩

/-- An entry that is inserted and then retracted stays if the retraction runs first. A retraction under a value that no
entry can have is carried out. -/
theorem tables_not_in_order_of_issue :
    let t : FailingTables MemoryTables := ⟨.empty, .none⟩
    let entry : IndexEntry := ⟨"i", "v", ⟨1⟩, ⟨1⟩⟩
    let opposed : WritePlan := ⟨⟨1⟩, .update, .clear, [.insert entry none], [.retract entry], []⟩
    let unfair : WritePlan := ⟨⟨1⟩, .delete, .clear, [], [.retract ⟨"i", "\x00", ⟨1⟩, ⟨1⟩⟩], []⟩
    (deliver (.independent .reversed) t opposed).2.failed = [] ∧
      (deliver (.independent .reversed) t opposed).1.tables.indexes.get? entry.key = some ⟨⟨1⟩, none⟩ ∧
      (opposed.indexWrites.foldl MemoryTables.write t.tables).indexes.get? entry.key = none ∧
      ¬ NulFree "\x00" ∧ (deliver (.independent .inOrder) t unfair).2.failed = [] :=
  ⟨by decide +kernel, by decide +kernel, by decide +kernel, by decide +kernel, by decide +kernel⟩

end Chronicle
