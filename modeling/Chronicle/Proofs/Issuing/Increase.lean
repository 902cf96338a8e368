import Chronicle.Proofs.Issuing.Turns

/-! Live identifiers grow strictly over every run, whatever the clock does. -/

namespace Chronicle.Issuer

variable {γ : Type} [Clock γ]

lemma advance_frame {s t : Issuer} {clock clock' : γ} (h : s.advance clock = (.ok t, clock')) :
    t.node = s.node ∧ t.past = s.past := by
  unfold advance at h
  split at h
  · obtain ⟨rfl, rfl⟩ := by simpa using h
    exact ⟨rfl, rfl⟩
  · split at h
    · obtain ⟨rfl, rfl⟩ := by simpa using h
      exact ⟨rfl, rfl⟩
    · split at h
      · obtain ⟨rfl, rfl⟩ := by simpa using h
        exact ⟨rfl, rfl⟩
      · simp at h

lemma issue_frame (s : Issuer) (clock : γ) :
    (s.issue clock).2.1.node = s.node ∧ (s.issue clock).2.1.past = s.past := by
  unfold issue
  split
  · exact ⟨rfl, rfl⟩
  · split
    · next ha => exact advance_frame ha
    · exact ⟨rfl, rfl⟩

lemma issueAt_ok {s t : Issuer} {millis : Int64} {x : Identifier} (h : s.issueAt millis = .ok (x, t)) :
    ∃ (node : Node) (next : UInt16), s.node = some node ∧ ((s.makeRoom millis).get? millis).getD 0 = next ∧
      next.toNat ≤ Identifier.lastSequence ∧ x = .ofFields millis next node ∧
      t = { s with past := (s.makeRoom millis).insert millis (next + 1) } := by
  unfold issueAt at h
  split at h
  · cases h
  · next node hnode =>
    simp only at h
    split at h
    · cases h
    · next hle =>
      obtain ⟨rfl, rfl⟩ := Prod.mk.inj (Except.ok.inj h)
      exact ⟨node, _, hnode, rfl, Nat.not_lt.1 hle, rfl, rfl⟩

namespace Turn

lemma after_of_issued {t : Turn γ} {x : Identifier} (hs : t.before.Sound)
    (hr : ∀ r ∈ t.readings, Identifier.HoldsMillis r) (hx : t.issued = some x) :
    Advanced t.before t.after ∧ x.slot = t.after.mark ∧ t.before.node = some x.node := by
  obtain ⟨s, use⟩ := t
  cases use with
  | issue clock =>
    obtain ⟨y, hy⟩ : ∃ y, (s.issue clock).1 = .ok y := by
      cases h : (s.issue clock).1 with
      | ok y => exact ⟨y, rfl⟩
      | error e => simp [issued, h, Except.toOption] at hx
    obtain rfl : y = x := by simpa [issued, hy, Except.toOption] using hx
    exact issue_ok hs hr hy
  | issueAt millis => simp [issued] at hx
  | assignNode node => simp [issued] at hx

lemma after_of_not_issued {t : Turn γ} (hx : t.issued = none) :
    t.after.millis = t.before.millis ∧ t.after.sequence = t.before.sequence := by
  obtain ⟨s, use⟩ := t
  cases use with
  | issue clock =>
    cases h : (s.issue clock).1 with
    | ok y => simp [issued, h, Except.toOption] at hx
    | error e =>
      have hs := issue_error h
      simp only [after, hs, and_self]
  | issueAt millis =>
    cases h : s.issueAt millis with
    | error e => simp [after, h, Except.toOption]
    | ok p =>
      obtain ⟨_, _, _, _, _, _, hp⟩ := issueAt_ok h
      simp [after, h, Except.toOption, hp]
  | assignNode node =>
    by_cases h : node.IsAssignable <;> simp [after, assignNode, h, Except.toOption]

lemma node_after (t : Turn γ) : t.after.node = t.before.node.or t.assigned := by
  obtain ⟨s, use⟩ := t
  cases use with
  | issue clock => simp [after, assigned, (issue_frame s clock).1]
  | issueAt millis =>
    cases h : s.issueAt millis with
    | error e => simp [after, assigned, h, Except.toOption]
    | ok p =>
      obtain ⟨_, _, _, _, _, _, hp⟩ := issueAt_ok h
      simp [after, assigned, h, Except.toOption, hp]
  | assignNode node =>
    by_cases h : node.IsAssignable
    · cases hn : s.node <;> simp [after, assigned, assignNode, h, hn, Except.toOption]
    · simp [after, assigned, assignNode, h, Except.toOption]

lemma sound_after {t : Turn γ} (hs : t.before.Sound) (hr : ∀ r ∈ t.readings, Identifier.HoldsMillis r) :
    t.after.Sound ∧ t.before.mark ≤ t.after.mark := by
  cases hx : t.issued with
  | some x =>
    obtain ⟨ha, _⟩ := after_of_issued hs hr hx
    exact ⟨ha.sound, Int.le_of_lt ha.mark_lt⟩
  | none =>
    obtain ⟨hm, hq⟩ := after_of_not_issued hx
    have hmark : t.after.mark = t.before.mark := by rw [mark, mark, hm, hq]
    exact ⟨⟨by rw [hq]; exact hs.sequence_le, by rw [hm]; exact hs.millis_lt⟩, Int.le_of_eq hmark.symm⟩

end Turn

lemma ReadsInRange.of_cons {t : Turn γ} {log : List (Turn γ)} (h : ReadsInRange (t :: log)) :
    (∀ r ∈ t.readings, Identifier.HoldsMillis r) ∧ ReadsInRange log :=
  ⟨h t List.mem_cons_self, fun u hu => h u (List.mem_cons_of_mem _ hu)⟩

lemma Run.sound {start s : Issuer} {log : List (Turn γ)} (h : Run start log s) (hs : start.Sound)
    (hr : ReadsInRange log) : s.Sound := by
  induction h with
  | start => exact hs
  | use _ _ ih => exact (Turn.sound_after (ih hr.of_cons.2) hr.of_cons.1).1

lemma Run.slot_le_mark {start s : Issuer} {log : List (Turn γ)} (h : Run start log s) (hs : start.Sound)
    (hr : ReadsInRange log) : ∀ x ∈ log.filterMap Turn.issued, x.slot ≤ s.mark := by
  induction h with
  | start => simp
  | @use log s h use ih =>
    intro x hx
    have hb := h.sound hs hr.of_cons.2
    obtain ⟨t, ht, htx⟩ := List.mem_filterMap.1 hx
    rcases List.mem_cons.1 ht with rfl | ht
    · exact Int.le_of_eq (Turn.after_of_issued hb hr.of_cons.1 htx).2.1
    · exact Int.le_trans (ih hr.of_cons.2 x (List.mem_filterMap.2 ⟨t, ht, htx⟩))
        (Turn.sound_after (t := ⟨s, use⟩) hb hr.of_cons.1).2

lemma Run.node_eq {start s : Issuer} {log : List (Turn γ)} (h : Run start log s) :
    s.node = start.node.or (log.filterMap Turn.assigned).getLast? := by
  induction h with
  | start => simp
  | @use log s h use ih =>
    rw [Turn.node_after]
    change s.node.or _ = _
    rw [ih, Option.or_assoc]
    congr 1
    cases ha : Turn.assigned (⟨s, use⟩ : Turn γ) with
    | none => simp [ha]
    | some n =>
      simp only [List.filterMap_cons, ha]
      cases log.filterMap Turn.assigned <;> simp [List.getLast?_cons]

lemma Run.keeps_node {start s : Issuer} {n : Node} {log : List (Turn γ)} (h : Run start log s)
    (hn : start.node = some n) : s.node = some n := by
  rw [h.node_eq, hn, Option.some_or]

theorem issued_strictly_increasing {micros : Nat} {log : List (Turn γ)} {s : Issuer}
    (h : Run (ofPatience micros) log s) (hr : ReadsInRange log) :
    (log.filterMap Turn.issued).Pairwise (fun later earlier => earlier.raw < later.raw) ∧
      ∀ x ∈ log.filterMap Turn.issued, (log.filterMap Turn.assigned).getLast? = some x.node := by
  induction h with
  | start => simp
  | @use log s h use ih =>
    have hs := h.sound (sound_ofPatience micros) hr.of_cons.2
    have hle := h.slot_le_mark (sound_ofPatience micros) hr.of_cons.2
    obtain ⟨hord, hnode⟩ := ih hr.of_cons.2
    have hfirst : ∀ n, (log.filterMap Turn.assigned).getLast? = some n →
        ((⟨s, use⟩ :: log : List (Turn γ)).filterMap Turn.assigned).getLast? = some n := by
      intro n hn
      rw [List.filterMap_cons]
      split
      · exact hn
      · simp [List.getLast?_cons, hn]
    cases hx : Turn.issued (⟨s, use⟩ : Turn γ) with
    | none =>
      simp only [List.filterMap_cons, hx]
      exact ⟨hord, fun x hmem => hfirst _ (hnode x hmem)⟩
    | some x =>
      obtain ⟨ha, hslot, hxn⟩ := Turn.after_of_issued hs hr.of_cons.1 hx
      simp only [List.filterMap_cons_some hx]
      refine ⟨List.pairwise_cons.2 ⟨fun y hy => ?_, hord⟩, fun y hy => ?_⟩
      · have hy := hle y hy
        have hlt := ha.mark_lt
        exact Identifier.lt_of_slot_lt (by rw [hslot]; exact Int.lt_of_le_of_lt hy hlt)
      · rcases List.mem_cons.1 hy with rfl | hy
        · have hn := h.node_eq
          simp only [ofPatience, Option.none_or] at hn
          exact hfirst _ (hn.symm.trans hxn)
        · exact hfirst _ (hnode y hy)

theorem issued_strictly_increasing_falling_clock :
    ∃ (log : List (Turn SteppingClock)) (s : Issuer), Run (ofPatience 0) log s ∧ ReadsInRange log ∧
      (log.filterMap Turn.issued).map (·.raw) = [1835269, 1835013] ∧
      (log.filterMap Turn.issued).Pairwise (fun later earlier => earlier.raw < later.raw) ∧
      ∀ x ∈ log.filterMap Turn.issued, (log.filterMap Turn.assigned).getLast? = some x.node := by
  have hrun : Run (ofPatience 0) (_ : List (Turn SteppingClock)) _ :=
    ((Run.start.use (.assignNode 5)).use (.issue ⟨7, 0⟩)).use (.issue ⟨3, 0⟩)
  refine ⟨_, _, hrun, ?range, by decide, issued_strictly_increasing hrun ?range⟩
  decide

end Chronicle.Issuer
