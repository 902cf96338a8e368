import Mathlib.Tactic.Lemma
import Chronicle.Store.Write

namespace Chronicle.Store

section

variable {σ γ : Type} [Clock γ] (s : Store σ γ)

@[simp]
lemma tables_stamped : s.stamped.tables = s.tables := rfl

@[simp]
lemma delivery_stamped : s.stamped.delivery = s.delivery := rfl

@[simp]
lemma issuer_stamped : s.stamped.issuer = s.issuer := rfl

end

variable {ε σ γ : Type} [Entity ε] [Tables σ]

section

variable {s s' : Store σ γ} {α : Type} {table : String} {planned : Except Error (α × WritePlan)}

lemma carryOut_eq (s : Store σ γ) (table : String) (planned : Except Error (α × WritePlan)) :
    s.carryOut table planned =
      match planned with
      | .error err => (.error err, s)
      | .ok (value, plan) =>
        match changePrimary s.tables table plan with
        | .error err => (.error err, s)
        | .ok tables =>
          (.ok ⟨value, plan.indexWrites.length, (deliver s.delivery tables plan).2⟩,
            s.withTables (deliver s.delivery tables plan).1) := by
  cases planned with
  | error err => rfl
  | ok p =>
    cases hc : changePrimary s.tables table p.2 <;>
      simp only [carryOut, bind, Except.bind, hc, pure, Except.pure]

lemma carryOut_ok {receipt : Receipt α} (h : s.carryOut table planned = (.ok receipt, s')) :
    ∃ value plan tables, planned = .ok (value, plan) ∧ changePrimary s.tables table plan = .ok tables ∧
      receipt = ⟨value, plan.indexWrites.length, (deliver s.delivery tables plan).2⟩ ∧
      s' = s.withTables (deliver s.delivery tables plan).1 := by
  rw [carryOut_eq] at h
  split at h
  · simp at h
  · next value plan =>
    split at h
    · simp at h
    · next tables hc =>
      obtain ⟨rfl, rfl⟩ := by simpa using h
      exact ⟨value, plan, tables, rfl, hc, rfl, rfl⟩

lemma carryOut_error {err : Error} (h : s.carryOut table planned = (.error err, s')) : s' = s := by
  rw [carryOut_eq] at h
  split at h
  · exact (congrArg Prod.snd h).symm
  · split at h
    · exact (congrArg Prod.snd h).symm
    · simp at h

lemma error_of_carryOut_put {check : Except Error Unit} {value : α} {plan : WritePlan} {v : StoredVersion}
    {err : Error} (h : (s.carryOut table do check; return (value, plan)).1 = .error err)
    (hv : plan.primary = .put v) : check = .error err ∨ ∃ v, Tables.put s.tables table v = .error err := by
  rw [carryOut_eq] at h
  cases check with
  | error err' =>
    cases h
    exact .inl rfl
  | ok _ =>
    simp only [bind, Except.bind, pure, Except.pure, changePrimary, hv] at h
    split at h
    · next hput =>
      cases h
      exact .inr ⟨v, hput⟩
    · cases h

lemma issuer_carryOut (s : Store σ γ) (table : String) (planned : Except Error (α × WritePlan)) :
    (s.carryOut table planned).2.issuer = s.issuer := by
  rw [carryOut_eq]
  split
  · rfl
  · split <;> rfl

end

variable {c : Collection ε} {s s' : Store σ γ} {e : ε} {id : Identifier} {err : Error}

lemma delete_ok {receipt : Receipt (Option ε)} (h : s.delete c id = (.ok receipt, s')) :
    ∃ current n tables, c.current s.tables id = .ok current ∧
      Tables.dropChain s.tables c.table id = .ok (n, tables) ∧ receipt.value = current ∧
      receipt.report = (deliver s.delivery tables (Collection.deletePlan current id)).2 ∧
      s'.tables = (deliver s.delivery tables (Collection.deletePlan current id)).1 := by
  obtain ⟨value, plan, tables, hplan, hdrop, rfl, rfl⟩ := carryOut_ok h
  cases hcurrent : c.current s.tables id with
  | error err => simp [hcurrent, bind, Except.bind] at hplan
  | ok current =>
    obtain ⟨rfl, rfl⟩ := by simpa [hcurrent, bind, Except.bind, pure, Except.pure] using hplan
    change (Tables.dropChain s.tables c.table id).map (·.2) = .ok tables at hdrop
    cases hd : Tables.dropChain s.tables c.table id with
    | error err => simp [hd, Except.map] at hdrop
    | ok p =>
      obtain rfl : p.2 = tables := by simpa [hd, Except.map] using hdrop
      exact ⟨_, p.1, p.2, rfl, rfl, rfl, rfl, rfl⟩

variable [Clock γ]

lemma chooseId_snd (s : Store σ γ) (c : Collection ε) (e : ε) :
    (s.chooseId c e).2 = if (Entity.id e).isNone then s.issue.2 else s := by
  unfold chooseId
  cases Entity.id e with
  | none => rfl
  | some id =>
    simp only [Option.isNone_some, Bool.false_eq_true, if_false]
    split <;> rfl

lemma chooseId_tables (s : Store σ γ) (c : Collection ε) (e : ε) : (s.chooseId c e).2.tables = s.tables := by
  rw [chooseId_snd]
  split <;> rfl

lemma chooseId_delivery (s : Store σ γ) (c : Collection ε) (e : ε) : (s.chooseId c e).2.delivery = s.delivery := by
  rw [chooseId_snd]
  split <;> rfl

lemma chooseId_ok (h : (s.chooseId c e).1 = .ok id) :
    Entity.id e = some id ∧ Tables.latest? s.tables c.table id = .ok none ∨
      Entity.id e = none ∧ s.issue.1 = .ok id := by
  unfold chooseId at h
  split at h
  · next hid => exact .inr ⟨hid, h⟩
  · next id' hid =>
    split at h
    · simp at h
    · simp at h
    · next hlatest =>
      obtain rfl : id' = id := by simpa using h
      exact .inl ⟨hid, hlatest⟩

lemma create_ok {receipt : Receipt ε} (h : s.create c e = (.ok receipt, s')) :
    ∃ id stamps tables, (s.chooseId c e).1 = .ok id ∧
      c.refuseTaken s.tables id (Entity.attributes (Entity.stamp e id id)) = .ok () ∧
      Tables.put s.tables c.table (c.newVersion (Entity.stamp e id id) id id stamps) = .ok tables ∧
      receipt.value = Entity.stamp e id id ∧
      receipt.report = (deliver s.delivery tables (c.createPlan (Entity.stamp e id id) id stamps)).2 ∧
      s'.tables = (deliver s.delivery tables (c.createPlan (Entity.stamp e id id) id stamps)).1 ∧
      stamps = Stamps.read (s.chooseId c e).2.clock := by
  have htables := chooseId_tables s c e
  have hdelivery := chooseId_delivery s c e
  unfold create at h
  split at h
  · simp at h
  · next id s₁ hchoose =>
    rw [hchoose] at htables hdelivery ⊢
    simp only at htables hdelivery
    obtain ⟨value, plan, tables, hplan, hput, rfl, rfl⟩ := carryOut_ok h
    cases htaken : c.refuseTaken s₁.tables id (Entity.attributes (Entity.stamp e id id)) with
    | error err => simp [htaken, bind, Except.bind] at hplan
    | ok _ =>
      obtain ⟨rfl, rfl⟩ := by simpa [htaken, bind, Except.bind, pure, Except.pure] using hplan
      rw [htables] at htaken
      rw [tables_stamped, htables] at hput
      rw [delivery_stamped, hdelivery]
      exact ⟨id, _, tables, rfl, htaken, hput, rfl, rfl, rfl, rfl⟩

lemma create_error (h : s.create c e = (.error err, s')) : s'.tables = s.tables := by
  have htables := chooseId_tables s c e
  unfold create at h
  split at h
  · next s₁ hchoose =>
    rw [hchoose] at htables
    exact (congrArg (fun p => p.2.tables) h).symm.trans htables
  · next id s₁ hchoose =>
    rw [hchoose] at htables
    rw [carryOut_error h]
    exact htables

lemma update_ok {receipt : Receipt ε} (h : s.update c e = (.ok receipt, s')) :
    ∃ id previous u stamps tables, Entity.id e = some id ∧ c.current s.tables id = .ok previous ∧
      s.issue.1 = .ok u ∧
      c.refuseTaken s.tables id (Entity.attributes (Entity.withUpdate e u)) = .ok () ∧
      Tables.put s.tables c.table (c.newVersion (Entity.withUpdate e u) id u stamps) = .ok tables ∧
      receipt.value = Entity.withUpdate e u ∧
      receipt.report = (deliver s.delivery tables (c.updatePlan previous (Entity.withUpdate e u) id u stamps)).2 ∧
      s'.tables = (deliver s.delivery tables (c.updatePlan previous (Entity.withUpdate e u) id u stamps)).1 ∧
      stamps = Stamps.read s.issue.2.clock := by
  unfold update at h
  split at h
  · simp at h
  · next id hid =>
    split at h
    · simp at h
    · next previous hprevious =>
      split at h
      · simp at h
      · next u s₁ hissue =>
        obtain rfl : s.issue.2 = s₁ := congrArg Prod.snd hissue
        obtain ⟨value, plan, tables, hplan, hput, rfl, rfl⟩ := carryOut_ok h
        cases htaken : c.refuseTaken s.issue.2.tables id (Entity.attributes (Entity.withUpdate e u)) with
        | error err => simp [htaken, bind, Except.bind] at hplan
        | ok _ =>
          obtain ⟨rfl, rfl⟩ := by simpa [htaken, bind, Except.bind, pure, Except.pure] using hplan
          exact ⟨id, previous, u, _, tables, hid, hprevious, congrArg Prod.fst hissue, htaken, hput, rfl, rfl, rfl,
            rfl⟩

lemma update_error (h : s.update c e = (.error err, s')) : s'.tables = s.tables := by
  unfold update at h
  split at h
  · exact congrArg tables (congrArg Prod.snd h).symm
  · split at h
    · exact congrArg tables (congrArg Prod.snd h).symm
    · split at h
      · next s₁ hissue =>
        have htables : s₁.tables = s.tables := congrArg (·.2.tables) hissue.symm
        exact (congrArg (·.2.tables) h).symm.trans htables
      · next u s₁ hissue =>
        rw [carryOut_error h]
        exact congrArg (·.2.tables) hissue.symm

lemma error_of_create (h : (s.create c e).1 = .error err) :
    (s.chooseId c e).1 = .error err ∨ ∃ id, (s.chooseId c e).1 = .ok id ∧
      (c.refuseTaken s.tables id (Entity.attributes (Entity.stamp e id id)) = .error err ∨
        ∃ v, Tables.put s.tables c.table v = .error err) := by
  have htables := chooseId_tables s c e
  unfold create at h
  split at h
  · next hchoose =>
    cases h
    exact .inl (congrArg Prod.fst hchoose)
  · next id s₁ hchoose =>
    rw [hchoose] at htables ⊢
    refine .inr ⟨id, rfl, ?_⟩
    rw [← show s₁.stamped.tables = s.tables from htables]
    exact error_of_carryOut_put h rfl

lemma create_refused (hid : (s.chooseId c e).1 = .ok id)
    (h : c.refuseTaken s.tables id (Entity.attributes (Entity.stamp e id id)) = .error err) :
    (s.create c e).1 = .error err := by
  have htables := chooseId_tables s c e
  unfold create
  split
  · next hchoose =>
    rw [hchoose] at hid
    cases hid
  · next s₁ hchoose =>
    rw [hchoose] at hid htables
    cases hid
    rw [← show s₁.tables = s.tables from htables] at h
    simp only [carryOut_eq, h, bind, Except.bind]

lemma error_of_update (h : (s.update c e).1 = .error err) :
    err = .missingId c.table ∨ ∃ id, Entity.id e = some id ∧
      (c.current s.tables id = .error err ∨ s.issue.1 = .error err ∨ ∃ u, s.issue.1 = .ok u ∧
        (c.refuseTaken s.tables id (Entity.attributes (Entity.withUpdate e u)) = .error err ∨
          ∃ v, Tables.put s.tables c.table v = .error err)) := by
  unfold update at h
  split at h
  · cases h
    exact .inl rfl
  · next id hid =>
    refine .inr ⟨id, hid, ?_⟩
    split at h
    · next hcurrent =>
      cases h
      exact .inl hcurrent
    · next previous _ =>
      right
      split at h
      · next hissue =>
        cases h
        exact .inl (congrArg Prod.fst hissue)
      · next u s₁ hissue =>
        obtain rfl : s₁ = s.issue.2 := congrArg Prod.snd hissue.symm
        exact .inr ⟨u, congrArg Prod.fst hissue, error_of_carryOut_put (s := s.issue.2.stamped) h rfl⟩

lemma update_refused {previous : Option ε} {u : Identifier} (hid : Entity.id e = some id)
    (hcurrent : c.current s.tables id = .ok previous) (hissue : s.issue.1 = .ok u)
    (h : c.refuseTaken s.tables id (Entity.attributes (Entity.withUpdate e u)) = .error err) :
    (s.update c e).1 = .error err := by
  have hpair : s.issue = (.ok u, s.issue.2) := Prod.ext hissue rfl
  change c.refuseTaken s.issue.2.tables _ _ = _ at h
  unfold update
  rw [hid]
  simp only [hcurrent]
  rw [hpair]
  simp only [carryOut_eq, h, bind, Except.bind]

lemma issuer_create (s : Store σ γ) (c : Collection ε) (e : ε) :
    (s.create c e).2.issuer = if (Entity.id e).isNone then s.issue.2.issuer else s.issuer := by
  have hchoose : (s.chooseId c e).2.issuer = if (Entity.id e).isNone then s.issue.2.issuer else s.issuer := by
    rw [chooseId_snd]
    split <;> rfl
  rw [← hchoose, create]
  split
  · next hc => rw [hc]
  · next hc => rw [issuer_carryOut, issuer_stamped, hc]

lemma issuer_update (s : Store σ γ) (c : Collection ε) (e : ε) :
    (s.update c e).2.issuer =
      if (Entity.id e).any fun id => (c.current s.tables id).isOk then s.issue.2.issuer else s.issuer := by
  unfold update
  cases Entity.id e with
  | none => rfl
  | some id =>
    cases hcurrent : c.current s.tables id with
    | error err => simp [hcurrent, Except.isOk, Except.toBool]
    | ok previous =>
      simp only [Option.any_some, hcurrent, Except.isOk, Except.toBool, if_true]
      split
      · next hissue => rw [hissue]
      · next hissue => rw [issuer_carryOut, issuer_stamped, hissue]

end Chronicle.Store
