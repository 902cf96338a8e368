import Chronicle.Proofs.Store.ExpiringRows

/-! Events are looked up by their kind through a row that may go before them. -/

namespace Chronicle.Event

open Entity (HasAttribute)
open MemoryTables (Purged)

variable {γ : Type} [Clock γ]

lemma hasAttribute_entity_iff {e : Event} {name value : String} :
    HasAttribute e .entity name value ↔ name = "events_by_kind" ∧ value = e.kind := by
  cases hu : e.update <;>
    simp [HasAttribute, Entity.attributes, attributes, Attribute.Matches, hu, eq_comm]

lemma not_hasAttribute_version (e : Event) (value : String) : ¬ HasAttribute e .version "events_by_kind" value := by
  cases hu : e.update <;>
    simp [HasAttribute, Entity.attributes, attributes, Attribute.Matches, hu]

lemma carries_kind (e : Event) : Entity.Carries e "events_by_kind" e.kind :=
  ⟨_, List.mem_cons_self, rfl, rfl⟩

structure KeepsKind (e : Event) (x : Store.Call Event MemoryTables γ) : Prop where
  written : ∃ receipt, x.reply collection = .written receipt ∧ receipt.value = e
  previous : ∃ id p, e.id = some id ∧ collection.current x.before.tables id = .ok (some p) ∧ p.kind = e.kind

lemma forall_not_keepsKind {log : List (Store.Call Event MemoryTables γ)} {e : Event} {id : Identifier}
    (hid : e.id = some id)
    (h : ∀ x ∈ log, (collection.current x.before.tables id).map (Option.map kind) ≠ .ok (some e.kind)) :
    ∀ x ∈ log, ¬ KeepsKind e x := by
  rintro x hx ⟨_, id', p, hid', hp, hkind⟩
  obtain rfl := Option.some.inj (hid.symm.trans hid')
  apply h x hx
  rw [hp, ← hkind]
  rfl

def vacant {γ : Type} (clock : γ) : Store MemoryTables γ :=
  ⟨.empty, { Issuer.ofPatience 0 with node := some 1 }, clock, .batched⟩

lemma opened_vacant (clock : γ) : (vacant clock).Opened .empty := Store.opened_assigned (by decide) ..

theorem found_by_kind {start s : Store MemoryTables γ} {log : List (Store.Call Event MemoryTables γ)}
    {tables : MemoryTables} {id : Identifier} {e : Event} (h : Store.DriftRun collection Purged start log s)
    (hs : start.Opened .empty) (ho : Store.Orderly collection log) (hf : Store.EntitiesFit log)
    (hc : Store.AllComplete collection log) (hclock : Store.ClockRises collection log)
    (hpurged : Purged s.tables tables) (hcurrent : collection.current tables id = .ok (some e))
    (hkind : ∀ x ∈ log, ¬ KeepsKind e x) (hstamps : ∀ x ∈ log, ¬ x.StampsApart collection e) :
    ∃ limit page, collection.lookup tables "events_by_kind" e.kind none limit = .ok page ∧ e ∈ page.items := by
  have hstep := (h.inStep hs ho hf hc hclock not_hasAttribute_version).purged hpurged
  have hread : collection.RowsRead tables :=
    (h.rowsRead (fun _ _ => Purged.versionsWithin) hs hf).mono hpurged.versionsWithin
  obtain ⟨u, hlatest⟩ := hread.latest_of_current hcurrent
  obtain ⟨v, hv, _⟩ := hlatest.stored
  rcases hstep.listed id u v e e.kind hv hlatest (hasAttribute_entity_iff.2 ⟨rfl, rfl⟩) with
    ⟨x, hx, ⟨hwritten, id', p, hid, hp, ha⟩ | hapart⟩ | hindex
  · exact absurd ⟨hwritten, id', p, hid, hp, (hasAttribute_entity_iff.1 ha).2.symm⟩ (hkind x hx)
  · exact absurd hapart (hstamps x hx)
  · exact hread.mem_lookup hcurrent (carries_kind e) hindex

theorem found_by_kind_changed :
    ∃ (log : List (Store.Call Event MemoryTables SteppingClock)) (s : Store MemoryTables SteppingClock)
      (tables : MemoryTables) (e : Event),
      Store.DriftRun collection Purged (vacant ⟨0, 0⟩) log s ∧ Store.Orderly collection log ∧
      Store.EntitiesFit log ∧ Store.AllComplete collection log ∧ Store.ClockRises collection log ∧
      Purged s.tables tables ∧ tables.versions.size = 1 ∧ e.kind = "b" ∧
      collection.current tables ⟨1⟩ = .ok (some e) ∧ (∀ x ∈ log, ¬ KeepsKind e x) ∧
      (∀ x ∈ log, ¬ x.StampsApart collection e) ∧
      ∃ limit page, collection.lookup tables "events_by_kind" e.kind none limit = .ok page ∧ e ∈ page.items := by
  have created : Store.DriftRun collection Purged (vacant (⟨0, 0⟩ : SteppingClock)) _ _ :=
    Store.DriftRun.start.call .none ⟨0, 0⟩ (.create ⟨none, none, "a"⟩)
  have changed : Store.DriftRun collection Purged (vacant (⟨0, 0⟩ : SteppingClock)) _ _ :=
    created.call (Purged.none.purge 500 rfl) ⟨1000, 0⟩ (.update ⟨some ⟨1⟩, none, "b"⟩)
  refine ⟨_, _, _, ⟨some ⟨1⟩, some ⟨262144001⟩, "b"⟩, changed, ?orderly, ?fit, ?complete, ?rises,
    Purged.none.purge 3600500 rfl, ?size, rfl, ?current, ?kind, ?stamps,
    found_by_kind changed (opened_vacant _) ?orderly ?fit ?complete ?rises (Purged.none.purge 3600500 rfl) ?current
      ?kind ?stamps⟩
  case kind => exact forall_not_keepsKind rfl (by decide +kernel)
  case stamps => exact fun x _ hx => hx.moved rfl
  all_goals decide +kernel

structure Hidden (tables : MemoryTables) (id : Identifier) (e : Event) : Prop where
  current : collection.current tables id = .ok (some e)
  unlisted : ¬ ∃ limit page, collection.lookup tables "events_by_kind" e.kind none limit = .ok page ∧ e ∈ page.items

lemma hidden_of_no_row {tables : MemoryTables} {id : Identifier} {e : Event}
    (hcurrent : collection.current tables id = .ok (some e))
    (hrows : ∀ row ∈ tables.indexes.entries, row.1.name ≠ "events_by_kind") : Hidden tables id e := by
  refine ⟨hcurrent, ?_⟩
  rintro ⟨limit, page, hlookup, he⟩
  obtain ⟨place, id, expires, hget, _⟩ := Collection.row_of_mem_lookup hlookup he
  exact hrows _ (OrderedMap.get?_eq_some_iff.1 hget) rfl

/-- An update keeps the kind of an event. Once the row of that kind has expired no lookup finds the event, which is
there for the rest of its hour. -/
theorem hidden_after_kept_kind :
    ∃ (log : List (Store.Call Event MemoryTables SteppingClock)) (s : Store MemoryTables SteppingClock)
      (tables : MemoryTables) (e : Event),
      Store.DriftRun collection Purged (vacant ⟨0, 0⟩) log s ∧ (vacant (⟨0, 0⟩ : SteppingClock)).Opened .empty ∧
      Store.Orderly collection log ∧ Store.EntitiesFit log ∧ Store.AllComplete collection log ∧
      Store.ClockRises collection log ∧ (∀ x ∈ log, x.suppliedToCreate = none) ∧ Purged s.tables tables ∧
      (∀ x ∈ log, ¬ x.StampsApart collection e) ∧ Hidden tables ⟨1⟩ e := by
  have created : Store.DriftRun collection Purged (vacant (⟨0, 0⟩ : SteppingClock)) _ _ :=
    Store.DriftRun.start.call .none ⟨0, 0⟩ (.create ⟨none, none, "a"⟩)
  have kept : Store.DriftRun collection Purged (vacant (⟨0, 0⟩ : SteppingClock)) _ _ :=
    created.call .none ⟨1000, 0⟩ (.update ⟨some ⟨1⟩, none, "a"⟩)
  refine ⟨_, _, _, ⟨some ⟨1⟩, some ⟨262144001⟩, "a"⟩, kept, opened_vacant _, ?_, ?_, ?_, ?_, ?_,
    Purged.none.purge 3600500 rfl, fun x _ hx => hx.moved rfl, hidden_of_no_row ?_ ?_⟩
  all_goals decide +kernel

structure RunningClock where
  millis : Int64
  step : Int64

instance : Clock RunningClock where
  now c := c.millis
  pause c := { c with millis := c.millis + c.step }
  elapse c := { c with millis := c.millis + c.step }

/-- An event whose row is stamped a millisecond before it is there for that millisecond longer. -/
theorem hidden_between_stamps :
    ∃ (log : List (Store.Call Event MemoryTables RunningClock)) (s : Store MemoryTables RunningClock)
      (tables : MemoryTables) (e : Event),
      Store.DriftRun collection Purged (vacant ⟨0, 1⟩) log s ∧ Store.Orderly collection log ∧
      Store.EntitiesFit log ∧ Store.AllComplete collection log ∧ Store.ClockRises collection log ∧
      Purged s.tables tables ∧ (∀ x ∈ log, ¬ KeepsKind e x) ∧ Hidden tables ⟨1⟩ e := by
  have created : Store.DriftRun collection Purged (vacant (⟨0, 1⟩ : RunningClock)) _ _ :=
    Store.DriftRun.start.call .none ⟨0, 1⟩ (.create ⟨none, none, "a"⟩)
  refine ⟨_, _, _, ⟨some ⟨1⟩, some ⟨1⟩, "a"⟩, created, ?_, ?_, ?_, ?_, Purged.none.purge 3600001 rfl,
    forall_not_keepsKind rfl ?_, hidden_of_no_row ?_ ?_⟩
  all_goals decide +kernel

end Chronicle.Event
