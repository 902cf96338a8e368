import Chronicle.Proofs.Account.Indexes
import Chronicle.Proofs.Store.Window

namespace Chronicle.Account

open Entity (HasAttribute)

variable {γ : Type} [Clock γ] {start s : Store MemoryTables γ} {log : List (Store.Call Account MemoryTables γ)}
  {t : MemoryTables}

lemma dated_of_versionRows (h : Store.VersionRows collection "accounts_by_day" log t) : t.Dated "accounts_by_day" := by
  intro value ref href
  obtain ⟨expires, hget⟩ := MemoryTables.mem_refsAfter.1 href
  obtain ⟨_, a, ha, hstored⟩ := h.explained value ref.place ⟨ref.entity, expires⟩ hget
  obtain ⟨_, u, hu, rfl⟩ := hasAttribute_version_iff.1 ha
  have hupdate : a.update = some ref.place := by
    rcases hstored with ⟨_, _, hr⟩ | ⟨_, _, hb⟩
    · exact hr.entity_update
    · obtain ⟨_, _, hr⟩ := hb.stored
      exact hr.entity_update
  rw [Option.some.inj (hu.symm.trans hupdate)]

lemma mem_refsAfter_of_versionRows (h : Store.VersionRows collection "accounts_by_day" log t) {id u : Identifier}
    {a : Account} (ha : collection.Stores t id u a) :
    ⟨u, id⟩ ∈ t.refsAfter "accounts_by_day" u.dayText none := by
  have ⟨_, _, hr⟩ := ha
  exact MemoryTables.mem_refsAfter.2
    ⟨none, h.present id u a u.dayText ha (hasAttribute_version_iff.2 ⟨rfl, u, hr.entity_update, rfl⟩)⟩

theorem recent_exact (h : Store.Run collection start log s) (hs : start.Opened .empty)
    (ho : Store.Orderly collection log) (hn : Store.CreatesAnew collection log) (hc : Store.AllComplete collection log)
    (hf : Store.EntitiesFit log) (clock : γ) (hnow : Identifier.HoldsMillis (Clock.now clock)) (window : Int64)
    (hday : -2 ^ 45 ≤ ((Clock.now clock).toInt - window.toInt) / Calendar.dayMillis * Calendar.dayMillis)
    (holdest : (Clock.now clock).toInt - window.toInt < 2 ^ 45) :
    ∃ versions, collection.Enumerates s.tables (fun u => (Clock.now clock).toInt - window.toInt ≤ u.millis.toInt ∧
        u.dayNumber ≤ (Clock.now clock).toInt / Calendar.dayMillis) versions ∧
      ∀ limit, limit ≠ 0 → Store.recent { s with clock } collection "accounts_by_day" window limit =
        .ok (versions.take limit) := by
  have hentity : ∀ (a : Account) value, ¬ HasAttribute a .entity "accounts_by_day" value := by
    intro a value ha
    simp [hasAttribute_entity_iff] at ha
  obtain ⟨_, hrows⟩ := h.versionRows hs ho hf hc hn hentity rfl
  exact (h.rowsRead hs hf).recent_eq (dated_of_versionRows hrows)
    (fun _ _ _ ha => mem_refsAfter_of_versionRows hrows ha) hnow hday holdest

def severalDays : List (SteppingClock × Store.Request Account) :=
  [(⟨172800000, 0⟩, .delete ⟨1835013⟩), (⟨172800000, 0⟩, .create (.new "C" "z")),
    (⟨86400000, 0⟩, .create (.new "B" "y")), (⟨86399999, 0⟩, .update ⟨some ⟨1835013⟩, none, "A", "y"⟩),
    (⟨7, 0⟩, .create (.new "A" "x"))]

def laterAccounts : List Account :=
  [⟨some ⟨22649241600005⟩, some ⟨22649241600005⟩, "B", "y"⟩, ⟨some ⟨45298483200005⟩, some ⟨45298483200005⟩, "C", "z"⟩]

theorem recent_exact_several_days :
    let log := (Store.play collection vacant severalDays).1
    let s : Store MemoryTables SteppingClock :=
      { (Store.play collection vacant severalDays).2 with clock := ⟨259200000, 0⟩ }
    Store.Orderly collection log ∧ Store.CreatesAnew collection log ∧ Store.AllComplete collection log ∧
      Store.EntitiesFit log ∧ s.tables.refsAfter "accounts_by_day" "19700101" none = [⟨⟨1835013⟩, ⟨1835013⟩⟩] ∧
      collection.Enumerates s.tables (fun u => 7 ≤ u.millis.toInt ∧ u.dayNumber ≤ 3) laterAccounts ∧
      ∀ limit, limit ≠ 0 →
        Store.recent s collection "accounts_by_day" 259199993 limit = .ok (laterAccounts.take limit) := by
  have ho : Store.Orderly collection (Store.play collection vacant severalDays).1 := by
    decide +kernel
  have hn : Store.CreatesAnew collection (Store.play collection vacant severalDays).1 := by
    decide +kernel
  have hc : Store.AllComplete collection (Store.play collection vacant severalDays).1 := by
    decide +kernel
  have hf : Store.EntitiesFit (Store.play collection vacant severalDays).1 := by
    decide +kernel
  obtain ⟨versions, hversions, hrecent⟩ := recent_exact (Store.run_play _ _ _) opened_vacant ho hn hc hf
    (⟨259200000, 0⟩ : SteppingClock) (by decide) 259199993 (by decide) (by decide)
  have heq : versions.take 3 = laterAccounts := Except.ok.inj ((hrecent 3 (by decide)).symm.trans (by decide +kernel))
  have hlength : min 3 versions.length = 2 := by
    rw [← List.length_take, heq]
    rfl
  obtain rfl : versions = laterAccounts := by
    rwa [List.take_of_length_le (by omega)] at heq
  exact ⟨ho, hn, hc, hf, by decide +kernel, hversions, hrecent⟩

def creationAtDawn : List (SteppingClock × Store.Request Account) :=
  [(⟨-35184372088000, 0⟩, .create (.new "a" "x"))]

/-- The account is not read back in the very millisecond of its creation, for it is looked for in another day. -/
theorem recent_misses_first_day :
    let log := (Store.play collection vacant creationAtDawn).1
    let s := (Store.play collection vacant creationAtDawn).2
    Store.Orderly collection log ∧ Store.CreatesAnew collection log ∧ Store.AllComplete collection log ∧
      -2 ^ 45 < (Clock.now s.clock).toInt ∧
      (∃ u : Identifier, collection.current s.tables u = .ok (some ⟨some u, some u, "a", "x"⟩) ∧
        u.millis.toInt = (Clock.now s.clock).toInt) ∧
      Store.recent s collection "accounts_by_day" 0 10 = .ok [] := by
  refine ⟨by decide +kernel, by decide +kernel, by decide +kernel, by decide +kernel, ?_, by decide +kernel⟩
  exact ⟨⟨-9223372036636671995⟩, by decide +kernel⟩

end Chronicle.Account
