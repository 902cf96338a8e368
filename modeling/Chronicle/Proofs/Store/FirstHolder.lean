import Chronicle.Entity.Account
import Chronicle.Proofs.Store.Readable

namespace Chronicle.Collection

section

variable {ε σ : Type} [Entity ε] [Tables σ] {c : Collection ε} {tables : σ} {index value : String}
  {except : Option Identifier} {holds : IndexRef → Prop}

structure LeadsTo (c : Collection ε) (tables : σ) (index value : String) (except : Option Identifier) (ref : IndexRef)
    (e : ε) : Prop where
  admitted : some ref.entity ≠ except
  current_eq : c.current tables ref.entity = .ok (some e)
  carries : Entity.Carries e index value

structure FindsFirst (holds : IndexRef → Prop) (leads : IndexRef → ε → Prop) (found : Option ε) : Prop where
  first : ∀ e, found = some e → ∃ ref, holds ref ∧ leads ref e ∧
    ∀ ref', holds ref' → ref'.place < ref.place → ∀ e', ¬ leads ref' e'
  none_iff : found = none ↔ ∀ ref, holds ref → ∀ e, ¬ leads ref e

def confirmFirst (c : Collection ε) (tables : σ) (index value : String) (except : Option Identifier)
    (refs : List IndexRef) : Except Error (Option ε) :=
  Source.firstSome (fun ref => c.confirm tables index value ref.entity)
    (refs.filter fun ref => some ref.entity ≠ except)

def FindsHolder (c : Collection ε) (tables : σ) (index value : String) (holds : IndexRef → Prop)
    (except : Option Identifier) : Prop :=
  ∃ found, c.holderBut? tables index value except = .ok found ∧
    (∀ result, (Source.ofIndex tables index value).Searches holderPage (c.confirmFirst tables index value except) none
      result ↔ result = .ok found) ∧
    FindsFirst holds (c.LeadsTo tables index value except) found

structure FindsHolders (c : Collection ε) (tables : σ) (index value : String) (holds : IndexRef → Prop) : Prop where
  but : ∀ except, c.FindsHolder tables index value holds except
  any : ∃ found, c.holder? tables index value = .ok found ∧ FindsFirst holds (c.LeadsTo tables index value none) found

lemma confirmFirst_eq (c : Collection ε) (tables : σ) (index value : String) (except : Option Identifier) :
    c.confirmFirst tables index value except = Source.firstSome fun ref =>
      if some ref.entity = except then .ok none else c.confirm tables index value ref.entity := by
  funext refs
  rw [confirmFirst, Source.firstSome_filter]
  congr 1
  funext ref
  by_cases hexcept : some ref.entity = except <;> simp [hexcept]

lemma Resolves.exists_lead (h : c.Resolves tables index value holds) (except : Option Identifier) :
    ∃ lead : IndexRef → Option ε,
      (∀ ref, (if some ref.entity = except then .ok none else c.confirm tables index value ref.entity) =
        .ok (lead ref)) ∧
      ∀ ref e, lead ref = some e ↔ c.LeadsTo tables index value except ref e := by
  obtain ⟨confirmed, hconfirm, hconfirmed⟩ := h.exists_confirmed
  refine ⟨fun ref => if some ref.entity = except then none else confirmed ref.entity, fun ref => ?_, fun ref e => ?_⟩
  · rw [hconfirm]
    exact (apply_ite Except.ok ..).symm
  · dsimp only
    split
    · next hexcept => exact iff_of_false nofun fun hleads => hleads.admitted hexcept
    · next hexcept =>
      rw [hconfirmed]
      exact ⟨fun ⟨hcurrent, hcarries⟩ => ⟨hexcept, hcurrent, hcarries⟩, fun hleads => ⟨hleads.current_eq, hleads.carries⟩⟩

omit [Entity ε] in
lemma FindsFirst.of_findSome? {refs : List IndexRef} {lead : IndexRef → Option ε} {leads : IndexRef → ε → Prop}
    (hasc : refs.Pairwise fun ref ref' => ref.place < ref'.place) (hrefs : ∀ ref, ref ∈ refs ↔ holds ref)
    (hlead : ∀ ref e, lead ref = some e ↔ leads ref e) : FindsFirst holds leads (refs.findSome? lead) where
  first e hfound := by
    obtain ⟨before, ref, after, rfl, href, hbefore⟩ := List.findSome?_eq_some_iff.1 hfound
    refine ⟨ref, (hrefs ref).1 (by simp), (hlead ref e).1 href, fun ref' href' hlt e' hleads => ?_⟩
    obtain ⟨_, htail, _⟩ := List.pairwise_append.1 hasc
    rcases List.mem_append.1 ((hrefs ref').2 href') with hmem | hmem
    · cases (hbefore ref' hmem).symm.trans ((hlead ref' e').2 hleads)
    · rcases List.mem_cons.1 hmem with rfl | hmem
      · exact Int64.lt_irrefl hlt
      · exact Int64.lt_irrefl (Int64.lt_trans hlt ((List.pairwise_cons.1 htail).1 ref' hmem))
  none_iff := by
    rw [List.findSome?_eq_none_iff]
    simp only [hrefs, Option.eq_none_iff_forall_ne_some, ne_eq, hlead]

lemma Resolves.findsHolder (h : c.Resolves tables index value holds) (except : Option Identifier) :
    c.FindsHolder tables index value holds except := by
  obtain ⟨refs, hlists, hrefs⟩ := h.lists
  obtain ⟨lead, hconfirm, hlead⟩ := h.exists_lead except
  have hpage : 0 < holderPage := by decide
  have hfound : c.holderBut? tables index value except = .ok (refs.findSome? lead) := by
    rw [holderBut?, Source.search_eq hlists hpage, Source.rowsAfter_none,
      Source.firstSome_eq fun ref _ => hconfirm ref]
  have hends : (Source.ofIndex tables index value).Searches holderPage (c.confirmFirst tables index value except) none
      (.ok (refs.findSome? lead)) := by
    rw [confirmFirst_eq, ← hfound, holderBut?]
    exact hlists.searches hpage _ none
  refine ⟨_, hfound, fun result => ?_, .of_findSome? hlists.ascending hrefs hlead⟩
  exact ⟨fun hresult => hresult.unique hends, fun hresult => hresult ▸ hends⟩

lemma Resolves.findsHolders (h : c.Resolves tables index value holds) : c.FindsHolders tables index value holds := by
  obtain ⟨found, hfound, _, hfirst⟩ := h.findsHolder none
  exact ⟨h.findsHolder, found, hfound, hfirst⟩

end

theorem holders_found {ε : Type} [Entity ε] (c : Collection ε) (index value : String) :
    (∀ t : MemoryTables, c.Readable t → c.FindsHolders t index value (t.Holds (.index index value))) ∧
    ∀ calls : List TableCall, (∀ call ∈ calls, call.Fits) → NulFree index → NulFree value →
      c.Readable (TableCall.run KeyedTables.empty calls) →
      c.FindsHolders (TableCall.run KeyedTables.empty calls) index value
        ((TableCall.run KeyedTables.empty calls).Holds (.index index value)) :=
  ⟨fun _ h => (MemoryTables.resolves h index value).findsHolders,
    fun _ hf hindex hvalue h => (KeyedTables.resolves hf ⟨hindex, hvalue⟩ h).findsHolders⟩

def resident : Account := ⟨some ⟨20⟩, some ⟨20⟩, "a@example.com", "CA"⟩

def refsTo (ids : List Int64) : List IndexRef := ids.map fun n => ⟨⟨n⟩, ⟨n⟩⟩

def buried : List TableCall :=
  .put "accounts" ⟨⟨20⟩, ⟨20⟩, Account.codec.encode resident, none⟩ ::
    (refsTo [1, 2, 3, 4, 5, 6, 7, 8, 9, 20]).map fun ref =>
      .write (.insert ⟨"accounts_by_state", "CA", ref.place, ref.entity⟩ none)

theorem holders_found_buried :
    let memory := TableCall.run MemoryTables.empty buried
    let keyed := TableCall.run KeyedTables.empty buried
    Account.collection.Readable memory ∧ Account.collection.Readable keyed ∧
      Account.collection.FindsHolders memory "accounts_by_state" "CA" (memory.Holds (.index "accounts_by_state" "CA")) ∧
      Account.collection.FindsHolders keyed "accounts_by_state" "CA" (keyed.Holds (.index "accounts_by_state" "CA")) ∧
      Account.collection.holderBut? keyed "accounts_by_state" "CA" (some ⟨3⟩) = .ok (some resident) := by
  have hmemory : Account.collection.Readable (TableCall.run MemoryTables.empty buried) :=
    MemoryTables.readable_of_rows (by decide +kernel)
  have hkeyed : Account.collection.Readable (TableCall.run KeyedTables.empty buried) :=
    KeyedTables.readable_of_rows (by decide +kernel)
  obtain ⟨hfinds, hfinds'⟩ := holders_found Account.collection "accounts_by_state" "CA"
  have hfinds' := hfinds' buried (by decide +kernel) (by decide +kernel) (by decide +kernel) hkeyed
  obtain ⟨found, hfound, hends, _⟩ := hfinds'.but (some ⟨3⟩)
  have hsearch : (Source.ofIndex (TableCall.run KeyedTables.empty buried) "accounts_by_state" "CA").Searches holderPage
      (Account.collection.confirmFirst (TableCall.run KeyedTables.empty buried) "accounts_by_state" "CA" (some ⟨3⟩)) none
      (.ok (some resident)) :=
    .further (by decide +kernel : _ = Except.ok (Page.mk (refsTo [1, 2, 3, 4, 5, 6, 7, 8]) (some ⟨8⟩)))
      (by decide +kernel) (.found (by decide +kernel : _ = Except.ok (Page.mk (refsTo [9, 20]) none)) (by decide +kernel))
  exact ⟨hmemory, hkeyed, hfinds _ hmemory, hfinds', hfound.trans ((hends _).1 hsearch).symm⟩

end Chronicle.Collection
