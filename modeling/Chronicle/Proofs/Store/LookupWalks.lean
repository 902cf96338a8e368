import Chronicle.Proofs.Store.FirstHolder

namespace Chronicle.Collection

inductive LookupWalk {ε : Type} (lookup : Option Identifier → Except Error (LookupPage ε)) :
    Option Identifier → List (LookupPage ε) → Prop where
  | last {after : Option Identifier} {page : LookupPage ε} (hpage : lookup after = .ok page)
      (hnext : page.next = none) : LookupWalk lookup after [page]
  | next {after : Option Identifier} {page : LookupPage ε} {c : Identifier} {pages : List (LookupPage ε)}
      (hpage : lookup after = .ok page) (hnext : page.next = some c) (rest : LookupWalk lookup (some c) pages) :
      LookupWalk lookup after (page :: pages)

structure Sorts {ε : Type} (found : IndexRef → Option ε) (refs : List IndexRef) (items : List ε)
    (stale : List Identifier) : Prop where
  items_eq : items = refs.filterMap found
  stale_eq : stale = (refs.filter fun ref => (found ref).isNone).map (·.entity)

structure Accounts {ε : Type} (holds : IndexRef → Prop) (leads : IndexRef → ε → Prop) (limit : Nat)
    (start : Option Identifier) (chunks : List (List IndexRef)) (pages : List (LookupPage ε)) : Prop where
  ascends : Source.Ascends IndexRef.place start chunks.flatten
  mem_iff : ∀ ref, ref ∈ chunks.flatten ↔ holds ref ∧ Grows start ref.place
  length_le : ∀ chunk ∈ chunks, chunk.length ≤ limit
  full : ∀ chunk ∈ chunks.dropLast, chunk.length = limit
  sorts : ∃ found : IndexRef → Option ε, (∀ ref e, found ref = some e ↔ leads ref e) ∧
    List.Forall₂ (fun chunk page => Sorts found chunk page.items page.stale) chunks pages ∧
    Sorts found chunks.flatten (pages.flatMap (·.items)) (pages.flatMap (·.stale))

structure WalksThrough {ε : Type} (lookup : Option Identifier → Nat → Except Error (LookupPage ε))
    (holds : IndexRef → Prop) (leads : IndexRef → ε → Prop) : Prop where
  ends : ∀ start limit, 0 < limit → ∃ pages, LookupWalk (lookup · limit) start pages
  accounts : ∀ start limit pages, 0 < limit → LookupWalk (lookup · limit) start pages →
    ∃ chunks, Accounts holds leads limit start chunks pages

section

variable {ε σ : Type} [Tables σ] {tables : σ} {index value : String} {limit : Nat} {after : Option Identifier}
  {follow : IndexRef → Except Error (Option ε)} {found : IndexRef → Option ε} {chunks : List (List IndexRef)}
  {pages : List (LookupPage ε)}

lemma Sorts.append {refs refs' : List IndexRef} {items items' : List ε} {stale stale' : List Identifier}
    (h : Sorts found refs items stale) (h' : Sorts found refs' items' stale') :
    Sorts found (refs ++ refs') (items ++ items') (stale ++ stale') where
  items_eq := by rw [List.filterMap_append, h.items_eq, h'.items_eq]
  stale_eq := by rw [List.filter_append, List.map_append, h.stale_eq, h'.stale_eq]

lemma Sorts.flatten (h : List.Forall₂ (fun chunk page => Sorts found chunk page.items page.stale) chunks pages) :
    Sorts found chunks.flatten (pages.flatMap (·.items)) (pages.flatMap (·.stale)) := by
  induction h with
  | nil => exact ⟨rfl, rfl⟩
  | cons hpage _ ih => exact hpage.append ih

section

variable (hfollow : ∀ ref, follow ref = .ok (found ref))

include hfollow

lemma exists_of_siftPage {page : LookupPage ε} (h : siftPage tables index value after limit follow = .ok page) :
    ∃ refs, (Source.ofIndex tables index value).page limit after = .ok ⟨refs, page.next⟩ ∧
      Sorts found refs page.items page.stale := by
  cases hpage : (Source.ofIndex tables index value).page limit after with
  | error err =>
    rw [siftPage, hpage] at h
    cases h
  | ok raw =>
    obtain ⟨refs, next⟩ := raw
    obtain rfl := Except.ok.inj ((siftPage_eq hfollow hpage).symm.trans h)
    exact ⟨refs, rfl, rfl, rfl⟩

lemma LookupWalk.exists_chunks (hw : LookupWalk (siftPage tables index value · limit follow) after pages) (n : Nat) :
    ∃ chunks, Source.Walk (fun _ => Source.ofIndex tables index value) limit n after chunks ∧
      List.Forall₂ (fun chunk page => Sorts found chunk page.items page.stale) chunks pages := by
  induction hw generalizing n with
  | last hpage hnext =>
    obtain ⟨refs, hraw, hsorts⟩ := exists_of_siftPage hfollow hpage
    exact ⟨[refs], .last (hnext ▸ hraw), .cons hsorts .nil⟩
  | next hpage hnext _ ih =>
    obtain ⟨refs, hraw, hsorts⟩ := exists_of_siftPage hfollow hpage
    obtain ⟨chunks, hwalk, hrest⟩ := ih (n + 1)
    exact ⟨refs :: chunks, .next (hnext ▸ hraw) hwalk, .cons hsorts hrest⟩

lemma exists_lookupWalk {n : Nat}
    (hw : Source.Walk (fun _ => Source.ofIndex tables index value) limit n after chunks) :
    ∃ pages, LookupWalk (siftPage tables index value · limit follow) after pages := by
  induction hw with
  | last hpage => exact ⟨_, .last (siftPage_eq hfollow hpage) rfl⟩
  | next hpage _ ih =>
    obtain ⟨pages, hrest⟩ := ih
    exact ⟨_, .next (siftPage_eq hfollow hpage) rfl hrest⟩

lemma walksThrough_siftPage {refs : List IndexRef} {holds : IndexRef → Prop} {leads : IndexRef → ε → Prop}
    (hlists : (Source.ofIndex tables index value).Lists refs) (hrefs : ∀ ref, ref ∈ refs ↔ holds ref)
    (hfound : ∀ ref e, found ref = some e ↔ leads ref e) :
    WalksThrough (siftPage tables index value · · follow) holds leads where
  ends start limit hl := by
    obtain ⟨chunks, hwalk⟩ := Source.exists_walk (fun _ => hlists) hl 0 start
    exact exists_lookupWalk hfollow hwalk
  accounts start limit pages hl hw := by
    obtain ⟨chunks, hwalk, hsorts⟩ := hw.exists_chunks hfollow 0
    refine ⟨chunks, hwalk.ascends (fun _ => hlists) hl fun _ => rfl, fun ref => ?_, hwalk.length_le (fun _ => hlists) hl,
      hwalk.full, found, hfound, hsorts, .flatten hsorts⟩
    rw [hwalk.flatten_eq hlists hl, Source.rowsAfter, List.mem_filter, hrefs, decide_eq_true_eq]
    rfl

end

end

section

variable {ε σ : Type} [Entity ε] [Tables σ] {c : Collection ε} {tables : σ} {index value : String}
  {holds : IndexRef → Prop}

structure LookupsAccount (c : Collection ε) (tables : σ) (index value : String) (holds : IndexRef → Prop) : Prop where
  lookup : WalksThrough (c.lookup tables index value) holds fun ref e =>
    c.current tables ref.entity = .ok (some e) ∧ Entity.Carries e index value
  lookupVersions : WalksThrough (c.lookupVersions tables index value) holds fun ref e =>
    c.version tables ref.entity ref.place = .ok (some e)

lemma Resolves.lookupsAccount (h : c.Resolves tables index value holds) :
    c.LookupsAccount tables index value holds := by
  obtain ⟨refs, hlists, hrefs⟩ := h.lists
  obtain ⟨confirmed, hconfirm, hconfirmed⟩ := h.exists_confirmed
  choose version hversion using h.version_ok
  refine ⟨walksThrough_siftPage (fun ref => hconfirm ref.entity) hlists hrefs fun ref => hconfirmed ref.entity,
    walksThrough_siftPage (fun ref => hversion ref.entity ref.place) hlists hrefs fun ref e => ?_⟩
  rw [hversion, Except.ok.injEq]

end

theorem lookups_account {ε : Type} [Entity ε] (c : Collection ε) (index value : String) :
    (∀ t : MemoryTables, c.Readable t → c.LookupsAccount t index value (t.Holds (.index index value))) ∧
    ∀ calls : List TableCall, (∀ call ∈ calls, call.Fits) → NulFree index → NulFree value →
      c.Readable (TableCall.run KeyedTables.empty calls) →
      c.LookupsAccount (TableCall.run KeyedTables.empty calls) index value
        ((TableCall.run KeyedTables.empty calls).Holds (.index index value)) :=
  ⟨fun _ h => (MemoryTables.resolves h index value).lookupsAccount,
    fun _ hf hindex hvalue h => (KeyedTables.resolves hf ⟨hindex, hvalue⟩ h).lookupsAccount⟩

deriving instance DecidableEq for LookupPage

def pagesOfBuried : List (LookupPage Account) :=
  [⟨[], [⟨5⟩, ⟨6⟩, ⟨7⟩], some ⟨7⟩⟩, ⟨[resident], [⟨8⟩, ⟨9⟩], some ⟨20⟩⟩, ⟨[], [], none⟩]

theorem lookups_account_buried :
    let memory := TableCall.run MemoryTables.empty buried
    let keyed := TableCall.run KeyedTables.empty buried
    Account.collection.Readable memory ∧ Account.collection.Readable keyed ∧
      Account.collection.LookupsAccount memory "accounts_by_state" "CA" (memory.Holds (.index "accounts_by_state" "CA")) ∧
      ∃ chunks, LookupWalk (Account.collection.lookup keyed "accounts_by_state" "CA" · 3) (some ⟨4⟩) pagesOfBuried ∧
        Accounts (keyed.Holds (.index "accounts_by_state" "CA")) (fun ref e =>
          Account.collection.current keyed ref.entity = .ok (some e) ∧ Entity.Carries e "accounts_by_state" "CA")
          3 (some ⟨4⟩) chunks pagesOfBuried := by
  have hmemory : Account.collection.Readable (TableCall.run MemoryTables.empty buried) :=
    MemoryTables.readable_of_rows (by decide +kernel)
  have hkeyed : Account.collection.Readable (TableCall.run KeyedTables.empty buried) :=
    KeyedTables.readable_of_rows (by decide +kernel)
  obtain ⟨haccount, haccount'⟩ := lookups_account Account.collection "accounts_by_state" "CA"
  have haccount' := haccount' buried (by decide +kernel) (by decide +kernel) (by decide +kernel) hkeyed
  have hwalk :
      LookupWalk (Account.collection.lookup (TableCall.run KeyedTables.empty buried) "accounts_by_state" "CA" · 3)
      (some ⟨4⟩) pagesOfBuried :=
    .next (by decide +kernel) rfl (.next (by decide +kernel) rfl (.last (by decide +kernel) rfl))
  obtain ⟨chunks, hchunks⟩ := haccount'.lookup.accounts _ _ _ (by decide) hwalk
  exact ⟨hmemory, hkeyed, haccount _ hmemory, chunks, hwalk, hchunks⟩

end Chronicle.Collection
