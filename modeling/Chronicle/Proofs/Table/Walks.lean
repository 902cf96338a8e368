import Chronicle.Proofs.Paging.Walk
import Chronicle.Proofs.Table.Listings
import Chronicle.Proofs.Table.Reachable

/-! Walks in pages through tables that are written to from page to page. -/

namespace Chronicle

inductive Listing where
  | index (name value : String)
  | counter (name key : String)
  | table (name : String)

namespace Listing

def Row : Listing → Type
  | index .. => IndexRef
  | counter .. => Int64 × UInt64
  | table _ => Identifier

def Position : Listing → Type
  | index .. => Identifier
  | counter .. => Int64
  | table _ => Identifier

instance : (l : Listing) → Cursor l.Position
  | index .. => inferInstanceAs (Cursor Identifier)
  | counter .. => inferInstanceAs (Cursor Int64)
  | table _ => inferInstanceAs (Cursor Identifier)

def position : (l : Listing) → l.Row → l.Position
  | index .. => IndexRef.place
  | counter .. => Prod.fst
  | table _ => fun id => id

def NulFree : Listing → Prop
  | index name value => Chronicle.NulFree name ∧ Chronicle.NulFree value
  | counter name key => Chronicle.NulFree name ∧ Chronicle.NulFree key
  | table name => Chronicle.NulFree name

instance : (l : Listing) → Decidable l.NulFree
  | index name value | counter name value =>
    inferInstanceAs (Decidable (Chronicle.NulFree name ∧ Chronicle.NulFree value))
  | table name => inferInstanceAs (Decidable (Chronicle.NulFree name))

section

variable {σ : Type} [Tables σ]

def source (t : σ) : (l : Listing) → Source l.Row l.Position
  | index name value => .ofIndex t name value
  | counter name key => .ofCounter t name key
  | table name => .ofTable t name

lemma cursor_source (t : σ) (l : Listing) : (l.source t).cursor = l.position := by
  cases l <;> rfl

structure Covers (l : Listing) (holds : Nat → l.Row → Prop) (limit : Nat) (after : Option l.Position)
    (pages : List (List l.Row)) : Prop where
  ascends : Source.Ascends l.position after pages.flatten
  length_le : ∀ page ∈ pages, page.length ≤ limit
  held : ∀ n page, pages[n]? = some page → ∀ row ∈ page, holds n row
  once : ∀ p, Grows after p → (∀ n < pages.length, ∃ row, holds n row ∧ l.position row = p) →
    pages.flatten.countP (fun row => Cursor.word (l.position row) = Cursor.word p) = 1

structure Exhausts (l : Listing) (s : Source l.Row l.Position) (holds : l.Row → Prop) (limit : Nat)
    (after : Option l.Position) (pages : List (List l.Row)) : Prop where
  ascends : Source.Ascends l.position after pages.flatten
  mem_iff : ∀ row, row ∈ pages.flatten ↔ holds row ∧ Grows after (l.position row)
  stream : ∃ full : List (List l.Row), s.pages limit after = full.map .ok ∧ full.flatten = pages.flatten ∧
    (∀ page ∈ full, page ≠ [] ∧ page.length ≤ limit) ∧ ∀ page ∈ full.dropLast, page.length = limit

structure WalksExactly (l : Listing) (holds : σ → l.Row → Prop) (state : Nat → σ) (limit : Nat)
    (after : Option l.Position) : Prop where
  ends : ∃ pages, Source.Walk (fun n => l.source (state n)) limit 0 after pages
  covers : ∀ pages, Source.Walk (fun n => l.source (state n)) limit 0 after pages →
    l.Covers (fun n => holds (state n)) limit after pages
  settles : ∀ n, ∃ pages, Source.Walk (fun _ => l.source (state n)) limit 0 after pages
  exhausts : ∀ n pages, Source.Walk (fun _ => l.source (state n)) limit 0 after pages →
    l.Exhausts (l.source (state n)) (holds (state n)) limit after pages

variable {l : Listing} {limit : Nat}

lemma walksExactly (holds : σ → l.Row → Prop) (state : Nat → σ) (hl : 0 < limit) (after : Option l.Position)
    (h : ∀ n, ∃ rows, (l.source (state n)).Lists rows ∧ ∀ row, row ∈ rows ↔ holds (state n) row) :
    l.WalksExactly holds state limit after := by
  choose rows hlists hrows using h
  have hcursor (n : Nat) := cursor_source (state n) l
  refine ⟨Source.exists_walk hlists hl 0 after, fun pages hwalk => ?_,
    fun n => Source.exists_walk (fun _ => hlists n) hl 0 after, fun n pages hwalk => ?_⟩
  · have hascends := hwalk.ascends hlists hl hcursor
    refine ⟨hascends, hwalk.length_le hlists hl, fun n page hpage row hrow => ?_, fun p hp hpresent => ?_⟩
    · rw [← hrows, ← Nat.zero_add n]
      exact hwalk.mem_rows hlists hl hpage row hrow
    · obtain ⟨row, hrow, rfl⟩ := hwalk.exists_of_present hlists hl hcursor hp fun n hn => by
        obtain ⟨row, hrow, hposition⟩ := hpresent n hn
        exact ⟨row, by rwa [Nat.zero_add, hrows], hposition⟩
      exact hascends.countP_eq_one hrow
  · have hflatten := hwalk.flatten_eq (hlists n) hl
    refine ⟨hwalk.ascends (fun _ => hlists n) hl fun _ => hcursor n, fun row => ?_, ?_⟩
    · rw [hflatten, Source.rowsAfter, List.mem_filter, hrows, hcursor, decide_eq_true_eq]
    · rw [hflatten]
      exact (hlists n).pages_eq hl after

end

end Listing

def MemoryTables.Holds (t : MemoryTables) : (l : Listing) → l.Row → Prop
  | .index name value => fun ref : IndexRef =>
    ∃ expires, t.indexes.get? ⟨name, value, ref.place⟩ = some ⟨ref.entity, expires⟩
  | .counter name key => fun row : Int64 × UInt64 => t.counters.get? ⟨name, key, row.1⟩ = some row.2
  | .table name => fun id : Identifier => ∃ u v, t.versions.get? ⟨name, id, u⟩ = some v

def KeyedTables.Holds (b : KeyedTables) : (l : Listing) → l.Row → Prop
  | .index name value => fun ref : IndexRef => ∃ expires bs, b.indexes.get? (Key.index name value ref.place) = some bs ∧
    Codec.readStored Codec.indexCell bs = .ok ⟨ref.entity, expires⟩
  | .counter name key => fun row : Int64 × UInt64 => ∃ bs, b.counters.get? (Key.counter name key row.1) = some bs ∧
    Codec.readCount bs = .ok row.2
  | .table name => fun id : Identifier => ∃ u bs, b.versions.get? (Key.version name id u) = some bs

lemma MemoryTables.lists (t : MemoryTables) (l : Listing) :
    ∃ rows, (l.source t).Lists rows ∧ ∀ row, row ∈ rows ↔ t.Holds l row := by
  cases l with
  | index name value => exact ⟨_, t.lists_ofIndex name value, fun _ => mem_refsAfter⟩
  | counter name key => exact ⟨_, t.lists_ofCounter name key, fun _ => mem_countsAfter⟩
  | table name => exact ⟨_, t.lists_ofTable name, fun _ => mem_idsAfter_none⟩

lemma Source.Lists.congr {α κ : Type} [Cursor κ] {s s' : Source α κ} {rows : List α} (h : s.Lists rows)
    (heq : s' = s) : s'.Lists rows := heq ▸ h

namespace Mirrors

variable {t : MemoryTables} {b : KeyedTables} {l : Listing}

lemma source_eq (h : Mirrors t b) (hn : l.NulFree) : l.source b = l.source t := by
  cases l with
  | index name value =>
    have hfetch : Tables.refsAfter b name value = Tables.refsAfter t name value := by
      funext after limit
      exact h.refsAfter_eq hn.1 hn.2 after limit
    rw [Listing.source, Source.ofIndex, hfetch]
    rfl
  | counter name key =>
    have hfetch : Tables.countsAfter b name key = Tables.countsAfter t name key := by
      funext after limit
      exact KeyedTables.countsAfter_eq h.counters hn.1 hn.2 after limit
    rw [Listing.source, Source.ofCounter, hfetch]
    rfl
  | table name =>
    have hfetch : Tables.idsAfter b name = Tables.idsAfter t name := by
      funext after limit
      exact h.idsAfter_eq hn after limit
    rw [Listing.source, Source.ofTable, hfetch]
    rfl

lemma holds_iff (h : Mirrors t b) (hn : l.NulFree) (row : l.Row) : b.Holds l row ↔ t.Holds l row := by
  cases l with
  | index name value =>
    have hread (cell : IndexCell) : Codec.readStored Codec.indexCell (Codec.indexCell.encode cell) = .ok cell := by
      rw [Codec.readStored, Codec.readsBack_indexCell.read? trivial]
    have hiff (ref : IndexRef) : b.Holds (.index name value) ref ↔ t.Holds (.index name value) ref := by
      refine exists_congr fun expires => ?_
      have hcell (cell : IndexCell) :=
        h.indexes.read_iff (a := cell) ((Layout.valid_indexes ⟨name, value, ref.place⟩).2 hn) hread
      exact hcell ⟨ref.entity, expires⟩
    exact hiff row
  | counter name key =>
    have hcount (bucket : Int64) (count : UInt64) := h.counters.read_iff (a := count)
      ((Layout.valid_counters ⟨name, key, bucket⟩).2 hn) Codec.readCount_encodeCount
    exact hcount row.1 row.2
  | table name =>
    have hiff (id : Identifier) : b.Holds (.table name) id ↔ t.Holds (.table name) id := by
      refine exists_congr fun u => ?_
      have hversion := h.versions.exists_iff ((Layout.valid_versions name id u).2 hn)
      exact hversion
    exact hiff row

lemma lists (h : Mirrors t b) (hn : l.NulFree) :
    ∃ rows, (l.source b).Lists rows ∧ ∀ row, row ∈ rows ↔ b.Holds l row := by
  obtain ⟨rows, hlists, hrows⟩ := t.lists l
  exact ⟨rows, hlists.congr (h.source_eq hn), fun row => (hrows row).trans (h.holds_iff hn row).symm⟩

end Mirrors

namespace TableCall

variable {σ : Type} [Tables σ]

def atPage (t : σ) (writes : Nat → List TableCall) : Nat → σ
  | 0 => t
  | n + 1 => run (atPage t writes n) (writes n)

theorem walks_exact (l : Listing) (hn : l.NulFree) {limit : Nat} (hl : 0 < limit) (after : Option l.Position)
    (before : List TableCall) (writes : Nat → List TableCall) (hbefore : ∀ c ∈ before, c.Fits)
    (hwrites : ∀ n, ∀ c ∈ writes n, c.Fits) :
    l.WalksExactly (MemoryTables.Holds · l) (atPage (run MemoryTables.empty before) writes) limit after ∧
      l.WalksExactly (KeyedTables.Holds · l) (atPage (run KeyedTables.empty before) writes) limit after := by
  refine ⟨Listing.walksExactly _ _ hl after fun n => MemoryTables.lists _ l,
    Listing.walksExactly _ _ hl after fun n => ?_⟩
  obtain ⟨t, ht⟩ : ∃ t, Mirrors t (atPage (run KeyedTables.empty before) writes n) := by
    induction n with
    | zero => exact Mirrors.empty.exists_run hbefore
    | succ n ih =>
      obtain ⟨t, ht⟩ := ih
      exact ht.exists_run (hwrites n)
  exact ht.lists hn

def placed (places : List Int64) : List TableCall :=
  places.map fun n => .write (.insert ⟨"i", "v", ⟨n⟩, ⟨7⟩⟩ none)

def moved : Nat → List TableCall
  | 0 => .write (.retract ⟨"i", "v", ⟨1⟩, ⟨7⟩⟩) :: placed [3]
  | _ => []

theorem walks_exact_moved :
    let state := atPage (run KeyedTables.empty (placed [1, 2, 4])) moved
    let pages : List (List IndexRef) := [[⟨⟨1⟩, ⟨7⟩⟩, ⟨⟨2⟩, ⟨7⟩⟩], [⟨⟨3⟩, ⟨7⟩⟩, ⟨⟨4⟩, ⟨7⟩⟩], []]
    Source.Walk (fun n => Source.ofIndex (state n) "i" "v") 2 0 none pages ∧
      (Listing.index "i" "v").Covers (fun n => KeyedTables.Holds (state n) (.index "i" "v")) 2 none pages := by
  intro state pages
  have hwalk : Source.Walk (fun n => Source.ofIndex (state n) "i" "v") 2 0 none pages :=
    .next (by decide +kernel : _ = Except.ok (Page.mk _ (some ⟨2⟩)))
      (.next (by decide +kernel : _ = Except.ok (Page.mk _ (some ⟨4⟩))) (.last (by decide +kernel)))
  have hexact := walks_exact (.index "i" "v") (by decide) (by decide : 0 < 2) none (placed [1, 2, 4]) moved
    (by decide) fun n => by
      cases n with
      | zero => decide
      | succ n => exact fun _ h => by cases h
  exact ⟨hwalk, hexact.2.covers pages hwalk⟩

end TableCall

end Chronicle
