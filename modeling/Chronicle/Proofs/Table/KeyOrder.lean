import Chronicle.Proofs.Table.Key
import Chronicle.Table.Memory

/-! Byte keys of names without NUL are in the order of their parts. -/

namespace Chronicle

namespace Bytes

lemma compare_zero_of_ne {b : UInt8} (h : b ≠ 0) : compare 0 b = .lt := by
  rw [compare_toNat, Nat.compare_eq_lt]
  exact Nat.pos_of_ne_zero fun hzero => h (UInt8.toNat_inj.1 hzero)

lemma compare_delimited {x y : Bytes} (hx : 0 ∉ x) (hy : 0 ∉ y) (r s : Bytes) :
    compare (x ++ 0 :: r) (y ++ 0 :: s) = (compare x y).then (compare r s) := by
  induction x generalizing y with
  | nil =>
    cases y with
    | nil => simp
    | cons d y =>
      have hd : d ≠ 0 := fun h => hy (h ▸ List.mem_cons_self)
      simp [compare_zero_of_ne hd]
  | cons b x ih =>
    have hb : b ≠ 0 := fun h => hx (h ▸ List.mem_cons_self)
    have hx' : 0 ∉ x := fun h => hx (List.mem_cons_of_mem _ h)
    cases y with
    | nil =>
      have hgt : compare b 0 = .gt := Std.OrientedCmp.gt_of_lt (compare_zero_of_ne hb)
      simp [hgt]
    | cons d y =>
      have hy' : 0 ∉ y := fun h => hy (List.mem_cons_of_mem _ h)
      simp [ih hx' hy', Ordering.then_assoc]

def Between (start stop k : Bytes) : Prop := (compare start k).isLE = true ∧ compare k stop = .lt

end Bytes

namespace Key

lemma compare_texts {ps qs : List String} (h : ps.length = qs.length) (hp : ∀ p ∈ ps, NulFree p)
    (hq : ∀ q ∈ qs, NulFree q) (r s : Bytes) : compare (texts ps ++ r) (texts qs ++ s) =
      (compare (ps.map Bytes.ofText) (qs.map Bytes.ofText)).then (compare r s) := by
  induction ps generalizing qs with
  | nil =>
    obtain rfl : qs = [] := List.length_eq_zero_iff.1 h.symm
    rfl
  | cons p ps ih =>
    cases qs with
    | nil => simp at h
    | cons q qs =>
      obtain ⟨hp₁, hp⟩ := List.forall_mem_cons.1 hp
      obtain ⟨hq₁, hq⟩ := List.forall_mem_cons.1 hq
      rw [texts_cons, texts_cons, Bytes.compare_delimited hp₁ hq₁, ih (by simpa using h) hp hq]
      simp [Ordering.then_assoc]

lemma compare_toInt (v w : Int64) : compare v w = compare v.toInt w.toInt := by
  change compareOfLessAndEq v w = compareOfLessAndEq v.toInt w.toInt
  simp only [compareOfLessAndEq, Int64.lt_iff_toInt_lt, ← Int64.toInt_inj]

lemma compare_flatMap_ordered {vs ws : List Int64} (h : vs.length = ws.length) :
    compare (vs.flatMap ordered) (ws.flatMap ordered) = compare (vs.map (·.toInt)) (ws.map (·.toInt)) := by
  induction vs generalizing ws with
  | nil =>
    obtain rfl : ws = [] := List.length_eq_zero_iff.1 h.symm
    rfl
  | cons v vs ih =>
    cases ws with
    | nil => simp at h
    | cons w ws =>
      rw [List.flatMap_cons, List.flatMap_cons, Bytes.compare_append_of_length_eq (by simp), compare_ordered,
        ih (by simpa using h), compare_toInt]
      simp

def compareParts (ps qs : List String) (vs ws : List Int64) : Ordering :=
  (compare (ps.map Bytes.ofText) (qs.map Bytes.ofText)).then (compare (vs.map (·.toInt)) (ws.map (·.toInt)))

lemma eq_of_compareParts {ps qs : List String} {vs ws : List Int64} (h : compareParts ps qs vs ws = .eq) :
    ps = qs ∧ vs = ws := by
  obtain ⟨hnames, hnumbers⟩ := Ordering.then_eq_eq.1 h
  exact ⟨(List.map_inj_right fun _ _ => Bytes.ofText_injective).1 (Std.LawfulEqOrd.eq_of_compare hnames),
    (List.map_inj_right fun _ _ => Int64.toInt_inj.1).1 (Std.LawfulEqOrd.eq_of_compare hnumbers)⟩

structure EmbedsOrder {κ : Type} (key : κ → Bytes) (names : κ → List String) (numbers : κ → List Int64) : Prop where
  compare_key : ∀ k k', (∀ p ∈ names k, NulFree p) → (∀ p ∈ names k', NulFree p) →
    compare (key k) (key k') = compareParts (names k) (names k') (numbers k) (numbers k')
  injective : ∀ k k', (∀ p ∈ names k, NulFree p) → (∀ p ∈ names k', NulFree p) → key k = key k' → k = k'

lemma EmbedsOrder.ofParts {κ : Type} {key : κ → Bytes} {names : κ → List String} {numbers : κ → List Int64}
    (hkey : ∀ k, key k = texts (names k) ++ (numbers k).flatMap ordered)
    (hlengths : ∀ k k', (names k).length = (names k').length ∧ (numbers k).length = (numbers k').length)
    (hparts : ∀ k k', names k = names k' → numbers k = numbers k' → k = k') : EmbedsOrder key names numbers := by
  have hcompare : ∀ k k', (∀ p ∈ names k, NulFree p) → (∀ p ∈ names k', NulFree p) →
      compare (key k) (key k') = compareParts (names k) (names k') (numbers k) (numbers k') := by
    intro k k' hk hk'
    obtain ⟨hnames, hnumbers⟩ := hlengths k k'
    rw [hkey, hkey, compare_texts hnames hk hk', compare_flatMap_ordered hnumbers, compareParts]
  refine ⟨hcompare, fun k k' hk hk' heq => ?_⟩
  have hsame : compareParts (names k) (names k') (numbers k) (numbers k') = .eq := by
    rw [← hcompare k k' hk hk', heq]
    exact Std.ReflCmp.compare_self
  obtain ⟨hnames, hnumbers⟩ := eq_of_compareParts hsame
  exact hparts k k' hnames hnumbers

lemma embedsOrder_versions : EmbedsOrder (fun k : VersionKey => version k.table k.id k.update) (fun k => [k.table])
    fun k => [k.id.raw, k.update.raw] := by
  refine .ofParts (fun k => by simp [version]) (fun _ _ => ⟨rfl, rfl⟩) ?_
  rintro ⟨table, ⟨id⟩, ⟨u⟩⟩ ⟨table', ⟨id'⟩, ⟨u'⟩⟩ hnames hnumbers
  simp_all

lemma embedsOrder_named {ν : Type} (word : ν → Int64) (hword : ∀ m n, word m = word n → m = n) :
    EmbedsOrder (fun k : NamedKey ν => texts [k.name, k.value] ++ ordered (word k.number)) (fun k => [k.name, k.value])
      fun k => [word k.number] := by
  refine .ofParts (fun k => by simp) (fun _ _ => ⟨rfl, rfl⟩) ?_
  rintro ⟨name, value, n⟩ ⟨name', value', n'⟩ hnames hnumbers
  obtain ⟨rfl, rfl⟩ : name = name' ∧ value = value' := by simpa using hnames
  obtain rfl := hword n n' (List.singleton_inj.1 hnumbers)
  rfl

lemma embedsOrder_indexes : EmbedsOrder (fun k : NamedKey Identifier => Key.index k.name k.value k.number)
    (fun k => [k.name, k.value]) fun k => [k.number.raw] :=
  embedsOrder_named Identifier.raw fun ⟨_⟩ ⟨_⟩ => congrArg Identifier.mk

lemma embedsOrder_counters : EmbedsOrder (fun k : NamedKey Int64 => counter k.name k.value k.number)
    (fun k => [k.name, k.value]) fun k => [k.number] := embedsOrder_named (fun bucket => bucket) fun _ _ => id

lemma between_texts_iff {ps qs : List String} (hne : ps ≠ []) (h : ps.length = qs.length) (hp : ∀ p ∈ ps, NulFree p)
    (hq : ∀ q ∈ qs, NulFree q) (r : Bytes) :
    Bytes.Between (texts ps) (pastPrefix (texts ps)) (texts qs ++ r) ↔ qs = ps := by
  have hrange := range_iff hne h (not_continues_of_nulFree h hp) hq [] r
  rw [List.append_nil] at hrange
  exact hrange.trans (and_iff_left List.isLE_compare_nil_left)

lemma between_named_iff {name value name' value' : String} (hname : NulFree name) (hvalue : NulFree value)
    (hname' : NulFree name') (hvalue' : NulFree value') (r : Bytes) :
    Bytes.Between (texts [name, value]) (pastPrefix (texts [name, value])) (texts [name', value'] ++ r) ↔
      name' = name ∧ value' = value := by
  have hp : ∀ p ∈ [name, value], NulFree p := by simp [hname, hvalue]
  have hq : ∀ q ∈ [name', value'], NulFree q := by simp [hname', hvalue']
  exact (between_texts_iff (by simp) (by simp) hp hq r).trans (by simp)

lemma between_table_iff {table table' : String} (h : NulFree table) (h' : NulFree table') (id update : Identifier) :
    Bytes.Between (tablePrefix table) (pastPrefix (tablePrefix table)) (version table' id update) ↔ table' = table := by
  have hp : ∀ p ∈ [table], NulFree p := by simpa using h
  have hq : ∀ q ∈ [table'], NulFree q := by simpa using h'
  rw [version, List.append_assoc]
  exact (between_texts_iff (by simp) (by simp) hp hq _).trans (by simp)

lemma between_pastEntity_iff {table table' : String} (h : NulFree table) (h' : NulFree table')
    (a id update : Identifier) :
    Bytes.Between (pastEntity (tablePrefix table) a) (pastPrefix (tablePrefix table)) (version table' id update) ↔
      table' = table ∧ a < id := by
  have hp : ∀ p ∈ [table], NulFree p := by simpa using h
  have hq : ∀ q ∈ [table'], NulFree q := by simpa using h'
  have hlength : [table].length = [table'].length := rfl
  rw [version, List.append_assoc, pastEntity, List.append_assoc, ← isLE_pastEntity_iff a id update]
  exact (range_iff (by simp) hlength (not_continues_of_nulFree hlength hp) hq _ _).trans (by simp)

lemma compare_pastEntity_version (table : String) (a id update : Identifier) :
    compare (pastEntity (tablePrefix table) a) (version table id update) = if a < id then .lt else .gt := by
  have hlt : compare a.raw id.raw = .lt ↔ a < id := Std.compare_eq_lt
  rw [version, List.append_assoc, pastEntity, List.append_assoc, tablePrefix, Bytes.compare_append_left,
    compare_pastEntity]
  cases hcompare : compare a.raw id.raw <;> simp [← hlt, hcompare]

theorem keys_embed_order :
    EmbedsOrder (fun k : VersionKey => version k.table k.id k.update) (fun k => [k.table])
      (fun k => [k.id.raw, k.update.raw]) ∧
    EmbedsOrder (fun k : NamedKey Identifier => Key.index k.name k.value k.number) (fun k => [k.name, k.value])
      (fun k => [k.number.raw]) ∧
    EmbedsOrder (fun k : NamedKey Int64 => counter k.name k.value k.number) (fun k => [k.name, k.value])
      (fun k => [k.number]) ∧
    (∀ table table' : String, NulFree table → NulFree table' → ∀ id id' update : Identifier,
      (versionPrefix table id <+: version table' id' update ↔ table' = table ∧ id' = id) ∧
      (Bytes.Between (tablePrefix table) (pastPrefix (tablePrefix table)) (version table' id' update) ↔ table' = table) ∧
      (Bytes.Between (pastEntity (tablePrefix table) id) (pastPrefix (tablePrefix table)) (version table' id' update) ↔
        table' = table ∧ id < id') ∧
      compare (pastEntity (tablePrefix table) id) (version table id' update) = if id < id' then .lt else .gt) ∧
    ∀ name value name' value' : String, NulFree name → NulFree value → NulFree name' → NulFree value' →
      (∀ place, Bytes.Between (indexPrefix name value) (pastPrefix (indexPrefix name value))
        (Key.index name' value' place) ↔ name' = name ∧ value' = value) ∧
      ∀ bucket, Bytes.Between (counterPrefix name value) (pastPrefix (counterPrefix name value))
        (counter name' value' bucket) ↔ name' = name ∧ value' = value := by
  refine ⟨embedsOrder_versions, embedsOrder_indexes, embedsOrder_counters, ?_, ?_⟩
  · intro table table' htable htable' id id' update
    have hnot : ¬ Continues [table] [table'] := not_continues_of_nulFree (by simp) (by simpa using htable)
    exact ⟨versionPrefix_prefix_iff hnot htable' id id' update, between_table_iff htable htable' id' update,
      between_pastEntity_iff htable htable' id id' update, compare_pastEntity_version table id id' update⟩
  · intro name value name' value' hname hvalue hname' hvalue'
    exact ⟨fun place => between_named_iff hname hvalue hname' hvalue' _,
      fun bucket => between_named_iff hname hvalue hname' hvalue' _⟩

theorem keys_embed_order_delimiters :
    compare (version "a" .greatest .greatest) (version "ab" .least .least) = .lt ∧
    compare (Key.index "a" "b" .least) (Key.index "a" "" .greatest) = .gt ∧
    ¬ Bytes.Between (tablePrefix "a") (pastPrefix (tablePrefix "a")) (version "ab" .least .least) ∧
    Bytes.Between (pastEntity (tablePrefix "") .least) (pastPrefix (tablePrefix "")) (version "" ⟨-1⟩ .least) ∧
    ¬ Bytes.Between (indexPrefix "a" "") (pastPrefix (indexPrefix "a" "")) (Key.index "a" "b" .least) := by
  obtain ⟨hversions, hindexes, _, htables, hnamed⟩ := keys_embed_order
  refine ⟨?_, ?_, fun hbetween => ?_, ?_, fun hbetween => ?_⟩
  · rw [hversions.compare_key ⟨"a", .greatest, .greatest⟩ ⟨"ab", .least, .least⟩ (by decide) (by decide)]
    decide
  · rw [hindexes.compare_key ⟨"a", "b", .least⟩ ⟨"a", "", .greatest⟩ (by decide) (by decide)]
    decide
  · exact absurd ((htables "a" "ab" (by decide) (by decide) .least .least .least).2.1.1 hbetween) (by decide)
  · exact (htables "" "" (by decide) (by decide) .least ⟨-1⟩ .least).2.2.1.2 (by decide)
  · have hsame := ((hnamed "a" "" "a" "b" (by decide) (by decide) (by decide) (by decide)).1 .least).1 hbetween
    exact absurd hsame (by decide)

end Key

end Chronicle
