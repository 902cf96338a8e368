import Mathlib.Algebra.Group.Int.Defs
import Chronicle.Proofs.Codec.ByteOrder
import Chronicle.Proofs.Codec.ReadBack

namespace Chronicle

def NulFree (text : String) : Prop := 0 ∉ Bytes.ofText text

instance (text : String) : Decidable (NulFree text) := inferInstanceAs (Decidable (¬ _))

lemma refuseNul_eq (kind : NameKind) (text : String) :
    refuseNul kind text = if NulFree text then .ok () else .error (.argument (.holdsNul kind text)) := by
  unfold refuseNul NulFree
  by_cases h : 0 ∈ Bytes.ofText text <;> simp [h]

namespace Bytes

lemma ofText_injective {s t : String} (h : ofText s = ofText t) : s = t := by
  have hs := toText?_ofText s
  rw [h, toText?_ofText] at hs
  exact (Option.some.inj hs).symm

lemma ofText_append (s t : String) : ofText (s ++ t) = ofText s ++ ofText t := by simp [ofText_eq]

lemma exists_of_ofText_append_eq {s t : String} {r : Bytes} (h : ofText s ++ r = ofText t) : ∃ u, r = ofText u := by
  have hbytes : s.toList.utf8Encode ++ ⟨r.toArray⟩ = t.toList.utf8Encode := by
    rw [String.utf8Encode_toList, String.utf8Encode_toList]
    apply ByteArray.ext
    apply Array.toList_inj.1
    simpa [ofText] using h
  obtain ⟨rest, hrest⟩ := List.isPrefix_of_utf8Encode_append_eq_utf8Encode _ hbytes
  refine ⟨String.ofList rest, List.append_cancel_left (h.trans ?_)⟩
  rw [ofText_eq, ofText_eq, ofText_eq, ← hrest, List.flatMap_append, String.toList_ofList]

lemma isUTF8FirstByte_of_ofText {s : String} {b : UInt8} {r : Bytes} (h : ofText s = b :: r) : b.IsUTF8FirstByte := by
  have hget : (ofText s)[0]? = some b := by rw [h]; rfl
  rw [ofText, Array.getElem?_toList, Array.getElem?_eq_some_iff] at hget
  obtain ⟨hsize, hget⟩ := hget
  rw [← hget]
  exact s.isValidUTF8.isUTF8FirstByte_getElem_zero hsize

lemma delimited_prefix_iff {x y : Bytes} (hx : 0 ∉ x) (hy : 0 ∉ y) (r s : Bytes) :
    x ++ 0 :: r <+: y ++ 0 :: s ↔ x = y ∧ r <+: s := by
  induction x generalizing y with
  | nil =>
    cases y with
    | nil => simp
    | cons b y =>
      have hb : (0 : UInt8) ≠ b := fun h => hy (h ▸ List.mem_cons_self)
      simp [hb]
  | cons b x ih =>
    have hx' : 0 ∉ x := fun h => hx (List.mem_cons_of_mem _ h)
    cases y with
    | nil =>
      have hb : b ≠ 0 := fun h => hx (h ▸ List.mem_cons_self)
      simp [hb]
    | cons d y =>
      have hy' : 0 ∉ y := fun h => hy (List.mem_cons_of_mem _ h)
      simp [ih hx' hy', and_assoc]

end Bytes

namespace Key

lemma texts_cons (text : String) (rest : List String) (r : Bytes) :
    texts (text :: rest) ++ r = Bytes.ofText text ++ 0 :: (texts rest ++ r) := by
  simp [texts]

lemma texts_prefix_iff {ps qs : List String} (h : ps.length = qs.length) (hp : ∀ p ∈ ps, NulFree p)
    (hq : ∀ q ∈ qs, NulFree q) (r s : Bytes) : texts ps ++ r <+: texts qs ++ s ↔ ps = qs ∧ r <+: s := by
  induction ps generalizing qs with
  | nil =>
    obtain rfl : qs = [] := List.length_eq_zero_iff.1 h.symm
    simp [texts]
  | cons p ps ih =>
    cases qs with
    | nil => simp at h
    | cons q qs =>
      obtain ⟨hp₁, hp⟩ := List.forall_mem_cons.1 hp
      obtain ⟨hq₁, hq⟩ := List.forall_mem_cons.1 hq
      rw [texts_cons, texts_cons, Bytes.delimited_prefix_iff hp₁ hq₁, ih (by simpa using h) hp hq]
      have htext : Bytes.ofText p = Bytes.ofText q ↔ p = q := ⟨Bytes.ofText_injective, congrArg _⟩
      simp [htext, and_assoc]

lemma texts_eq_concat {ps : List String} (h : ps ≠ []) : ∃ start, texts ps = start ++ [0] ∧
    pastPrefix (texts ps) = start ++ [1] := by
  obtain ⟨qs, q, rfl⟩ := (List.eq_nil_or_concat ps).resolve_left h
  rw [List.concat_eq_append]
  refine ⟨texts qs ++ Bytes.ofText q, by simp [texts], ?_⟩
  simp [pastPrefix, texts]

lemma count_texts (ps : List String) :
    ps.length ≤ (texts ps).count 0 ∧ ((texts ps).count 0 = ps.length ↔ ∀ p ∈ ps, NulFree p) := by
  induction ps with
  | nil => simp [texts]
  | cons p ps ih =>
    obtain ⟨hle, hiff⟩ := ih
    have hcount : (texts (p :: ps)).count 0 = (Bytes.ofText p).count 0 + 1 + (texts ps).count 0 := by
      rw [← List.append_nil (texts (p :: ps)), texts_cons, List.count_append, List.count_cons_self, List.append_nil]
      omega
    rw [hcount, List.length_cons, List.forall_mem_cons, NulFree, ← List.count_eq_zero, ← hiff]
    omega

lemma eq_of_texts_eq {ps qs : List String} (h : ps.length = qs.length) (hq : ∀ q ∈ qs, NulFree q)
    (heq : texts ps = texts qs) : ps = qs := by
  have hp : ∀ p ∈ ps, NulFree p := (count_texts ps).2.1 (by rw [heq, (count_texts qs).2.2 hq, h])
  exact ((texts_prefix_iff h hp hq [] []).1 (heq ▸ List.prefix_rfl)).1

lemma names_eq_of_key_eq {ps qs : List String} (h : ps.length = qs.length) (hq : ∀ q ∈ qs, NulFree q) {x y : Bytes}
    (hxy : x.length = y.length) (heq : texts ps ++ x = texts qs ++ y) : ps = qs ∧ x = y := by
  obtain ⟨htexts, rfl⟩ := List.append_inj' heq hxy
  exact ⟨eq_of_texts_eq h hq htexts, rfl⟩

lemma eq_of_texts_begin {ps qs : List String} (h : ps.length = qs.length) (hq : ∀ q ∈ qs, NulFree q)
    (hbegin : texts ps <+: texts qs) : ps = qs := by
  obtain ⟨rest, hrest⟩ := hbegin
  have hcount : rest.count 0 = 0 := by
    have hsum := congrArg (List.count 0) hrest
    rw [List.count_append, (count_texts qs).2.2 hq] at hsum
    have hle := (count_texts ps).1
    omega
  have hnil : rest = [] := by
    cases hqs : qs with
    | nil => simp_all [texts]
    | cons q qs' =>
      obtain ⟨start, hstart, _⟩ := texts_eq_concat (show qs ≠ [] by simp [hqs])
      obtain rfl | ⟨rest, x, rfl⟩ := List.eq_nil_or_concat rest
      · rfl
      · rw [hstart, List.concat_eq_append, ← List.append_assoc] at hrest
        obtain ⟨_, rfl⟩ := List.append_singleton_inj.1 hrest
        simp at hcount
  rw [hnil, List.append_nil] at hrest
  exact eq_of_texts_eq h hq hrest

lemma exists_texts_eq (ps : List String) : ∃ text, texts ps = Bytes.ofText text := by
  induction ps with
  | nil => exact ⟨"", rfl⟩
  | cons p ps ih =>
    obtain ⟨text, htext⟩ := ih
    refine ⟨p ++ "\x00" ++ text, ?_⟩
    rw [Bytes.ofText_append, Bytes.ofText_append, ← htext]
    rfl

lemma not_prefix_of_ne {ps qs : List String} (h : ps.length = qs.length) (hq : ∀ q ∈ qs, NulFree q) (hne : ps ≠ qs)
    {b : UInt8} (hb : ¬ b.IsUTF8FirstByte) (r : Bytes) : ¬ texts ps <+: texts qs ++ b :: r := by
  intro hbegin
  rcases List.prefix_or_prefix_of_prefix hbegin (List.prefix_append _ _) with hle | hle
  · exact hne (eq_of_texts_begin h hq hle)
  · obtain ⟨more, hmore⟩ := hle
    rw [← hmore, List.prefix_append_right_inj] at hbegin
    cases more with
    | nil => exact hne (eq_of_texts_eq h hq (hmore.symm.trans (List.append_nil _)))
    | cons d more =>
      obtain ⟨rfl, _⟩ := List.cons_prefix_cons.1 hbegin
      obtain ⟨text, htext⟩ := exists_texts_eq ps
      obtain ⟨own, hown⟩ := exists_texts_eq qs
      rw [htext, hown] at hmore
      obtain ⟨u, hu⟩ := Bytes.exists_of_ofText_append_eq hmore
      exact hb (Bytes.isUTF8FirstByte_of_ofText hu.symm)

/-- Names that begin as others do, delimiters included. Keys of the others may look like keys of theirs. -/
def Continues (names others : List String) : Prop := texts others <+: texts names ∧ others ≠ names

instance (names others : List String) : Decidable (Continues names others) := inferInstanceAs (Decidable (_ ∧ _))

lemma not_continues_of_nulFree {names others : List String} (h : names.length = others.length)
    (hnames : ∀ p ∈ names, NulFree p) : ¬ Continues names others :=
  fun hc => hc.2 (eq_of_texts_begin h.symm hnames hc.1)

lemma texts_prefix_iff_of_not_continues {ps qs : List String} (h : ps.length = qs.length) (hp : ¬ Continues ps qs)
    (hq : ∀ q ∈ qs, NulFree q) (r s : Bytes) : texts ps ++ r <+: texts qs ++ s ↔ ps = qs ∧ r <+: s := by
  constructor
  · intro hbegin
    obtain rfl : ps = qs := by
      have hps : texts ps <+: texts qs ++ s := (List.prefix_append _ _).trans hbegin
      rcases List.prefix_or_prefix_of_prefix hps (List.prefix_append _ _) with hle | hle
      · exact eq_of_texts_begin h hq hle
      · exact Classical.byContradiction fun hne => hp ⟨hle, Ne.symm hne⟩
    exact ⟨rfl, (List.prefix_append_right_inj _).1 hbegin⟩
  · rintro ⟨rfl, hrs⟩
    exact (List.prefix_append_right_inj _).2 hrs

@[simp]
lemma length_ordered (v : Int64) : (ordered v).length = 8 := Bytes.length_bigEndian ..

lemma distance_lt (v : Int64) : (v.toInt - Int64.minValue.toInt).toNat < 256 ^ 8 := by
  have hlow := v.le_toInt
  have hhigh := v.toInt_lt
  rw [Int64.toInt_minValue]
  omega

lemma compare_ordered (v w : Int64) : compare (ordered v) (ordered w) = compare v w := by
  have hv := v.le_toInt
  have hw := w.le_toInt
  have hmin := Int64.toInt_minValue
  rw [ordered, ordered, Bytes.compare_bigEndian (distance_lt v) (distance_lt w)]
  change compareOfLessAndEq _ _ = compareOfLessAndEq v w
  simp only [compareOfLessAndEq, Int64.lt_iff_toInt_lt, ← Int64.toInt_inj]
  congr 1
  · apply propext
    omega
  · congr 1
    apply propext
    omega

lemma exists_ordered_eq {v : Int64} (hlow : 0 ≤ v.toInt) (hhigh : v.toInt < 2 ^ 56) :
    ∃ r, ordered v = 0x80 :: r ∧ ¬ (0x80 : UInt8).IsUTF8FirstByte := by
  have hmin := Int64.toInt_minValue
  have hquotient : (v.toInt - Int64.minValue.toInt).toNat / 256 ^ 7 = 0x80 := by omega
  refine ⟨Bytes.bigEndian 7 (v.toInt - Int64.minValue.toInt).toNat, ?_, by unfold UInt8.IsUTF8FirstByte; decide⟩
  rw [ordered, Bytes.bigEndian_succ, hquotient]
  rfl

lemma ordered_injective {v w : Int64} (h : ordered v = ordered w) : v = w := by
  have hcompare := compare_ordered v w
  rw [h, (Std.ReflCmp.compare_self : compare (ordered w) (ordered w) = .eq)] at hcompare
  exact Std.LawfulEqOrd.eq_of_compare hcompare.symm

lemma identifier_eq_of_ordered {x y : Identifier} (h : ordered x.raw = ordered y.raw) : x = y := by
  cases x
  cases y
  exact congrArg Identifier.mk (ordered_injective h)

lemma versionPrefix_prefix_iff {table table' : String} (h : ¬ Continues [table] [table']) (h' : NulFree table')
    (id id' u : Identifier) :
    versionPrefix table id <+: version table' id' u ↔ table' = table ∧ id' = id := by
  have hq : ∀ q ∈ [table'], NulFree q := by simpa using h'
  rw [versionPrefix, version, List.append_assoc,
    texts_prefix_iff_of_not_continues (show [table].length = [table'].length from rfl) h hq, List.cons.injEq,
    and_iff_left rfl]
  refine and_congr eq_comm ⟨?_, ?_⟩
  · rintro ⟨r, hr⟩
    exact identifier_eq_of_ordered (List.append_inj hr (by simp)).1.symm
  · rintro rfl
    exact List.prefix_append ..

lemma readOrdered_ordered (v : Int64) : readOrdered (ordered v) = .ok v := by
  have hlow := v.le_toInt
  have hmin := Int64.toInt_minValue
  rw [readOrdered, if_pos (length_ordered v), ordered, Bytes.ofBigEndian_bigEndian (distance_lt v)]
  congr 1
  apply Int64.toInt_inj.1
  rw [Int64.toInt_ofInt_of_le] <;> have hhigh := v.toInt_lt <;> omega

lemma prefix_of_range {ps : List String} (hne : ps ≠ []) {x k : Bytes} (hfrom : (compare (texts ps ++ x) k).isLE = true)
    (hto : compare k (pastPrefix (texts ps)) = .lt) : texts ps <+: k := by
  obtain ⟨start, hstart, hpast⟩ := texts_eq_concat hne
  have hle : (compare (texts ps) (texts ps ++ x)).isLE = true := by
    have := Bytes.compare_append_left (texts ps) [] x
    rw [List.append_nil] at this
    rw [this]
    exact List.isLE_compare_nil_left
  rw [hstart, ← Bytes.between_iff_prefix, ← hstart, ← hpast]
  exact ⟨Std.TransCmp.isLE_trans hle hfrom, hto⟩

lemma range_iff {ps qs : List String} (hne : ps ≠ []) (h : ps.length = qs.length) (hp : ¬ Continues ps qs)
    (hq : ∀ q ∈ qs, NulFree q) (x r : Bytes) :
    (compare (texts ps ++ x) (texts qs ++ r)).isLE = true ∧
        compare (texts qs ++ r) (pastPrefix (texts ps)) = .lt ↔ qs = ps ∧ (compare x r).isLE = true := by
  constructor
  · rintro ⟨hfrom, hto⟩
    have hbegin := prefix_of_range hne hfrom hto
    rw [← List.append_nil (texts ps), texts_prefix_iff_of_not_continues h hp hq] at hbegin
    obtain ⟨rfl, _⟩ := hbegin
    rw [Bytes.compare_append_left] at hfrom
    exact ⟨rfl, hfrom⟩
  · rintro ⟨rfl, hxr⟩
    obtain ⟨start, hstart, hpast⟩ := texts_eq_concat hne
    refine ⟨by rw [Bytes.compare_append_left]; exact hxr, ?_⟩
    rw [hpast]
    exact ((Bytes.between_iff_prefix start _).2 (hstart ▸ List.prefix_append ..)).2

lemma compare_replicate_of_length_lt {n : Nat} {y : Bytes} (h : y.length < n) :
    compare (List.replicate n (0xFF : UInt8)) y = .gt := by
  induction y generalizing n with
  | nil =>
    obtain ⟨n, rfl⟩ : ∃ k, n = k + 1 := ⟨n - 1, by simp at h; omega⟩
    rfl
  | cons b y ih =>
    obtain ⟨n, rfl⟩ : ∃ k, n = k + 1 := ⟨n - 1, by simp at h; omega⟩
    rw [List.replicate_succ, List.compare_cons_cons, ih (by simpa using h), Ordering.then_eq_gt, Bytes.compare_toNat,
      Nat.compare_eq_gt, Nat.compare_eq_eq, and_iff_left rfl]
    have hb := b.toNat_lt
    have hmax : (0xFF : UInt8).toNat = 255 := rfl
    omega

lemma compare_pastEntity (a id update : Identifier) :
    compare (ordered a.raw ++ List.replicate 9 0xFF) (ordered id.raw ++ ordered update.raw) =
      (compare a.raw id.raw).then .gt := by
  rw [Bytes.compare_append_of_length_eq (by simp), compare_ordered, compare_replicate_of_length_lt (by simp)]

lemma isLE_pastEntity_iff (a id update : Identifier) :
    (compare (ordered a.raw ++ List.replicate 9 0xFF) (ordered id.raw ++ ordered update.raw)).isLE = true ↔ a < id := by
  rw [compare_pastEntity, Ordering.isLE_then_iff_or]
  simp only [Ordering.isLE_gt, Bool.false_eq_true, and_false, or_false]
  exact Std.compare_eq_lt

lemma isLE_ordered_succ_iff {a n : Int64} (ha : a ≠ Int64.maxValue) :
    (compare (ordered (a + 1)) (ordered n)).isLE = true ↔ a < n := by
  rw [compare_ordered, Std.isLE_compare, Int64.le_iff_toInt_le, Int64.lt_iff_toInt_lt]
  have hne : a.toInt ≠ Int64.maxValue.toInt := fun h => ha (Int64.toInt_inj.1 h)
  have hmax := Int64.toInt_maxValue
  have hlow := a.le_toInt
  have hhigh := a.toInt_lt
  have hsucc : (a + 1).toInt = a.toInt + 1 := by
    rw [Int64.toInt_add, Int64.toInt_one, Int.bmod_eq_of_le] <;> omega
  omega

end Key

end Chronicle
