import Mathlib.Algebra.Group.Nat.Defs
import Mathlib.Data.List.Induction
import Mathlib.Tactic.Lemma
import Chronicle.Bytes

namespace Chronicle.Bytes

lemma compare_append_left (p x y : Bytes) : compare (p ++ x) (p ++ y) = compare x y := by
  induction p with
  | nil => rfl
  | cons b p ih => simp [ih]

lemma compare_append_of_length_eq {x y : Bytes} (h : x.length = y.length) (x' y' : Bytes) :
    compare (x ++ x') (y ++ y') = (compare x y).then (compare x' y') := by
  induction x generalizing y with
  | nil =>
    obtain rfl : y = [] := List.length_eq_zero_iff.1 h.symm
    rfl
  | cons b x ih =>
    cases y with
    | nil => simp at h
    | cons d y =>
      simp only [List.cons_append, List.compare_cons_cons]
      rw [ih (by simpa using h), Ordering.then_assoc]

lemma bigEndian_succ (width n : Nat) : bigEndian (width + 1) n = UInt8.ofNat (n / 256 ^ width) :: bigEndian width n := by
  induction width generalizing n with
  | zero => rw [Nat.pow_zero, Nat.div_one]; rfl
  | succ width ih =>
    rw [bigEndian, ih, Nat.div_div_eq_div_mul, ← Nat.pow_succ']
    rfl

lemma compare_toNat (a b : UInt8) : compare a b = compare a.toNat b.toNat := by
  change compareOfLessAndEq a b = compareOfLessAndEq a.toNat b.toNat
  simp only [compareOfLessAndEq, UInt8.lt_iff_toNat_lt, ← UInt8.toNat_inj]

lemma compare_div_mod (base m n : Nat) :
    (compare (m / base) (n / base)).then (compare (m % base) (n % base)) = compare m n := by
  rcases Nat.lt_trichotomy (m / base) (n / base) with h | h | h
  · rw [Nat.compare_eq_lt.2 h, Nat.compare_eq_lt.2 (Nat.lt_of_div_lt_div h)]
    rfl
  · have hm := Nat.div_add_mod m base
    have hn := Nat.div_add_mod n base
    rw [h] at hm
    rw [Nat.compare_eq_eq.2 h, Ordering.eq_then]
    rcases Nat.lt_trichotomy (m % base) (n % base) with h' | h' | h'
    · rw [Nat.compare_eq_lt.2 h', Nat.compare_eq_lt.2 (by omega)]
    · rw [Nat.compare_eq_eq.2 h', Nat.compare_eq_eq.2 (by omega)]
    · rw [Nat.compare_eq_gt.2 h', Nat.compare_eq_gt.2 (by omega)]
  · rw [Nat.compare_eq_gt.2 h, Nat.compare_eq_gt.2 (Nat.lt_of_div_lt_div h)]
    rfl

lemma div_lt_pow {base width n : Nat} (h : n < base ^ (width + 1)) : n / base < base ^ width :=
  Nat.div_lt_of_lt_mul (by rwa [← Nat.pow_succ'])

def positional {α : Type} (base : Nat) (digit : Nat → α) : Nat → Nat → List α
  | 0, _ => []
  | width + 1, n => positional base digit width (n / base) ++ [digit (n % base)]

@[simp]
lemma length_positional {α : Type} (base : Nat) (digit : Nat → α) (width n : Nat) :
    (positional base digit width n).length = width := by
  induction width generalizing n with
  | zero => rfl
  | succ width ih => simp [positional, ih]

lemma compare_positional {base : Nat} {digit : Nat → UInt8}
    (hdigit : ∀ d < base, ∀ e < base, compare (digit d) (digit e) = compare d e) (hbase : 0 < base) {width m n : Nat}
    (hm : m < base ^ width) (hn : n < base ^ width) :
    compare (positional base digit width m) (positional base digit width n) = compare m n := by
  induction width generalizing m n with
  | zero =>
    obtain rfl : m = 0 := by simpa using hm
    obtain rfl : n = 0 := by simpa using hn
    rfl
  | succ width ih =>
    rw [positional, positional, compare_append_of_length_eq (by simp), ih (div_lt_pow hm) (div_lt_pow hn),
      List.compare_cons_cons, hdigit _ (Nat.mod_lt _ hbase) _ (Nat.mod_lt _ hbase), List.compare_nil_nil,
      Ordering.then_eq]
    exact compare_div_mod base m n

lemma bigEndian_eq_positional (width n : Nat) : bigEndian width n = positional 256 UInt8.ofNat width n := by
  induction width generalizing n with
  | zero => rfl
  | succ width ih =>
    have hlow : UInt8.ofNat (n % 256) = UInt8.ofNat n := UInt8.toNat_inj.1 (by simp)
    rw [bigEndian, positional, ih, hlow]

@[simp]
lemma length_bigEndian (width n : Nat) : (bigEndian width n).length = width := by
  rw [bigEndian_eq_positional, length_positional]

lemma compare_bigEndian {width m n : Nat} (hm : m < 256 ^ width) (hn : n < 256 ^ width) :
    compare (bigEndian width m) (bigEndian width n) = compare m n := by
  rw [bigEndian_eq_positional, bigEndian_eq_positional]
  refine compare_positional (fun d hd e he => ?_) (by decide) hm hn
  rw [compare_toNat, UInt8.toNat_ofNat_of_lt' hd, UInt8.toNat_ofNat_of_lt' he]

lemma ofBigEndian_bigEndian {width n : Nat} (h : n < 256 ^ width) : ofBigEndian (bigEndian width n) = n := by
  induction width generalizing n with
  | zero =>
    obtain rfl : n = 0 := by simpa using h
    rfl
  | succ width ih =>
    have hlast := ih (div_lt_pow h)
    rw [ofBigEndian] at hlast ⊢
    rw [bigEndian, List.foldl_append, hlast]
    simp only [List.foldl_cons, List.foldl_nil, UInt8.toNat_ofNat']
    omega

lemma ofBigEndian_concat (bs : Bytes) (b : UInt8) : ofBigEndian (bs ++ [b]) = ofBigEndian bs * 256 + b.toNat := by
  simp [ofBigEndian]

lemma ofBigEndian_lt (bs : Bytes) : ofBigEndian bs < 256 ^ bs.length := by
  induction bs using List.reverseRecOn with
  | nil => simp [ofBigEndian]
  | append_singleton bs b ih =>
    have hb := b.toNat_lt
    rw [ofBigEndian_concat, List.length_append, List.length_singleton, Nat.pow_succ]
    omega

lemma bigEndian_ofBigEndian (bs : Bytes) : bigEndian bs.length (ofBigEndian bs) = bs := by
  induction bs using List.reverseRecOn with
  | nil => rfl
  | append_singleton bs b ih =>
    have hb := b.toNat_lt
    have hhigh : (ofBigEndian bs * 256 + b.toNat) / 256 = ofBigEndian bs := by omega
    have hlow : UInt8.ofNat (ofBigEndian bs * 256 + b.toNat) = b := by
      apply UInt8.toNat_inj.1
      rw [UInt8.toNat_ofNat']
      omega
    rw [ofBigEndian_concat, List.length_append, List.length_singleton, bigEndian, hhigh, hlow, ih]

lemma zero_between_iff_prefix (k : Bytes) :
    (compare [0] k).isLE = true ∧ compare k [1] = .lt ↔ [0] <+: k := by
  cases k with
  | nil => simp
  | cons b k =>
    simp only [List.compare_cons_cons, List.cons_prefix_cons, List.nil_prefix, and_true]
    by_cases hb : b = 0
    · subst hb
      have hlt : compare (0 : UInt8) 1 = .lt := rfl
      simp [hlt, List.isLE_compare_nil_left]
    · have hpos : 0 < b.toNat := Nat.pos_of_ne_zero fun h => hb (UInt8.toNat_inj.1 h)
      have hnot : ¬ (compare b 1).then (compare k []) = .lt := by
        rw [Ordering.then_eq_lt, compare_toNat, Nat.compare_eq_lt, UInt8.toNat_one]
        rintro (h | ⟨_, h⟩)
        · omega
        · cases k <;> simp at h
      simp [hnot, Ne.symm hb]

lemma between_iff_prefix (start k : Bytes) :
    (compare (start ++ [0]) k).isLE = true ∧ compare k (start ++ [1]) = .lt ↔ start ++ [0] <+: k := by
  induction start generalizing k with
  | nil => exact zero_between_iff_prefix k
  | cons d start ih =>
    cases k with
    | nil => simp
    | cons b k =>
      simp only [List.cons_append, List.compare_cons_cons, List.cons_prefix_cons, ← ih]
      cases h : compare d b with
      | lt =>
        have hne : d ≠ b := by
          rintro rfl
          simp at h
        simp [Std.OrientedCmp.gt_of_lt h, hne]
      | eq =>
        obtain rfl := Std.LawfulEqOrd.eq_of_compare h
        simp
      | gt =>
        have hne : d ≠ b := by
          rintro rfl
          simp at h
        simp [hne]

end Chronicle.Bytes
