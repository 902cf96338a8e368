import Mathlib.Tactic.Lemma
import Chronicle.Proofs.Codec.ReadBack
import Chronicle.Proofs.Identifier.Fields

namespace Chronicle.Identifier

lemma digits_padded {width n : Nat} (h : n < 36 ^ (width + 1)) :
    List.replicate (width + 1 - (digits n).length) '0' ++ digits n = Bytes.positional 36 digit (width + 1) n := by
  have hzeros (k : Nat) : Bytes.positional 36 digit k 0 = List.replicate k '0' := by
    induction k with
    | zero => rfl
    | succ k ih => rw [Bytes.positional, Nat.zero_div, Nat.zero_mod, ih, digit_zero, List.replicate_succ']
  induction width generalizing n with
  | zero =>
    rw [digits_of_lt (by simpa using h), Bytes.positional, Nat.mod_eq_of_lt (by simpa using h)]
    rfl
  | succ width ih =>
    rw [Bytes.positional]
    by_cases hn : n < 36
    · rw [digits_of_lt hn, Nat.div_eq_of_lt hn, Nat.mod_eq_of_lt hn, hzeros]
      rfl
    · rw [digits_of_le (Nat.not_lt.1 hn), List.length_append, List.length_singleton, Nat.add_sub_add_right,
        ← List.append_assoc, ih (Bytes.div_lt_pow h)]

def digitByte (d : Nat) : UInt8 := .ofNat (digit d).toNat

lemma flatMap_positional {base : Nat} (h : base ≤ 36) (hbase : 0 < base) (width n : Nat) :
    (Bytes.positional base digit width n).flatMap String.utf8EncodeChar = Bytes.positional base digitByte width n := by
  have hbyte : ∀ d : Fin 36, String.utf8EncodeChar (digit d) = [digitByte d] := by decide +kernel
  induction width generalizing n with
  | zero => rfl
  | succ width ih =>
    have hdigit := hbyte ⟨n % base, Nat.lt_of_lt_of_le (Nat.mod_lt n hbase) h⟩
    rw [Bytes.positional, Bytes.positional, List.flatMap_append, ih, List.flatMap_singleton, hdigit]

lemma compare_digitByte : ∀ d < 36, ∀ e < 36, compare (digitByte d) (digitByte e) = compare d e := by decide +kernel

def HasLeastWidth (x : Identifier) : Prop := 0 ≤ x.raw.toInt ∧ x.raw.toInt < 36 ^ leastWidth

instance (x : Identifier) : Decidable x.HasLeastWidth := inferInstanceAs (Decidable (_ ∧ _))

variable {x y : Identifier}

lemma ofText_render (h : x.HasLeastWidth) :
    Bytes.ofText x.render = Bytes.positional 36 digitByte leastWidth x.raw.toInt.toNat := by
  obtain ⟨hlow, hhigh⟩ := h
  have hnot : ¬ x.raw < 0 := by
    rw [Int64.lt_iff_toInt_lt, Int64.toInt_zero]
    exact Int.not_lt.2 hlow
  have habs : x.raw.toInt.natAbs = x.raw.toInt.toNat := by omega
  have hlt : x.raw.toInt.toNat < 36 ^ (11 + 1) := by
    rw [leastWidth] at hhigh
    omega
  rw [Bytes.ofText_eq, toList_render, if_neg hnot, body, if_neg hnot, habs, leastWidth, digits_padded hlt,
    flatMap_positional (Nat.le_refl _) (by decide)]

lemma hasLeastWidth_of_millis (hlow : 0 ≤ x.millis.toInt) (hhigh : x.millis.toInt < 2 ^ 44) : x.HasLeastWidth := by
  rw [toInt_millis, perMillisecond] at hlow hhigh
  rw [HasLeastWidth, leastWidth]
  omega

theorem texts_in_order :
    (∀ x y : Identifier, x.HasLeastWidth → y.HasLeastWidth →
      (compare (Bytes.ofText x.render) (Bytes.ofText y.render) = .lt ↔ x < y)) ∧
    ∀ x : Identifier, 0 ≤ x.millis.toInt → x.millis.toInt < 2 ^ 44 → x.HasLeastWidth := by
  refine ⟨fun x y hx hy => ?_, fun x => hasLeastWidth_of_millis⟩
  have hxy : compare (Bytes.ofText x.render) (Bytes.ofText y.render) = compare x.raw.toInt.toNat y.raw.toInt.toNat := by
    rw [ofText_render hx, ofText_render hy]
    obtain ⟨hlow, hhigh⟩ := hx
    obtain ⟨hlow', hhigh'⟩ := hy
    exact Bytes.compare_positional compare_digitByte (by decide) (by rw [leastWidth] at *; omega)
      (by rw [leastWidth] at *; omega)
  rw [hxy, Nat.compare_eq_lt, lt_iff_toInt]
  have hlow := hx.1
  have hlow' := hy.1
  omega

theorem texts_in_order_last_digit :
    compare (Bytes.ofText (⟨9⟩ : Identifier).render) (Bytes.ofText (⟨10⟩ : Identifier).render) = .lt ∧
      compare (Bytes.ofText (lastAt 17592186044415).render) (Bytes.ofText (⟨36 ^ 12 - 1⟩ : Identifier).render) = .lt := by
  obtain ⟨horder, hwidth⟩ := texts_in_order
  exact ⟨(horder ⟨9⟩ ⟨10⟩ (by decide) (by decide)).2 (by decide),
    (horder (lastAt 17592186044415) ⟨36 ^ 12 - 1⟩ (hwidth _ (by decide) (by decide)) (by decide)).2 (by decide)⟩

-- one digit more, and the greater identifier has the lesser text
example : compare (Bytes.ofText (⟨36 ^ 12⟩ : Identifier).render) (Bytes.ofText (⟨36 ^ 12 - 1⟩ : Identifier).render) =
    .lt := by
  decide +kernel

end Chronicle.Identifier
