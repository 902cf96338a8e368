import Mathlib.Tactic.Lemma
import Chronicle.Identifier.Text

namespace Chronicle

namespace Text

lemma dropWhile_isBlank_of_all {cs : List Char} (h : ∀ c ∈ cs, isBlank c = false) : cs.dropWhile isBlank = cs := by
  cases cs with
  | nil => rfl
  | cons c cs => simp [h c List.mem_cons_self]

lemma trim_of_all {cs : List Char} (h : ∀ c ∈ cs, isBlank c = false) : trim cs = cs := by
  rw [trim, dropWhile_isBlank_of_all h, dropWhile_isBlank_of_all (by simpa using h), List.reverse_reverse]

end Text

namespace Identifier

lemma digit_spec : ∀ d : Fin 36, digitValue? (digit d) = some d.val ∧ Text.isBlank (digit d) = false ∧
    digit d ≠ '-' ∧ digit d ≠ '+' := by
  decide

lemma digitValue?_digit {d : Nat} (h : d < 36) : digitValue? (digit d) = some d := (digit_spec ⟨d, h⟩).1

lemma digits_of_lt {n : Nat} (h : n < 36) : digits n = [digit n] := by
  rw [digits, dif_pos h]

lemma digits_of_le {n : Nat} (h : 36 ≤ n) : digits n = digits (n / 36) ++ [digit (n % 36)] := by
  rw [digits, dif_neg (by omega)]

lemma mem_digits {n : Nat} {c : Char} (h : c ∈ digits n) : ∃ d < 36, c = digit d := by
  induction n using digits.induct with
  | case1 n hn =>
    rw [digits_of_lt hn] at h
    exact ⟨n, hn, by simpa using h⟩
  | case2 n hn ih =>
    rw [digits_of_le (by omega)] at h
    rcases List.mem_append.1 h with h | h
    · exact ih h
    · exact ⟨n % 36, by omega, by simpa using h⟩

lemma digits_ne_nil (n : Nat) : digits n ≠ [] := by
  by_cases h : n < 36
  · simp [digits_of_lt h]
  · simp [digits_of_le (by omega : 36 ≤ n)]

lemma readDigits_append (falling : Bool) (text : String) (v : Int) (as bs : List Char) :
    readDigits falling text v (as ++ bs) =
      (readDigits falling text v as).bind fun w => readDigits falling text w bs := by
  induction as generalizing v with
  | nil => rfl
  | cons a as ih =>
    simp only [List.cons_append, readDigits]
    split
    · rfl
    · next d hd =>
      generalize (if falling = true then v * 36 - (d : Int) else v * 36 + d) = next
      split
      · rfl
      · split
        · rfl
        · exact ih _

def signed (falling : Bool) (n : Nat) : Int := if falling then -n else n

lemma readDigits_digit {falling : Bool} (text : String) {n d : Nat} (hd : d < 36)
    (hlow : Int64.minValue.toInt ≤ signed falling (n * 36 + d))
    (hhigh : signed falling (n * 36 + d) ≤ Int64.maxValue.toInt) :
    readDigits falling text (signed falling n) [digit d] = .ok (signed falling (n * 36 + d)) := by
  have hnext : (if falling = true then signed falling n * 36 - (d : Int) else signed falling n * 36 + d) =
      signed falling (n * 36 + d) := by
    cases falling <;> simp [signed]
    omega
  simp only [readDigits, digitValue?_digit hd, hnext]
  rw [if_neg (by omega), if_neg (by omega)]

lemma readDigits_digits {falling : Bool} {text : String} {n : Nat}
    (hlow : Int64.minValue.toInt ≤ signed falling n) (hhigh : signed falling n ≤ Int64.maxValue.toInt) :
    readDigits falling text 0 (digits n) = .ok (signed falling n) := by
  have hzero : (0 : Int) = signed falling 0 := by cases falling <;> rfl
  induction n using digits.induct with
  | case1 n hn =>
    rw [digits_of_lt hn, hzero]
    simpa using readDigits_digit text (n := 0) hn (by simpa using hlow) (by simpa using hhigh)
  | case2 n hn ih =>
    have hmin := Int64.toInt_minValue
    have hmax := Int64.toInt_maxValue
    have hsplit : n / 36 * 36 + n % 36 = n := Nat.div_add_mod' n 36
    have hq : Int64.minValue.toInt ≤ signed falling (n / 36) ∧
        signed falling (n / 36) ≤ Int64.maxValue.toInt := by
      cases falling <;> simp only [signed, if_true, if_false, Bool.false_eq_true] at hlow hhigh ⊢ <;> omega
    rw [digits_of_le (by omega), readDigits_append, ih hq.1 hq.2]
    have hdigit : n % 36 < 36 := by omega
    have h := readDigits_digit text (n := n / 36) hdigit (by rw [hsplit]; exact hlow) (by rw [hsplit]; exact hhigh)
    rw [hsplit] at h
    exact h

lemma readDigits_zeros (falling : Bool) (text : String) (k : Nat) (ds : List Char) :
    readDigits falling text 0 (List.replicate k '0' ++ ds) = readDigits falling text 0 ds := by
  have hzero : readDigits falling text 0 ['0'] = .ok 0 := by cases falling <;> rfl
  induction k with
  | zero => rfl
  | succ k ih =>
    rw [List.replicate_succ, List.cons_append, ← List.singleton_append, readDigits_append, hzero]
    exact ih

lemma digit_zero : digit 0 = '0' := by decide

def body (x : Identifier) : List Char :=
  List.replicate (if x.raw < 0 then 0 else leastWidth - (digits x.raw.toInt.natAbs).length) '0' ++
    digits x.raw.toInt.natAbs

lemma mem_body {x : Identifier} {c : Char} (h : c ∈ x.body) : ∃ d < 36, c = digit d := by
  rcases List.mem_append.1 h with h | h
  · exact ⟨0, by omega, digit_zero ▸ List.eq_of_mem_replicate h⟩
  · exact mem_digits h

lemma body_ne_nil (x : Identifier) : x.body ≠ [] := by simp [body, digits_ne_nil]

lemma toList_render (x : Identifier) :
    x.render.toList = if x.raw < 0 then '-' :: x.body else x.body := by
  unfold render body
  split <;> simp

lemma splitSign_body (x : Identifier) : splitSign x.body = (false, x.body) := by
  cases hb : x.body with
  | nil => rfl
  | cons c cs =>
    obtain ⟨d, hd, rfl⟩ := mem_body (hb ▸ List.mem_cons_self : c ∈ x.body)
    obtain ⟨_, _, hminus, hplus⟩ := digit_spec ⟨d, hd⟩
    unfold splitSign
    split
    · next h => exact absurd (List.cons.inj h).1 hminus
    · next h => exact absurd (List.cons.inj h).1 hplus
    · rfl

lemma splitSign_render (x : Identifier) : splitSign x.render.toList = (decide (x.raw < 0), x.body) := by
  rw [toList_render]
  split
  · next h => simp [splitSign, h]
  · next h => simp [splitSign_body, h]

lemma trim_render (x : Identifier) : Text.trim x.render.toList = x.render.toList := by
  apply Text.trim_of_all
  intro c hc
  have hbody : ∀ c ∈ x.body, Text.isBlank c = false := by
    intro c hc
    obtain ⟨d, hd, rfl⟩ := mem_body hc
    exact (digit_spec ⟨d, hd⟩).2.1
  rw [toList_render] at hc
  split at hc
  · rcases List.mem_cons.1 hc with rfl | hc
    · decide
    · exact hbody c hc
  · exact hbody c hc

lemma readDigits_body (x : Identifier) (text : String) :
    readDigits (decide (x.raw < 0)) text 0 x.body = .ok x.raw.toInt := by
  have hlow := x.raw.minValue_le_toInt
  have hhigh := x.raw.toInt_le
  have hneg : x.raw < 0 ↔ x.raw.toInt < 0 := by rw [Int64.lt_iff_toInt_lt, Int64.toInt_zero]
  have hsigned : signed (decide (x.raw < 0)) x.raw.toInt.natAbs = x.raw.toInt := by
    by_cases h : x.raw.toInt < 0
    · simp only [signed, hneg, h, decide_true, if_true]
      omega
    · simp only [signed, hneg, h, decide_false, Bool.false_eq_true, if_false]
      omega
  rw [body, readDigits_zeros, readDigits_digits] <;> rw [hsigned] <;> assumption

lemma parse_render (x : Identifier) : parse x.render = .ok x := by
  have hne : x.render.toList ≠ [] := by
    rw [toList_render]
    split <;> simp [body_ne_nil]
  simp only [parse, trim_render, splitSign_render]
  rw [if_neg (by simpa using hne), if_neg (by simpa using body_ne_nil x), readDigits_body]
  simp [Except.map]

end Identifier

end Chronicle
