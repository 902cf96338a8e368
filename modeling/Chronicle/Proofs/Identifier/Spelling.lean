import Mathlib.Data.List.TakeWhile
import Mathlib.Data.Nat.Digits.Defs
import Mathlib.Tactic.Ring
import Chronicle.Proofs.Codec.ReadBack
import Chronicle.Proofs.Traversal

/-! The texts that are identifiers. -/

namespace Chronicle

namespace Text

lemma exists_trim (cs : List Char) : ∃ before after, cs = before ++ trim cs ++ after ∧
    ∀ c ∈ before ++ after, isBlank c = true := by
  let rest := cs.dropWhile isBlank
  have hrest : rest = trim cs ++ (rest.reverse.takeWhile isBlank).reverse := by
    rw [trim, ← List.reverse_append, List.takeWhile_append_dropWhile, List.reverse_reverse]
  refine ⟨cs.takeWhile isBlank, (rest.reverse.takeWhile isBlank).reverse, ?_, fun c hc => ?_⟩
  · rw [List.append_assoc, ← hrest, List.takeWhile_append_dropWhile]
  · rcases List.mem_append.1 hc with hc | hc
    · exact List.mem_takeWhile_imp hc
    · exact List.mem_takeWhile_imp (List.mem_reverse.1 hc)

lemma dropWhile_isBlank_append {before cs : List Char} (hbefore : ∀ c ∈ before, isBlank c = true)
    (hcs : ∀ c ∈ cs.head?, isBlank c = false) : (before ++ cs).dropWhile isBlank = cs := by
  rw [List.dropWhile_append_of_pos hbefore]
  cases cs with
  | nil => rfl
  | cons c cs => exact List.dropWhile_cons_of_neg (by simp [hcs c rfl])

lemma trim_append {before cs after : List Char} (hblank : ∀ c ∈ before ++ after, isBlank c = true) (hne : cs ≠ [])
    (hcs : ∀ c ∈ cs, isBlank c = false) : trim (before ++ cs ++ after) = cs := by
  have hbefore : ∀ c ∈ before, isBlank c = true := fun c hc => hblank c (List.mem_append_left _ hc)
  have hafter : ∀ c ∈ after.reverse, isBlank c = true :=
    fun c hc => hblank c (List.mem_append_right _ (List.mem_reverse.1 hc))
  rw [trim, List.append_assoc, dropWhile_isBlank_append hbefore, List.reverse_append, dropWhile_isBlank_append hafter,
    List.reverse_reverse]
  · intro c hc
    exact hcs c (List.mem_reverse.1 (List.mem_of_mem_head? hc))
  · intro c hc
    obtain ⟨d, ds, rfl⟩ := List.exists_cons_of_ne_nil hne
    exact hcs c (List.mem_of_mem_head? hc)

end Text

namespace Identifier

def alphabet : List Char := "0123456789ABCDEFGHIJKLMNOPQRSTUVWXYZ".toList

def Denote (ds : List Char) (values : List Nat) : Prop :=
  List.Forall₂ (fun c d => alphabet[d]? = some c.toUpper) ds values

def signs : List (List Char × Bool) := [([], false), (['+'], false), (['-'], true)]

/-- A text is a number in base 36: digits behind an optional sign, with white space around them. -/
inductive Spells (text : String) : Int → Prop
  | intro {before sign ds after : List Char} {values : List Nat} {negative : Bool}
      (text_eq : text.toList = before ++ (sign ++ ds) ++ after) (blank : ∀ c ∈ before ++ after, Text.isBlank c = true)
      (sign_mem : (sign, negative) ∈ signs) (nonempty : ds ≠ []) (denote : Denote ds values) :
      Spells text (signed negative (Nat.ofDigits 36 values.reverse))

lemma digitValue?_eq_none {c : Char} (h : 128 ≤ c.toNat) : digitValue? c = none := by
  have hz : 'z'.toNat = 122 := by decide
  have h9 : '9'.toNat = 57 := by decide
  have hZ : 'Z'.toNat = 90 := by decide
  have hle : ∀ d : Char, c ≤ d → c.toNat ≤ d.toNat := fun d hd => hd
  rw [digitValue?, if_neg, if_neg, if_neg] <;> rintro ⟨_, hc⟩ <;> have := hle _ hc <;> omega

lemma digitValue?_iff {c : Char} {d : Nat} : digitValue? c = some d ↔ alphabet[d]? = some c.toUpper := by
  have hlength : alphabet.length = 36 := by decide +kernel
  have hascii : ∀ n : Fin 128, ∀ d : Fin 36,
      digitValue? (Char.ofNat n) = some d.val ↔ alphabet[d.val]? = some (Char.ofNat n).toUpper := by decide +kernel
  have hbound : ∀ n : Fin 128, ∀ d ∈ digitValue? (Char.ofNat n), d < 36 := by decide +kernel
  by_cases hc : c.toNat < 128
  · have hchar : Char.ofNat (⟨c.toNat, hc⟩ : Fin 128) = c := Char.ofNat_toNat c
    by_cases hd : d < 36
    · rw [← hchar]
      exact hascii ⟨c.toNat, hc⟩ ⟨d, hd⟩
    · rw [List.getElem?_eq_none (by omega)]
      constructor
      · intro h
        exact absurd (hbound ⟨c.toNat, hc⟩ d (by rw [hchar]; exact h)) hd
      · intro h
        cases h
  · rw [digitValue?_eq_none (by omega)]
    have hupper : c.toUpper = c := dif_neg fun ⟨_, hz⟩ => hc (Nat.lt_of_le_of_lt hz (by decide))
    have hnot : c ∉ alphabet := by
      have hall : (alphabet.all fun a => a.toNat < 128) = true := by decide +kernel
      exact fun ha => hc (of_decide_eq_true (List.all_eq_true.1 hall c ha))
    rw [hupper]
    constructor
    · intro h
      cases h
    · intro h
      exact absurd (List.mem_of_getElem? h) hnot

def InWord (v : Int) : Prop := Int64.minValue.toInt ≤ v ∧ v ≤ Int64.maxValue.toInt

def reading (n : Nat) (values : List Nat) : Nat := values.foldl (fun n d => n * 36 + d) n

lemma le_reading (n : Nat) (values : List Nat) : n ≤ reading n values := by
  induction values generalizing n with
  | nil => exact Nat.le_refl n
  | cons d values ih => exact Nat.le_trans (by omega) (ih (n * 36 + d))

lemma reading_zero (values : List Nat) : reading 0 values = Nat.ofDigits 36 values.reverse := by
  rw [Nat.ofDigits_eq_foldr, List.foldr_reverse, reading]
  congr 1
  funext n d
  push_cast
  ring

lemma InWord.of_reading {negative : Bool} {n : Nat} {values : List Nat}
    (h : InWord (signed negative (reading n values))) : InWord (signed negative n) := by
  have hle := le_reading n values
  have hmin := Int64.toInt_minValue
  have hmax := Int64.toInt_maxValue
  obtain ⟨hlow, hhigh⟩ := h
  rw [InWord]
  cases negative <;> simp only [signed, if_true, if_false, Bool.false_eq_true] at hlow hhigh ⊢ <;> omega

lemma readDigits_cons {falling : Bool} {text : String} {n d : Nat} {c : Char} {cs : List Char}
    (hc : digitValue? c = some d) : readDigits falling text (signed falling n) (c :: cs) =
      if signed falling (n * 36 + d) < Int64.minValue.toInt then .error (.tooSmall text)
      else if Int64.maxValue.toInt < signed falling (n * 36 + d) then .error (.tooLarge text)
      else readDigits falling text (signed falling (n * 36 + d)) cs := by
  have hnext : (if falling = true then signed falling n * 36 - (d : Int) else signed falling n * 36 + d) =
      signed falling (n * 36 + d) := by
    cases falling <;> simp only [signed, if_true, if_false, Bool.false_eq_true] <;> push_cast <;> omega
  rw [readDigits, hc]
  simp only [hnext]

lemma denote_cons_iff {c : Char} {cs : List Char} {values : List Nat} :
    Denote (c :: cs) values ↔ ∃ d rest, digitValue? c = some d ∧ Denote cs rest ∧ values = d :: rest := by
  simp only [Denote, List.forall₂_cons_left_iff, digitValue?_iff]

lemma readDigits_eq_ok_iff {falling : Bool} {text : String} {n : Nat} {v : Int} {ds : List Char}
    (hn : InWord (signed falling n)) : readDigits falling text (signed falling n) ds = .ok v ↔
      InWord v ∧ ∃ values, Denote ds values ∧ v = signed falling (reading n values) := by
  induction ds generalizing n with
  | nil =>
    constructor
    · intro h
      cases h
      exact ⟨hn, [], .nil, rfl⟩
    · rintro ⟨_, values, hdenote, rfl⟩
      cases hdenote
      rfl
  | cons c cs ih =>
    cases hc : digitValue? c with
    | none =>
      simp only [readDigits, hc, reduceCtorEq, false_iff]
      rintro ⟨_, values, hdenote, _⟩
      obtain ⟨d, _, hd, _⟩ := denote_cons_iff.1 hdenote
      cases hc.symm.trans hd
    | some d =>
      have hvalues : (∃ values, Denote (c :: cs) values ∧ v = signed falling (reading n values)) ↔
          ∃ values, Denote cs values ∧ v = signed falling (reading (n * 36 + d) values) := by
        constructor
        · rintro ⟨values, hdenote, rfl⟩
          obtain ⟨d', rest, hd, hrest, rfl⟩ := denote_cons_iff.1 hdenote
          cases hc.symm.trans hd
          exact ⟨rest, hrest, rfl⟩
        · rintro ⟨rest, hrest, rfl⟩
          exact ⟨d :: rest, denote_cons_iff.2 ⟨d, rest, hc, hrest, rfl⟩, rfl⟩
      rw [readDigits_cons hc, hvalues]
      by_cases hnext : InWord (signed falling (n * 36 + d))
      · rw [if_neg (Int.not_lt.2 hnext.1), if_neg (Int.not_lt.2 hnext.2), ih hnext]
      · have hout : ¬ (InWord v ∧ ∃ values, Denote cs values ∧ v = signed falling (reading (n * 36 + d) values)) := by
          rintro ⟨hv, values, _, rfl⟩
          exact hnext hv.of_reading
        rw [iff_false_intro hout, iff_false]
        split
        · intro h
          cases h
        · next hlow =>
          split
          · intro h
            cases h
          · next hhigh => exact absurd ⟨Int.not_lt.1 hlow, Int.not_lt.1 hhigh⟩ hnext

lemma sign_splitSign (cs : List Char) :
    ∃ sign, (sign, (splitSign cs).1) ∈ signs ∧ cs = sign ++ (splitSign cs).2 := by
  unfold splitSign
  split
  · exact ⟨['-'], by simp [signs], rfl⟩
  · exact ⟨['+'], by simp [signs], rfl⟩
  · exact ⟨[], by simp [signs], rfl⟩

lemma not_sign_of_digit {c : Char} {d : Nat} (h : digitValue? c = some d) :
    c ≠ '-' ∧ c ≠ '+' ∧ Text.isBlank c = false := by
  have hascii : ∀ n : Fin 128, (digitValue? (Char.ofNat n)).isSome →
      Char.ofNat n ≠ '-' ∧ Char.ofNat n ≠ '+' ∧ Text.isBlank (Char.ofNat n) = false := by decide +kernel
  by_cases hc : c.toNat < 128
  · have hchar : Char.ofNat (⟨c.toNat, hc⟩ : Fin 128) = c := Char.ofNat_toNat c
    have hspec := hascii ⟨c.toNat, hc⟩
    rw [hchar, h] at hspec
    exact hspec rfl
  · rw [digitValue?_eq_none (by omega)] at h
    cases h

lemma splitSign_append {sign ds : List Char} {negative : Bool} {values : List Nat} (hsign : (sign, negative) ∈ signs)
    (hne : ds ≠ []) (hdenote : Denote ds values) : splitSign (sign ++ ds) = (negative, ds) := by
  obtain ⟨c, cs, rfl⟩ := List.exists_cons_of_ne_nil hne
  obtain ⟨d, _, hd, _⟩ := denote_cons_iff.1 hdenote
  obtain ⟨hminus, hplus, _⟩ := not_sign_of_digit hd
  simp only [signs, List.mem_cons, Prod.mk.injEq, List.not_mem_nil, or_false] at hsign
  rcases hsign with ⟨rfl, rfl⟩ | ⟨rfl, rfl⟩ | ⟨rfl, rfl⟩
  · unfold splitSign
    split
    · next h => exact absurd (List.cons.inj h).1 hminus
    · next h => exact absurd (List.cons.inj h).1 hplus
    · rfl
  · rfl
  · rfl

lemma not_blank_of_mem {sign ds : List Char} {negative : Bool} {values : List Nat} (hsign : (sign, negative) ∈ signs)
    (hdenote : Denote ds values) : ∀ c ∈ sign ++ ds, Text.isBlank c = false := by
  intro c hc
  rcases List.mem_append.1 hc with hc | hc
  · have hsigns : (signs.all fun s => s.1.all fun c => Text.isBlank c == false) = true := by decide
    exact eq_of_beq (List.all_eq_true.1 (List.all_eq_true.1 hsigns _ hsign) c hc)
  · obtain ⟨d, _, hd⟩ := exists_of_mem_right hdenote.flip hc
    exact (not_sign_of_digit (digitValue?_iff.2 hd)).2.2

lemma map_readDigits_eq_ok_iff {falling : Bool} {text : String} {ds : List Char} {x : Identifier} :
    (readDigits falling text 0 ds).map (fun v => (⟨Int64.ofInt v⟩ : Identifier)) = .ok x ↔
      ∃ values, Denote ds values ∧ x.raw.toInt = signed falling (Nat.ofDigits 36 values.reverse : Nat) := by
  have hzero : (0 : Int) = signed falling 0 := by cases falling <;> rfl
  have hstart : InWord (signed falling 0) := by
    rw [← hzero, InWord]
    decide
  have hread (v : Int) : readDigits falling text (signed falling 0) ds = .ok v ↔
      InWord v ∧ ∃ values, Denote ds values ∧ v = signed falling (reading 0 values) := readDigits_eq_ok_iff hstart
  simp only [← hzero, reading_zero] at hread
  constructor
  · intro h
    cases hv : readDigits falling text 0 ds with
    | error fault =>
      rw [hv] at h
      cases h
    | ok v =>
      rw [hv] at h
      obtain ⟨hword, hvalues⟩ := (hread v).1 hv
      have hlow := hword.1
      have hhigh := hword.2
      rw [Int64.toInt_minValue] at hlow
      rw [Int64.toInt_maxValue] at hhigh
      cases h
      rwa [Int64.toInt_ofInt_of_le (by omega) (by omega)]
  · intro hvalues
    rw [(hread x.raw.toInt).2 ⟨⟨x.raw.minValue_le_toInt, x.raw.toInt_le⟩, hvalues⟩]
    simp [Except.map]

lemma parse_eq_ok_iff (text : String) (x : Identifier) : parse text = .ok x ↔ Spells text x.raw.toInt := by
  simp only [parse]
  constructor
  · intro h
    split at h
    · cases h
    · split at h
      · cases h
      · next hds =>
        obtain ⟨values, hdenote, hv⟩ := map_readDigits_eq_ok_iff.1 h
        obtain ⟨before, after, htext, hblank⟩ := Text.exists_trim text.toList
        obtain ⟨sign, hsign, hbody⟩ := sign_splitSign (Text.trim text.toList)
        rw [hv]
        exact .intro (by rw [← hbody]; exact htext) hblank hsign (by simpa using hds) hdenote
  · generalize hv : x.raw.toInt = v
    intro h
    cases h with
    | @intro before sign ds after values negative htext hblank hsign hne hdenote =>
      have hbody : Text.trim text.toList = sign ++ ds := by
        rw [htext]
        exact Text.trim_append hblank (by simp [hne]) (not_blank_of_mem hsign hdenote)
      rw [hbody, splitSign_append hsign hne hdenote, if_neg (by simp [hne]), if_neg (by simpa using hne)]
      exact map_readDigits_eq_ok_iff.2 ⟨values, hdenote, hv⟩

structure FewestDigits (ds : List Char) (n : Nat) : Prop where
  value : ∃ values, List.Forall₂ (fun c d => alphabet[d]? = some c) ds values ∧ Nat.ofDigits 36 values.reverse = n
  nonempty : ds ≠ []
  leading : ds.head? = some '0' → ds = ['0']

lemma getElem?_alphabet {d : Nat} (h : d < 36) : alphabet[d]? = some (digit d) := by
  have hall : ∀ d : Fin 36, alphabet[d.val]? = some (digit d) := by decide +kernel
  exact hall ⟨d, h⟩

lemma eq_zero_of_head?_digits {n : Nat} (h : (digits n).head? = some '0') : n = 0 := by
  have hdigit : ∀ d : Fin 36, digit d = '0' → d.val = 0 := by decide +kernel
  induction n using digits.induct with
  | case1 n hn =>
    rw [digits_of_lt hn, List.head?_cons, Option.some.injEq] at h
    exact hdigit ⟨n, hn⟩ h
  | case2 n hn ih =>
    rw [digits_of_le (by omega), List.head?_append] at h
    obtain ⟨c, cs, hcs⟩ := List.exists_cons_of_ne_nil (digits_ne_nil (n / 36))
    rw [hcs] at h ih
    have := ih h
    omega

lemma fewestDigits_digits (n : Nat) : FewestDigits (digits n) n where
  value := by
    induction n using digits.induct with
    | case1 n hn =>
      rw [digits_of_lt hn]
      exact ⟨[n], .cons (getElem?_alphabet hn) .nil, by simp⟩
    | case2 n hn ih =>
      obtain ⟨values, hvalues, hvalue⟩ := ih
      rw [digits_of_le (by omega)]
      refine ⟨values ++ [n % 36], List.rel_append hvalues (.cons (getElem?_alphabet (by omega)) .nil), ?_⟩
      rw [List.reverse_append, List.reverse_singleton, List.singleton_append, Nat.ofDigits_cons, hvalue]
      omega
  nonempty := digits_ne_nil n
  leading h := by
    rw [eq_zero_of_head?_digits h]
    decide +kernel

lemma length_digits_natAbs_le (x : Identifier) : (digits x.raw.toInt.natAbs).length ≤ 13 := by
  have hlow := x.raw.le_toInt
  have hhigh := x.raw.toInt_lt
  exact length_digits_le (k := 12) (by omega)

lemma toList_render_eq (x : Identifier) : x.render.toList =
    if x.raw.toInt < 0 then '-' :: digits x.raw.toInt.natAbs
    else List.replicate (12 - (digits x.raw.toInt.natAbs).length) '0' ++ digits x.raw.toInt.natAbs := by
  have hneg : x.raw < 0 ↔ x.raw.toInt < 0 := by rw [Int64.lt_iff_toInt_lt, Int64.toInt_zero]
  rw [toList_render, body, leastWidth]
  by_cases h : x.raw.toInt < 0 <;> simp [hneg, h]

theorem text_form :
    (∀ (text : String) (x : Identifier), parse text = .ok x ↔ Spells text x.raw.toInt) ∧
    (∀ text : String, (∀ v, Spells text v → ¬ (-2 ^ 63 ≤ v ∧ v < 2 ^ 63)) → ∃ fault, parse text = .error fault) ∧
    (∀ x : Identifier, parse x.render = .ok x ∧ ∃ ds, FewestDigits ds x.raw.toInt.natAbs ∧ ds.length ≤ 13 ∧
      x.render.toList = if x.raw.toInt < 0 then '-' :: ds else List.replicate (12 - ds.length) '0' ++ ds) ∧
    ∀ (s t : String) (x y : Identifier), parse s = .ok x → parse t = .ok y → (x = y ↔ x.render = y.render) := by
  refine ⟨parse_eq_ok_iff, fun text hout => ?_, fun x => ?_, fun s t x y _ _ => ⟨congrArg render, fun h => ?_⟩⟩
  · cases hparse : parse text with
    | error fault => exact ⟨fault, rfl⟩
    | ok x => exact absurd ⟨x.raw.le_toInt, x.raw.toInt_lt⟩ (hout _ ((parse_eq_ok_iff text x).1 hparse))
  · exact ⟨parse_render x, digits x.raw.toInt.natAbs, fewestDigits_digits _, length_digits_natAbs_le x,
      toList_render_eq x⟩
  · have hx := parse_render x
    rw [h, parse_render] at hx
    exact (Except.ok.inj hx).symm

theorem text_form_lenient : parse "\t+5m9S " = .ok ⟨262144⟩ ∧ (∃ fault, parse "1Y2P0IJ32E8E8" = .error fault) ∧
    ∀ x, parse "00000000000005M9S" = .ok x → render x = render ⟨262144⟩ := by
  obtain ⟨hparse, hfault, _, hrender⟩ := text_form
  have hspells : Spells "\t+5m9S " 262144 := @Spells.intro _ ['\t'] ['+'] "5m9S".toList [' '] [5, 22, 9, 28] false
    (by decide +kernel) (List.all_eq_true.1 (by decide +kernel)) (by decide) (by decide +kernel)
    (by simp only [Denote]; decide +kernel)
  have hlenient : parse "\t+5m9S " = .ok ⟨262144⟩ := (hparse _ _).2 hspells
  refine ⟨hlenient, hfault _ fun v hspells hv => ?_, fun x hx => ?_⟩
  · have hx := (hparse "1Y2P0IJ32E8E8" ⟨Int64.ofInt v⟩).2 (by rwa [Int64.toInt_ofInt_of_le hv.1 hv.2])
    have herror : (parse "1Y2P0IJ32E8E8").isOk = false := by decide +kernel
    rw [hx] at herror
    cases herror
  · refine (hrender _ _ x ⟨262144⟩ hx hlenient).1 ?_
    have hpadded : parse "00000000000005M9S" = .ok ⟨262144⟩ := by decide +kernel
    exact Except.ok.inj (hx.symm.trans hpadded)

end Identifier

end Chronicle
