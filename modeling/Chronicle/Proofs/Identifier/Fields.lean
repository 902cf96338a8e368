import Mathlib.Algebra.Group.Int.Defs
import Mathlib.Tactic.Lemma
import Chronicle.Identifier.Basic

namespace Chronicle

lemma Saturating.toInt_sub {a b : Int64} (hlow : -2 ^ 63 ≤ a.toInt - b.toInt) (hhigh : a.toInt - b.toInt < 2 ^ 63) :
    (sub a b).toInt = a.toInt - b.toInt := by
  have hmin : Int64.minValue.toInt = -2 ^ 63 := by decide
  have hmax : Int64.maxValue.toInt = 2 ^ 63 - 1 := by decide
  rw [sub, toInt_int64, hmin, hmax]
  omega

namespace Identifier

def HoldsMillis (millis : Int64) : Prop := -2 ^ 45 ≤ millis.toInt ∧ millis.toInt < 2 ^ 45

instance (millis : Int64) : Decidable (HoldsMillis millis) := inferInstanceAs (Decidable (_ ∧ _))

-- the readings are gone through as a list, since words could be gone through one by one as well
def decidableHoldsMillis {α : Type} (readings : α → List Int64) (log : List α) :
    Decidable (∀ x ∈ log, ∀ r ∈ readings x, HoldsMillis r) :=
  @List.decidableBAll _ (fun x => ∀ r ∈ readings x, HoldsMillis r) (fun x => List.decidableBAll _ (readings x)) log

def slot (x : Identifier) : Int := x.raw.toInt / 256

lemma lt_iff_toInt {x y : Identifier} : x < y ↔ x.raw.toInt < y.raw.toInt := Int64.lt_iff_toInt_lt

lemma lt_of_slot_lt {x y : Identifier} (h : x.slot < y.slot) : x < y := by
  rw [lt_iff_toInt]
  simp only [slot] at h
  omega

lemma toInt_ofFields {millis : Int64} {sequence : UInt16} (node : Node) (hm : HoldsMillis millis)
    (hs : sequence.toNat ≤ lastSequence) :
    (ofFields millis sequence node).raw.toInt =
      (millis.toInt * 1024 + sequence.toNat) * 256 + node.toUInt8.toNat := by
  have hn := node.toUInt8.toNat_lt
  obtain ⟨hlow, hhigh⟩ := hm
  simp only [lastSequence] at hs
  simp only [ofFields, perMillisecond]
  rw [Int64.toInt_ofInt_of_le] <;> omega

lemma slot_ofFields {millis : Int64} {sequence : UInt16} (node : Node) (hm : HoldsMillis millis)
    (hs : sequence.toNat ≤ lastSequence) :
    (ofFields millis sequence node).slot = millis.toInt * 1024 + sequence.toNat := by
  have hn := node.toUInt8.toNat_lt
  rw [slot, toInt_ofFields node hm hs]
  omega

lemma node_ofFields (millis : Int64) (sequence : UInt16) (node : Node) : (ofFields millis sequence node).node = node := by
  have hn : node.toInt = (node.toUInt8.toNat : Int).bmod 256 := by
    rw [← Int8.toNat_toBitVec, ← Int8.toInt_toBitVec, BitVec.toInt_eq_toNat_bmod]
  -- what stands above the low byte may run out of the word, but never into that byte
  have hraw : millis.toInt * perMillisecond + (sequence.toNat % 1024 * 256 : Nat) + node.toUInt8.toNat =
      (millis.toInt * 1024 + sequence.toNat % 1024) * 256 + node.toUInt8.toNat := by
    rw [perMillisecond]
    omega
  apply Int8.toInt.inj
  rw [Identifier.node, ofFields, Int8.toInt_ofInt, Int64.toInt_ofInt, hraw, hn, Int.bmod_bmod_of_dvd (by decide)]
  exact Int.mul_add_bmod_self_right ..

lemma toInt_millis (x : Identifier) : x.millis.toInt = x.raw.toInt / perMillisecond := by
  have hlow := x.raw.le_toInt
  have hhigh := x.raw.toInt_lt
  rw [millis, perMillisecond, Int64.toInt_ofInt_of_le] <;> omega

lemma millis_ofFields {millis : Int64} {sequence : UInt16} (node : Node) (hm : HoldsMillis millis)
    (hs : sequence.toNat ≤ lastSequence) : (ofFields millis sequence node).millis = millis := by
  have hn := node.toUInt8.toNat_lt
  apply Int64.toInt_inj.1
  rw [toInt_millis, toInt_ofFields node hm hs, perMillisecond]
  simp only [lastSequence] at hs
  omega

lemma sequence_ofFields {millis : Int64} {sequence : UInt16} (node : Node) (hm : HoldsMillis millis)
    (hs : sequence.toNat ≤ lastSequence) : (ofFields millis sequence node).sequence = sequence := by
  have hn := node.toUInt8.toNat_lt
  have hlow : (ofFields millis sequence node).raw.toInt / 256 % 1024 = sequence.toNat := by
    rw [toInt_ofFields node hm hs]
    simp only [lastSequence] at hs
    omega
  rw [Identifier.sequence, hlow, Int.toNat_natCast, UInt16.ofNat_toNat]

lemma toInt_firstAt {millis : Int64} (h : HoldsMillis millis) :
    (firstAt millis).raw.toInt = millis.toInt * perMillisecond := by
  obtain ⟨hlow, hhigh⟩ := h
  rw [firstAt, perMillisecond, Int64.toInt_ofInt_of_le] <;> omega

lemma toInt_millis_firstAt {millis : Int64} (h : HoldsMillis millis) :
    (firstAt millis).millis.toInt = millis.toInt := by
  rw [toInt_millis, toInt_firstAt h]
  exact Int.mul_ediv_cancel _ (by decide)

lemma pred_firstAt_lt_iff {millis : Int64} (h : HoldsMillis millis) (hleast : -2 ^ 45 < millis.toInt)
    (x : Identifier) : (firstAt millis).pred < x ↔ millis.toInt ≤ x.millis.toInt := by
  have hhigh := h.2
  have hraw := toInt_firstAt h
  have hpred : (firstAt millis).pred.raw.toInt = (firstAt millis).raw.toInt - 1 := by
    have hone : (1 : Int64).toInt = 1 := by decide
    rw [perMillisecond] at hraw
    rw [pred, Saturating.toInt_sub, hone] <;> omega
  rw [lt_iff_toInt, toInt_millis, hpred, hraw, perMillisecond]
  omega

end Identifier

end Chronicle
