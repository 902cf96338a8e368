import Mathlib.Logic.Function.Basic
import Mathlib.Tactic.Lemma
import Chronicle.Proofs.Identifier.Fields

namespace Chronicle.Identifier

variable {millis : Int64} {sequence : UInt16} {x y : Identifier}

lemma le_iff_toInt : x ≤ y ↔ x.raw.toInt ≤ y.raw.toInt := Int64.le_iff_toInt_le

lemma eq_iff_toInt : x = y ↔ x.raw.toInt = y.raw.toInt := by
  rw [Int64.toInt_inj, Identifier.mk.injEq]

structure Fields where
  millis : Int64
  sequence : UInt16
  node : Node
  holdsMillis : HoldsMillis millis
  sequence_le : sequence.toNat ≤ lastSequence

def Fields.Before : Fields → Fields → Prop :=
  fun f g => Prod.Lex (· < ·) (Prod.Lex (· < ·) (· < ·)) (f.millis, f.sequence, f.node.toUInt8)
    (g.millis, g.sequence, g.node.toUInt8)

def Fields.pack (f : Fields) : Identifier := ofFields f.millis f.sequence f.node

lemma holdsMillis_millis (x : Identifier) : HoldsMillis x.millis := by
  have hlow := x.raw.le_toInt
  have hhigh := x.raw.toInt_lt
  rw [HoldsMillis, toInt_millis, perMillisecond]
  omega

lemma toNat_sequence (x : Identifier) : (x.sequence.toNat : Int) = x.raw.toInt / 256 % 1024 := by
  rw [Identifier.sequence, UInt16.toNat_ofNat', Nat.mod_eq_of_lt] <;> omega

lemma toNat_node (x : Identifier) : (x.node.toUInt8.toNat : Int) = x.raw.toInt % 256 := by
  rw [node, ← Int8.toNat_toBitVec, Int8.toBitVec_ofInt, BitVec.toNat_ofInt]
  omega

lemma toNat_sequence_le (x : Identifier) : x.sequence.toNat ≤ lastSequence := by
  have h := x.toNat_sequence
  rw [lastSequence]
  omega

def fields (x : Identifier) : Fields where
  millis := x.millis
  sequence := x.sequence
  node := x.node
  holdsMillis := x.holdsMillis_millis
  sequence_le := x.toNat_sequence_le

namespace Fields

lemma toInt_pack (f : Fields) :
    f.pack.raw.toInt = (f.millis.toInt * 1024 + f.sequence.toNat) * 256 + f.node.toUInt8.toNat :=
  toInt_ofFields f.node f.holdsMillis f.sequence_le

lemma fields_pack (f : Fields) : f.pack.fields = f := by
  rw [Fields.mk.injEq]
  exact ⟨millis_ofFields f.node f.holdsMillis f.sequence_le, sequence_ofFields f.node f.holdsMillis f.sequence_le,
    node_ofFields ..⟩

lemma pack_fields (x : Identifier) : x.fields.pack = x := by
  have hmillis := x.toInt_millis
  have hsequence := x.toNat_sequence
  have hnode := x.toNat_node
  rw [eq_iff_toInt, toInt_pack]
  simp only [fields, perMillisecond] at hmillis ⊢
  omega

lemma bijective_raw_pack : Function.Bijective fun f : Fields => f.pack.raw := by
  constructor
  · intro f g h
    rw [← f.fields_pack, ← g.fields_pack, show f.pack = g.pack from congrArg Identifier.mk h]
  · intro raw
    exact ⟨(Identifier.mk raw).fields, congrArg Identifier.raw (pack_fields _)⟩

lemma pack_lt_iff (f g : Fields) : f.pack < g.pack ↔ f.Before g := by
  have hf := f.sequence_le
  have hg := g.sequence_le
  have hnode := f.node.toUInt8.toNat_lt
  have hnode' := g.node.toUInt8.toNat_lt
  rw [lt_iff_toInt, toInt_pack, toInt_pack]
  simp only [Before, Prod.lex_def, Int64.lt_iff_toInt_lt, ← Int64.toInt_inj, UInt16.lt_iff_toNat_lt, ← UInt16.toNat_inj,
    UInt8.lt_iff_toNat_lt]
  simp only [lastSequence] at hf hg
  omega

end Fields

lemma toInt_lastAt (h : HoldsMillis millis) :
    (lastAt millis).raw.toInt = millis.toInt * perMillisecond + (perMillisecond - 1) := by
  obtain ⟨hlow, hhigh⟩ := h
  rw [lastAt, perMillisecond, Int64.toInt_ofInt_of_le] <;> omega

lemma millis_eq_iff (h : HoldsMillis millis) : x.millis = millis ↔ firstAt millis ≤ x ∧ x ≤ lastAt millis := by
  rw [← Int64.toInt_inj, toInt_millis, le_iff_toInt, le_iff_toInt, toInt_firstAt h, toInt_lastAt h, perMillisecond]
  omega

lemma HoldsMillis.toInt_add_one (h : HoldsMillis millis) : (millis + 1).toInt = millis.toInt + 1 := by
  obtain ⟨hlow, hhigh⟩ := h
  rw [Int64.toInt_add, Int64.toInt_one, Int.bmod_eq_of_le] <;> omega

lemma HoldsMillis.toInt_sub_one (h : HoldsMillis millis) : (millis - 1).toInt = millis.toInt - 1 := by
  obtain ⟨hlow, hhigh⟩ := h
  rw [Int64.toInt_sub, Int64.toInt_one, Int.bmod_eq_of_le] <;> omega

lemma toInt_firstAt_add_one (h : HoldsMillis millis) (hnext : HoldsMillis (millis + 1)) :
    (firstAt (millis + 1)).raw.toInt = (lastAt millis).raw.toInt + 1 := by
  rw [toInt_firstAt hnext, toInt_lastAt h, h.toInt_add_one, perMillisecond]
  omega

lemma pred_firstAt (h : HoldsMillis millis) (hleast : -2 ^ 45 < millis.toInt) :
    (firstAt millis).pred = lastAt (millis - 1) := by
  have hfirst := toInt_firstAt h
  have hsub := h.toInt_sub_one
  obtain ⟨hlow, hhigh⟩ := h
  have hbefore : HoldsMillis (millis - 1) := by
    rw [HoldsMillis, hsub]
    omega
  have hone := Int64.toInt_one
  rw [perMillisecond] at hfirst
  rw [eq_iff_toInt, toInt_lastAt hbefore, hsub, pred, Saturating.toInt_sub, hone, hfirst, perMillisecond] <;> omega

lemma toBitVec_ofFields (millis : Int64) (sequence : UInt16) (node : Node) :
    (ofFields millis sequence node).raw.toBitVec =
    millis.toBitVec.setWidth 46 ++ sequence.toBitVec.setWidth 10 ++ node.toBitVec := by
  have hbyte : node.toUInt8.toNat < 2 ^ 8 := node.toUInt8.toNat_lt
  have hnode : node.toBitVec.toNat < 2 ^ 8 := node.toBitVec.isLt
  have hsequence := (sequence.toBitVec.setWidth 10).isLt
  have hmillis : millis.toInt % 2 ^ 46 = ((millis.toBitVec.toNat % 2 ^ 46 : Nat) : Int) := by
    rw [← Int64.toInt_toBitVec, BitVec.toInt_eq_toNat_cond]
    split <;> omega
  apply BitVec.eq_of_toNat_eq
  rw [BitVec.toNat_append, BitVec.toNat_append, ← Nat.shiftLeft_add_eq_or_of_lt hnode,
    ← Nat.shiftLeft_add_eq_or_of_lt hsequence]
  simp only [ofFields, perMillisecond, Int64.toBitVec_ofInt, BitVec.toNat_ofInt, BitVec.toNat_setWidth, Nat.shiftLeft_eq,
    Int8.toNat_toBitVec, UInt16.toNat_toBitVec]
  omega

theorem words_packed_in_order :
    (∀ (millis : Int64) (sequence : UInt16) (node : Node), (ofFields millis sequence node).raw.toBitVec =
      millis.toBitVec.setWidth 46 ++ sequence.toBitVec.setWidth 10 ++ node.toBitVec) ∧
    (∀ f : Fields, f.pack.millis = f.millis ∧ f.pack.sequence = f.sequence ∧ f.pack.node = f.node) ∧
    Function.Bijective (fun f : Fields => f.pack.raw) ∧
    (∀ f g : Fields, f.pack < g.pack ↔ f.Before g) ∧
    (∀ (x : Identifier) (millis : Int64), HoldsMillis millis →
      (x.millis = millis ↔ firstAt millis ≤ x ∧ x ≤ lastAt millis)) ∧
    (∀ millis : Int64, HoldsMillis millis → HoldsMillis (millis + 1) →
      (firstAt (millis + 1)).raw.toInt = (lastAt millis).raw.toInt + 1) ∧
    ∀ millis : Int64, HoldsMillis millis → -2 ^ 45 < millis.toInt → (firstAt millis).pred = lastAt (millis - 1) := by
  refine ⟨toBitVec_ofFields, fun f => ?_, Fields.bijective_raw_pack, Fields.pack_lt_iff, fun x millis => millis_eq_iff,
    fun millis => toInt_firstAt_add_one, fun millis => pred_firstAt⟩
  exact ⟨congrArg Fields.millis f.fields_pack, congrArg Fields.sequence f.fields_pack, congrArg Fields.node f.fields_pack⟩

theorem words_packed_in_order_before_epoch :
    (∃ f g : Fields, f.millis = -1 ∧ f.sequence = 1023 ∧ f.node = 127 ∧ g.node = -127 ∧ g.pack.raw = -127 ∧
      f.pack < g.pack) ∧
      (⟨-127⟩ : Identifier).millis = -1 ∧ (firstAt 0).raw.toInt = (lastAt (-1)).raw.toInt + 1 ∧
      (firstAt 0).pred = lastAt (-1) := by
  obtain ⟨_, _, _, horder, hinterval, hnext, hpred⟩ := words_packed_in_order
  let f : Fields := ⟨-1, 1023, 127, by decide, by decide⟩
  let g : Fields := ⟨-1, 1023, -127, by decide, by decide⟩
  refine ⟨⟨f, g, rfl, rfl, rfl, rfl, by decide, (horder f g).2 ?_⟩, (hinterval _ (-1) (by decide)).2 (by decide), ?_, ?_⟩
  · exact .right _ (.right _ (by decide))
  · exact hnext (-1) (by decide) (by decide)
  · exact hpred 0 (by decide) (by decide)

end Chronicle.Identifier
