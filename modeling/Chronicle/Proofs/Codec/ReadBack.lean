import Mathlib.Algebra.Group.Nat.Defs
import Chronicle.Entity.Account
import Chronicle.Entity.Event
import Chronicle.Proofs.Codec.ByteOrder
import Chronicle.Proofs.Identifier.Text
import Chronicle.Table.Memory
import Chronicle.Table.Keyed

namespace Chronicle

namespace Bytes

def Fits (bs : Bytes) : Prop := bs.length < UInt64.size

instance (bs : Bytes) : Decidable bs.Fits := inferInstanceAs (Decidable (_ < _))

lemma toText?_ofText (s : String) : toText? (ofText s) = some s := by
  have hbytes : (⟨(ofText s).toArray⟩ : ByteArray) = s.toByteArray := rfl
  rw [toText?, hbytes, String.fromUTF8?, dif_pos s.isValidUTF8]
  rfl

lemma ofText_eq (s : String) : ofText s = s.toList.flatMap String.utf8EncodeChar := by
  rw [ofText, String.toUTF8_eq_toByteArray, ← String.utf8Encode_toList]
  simp [List.utf8Encode]

lemma length_ofText_le (s : String) : (ofText s).length ≤ 4 * s.toList.length := by
  rw [ofText_eq]
  induction s.toList with
  | nil => simp
  | cons c cs ih =>
    have hc := c.utf8Size_le_four
    simp only [List.flatMap_cons, List.length_append, List.length_cons, String.length_utf8EncodeChar]
    omega

@[simp]
lemma length_littleEndian (width n : Nat) : (littleEndian width n).length = width := by
  induction width generalizing n with
  | zero => rfl
  | succ width ih => simp [littleEndian, ih]

lemma ofLittleEndian_littleEndian {width n : Nat} (h : n < 256 ^ width) :
    ofLittleEndian (littleEndian width n) = n := by
  induction width generalizing n with
  | zero =>
    simp only [Nat.pow_zero] at h
    simp only [littleEndian, ofLittleEndian]
    omega
  | succ width ih =>
    simp only [littleEndian, ofLittleEndian, ih (div_lt_pow h), UInt8.toNat_ofNat']
    omega

lemma split?_append (bs rest : Bytes) : split? bs.length (bs ++ rest) = some (bs, rest) := by
  simp [split?]

end Bytes

namespace Identifier

lemma length_digits_le {n k : Nat} (h : n < 36 ^ (k + 1)) : (digits n).length ≤ k + 1 := by
  induction k generalizing n with
  | zero => simp [digits_of_lt (by simpa using h)]
  | succ k ih =>
    by_cases hn : n < 36
    · simp [digits_of_lt hn]
    · rw [digits_of_le (by omega), List.length_append, List.length_singleton]
      exact Nat.succ_le_succ (ih (Bytes.div_lt_pow h))

lemma fits_render (x : Identifier) : (Bytes.ofText x.render).Fits := by
  have hlow := x.raw.le_toInt
  have hhigh := x.raw.toInt_lt
  have hdigits : (digits x.raw.toInt.natAbs).length ≤ 13 := length_digits_le (k := 12) (by omega)
  have hlen : x.render.toList.length ≤ 26 := by
    rw [toList_render]
    split <;> simp only [body, leastWidth, List.length_cons, List.length_append, List.length_replicate] <;>
      split <;> omega
  have hbytes := Bytes.length_ofText_le x.render
  simp only [Bytes.Fits, UInt64.size]
  omega

end Identifier

namespace Codec

variable {α β : Type}

def ReadsBack (c : Codec α) (p : α → Prop) : Prop :=
  ∀ a, p a → ∀ rest, c.decode (c.encode a ++ rest) = some (a, rest)

namespace ReadsBack

lemma read? {c : Codec α} {p : α → Prop} (h : c.ReadsBack p) {a : α} (ha : p a) : c.read? (c.encode a) = some a := by
  have := h a ha []
  rw [List.append_nil] at this
  simp [Codec.read?, this]

lemma mono {c : Codec α} {p q : α → Prop} (h : c.ReadsBack p) (hpq : ∀ a, q a → p a) : c.ReadsBack q :=
  fun a ha rest => h a (hpq a ha) rest

lemma refine {c : Codec α} {p : α → Prop} (h : c.ReadsBack p) {toBase : β → α} {ofBase? : α → Option β}
    (hback : ∀ b, ofBase? (toBase b) = some b) :
    (c.refine toBase ofBase?).ReadsBack fun b => p (toBase b) := by
  intro b hb rest
  simp [Codec.refine, h _ hb rest, hback]

lemma pair {c : Codec α} {d : Codec β} {p : α → Prop} {q : β → Prop} (hc : c.ReadsBack p) (hd : d.ReadsBack q) :
    (c.pair d).ReadsBack fun x => p x.1 ∧ q x.2 := by
  intro x hx rest
  simp [Codec.pair, hc _ hx.1, hd _ hx.2]

lemma option {c : Codec α} {p : α → Prop} (h : c.ReadsBack p) :
    (Codec.option c).ReadsBack fun o => ∀ a ∈ o, p a := by
  intro o ho rest
  cases o with
  | none => rfl
  | some a => simp [Codec.option, h a (ho a rfl) rest]

lemma decodeMany {c : Codec α} {p : α → Prop} (h : c.ReadsBack p) {as : List α} (has : ∀ a ∈ as, p a)
    (rest : Bytes) : Codec.decodeMany c as.length (as.flatMap c.encode ++ rest) = some (as, rest) := by
  induction as with
  | nil => rfl
  | cons a as ih =>
    have ha := h a (has a List.mem_cons_self) (as.flatMap c.encode ++ rest)
    have hrest := ih fun b hb => has b (List.mem_cons_of_mem _ hb)
    simp [Codec.decodeMany, List.flatMap_cons, ha, hrest]

end ReadsBack

lemma readLittle_append (width : Nat) {n : Nat} (h : n < 256 ^ width) (rest : Bytes) :
    readLittle width (Bytes.littleEndian width n ++ rest) = some (n, rest) := by
  have hs := Bytes.split?_append (Bytes.littleEndian width n) rest
  rw [Bytes.length_littleEndian] at hs
  simp [readLittle, hs, Bytes.ofLittleEndian_littleEndian h]

lemma decodeVarint_encodeVarint {n : Nat} (h : n < UInt64.size) (rest : Bytes) :
    decodeVarint 8 (encodeVarint n ++ rest) = some (n, rest) := by
  have hbyte : (UInt8.ofNat n).toNat = n % 256 := UInt8.toNat_ofNat'
  unfold encodeVarint
  by_cases hn : n < varintBound
  · have hb : (UInt8.ofNat n).toNat = n := by
      rw [hbyte, Nat.mod_eq_of_lt (Nat.lt_trans hn (by decide))]
    rw [if_pos hn, List.cons_append, decodeVarint, if_pos (by rwa [hb]), hb, List.nil_append]
  · rw [if_neg hn]
    by_cases h16 : n < UInt16.size
    · rw [if_pos h16]
      exact readLittle_append 2 h16 rest
    · rw [if_neg h16]
      by_cases h32 : n < UInt32.size
      · rw [if_pos h32]
        exact readLittle_append 4 h32 rest
      · rw [if_neg h32]
        exact readLittle_append 8 h rest

lemma unzigzag_zigzag (v : Int) : unzigzag (zigzag v) = v := by
  unfold zigzag unzigzag
  split <;> split <;> omega

lemma zigzag_lt (v : Int64) : zigzag v.toInt < UInt64.size := by
  have hlow := v.le_toInt
  have hhigh := v.toInt_lt
  simp only [zigzag, UInt64.size]
  split <;> omega

lemma readsBack_byte : byte.ReadsBack fun _ => True := fun _ _ _ => rfl

lemma readsBack_int64 : int64.ReadsBack fun _ => True := by
  intro v _ rest
  simp [int64, decodeVarint_encodeVarint (zigzag_lt v), unzigzag_zigzag]

lemma readsBack_list {c : Codec α} {p : α → Prop} (h : c.ReadsBack p) :
    (list c).ReadsBack fun as => as.length < UInt64.size ∧ ∀ a ∈ as, p a := by
  intro as has rest
  simp [list, decodeVarint_encodeVarint has.1, h.decodeMany has.2]

lemma readsBack_text : text.ReadsBack fun s => (Bytes.ofText s).Fits := by
  intro s hs rest
  simp only [text, List.append_assoc, decodeVarint_encodeVarint hs]
  simp [Bytes.split?_append, Bytes.toText?_ofText]

lemma readsBack_identifier : identifier.ReadsBack fun _ => True :=
  ReadsBack.mono (readsBack_text.refine fun x => by rw [Identifier.parse_render]; rfl)
    fun x _ => Identifier.fits_render x

lemma readsBack_storedVersion : storedVersion.ReadsBack fun v => v.payload.Fits :=
  ReadsBack.mono (ReadsBack.refine (readsBack_identifier.pair (readsBack_identifier.pair
    ((readsBack_list readsBack_byte).pair readsBack_int64.option))) fun _ => rfl) fun _ hv =>
      ⟨trivial, trivial, ⟨hv, fun _ _ => trivial⟩, fun _ _ => trivial⟩

lemma readsBack_indexCell : indexCell.ReadsBack fun _ => True :=
  ReadsBack.mono (ReadsBack.refine (readsBack_identifier.pair readsBack_int64.option) fun _ => rfl) fun _ _ =>
    ⟨trivial, fun _ _ => trivial⟩

end Codec

namespace Account

def Fits (a : Account) : Prop := (Bytes.ofText a.email).Fits ∧ (Bytes.ofText a.state).Fits

instance (a : Account) : Decidable a.Fits := inferInstanceAs (Decidable (_ ∧ _))

lemma readsBack_codec : codec.ReadsBack Fits :=
  Codec.ReadsBack.mono (Codec.ReadsBack.refine (Codec.readsBack_identifier.option.pair
    (Codec.readsBack_identifier.option.pair (Codec.readsBack_text.pair Codec.readsBack_text))) fun _ => rfl)
    fun _ ha => ⟨fun _ _ => trivial, fun _ _ => trivial, ha⟩

end Account

namespace Event

def Fits (e : Event) : Prop := (Bytes.ofText e.kind).Fits

instance (e : Event) : Decidable e.Fits := inferInstanceAs (Decidable (Bytes.Fits _))

lemma readsBack_codec : codec.ReadsBack Fits :=
  Codec.ReadsBack.mono (Codec.ReadsBack.refine (Codec.readsBack_identifier.option.pair
    (Codec.readsBack_identifier.option.pair Codec.readsBack_text)) fun _ => rfl)
    fun _ he => ⟨fun _ _ => trivial, fun _ _ => trivial, he⟩

end Event

end Chronicle
