import Chronicle.Proofs.Lease.Keyed
import Chronicle.Proofs.Codec.ReadBack
import Chronicle.Store.Read

/-! Stored records tell where they end. -/

namespace Chronicle

variable {α β : Type}

namespace Bytes

def Stable (read : Bytes → Option (α × Bytes)) : Prop :=
  ∀ bs a rest, read bs = some (a, rest) → ∀ more, read (bs ++ more) = some (a, rest ++ more)

namespace Stable

lemma bind {read : Bytes → Option (α × Bytes)} {next : α → Bytes → Option (β × Bytes)} (h : Stable read)
    (hnext : ∀ a, Stable (next a)) : Stable fun bs => (read bs).bind fun p => next p.1 p.2 := by
  intro bs b rest hread more
  obtain ⟨⟨a, middle⟩, ha, hb⟩ := Option.bind_eq_some_iff.1 hread
  simp only [h bs a middle ha more, Option.bind_some, hnext a middle b rest hb more]

lemma without (found : Option α) : Stable fun bs => found.bind fun a => some (a, bs) := by
  intro bs a rest hread more
  cases found <;> simp_all

lemma map {read : Bytes → Option (α × Bytes)} (h : Stable read) (f : α → β) :
    Stable fun bs => (read bs).map fun p => (f p.1, p.2) := by
  intro bs b rest hread more
  obtain ⟨⟨a, rest⟩, ha, hpair⟩ := Option.map_eq_some_iff.1 hread
  obtain ⟨rfl, rfl⟩ := Prod.mk.inj hpair
  simp [h bs a rest ha more]

lemma ite {read read' : Bytes → Option (α × Bytes)} {p : Prop} [Decidable p] (h : Stable read) (h' : Stable read') :
    Stable fun bs => if p then read bs else read' bs := by
  by_cases hp : p
  · simpa only [if_pos hp] using h
  · simpa only [if_neg hp] using h'

lemma first {next : UInt8 → Bytes → Option (α × Bytes)} (hnext : ∀ b, Stable (next b)) :
    Stable fun bs => match bs with
      | [] => none
      | b :: bs => next b bs := by
  intro bs a rest hread more
  cases bs with
  | nil => cases hread
  | cons b bs => exact hnext b bs a rest hread more

end Stable

lemma stable_split? (n : Nat) : Stable (split? n) := by
  intro bs front rest hsplit more
  rw [split?] at hsplit
  split at hsplit
  · next hn =>
    obtain ⟨rfl, rfl⟩ := Prod.mk.inj (Option.some.inj hsplit)
    rw [split?, if_pos (by rw [List.length_append]; omega), List.take_append_of_le_length hn,
      List.drop_append_of_le_length hn]
  · cases hsplit

end Bytes

namespace Codec

open Bytes (Stable)

lemma stable_byte : Stable byte.decode := .first fun b => .without (some b)

lemma stable_refine {c : Codec α} (h : Stable c.decode) {toBase : β → α} {ofBase? : α → Option β} :
    Stable (c.refine toBase ofBase?).decode :=
  h.bind fun a => .without (ofBase? a)

lemma stable_pair {c : Codec α} {d : Codec β} (hc : Stable c.decode) (hd : Stable d.decode) :
    Stable (c.pair d).decode :=
  hc.bind fun a => hd.bind fun b => .without (some (a, b))

lemma stable_option {c : Codec α} (h : Stable c.decode) : Stable (option c).decode := by
  intro bs o rest hread more
  simp only [option] at hread
  split at hread
  · obtain ⟨rfl, rfl⟩ := Prod.mk.inj (Option.some.inj hread)
    rfl
  · next bs => exact h.map some bs o rest hread more
  · cases hread

lemma stable_decodeMany {c : Codec α} (h : Stable c.decode) (n : Nat) : Stable (decodeMany c n) := by
  induction n with
  | zero => exact .without (some [])
  | succ n ih => exact h.bind fun a => ih.bind fun as => .without (some (a :: as))

lemma stable_readLittle (width : Nat) : Stable (readLittle width) := (Bytes.stable_split? width).map _

lemma stable_decodeVarint (widest : Nat) : Stable (decodeVarint widest) :=
  .first fun b => .ite (.without (some b.toNat)) (.ite (stable_readLittle 2) (.ite (stable_readLittle 4)
    (.ite (stable_readLittle 8) (.without none))))

lemma stable_int64 : Stable int64.decode := (stable_decodeVarint 8).map fun n => Int64.ofInt (unzigzag n)

lemma stable_list {c : Codec α} (h : Stable c.decode) : Stable (list c).decode :=
  (stable_decodeVarint 8).bind fun n => stable_decodeMany h n

lemma stable_text : Stable text.decode :=
  (stable_decodeVarint 8).bind fun n => (Bytes.stable_split? n).bind fun body => .without (Bytes.toText? body)

lemma stable_identifier : Stable identifier.decode := stable_refine stable_text

lemma stable_storedVersion : Stable storedVersion.decode :=
  stable_refine (stable_pair stable_identifier (stable_pair stable_identifier
    (stable_pair (stable_list stable_byte) (stable_option stable_int64))))

lemma stable_indexCell : Stable indexCell.decode :=
  stable_refine (stable_pair stable_identifier (stable_option stable_int64))

lemma stable_lease : Stable lease.decode :=
  stable_refine (stable_pair (stable_refine stable_byte) (stable_pair stable_text stable_int64))

end Codec

lemma Account.stable_codec : Bytes.Stable codec.decode :=
  Codec.stable_refine (Codec.stable_pair (Codec.stable_option Codec.stable_identifier)
    (Codec.stable_pair (Codec.stable_option Codec.stable_identifier)
      (Codec.stable_pair Codec.stable_text Codec.stable_text)))

lemma Event.stable_codec : Bytes.Stable codec.decode :=
  Codec.stable_refine (Codec.stable_pair (Codec.stable_option Codec.stable_identifier)
    (Codec.stable_pair (Codec.stable_option Codec.stable_identifier) Codec.stable_text))

/-- Records that tell where they end. The values that fit are those that memory can hold: the length of each of their
texts and payloads can be told in a word of 64 bits. -/
structure SelfDelimiting (encode : α → Bytes) (read : Bytes → Except Error α) (Fits : α → Prop) : Prop where
  read_append : ∀ a, Fits a → ∀ more, read (encode a ++ more) = .ok a
  eq_of_prefix : ∀ a b, Fits a → Fits b → encode a <+: encode b → a = b
  read_cut : ∀ a, Fits a → ∀ bs, bs <+: encode a → bs ≠ encode a → read bs = .error (.storage .undecodable)

namespace Codec.ReadsBack

variable {c : Codec α} {p : α → Prop} {a b : α} {bs : Bytes}

lemma eq_of_prefix (h : c.ReadsBack p) (ha : p a) (hb : p b) (hbegin : c.encode a <+: c.encode b) : a = b := by
  obtain ⟨more, hmore⟩ := hbegin
  have hread := h b hb []
  rw [List.append_nil, ← hmore, h a ha] at hread
  exact (Prod.mk.inj (Option.some.inj hread)).1

lemma decode_cut (h : c.ReadsBack p) (hstable : Bytes.Stable c.decode) (ha : p a) (hbegin : bs <+: c.encode a)
    (hcut : bs ≠ c.encode a) : c.decode bs = none := by
  obtain ⟨more, hmore⟩ := hbegin
  cases hread : c.decode bs with
  | none => rfl
  | some q =>
    obtain ⟨b, rest⟩ := q
    have hwhole := hstable bs b rest hread more
    have hback := h a ha []
    rw [List.append_nil, ← hmore, hwhole] at hback
    have hnil : rest ++ more = [] := (Prod.mk.inj (Option.some.inj hback)).2
    rw [(List.append_eq_nil_iff.1 hnil).2, List.append_nil] at hmore
    exact absurd hmore hcut

lemma selfDelimiting (h : c.ReadsBack p) (hstable : Bytes.Stable c.decode) :
    SelfDelimiting c.encode (readStored c) p where
  read_append a ha more := by rw [readStored, Codec.read?, h a ha more]; rfl
  eq_of_prefix a b := h.eq_of_prefix
  read_cut a ha bs hbegin hcut := by rw [readStored, Codec.read?, h.decode_cut hstable ha hbegin hcut]; rfl

end Codec.ReadsBack

theorem stored_records_self_delimiting :
    (∀ v : StoredVersion, SelfDelimiting Account.codec.encode
      (fun bs => Account.collection.decode { v with payload := bs }) Account.Fits) ∧
    (∀ v : StoredVersion, SelfDelimiting Event.codec.encode
      (fun bs => Event.collection.decode { v with payload := bs }) Event.Fits) ∧
    SelfDelimiting Codec.storedVersion.encode KeyedTables.readVersion (fun v => v.payload.Fits) ∧
    SelfDelimiting Codec.lease.encode KeyedLeases.readLease (fun l => (Bytes.ofText l.identity).Fits) ∧
    SelfDelimiting Codec.indexCell.encode (Codec.readStored Codec.indexCell) fun _ => True :=
  ⟨fun _ => Account.readsBack_codec.selfDelimiting Account.stable_codec,
    fun _ => Event.readsBack_codec.selfDelimiting Event.stable_codec,
    Codec.readsBack_storedVersion.selfDelimiting Codec.stable_storedVersion,
    Codec.readsBack_lease.selfDelimiting Codec.stable_lease,
    Codec.readsBack_indexCell.selfDelimiting Codec.stable_indexCell⟩

theorem stored_records_self_delimiting_markers :
    Account.collection.decode ⟨.least, .greatest,
        Account.codec.encode ⟨some .least, none, .ofList (.replicate 251 'x'), "é"⟩ ++ [253, 0], none⟩ =
      .ok ⟨some .least, none, .ofList (.replicate 251 'x'), "é"⟩ ∧
    Event.collection.decode ⟨.least, .least, (Event.codec.encode ⟨none, some .greatest, "é"⟩).dropLast, some 0⟩ =
      .error (.storage .undecodable) ∧
    KeyedTables.readVersion (Codec.storedVersion.encode ⟨.least, .greatest, [251, 0, 1], some .minValue⟩ ++ [1]) =
      .ok ⟨.least, .greatest, [251, 0, 1], some .minValue⟩ ∧
    KeyedLeases.readLease (Codec.lease.encode ⟨-128, "", .minValue⟩).dropLast = .error (.storage .undecodable) ∧
    ¬ Codec.indexCell.encode ⟨.least, none⟩ <+: Codec.indexCell.encode ⟨.least, some 0⟩ := by
  obtain ⟨accounts, events, versions, leases, cells⟩ := stored_records_self_delimiting
  refine ⟨(accounts ⟨.least, .greatest, [], none⟩).read_append _ ⟨by decide +kernel, by decide +kernel⟩ _,
    (events ⟨.least, .least, [], some 0⟩).read_cut ⟨none, some .greatest, "é"⟩
      (show (Bytes.ofText "é").Fits by decide +kernel) _ (List.dropLast_prefix _) (by decide +kernel),
    versions.read_append _ (by decide) _,
    leases.read_cut ⟨-128, "", .minValue⟩ (by decide) _ (List.dropLast_prefix _) (by decide +kernel), fun hbegin => ?_⟩
  exact absurd (cells.eq_of_prefix _ _ trivial trivial hbegin) (by decide)

end Chronicle
