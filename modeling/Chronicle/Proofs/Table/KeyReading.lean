import Chronicle.Proofs.Lease.Keyed
import Chronicle.Proofs.Table.Expiry
import Chronicle.Proofs.Table.KeyOrder
import Chronicle.Proofs.Table.Ranges

namespace Chronicle.Key

structure ReadsExactly {α : Type} (write : α → Bytes) (read : Bytes → Except Error α) (refusal : Bytes → StorageFault) :
    Prop where
  read_write : ∀ a, read (write a) = .ok a
  write_of_read : ∀ bs a, read bs = .ok a → write a = bs
  refused : ∀ bs, (∀ a, write a ≠ bs) → read bs = .error (.storage (refusal bs))

lemma ReadsExactly.ofCases {α : Type} {write : α → Bytes} {read : Bytes → Except Error α}
    {refusal : Bytes → StorageFault} (hread : ∀ a, read (write a) = .ok a)
    (hcases : ∀ bs, (∃ a, write a = bs) ∨ read bs = .error (.storage (refusal bs))) :
    ReadsExactly write read refusal where
  read_write := hread
  write_of_read bs a hok := by
    rcases hcases bs with ⟨b, rfl⟩ | herror
    · rw [hread] at hok
      rw [Except.ok.inj hok]
    · rw [herror] at hok
      cases hok
  refused bs hnone := (hcases bs).resolve_left fun ⟨a, ha⟩ => hnone a ha

lemma exists_ordered {bs : Bytes} (h : bs.length = 8) : ∃ v, ordered v = bs := by
  have hlt := Bytes.ofBigEndian_lt bs
  have hmin := Int64.toInt_minValue
  rw [h] at hlt
  have hword : (Int64.ofInt ((Bytes.ofBigEndian bs : Int) + Int64.minValue.toInt)).toInt =
      Bytes.ofBigEndian bs + Int64.minValue.toInt := by
    rw [Int64.toInt_ofInt_of_le] <;> omega
  exact ⟨_, by rw [ordered, hword, Int.add_sub_cancel, Int.toNat_natCast, ← h, Bytes.bigEndian_ofBigEndian]⟩

lemma readsExactly_ordered : ReadsExactly ordered readOrdered fun _ => .shortInteger := by
  refine .ofCases readOrdered_ordered fun bs => ?_
  by_cases h : bs.length = 8
  · exact .inl (exists_ordered h)
  · exact .inr (if_neg h)

lemma readsExactly_lease : ReadsExactly lease readLease fun _ => .malformedLeaseKey := by
  refine .ofCases readLease_lease fun bs => ?_
  match bs with
  | [] => exact .inr rfl
  | [b] =>
    refine .inl ⟨(b ^^^ 0x80).toInt8, ?_⟩
    rw [lease, UInt8.toUInt8_toInt8, UInt8.xor_assoc, UInt8.xor_self, UInt8.xor_zero]
  | _ :: _ :: _ => exact .inr rfl

lemma exists_ordered_append {bs : Bytes} (h : 9 ≤ bs.length) : ∃ e tag key, ordered e ++ tag :: key = bs := by
  obtain ⟨e, he⟩ := exists_ordered (List.length_take_of_le (show 8 ≤ bs.length by omega))
  have hpos : 0 < (bs.drop 8).length := by
    rw [List.length_drop]
    omega
  obtain ⟨tag, key, hdrop⟩ := List.exists_cons_of_length_pos hpos
  exact ⟨e, tag, key, by rw [he, ← hdrop, List.take_append_drop]⟩

lemma readsExactly_expiry :
    ReadsExactly (fun a : Int64 × ExpiryTarget × Bytes => expiry a.1 a.2.1 a.2.2) splitExpiry
      fun bs => if bs.length < 9 then .malformedExpiryKey else .unknownExpiryTarget := by
  refine .ofCases (fun a => splitExpiry_expiry a.1 a.2.1 a.2.2) fun bs => ?_
  by_cases hlength : bs.length < 9
  · have hdrop : bs.drop 8 = [] := List.drop_eq_nil_of_le (by omega)
    exact .inr (by rw [splitExpiry, hdrop, if_pos hlength])
  · obtain ⟨e, tag, key, rfl⟩ := exists_ordered_append (Nat.not_lt.1 hlength)
    by_cases hversion : tag = ExpiryTarget.version.tag
    · exact .inl ⟨(e, .version, key), by rw [hversion]; rfl⟩
    · by_cases hindex : tag = ExpiryTarget.index.tag
      · exact .inl ⟨(e, .index, key), by rw [hindex]; rfl⟩
      · exact .inr (by rw [splitExpiry_append, if_neg hversion, if_neg hindex, if_neg hlength])

lemma compare_expiry (e e' : Int64) (target target' : ExpiryTarget) (key key' : Bytes) :
    compare (expiry e target key) (expiry e' target' key') =
      (compare e.toInt e'.toInt).then (compare (target.tag :: key) (target'.tag :: key')) := by
  rw [expiry, expiry, Bytes.compare_append_of_length_eq (by simp), compare_ordered, compare_toInt]

theorem keys_read_exactly :
    ReadsExactly ordered readOrdered (fun _ => .shortInteger) ∧
    ReadsExactly lease readLease (fun _ => .malformedLeaseKey) ∧
    ReadsExactly (fun a : Int64 × ExpiryTarget × Bytes => expiry a.1 a.2.1 a.2.2) splitExpiry
      (fun bs => if bs.length < 9 then .malformedExpiryKey else .unknownExpiryTarget) ∧
    (∀ (table : String) (id update : Identifier),
      readVersionId (version table id update) (tablePrefix table).length = .ok id) ∧
    (∀ (e e' : Int64) (target target' : ExpiryTarget) (key key' : Bytes),
      compare (expiry e target key) (expiry e' target' key') =
        (compare e.toInt e'.toInt).then (compare (target.tag :: key) (target'.tag :: key'))) ∧
    ∀ now : Int64, now < Int64.maxValue → ∀ (e : Int64) (target : ExpiryTarget) (key : Bytes),
      compare (expiry e target key) (expiryBound now) = .lt ↔ e ≤ now := by
  refine ⟨readsExactly_ordered, readsExactly_lease, readsExactly_expiry, KeyedTables.readVersionId_version,
    compare_expiry, fun now hnow e target key => ?_⟩
  rw [compare_expiry_expiryBound, due_iff hnow]

theorem keys_read_exactly_ends :
    readOrdered [0x80, 0, 0, 0, 0, 0, 0, 0, 0] = .error (.storage .shortInteger) ∧
    splitExpiry (ordered 0 ++ [0x77]) = .error (.storage .unknownExpiryTarget) ∧
    compare (expiry (Int64.maxValue - 1) .version []) (expiryBound (Int64.maxValue - 1)) = .lt ∧
    compare (expiry Int64.maxValue .index [0]) (expiryBound (Int64.maxValue - 1)) ≠ .lt := by
  obtain ⟨hordered, _, hexpiry, _, _, hbound⟩ := keys_read_exactly
  refine ⟨hordered.refused _ fun v hv => ?_, hexpiry.refused _ ?_, (hbound _ (by decide) _ _ _).2 (by decide),
    fun hlt => absurd ((hbound _ (by decide) _ _ _).1 hlt) (by decide)⟩
  · simpa using congrArg List.length hv
  · rintro ⟨e, target, key⟩ hkey
    obtain ⟨_, hrest⟩ := List.append_inj hkey (by simp)
    cases target <;> simp [ExpiryTarget.tag] at hrest

end Chronicle.Key
