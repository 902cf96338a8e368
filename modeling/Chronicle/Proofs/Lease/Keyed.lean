import Chronicle.Lease.Keyed
import Chronicle.Proofs.Lease.Book
import Chronicle.Proofs.Table.Mirror

namespace Chronicle

lemma Codec.readsBack_lease : Codec.lease.ReadsBack fun l => (Bytes.ofText l.identity).Fits := by
  have hint8 : int8.ReadsBack fun _ => True :=
    readsBack_byte.refine fun v => by rw [Int8.toInt8_toUInt8]
  exact ReadsBack.mono (ReadsBack.refine (hint8.pair (readsBack_text.pair readsBack_int64)) fun _ => rfl)
    fun _ hl => ⟨trivial, hl, trivial⟩

namespace Key

lemma readLease_lease (n : Node) : readLease (lease n) = .ok n := by
  rw [lease, readLease, UInt8.xor_assoc, UInt8.xor_self, UInt8.xor_zero, Int8.toInt8_toUInt8]

lemma lease_injective {m n : Node} (h : lease m = lease n) : m = n := by
  have hread := readLease_lease m
  rw [h, readLease_lease] at hread
  exact (Except.ok.inj hread).symm

lemma toNat_lease (n : Node) : ((n.toUInt8 ^^^ 0x80).toNat : Int) = n.toInt + 128 := by
  -- the sign bit is what a shift by half the range turns over
  have hxor : ∀ x : Fin 256, x.val ^^^ 128 = if x.val < 128 then x.val + 128 else x.val - 128 := by decide +kernel
  have hn : n.toInt = (n.toUInt8.toNat : Int).bmod 256 := by
    rw [← Int8.toNat_toBitVec, ← Int8.toInt_toBitVec, BitVec.toInt_eq_toNat_bmod]
  have hlt := n.toUInt8.toNat_lt
  have hvalue := hxor ⟨n.toUInt8.toNat, hlt⟩
  simp only at hvalue
  rw [UInt8.toNat_xor]
  change ((n.toUInt8.toNat ^^^ 128 : Nat) : Int) = _
  rw [hvalue, hn, Int.bmod_def]
  split <;> split <;> omega

lemma compare_lease_of_lt {m n : Node} (h : compare m n = .lt) : compare (lease m) (lease n) = .lt := by
  have hlt : m.toInt < n.toInt := Int8.lt_iff_toInt_lt.1 (Std.compare_eq_lt.1 h)
  have hm := toNat_lease m
  have hn := toNat_lease n
  rw [lease, lease, List.compare_cons_cons, List.compare_nil_nil, Ordering.then_eq, Bytes.compare_toNat,
    Nat.compare_eq_lt]
  omega

lemma lease_prefix_leaseTrail_iff {m n : Node} {number : UInt64} :
    (lease m).isPrefixOf (leaseTrail n number) = true ↔ m = n := by
  rw [List.isPrefixOf_iff_prefix, leaseTrail]
  constructor
  · rintro ⟨rest, hrest⟩
    exact lease_injective (List.append_inj hrest rfl).1
  · rintro rfl
    exact List.prefix_append ..

lemma compare_leaseTrail_of_lt {n : Node} {number number' : UInt64} (h : number.toNat < number'.toNat) :
    compare (leaseTrail n number) (leaseTrail n number') = .lt := by
  rw [leaseTrail, leaseTrail, Bytes.compare_append_left, Bytes.compare_bigEndian number.toNat_lt number'.toNat_lt,
    Nat.compare_eq_lt]
  exact h

end Key

namespace Layout

def leases : Layout Node Lease where
  key := Key.lease
  form := Codec.lease.encode
  Valid _ := True
  injective _ _ := Key.lease_injective

def leaseHolders : Layout String Node where
  key := Bytes.ofText
  form := Key.lease
  Valid _ := True
  injective _ _ := Bytes.ofText_injective

end Layout

namespace KeyedLeases

open Lease

variable {b : KeyedLeases} {active : OrderedMap Node Lease} {l : Lease} {n : Node} {e : Bytes × Bytes}

structure TrailRow (n : Node) (bound : Nat) (e : Bytes × Bytes) : Prop where
  key_eq : ∃ number : UInt64, e.1 = Key.leaseTrail n number ∧ number.toNat < bound
  readable : ∃ l, readLease e.2 = .ok l

def Numbered (b : KeyedLeases) : Prop := ∀ n, ∀ e ∈ b.storedTrail n, TrailRow n (b.storedTrail n).length e

lemma readLease_encode (h : (Bytes.ofText l.identity).Fits) : readLease (Codec.lease.encode l) = .ok l := by
  rw [readLease, Codec.readStored, Codec.readsBack_lease.read? h]

lemma release_eq (b : KeyedLeases) (n : Node) : LeaseBook.release b n =
    (b.ofNode? n).map fun found => (found, found.elim b fun l => b.strike l n) := by
  change b.ofNode? n >>= _ = _
  cases b.ofNode? n with
  | error err => rfl
  | ok found => cases found <;> rfl

structure Holds (b : KeyedLeases) (active : OrderedMap Node Lease) (holders : OrderedMap String Node) : Prop where
  fits : ∀ n l, active.get? n = some l → (Bytes.ofText l.identity).Fits
  active_eq : Layout.leases.Represents active b.active
  holders_eq : Layout.leaseHolders.Represents holders b.holders

namespace Holds

variable {holders : OrderedMap String Node}

lemma empty : Holds .empty ∅ ∅ where
  fits _ _ hget := by cases hget
  active_eq := Layout.Represents.empty
  holders_eq := Layout.Represents.empty

lemma ofNode?_eq (h : b.Holds active holders) (n : Node) : b.ofNode? n = .ok (active.get? n) := by
  change (b.active.get? (Layout.leases.key n)).mapM readLease = _
  rw [h.active_eq.get?_key trivial]
  cases hget : active.get? n with
  | none => rfl
  | some l => exact mapM_some (readLease_encode (h.fits n l hget))

lemma listing_eq (h : b.Holds active holders) : LeaseBook.listing b = .ok active.values := by
  have hscan := h.active_eq.scan (p := fun _ => true) (q := fun _ => true) (fun _ _ => rfl)
    fun m n _ _ hlt => Key.compare_lease_of_lt hlt
  simp only [OrderedMap.scan, List.filter_eq_self.2 fun _ _ => rfl] at hscan
  change (b.active.entries.map (·.2)).mapM readLease = .ok (active.entries.map (·.2))
  rw [hscan, List.map_map, List.mapM_map]
  refine mapM_ok fun e he => ?_
  exact readLease_encode (h.fits e.1 e.2 (OrderedMap.get?_eq_some_iff.2 he))

lemma ofIdentity?_eq (h : b.Holds active holders) (identity : String) :
    LeaseBook.ofIdentity? b identity =
      .ok (((holders.get? identity).bind active.get?).filter fun l => l.identity == identity) := by
  have hkey : b.holders.get? (Bytes.ofText identity) = _ := h.holders_eq.get?_key (k := identity) trivial
  simp only [LeaseBook.ofIdentity?, hkey]
  cases holders.get? identity with
  | none => rfl
  | some n =>
    change (do
      let node ← Key.readLease (Key.lease n)
      let found ← b.ofNode? node
      return found.filter fun l : Lease => l.identity == identity) = _
    rw [Key.readLease_lease]
    change (do
      let found ← b.ofNode? n
      return found.filter fun l : Lease => l.identity == identity) = _
    rw [h.ofNode?_eq]
    rfl

lemma enter (h : b.Holds active holders) (hfits : (Bytes.ofText l.identity).Fits) :
    (b.enter l).Holds (active.insert l.node l) (holders.insert l.identity l.node) where
  fits n l' hget := by
    rw [OrderedMap.get?_insert] at hget
    split at hget
    · exact Option.some.inj hget ▸ hfits
    · exact h.fits n l' hget
  active_eq := h.active_eq.insert trivial l
  holders_eq := h.holders_eq.insert trivial l.node

lemma strike (h : b.Holds active holders) (l : Lease) (n : Node) :
    (b.strike l n).Holds (active.erase n) (holders.erase l.identity) where
  fits m l' hget := by
    rw [OrderedMap.get?_erase] at hget
    split at hget
    · cases hget
    · exact h.fits m l' hget
  active_eq := h.active_eq.erase trivial
  holders_eq := h.holders_eq.erase trivial

lemma claim_eq (h : b.Holds active holders) (l : Lease) :
    LeaseBook.claim b l = .ok (if active.contains l.node then (false, b) else (true, b.enter l)) := by
  change Except.ok (if b.active.contains (Layout.leases.key l.node) then _ else _) = _
  rw [OrderedMap.contains, h.active_eq.get?_key trivial, Option.isSome_map]
  rfl

lemma release_eq (h : b.Holds active holders) (n : Node) :
    LeaseBook.release b n = .ok (match active.get? n with
      | none => (none, b)
      | some l => (some l, b.strike l n)) := by
  rw [KeyedLeases.release_eq, h.ofNode?_eq]
  cases active.get? n <;> rfl

end Holds

structure Keeps (b : KeyedLeases) (active : OrderedMap Node Lease) : Prop where
  proper : Proper active
  active_eq : Layout.leases.Represents active b.active
  holders_eq : ∃ holders, Tells holders active ∧ Layout.leaseHolders.Represents holders b.holders
  trails : ∀ n, ∀ e ∈ b.storedTrail n, TrailRow n (b.storedTrail n).length e

lemma Keeps.exists_holds (h : Keeps b active) : ∃ holders, Tells holders active ∧ b.Holds active holders := by
  obtain ⟨holders, htells, hholders⟩ := h.holders_eq
  exact ⟨holders, htells, h.proper.fits, h.active_eq, hholders⟩

lemma ofIdentity?_eq (h : Keeps b active) (identity : String) :
    LeaseBook.ofIdentity? b identity = .ok (held active identity) := by
  obtain ⟨holders, htells, hholds⟩ := h.exists_holds
  rw [hholds.ofIdentity?_eq]
  congr 1
  apply Option.ext
  intro l
  rw [Option.filter_eq_some_iff, Option.bind_eq_some_iff, held_eq_some_iff h.proper, beq_iff_eq]
  refine and_congr_left fun hidentity => ?_
  constructor
  · rintro ⟨n, _, hget⟩
    exact h.proper.node_eq n l hget ▸ hget
  · intro hget
    exact ⟨l.node, (htells identity l.node).2 ⟨l, hget, hidentity⟩, hget⟩

lemma storedTrail_enter_of_ne (h : n ≠ l.node) : (b.enter l).storedTrail n = b.storedTrail n :=
  OrderedMap.scan_insert_of_not (Bool.eq_false_iff.2 fun hp => h (Key.lease_prefix_leaseTrail_iff.1 hp))

lemma storedTrail_enter_self (h : ∀ e ∈ b.storedTrail l.node, TrailRow l.node (b.storedTrail l.node).length e)
    (hlt : (b.storedTrail l.node).length < UInt64.size) :
    (b.enter l).storedTrail l.node = b.storedTrail l.node ++
      [(Key.leaseTrail l.node (UInt64.ofNat (b.storedTrail l.node).length), Codec.lease.encode l)] := by
  refine OrderedMap.scan_insert_of_forall_lt (Key.lease_prefix_leaseTrail_iff.2 rfl) fun e he => ?_
  obtain ⟨number, hkey, hnumber⟩ := (h e he).key_eq
  rw [hkey]
  exact Key.compare_leaseTrail_of_lt (by rwa [UInt64.toNat_ofNat_of_lt' hlt])

lemma Numbered.enter (h : b.Numbered) (hfits : (Bytes.ofText l.identity).Fits) : (b.enter l).Numbered := by
  intro n e he
  by_cases hn : n = l.node
  · subst hn
    have hlength : (b.storedTrail l.node).length ≤ ((b.enter l).storedTrail l.node).length :=
      OrderedMap.length_scan_le_insert
    rcases OrderedMap.mem_scan_insert he with rfl | hold
    · refine ⟨⟨_, rfl, ?_⟩, l, readLease_encode hfits⟩
      by_cases hlt : (b.storedTrail l.node).length < UInt64.size
      · rw [UInt64.toNat_ofNat_of_lt' hlt, storedTrail_enter_self (h l.node) hlt, List.length_append]
        exact Nat.lt_succ_self _
      · have hnumber := (UInt64.ofNat (b.storedTrail l.node).length).toNat_lt_size
        omega
    · obtain ⟨number, hkey, hnumber⟩ := (h l.node e hold).key_eq
      exact ⟨⟨number, hkey, Nat.lt_of_lt_of_le hnumber hlength⟩, (h l.node e hold).readable⟩
  · rw [storedTrail_enter_of_ne hn] at he ⊢
    exact h n e he

lemma Keeps.enter (h : Keeps b active) (hl : Admitted active l) : Keeps (b.enter l) (active.insert l.node l) where
  proper := h.proper.insert hl
  active_eq := h.active_eq.insert trivial l
  holders_eq := by
    obtain ⟨holders, htells, hholds⟩ := h.exists_holds
    exact ⟨_, htells.insert hl, (hholds.enter hl.fits).holders_eq⟩
  trails := Numbered.enter h.trails hl.fits

lemma Keeps.strike (h : Keeps b active) (hget : active.get? n = some l) :
    Keeps (b.strike l n) (active.erase n) where
  proper := h.proper.erase n
  active_eq := h.active_eq.erase trivial
  holders_eq := by
    obtain ⟨holders, htells, hholds⟩ := h.exists_holds
    exact ⟨_, htells.erase h.proper hget, (hholds.strike l n).holders_eq⟩
  trails := h.trails

lemma keeps_empty : Keeps .empty ∅ where
  proper := Proper.empty
  active_eq := Layout.Represents.empty
  holders_eq := ⟨∅, Tells.empty, Layout.Represents.empty⟩
  trails _ _ he := by cases he

lemma trail_ok (h : b.Numbered) (n : Node) :
    ∃ rows, LeaseBook.trail b n = .ok rows ∧ rows.length = (b.storedTrail n).length := by
  obtain ⟨rows, hrows, _⟩ := exists_mapM_ok (f := fun e : Bytes × Bytes => readLease e.2) (P := fun _ => True)
    fun e he => (h n e he).readable.imp fun _ hl => ⟨hl, trivial⟩
  exact ⟨rows, hrows, (forall₂_of_mapM hrows).length_eq.symm⟩

lemma trailGrows_enter (h : b.Numbered) (hfits : (Bytes.ofText l.identity).Fits) :
    TrailGrows (· < UInt64.size) b (b.enter l) l where
  own rows hrows hlt := by
    obtain ⟨rows', hrows', hlength⟩ := trail_ok h l.node
    obtain rfl : rows = rows' := Except.ok.inj (hrows.symm.trans hrows')
    rw [hlength] at hlt
    change ((b.enter l).storedTrail l.node).mapM (fun e => readLease e.2) = _
    change (b.storedTrail l.node).mapM (fun e => readLease e.2) = _ at hrows
    rw [storedTrail_enter_self (h l.node) hlt, List.mapM_append, hrows, List.mapM_cons, List.mapM_nil,
      readLease_encode hfits]
    rfl
  other n hn := by
    change ((b.enter l).storedTrail n).mapM (fun e => readLease e.2) = _
    rw [storedTrail_enter_of_ne hn]
    rfl

instance : LawfulBook KeyedLeases where
  Keeps := Keeps
  Room rows := rows < UInt64.size
  proper h := h.proper
  ofNode?_eq h n := by
    obtain ⟨_, _, hholds⟩ := h.exists_holds
    exact hholds.ofNode?_eq n
  ofIdentity?_eq := ofIdentity?_eq
  listing_eq h := by
    obtain ⟨_, _, hholds⟩ := h.exists_holds
    exact hholds.listing_eq
  claim_taken {b active l} h htaken := by
    obtain ⟨_, _, hholds⟩ := h.exists_holds
    rw [hholds.claim_eq, OrderedMap.contains, if_pos htaken]
  claim_free {b active l} h hfree hl := by
    obtain ⟨_, _, hholds⟩ := h.exists_holds
    refine ⟨b.enter l, ?_, h.enter hl, trailGrows_enter h.trails hl.fits⟩
    rw [hholds.claim_eq, OrderedMap.contains, hfree, if_neg (by simp)]
  renew {b active l} h _ hl := ⟨b.enter l, rfl, h.enter hl, trailGrows_enter h.trails hl.fits⟩
  release {b active} h n := by
    obtain ⟨_, _, hholds⟩ := h.exists_holds
    rw [hholds.release_eq]
    cases hget : active.get? n with
    | none =>
      rw [OrderedMap.erase_of_get?_eq_none hget]
      exact ⟨b, rfl, h, fun _ => rfl⟩
    | some l => exact ⟨b.strike l n, rfl, h.strike hget, fun _ => rfl⟩
  trail_ok h n := by
    obtain ⟨rows, hrows, _⟩ := trail_ok h.trails n
    exact ⟨rows, hrows⟩

end KeyedLeases

end Chronicle
