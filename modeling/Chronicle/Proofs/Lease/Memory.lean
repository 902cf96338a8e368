import Chronicle.Lease.Memory
import Chronicle.Proofs.Lease.Book

namespace Chronicle.MemoryLeases

open Lease

variable {b : MemoryLeases} {active : OrderedMap Node Lease} {l : Lease} {n : Node}

structure Keeps (b : MemoryLeases) (active : OrderedMap Node Lease) : Prop where
  active_eq : b.active = active
  proper : Proper active
  tells : Tells b.holders active

lemma claim_eq (b : MemoryLeases) (l : Lease) :
    LeaseBook.claim b l = .ok (if b.active.contains l.node then (false, b) else (true, (b.note l).enter l)) := rfl

lemma release_eq (b : MemoryLeases) (n : Node) :
    LeaseBook.release b n = .ok (match b.active.get? n with
      | none => (none, b)
      | some l => (some l, b.strike l n)) := by
  change (match b.active.get? n with | none => _ | some lease => _) = _
  cases b.active.get? n <;> rfl

lemma ofIdentity?_eq (h : Keeps b active) (identity : String) : b.ofIdentity? identity = held active identity := by
  apply Option.ext
  intro l
  rw [ofIdentity?, Option.bind_eq_some_iff, held_eq_some_iff h.proper, h.active_eq]
  simp only [h.tells identity]
  constructor
  · rintro ⟨n, ⟨l', hget', hidentity⟩, hget⟩
    obtain rfl : l' = l := Option.some.inj (hget'.symm.trans hget)
    exact ⟨h.proper.node_eq n l' hget ▸ hget, hidentity⟩
  · rintro ⟨hget, hidentity⟩
    exact ⟨l.node, ⟨l, hget, hidentity⟩, hget⟩

lemma trailGrows_enter (b : MemoryLeases) (l : Lease) : TrailGrows (fun _ => True) b (b.enter l) l where
  own rows hrows _ := by
    have hrows : b.trail l.node = rows := Except.ok.inj hrows
    change Except.ok ((b.trails.insert l.node (b.trail l.node ++ [l])).get? l.node |>.getD []) = _
    rw [OrderedMap.get?_insert, if_pos rfl, Option.getD_some, hrows]
  other n hn := by
    change Except.ok ((b.trails.insert l.node (b.trail l.node ++ [l])).get? n |>.getD []) = _
    rw [OrderedMap.get?_insert, if_neg hn]
    rfl

lemma Keeps.enter (h : Keeps b active) (hl : Admitted active l) {holders : OrderedMap String Node}
    (htells : Tells holders (active.insert l.node l)) :
    Keeps ({ b with holders }.enter l) (active.insert l.node l) where
  active_eq := by rw [MemoryLeases.enter, h.active_eq]
  proper := h.proper.insert hl
  tells := htells

lemma Keeps.strike (h : Keeps b active) (hget : active.get? n = some l) :
    Keeps (b.strike l n) (active.erase n) where
  active_eq := by rw [MemoryLeases.strike, h.active_eq]
  proper := h.proper.erase n
  tells := by
    have htold : b.holders.get? l.identity = some n := (h.tells _ _).2 ⟨l, hget, rfl⟩
    rw [MemoryLeases.strike, if_pos htold]
    exact h.tells.erase h.proper hget

lemma keeps_empty : Keeps .empty ∅ where
  active_eq := rfl
  proper := Proper.empty
  tells := Tells.empty

instance : LawfulBook MemoryLeases where
  Keeps := Keeps
  Room _ := True
  proper h := h.proper
  ofNode?_eq h n := by rw [← h.active_eq]; rfl
  ofIdentity?_eq h identity := congrArg Except.ok (ofIdentity?_eq h identity)
  listing_eq h := by rw [← h.active_eq]; rfl
  claim_taken {b active l} h htaken := by rw [claim_eq, h.active_eq, OrderedMap.contains, if_pos htaken]
  claim_free {b active l} h hfree hl := by
    refine ⟨(b.note l).enter l, ?_, h.enter hl (h.tells.insert hl), ?_⟩
    · rw [claim_eq, h.active_eq, OrderedMap.contains, hfree, if_neg (by simp)]
    · exact ⟨(trailGrows_enter (b.note l) l).own, (trailGrows_enter (b.note l) l).other⟩
  renew {b active l} h htaken hl :=
    ⟨b.enter l, rfl, h.enter hl (h.tells.insert_of_held hl htaken), trailGrows_enter b l⟩
  release {b active} h n := by
    rw [release_eq, h.active_eq]
    cases hget : active.get? n with
    | none =>
      rw [OrderedMap.erase_of_get?_eq_none hget]
      exact ⟨b, rfl, h, fun _ => rfl⟩
    | some l => exact ⟨b.strike l n, rfl, h.strike hget, fun _ => rfl⟩
  trail_ok _ n := ⟨_, rfl⟩

end Chronicle.MemoryLeases
