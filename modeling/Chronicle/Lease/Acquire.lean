import Chronicle.Issuer
import Chronicle.Lease.Basic

/-! Leasing nodes to processes, in an order that is left to chance. -/

namespace Chronicle.Lease

variable {σ γ : Type} [LeaseBook σ] [Clock γ]

def defaultAttempts : Nat := 8

/-- What chance yields at each draw. Of the number its remainder by the count of free nodes is used. -/
abbrev Chance := Nat → Nat

def takeOut (xs : List α) (i : Nat) : List α :=
  match xs.getLast? with
  | none => []
  | some last => (xs.set i last).dropLast

def freeNodes (listing : List Lease) : List Node :=
  Node.pool.filter fun node => !(listing.map (·.node)).contains node

def claimOneOf (book : σ) (identity : String) (now : Int64) (chance : Chance) (draw : Nat) :
    Nat → List Node → Option Node → Except Error Node × σ
  | 0, _, refused => (.error (refused.elim .noFreeNode .nodeTaken), book)
  | attempts + 1, free, refused =>
    let i := chance draw % free.length
    match free[i]? with
    | none => (.error (refused.elim .noFreeNode .nodeTaken), book)
    | some node =>
      match LeaseBook.claim book ⟨node, identity, now⟩ with
      | .error e => (.error e, book)
      | .ok (true, book) => (.ok node, book)
      | .ok (false, book) =>
        claimOneOf book identity now chance (draw + 1) attempts (takeOut free i) (some node)

/-- The node of an identity, and the book that the search for it leaves. A holder gets its own node back, with its
lease renewed; any other identity leases a free node, trying `attempts` of them but at least one. -/
def acquisition (book : σ) (clock : γ) (attempts : Nat) (chance : Chance) (identity : String) :
    Except Error Node × σ :=
  if identity.isEmpty then (.error (.argument .emptyIdentity), book)
  else
    match LeaseBook.ofIdentity? book identity with
    | .error e => (.error e, book)
    | .ok (some lease) =>
      match LeaseBook.renew book { lease with since := Clock.now clock } with
      | .error e => (.error e, book)
      | .ok book => (.ok lease.node, book)
    | .ok none =>
      match LeaseBook.listing book with
      | .error e => (.error e, book)
      | .ok listing =>
        claimOneOf book identity (Clock.now clock) chance 0 (max attempts 1) (freeNodes listing) none

/-- Leases a node and assigns it to the issuer: the step by which a process joins its cluster. Returns the node in
force there. The lease stays even if the issuer refuses the node or has another one. -/
def join (book : σ) (issuer : Issuer) (clock : γ) (attempts : Nat) (chance : Chance) (identity : String) :
    Except Error Node × σ × Issuer :=
  match acquisition book clock attempts chance identity with
  | (.error e, book) => (.error e, book, issuer)
  | (.ok node, book) =>
    match issuer.assignNode node with
    | .error e => (.error e, book, issuer)
    | .ok (inForce, issuer) => (.ok inForce, book, issuer)

end Chronicle.Lease
