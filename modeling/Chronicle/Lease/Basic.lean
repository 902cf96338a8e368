import Chronicle.Codec.Number
import Chronicle.Error
import Chronicle.Identifier.Calendar

/-! Leases of nodes, and the operations of a book that processes share to keep them. -/

namespace Chronicle

structure Lease where
  node : Node
  identity : String
  since : Int64
deriving DecidableEq, Repr

/-- The time of assignment as an instant. It goes through an identifier and keeps the low 46 bits of the millisecond. -/
def Lease.sinceText (l : Lease) : String := (Identifier.firstAt l.since).instant

def Codec.lease : Codec Lease :=
  (int8.pair (text.pair int64)).refine (fun l => (l.node, l.identity, l.since))
    fun (node, identity, since) => some ⟨node, identity, since⟩

/-- A book of leases that every process of a cluster sees. A write gives the book after it, or an error and then
nothing has changed. -/
class LeaseBook (σ : Type) where
  ofNode? : σ → Node → Except Error (Option Lease)
  ofIdentity? : σ → String → Except Error (Option Lease)
  listing : σ → Except Error (List Lease)
  claim : σ → Lease → Except Error (Bool × σ)
  renew : σ → Lease → Except Error σ
  release : σ → Node → Except Error (Option Lease × σ)
  trail : σ → Node → Except Error (List Lease)

/-- A book whose listing lags behind: it leaves out the leases of some nodes, and nothing else differs. -/
structure Lagging (σ : Type) where
  book : σ
  hidden : List Node

namespace Lagging

variable {σ : Type} [LeaseBook σ]

instance : LeaseBook (Lagging σ) where
  ofNode? l := LeaseBook.ofNode? l.book
  ofIdentity? l := LeaseBook.ofIdentity? l.book
  listing l := do
    let all ← LeaseBook.listing l.book
    return all.filter fun lease => !l.hidden.contains lease.node
  claim l lease := do
    let (entered, book) ← LeaseBook.claim l.book lease
    return (entered, { l with book })
  renew l lease := do
    let book ← LeaseBook.renew l.book lease
    return { l with book }
  release l node := do
    let (struck, book) ← LeaseBook.release l.book node
    return (struck, { l with book })
  trail l := LeaseBook.trail l.book

end Lagging

end Chronicle
