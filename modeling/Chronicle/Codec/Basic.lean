import Chronicle.Bytes

/-! Record formats: a writer, and a reader that leaves the bytes after a record untouched. -/

namespace Chronicle

structure Codec (α : Type) where
  encode : α → Bytes
  decode : Bytes → Option (α × Bytes)

namespace Codec

variable {α β : Type}

def read? (c : Codec α) (bs : Bytes) : Option α := (c.decode bs).map (·.1)

def refine (c : Codec α) (toBase : β → α) (ofBase? : α → Option β) : Codec β where
  encode b := c.encode (toBase b)
  decode bs := do
    let (a, rest) ← c.decode bs
    let b ← ofBase? a
    return (b, rest)

def pair (c : Codec α) (d : Codec β) : Codec (α × β) where
  encode p := c.encode p.1 ++ d.encode p.2
  decode bs := do
    let (a, rest) ← c.decode bs
    let (b, rest) ← d.decode rest
    return ((a, b), rest)

def byte : Codec UInt8 where
  encode b := [b]
  decode
    | [] => none
    | b :: bs => some (b, bs)

def option (c : Codec α) : Codec (Option α) where
  encode
    | none => [0]
    | some a => 1 :: c.encode a
  decode
    | 0 :: bs => some (none, bs)
    | 1 :: bs => (c.decode bs).map fun p => (some p.1, p.2)
    | _ => none

def decodeMany (c : Codec α) : Nat → Bytes → Option (List α × Bytes)
  | 0, bs => some ([], bs)
  | n + 1, bs => do
    let (a, rest) ← c.decode bs
    let (as, rest) ← decodeMany c n rest
    return (a :: as, rest)

end Codec

end Chronicle
