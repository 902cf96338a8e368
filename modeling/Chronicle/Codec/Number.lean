import Chronicle.Codec.Basic

/-! Numbers in few bytes: small ones in one byte, larger ones behind a marker that gives their width. -/

namespace Chronicle.Codec

def varintBound : Nat := 251

def encodeVarint (n : Nat) : Bytes :=
  if n < varintBound then [UInt8.ofNat n]
  else if n < UInt16.size then 251 :: Bytes.littleEndian 2 n
  else if n < UInt32.size then 252 :: Bytes.littleEndian 4 n
  else 253 :: Bytes.littleEndian 8 n

def readLittle (width : Nat) (bs : Bytes) : Option (Nat × Bytes) :=
  (Bytes.split? width bs).map fun p => (Bytes.ofLittleEndian p.1, p.2)

/-- Reads a number of at most `widest` bytes. Forms longer than needed are accepted. -/
def decodeVarint (widest : Nat) : Bytes → Option (Nat × Bytes)
  | [] => none
  | b :: bs =>
    if b.toNat < varintBound then some (b.toNat, bs)
    else if b = 251 then readLittle 2 bs
    else if b = 252 then readLittle 4 bs
    else if b = 253 ∧ 8 ≤ widest then readLittle 8 bs
    else none

def zigzag (v : Int) : Nat := if v < 0 then (-2 * v - 1).toNat else (2 * v).toNat

def unzigzag (n : Nat) : Int := if n % 2 = 0 then (n / 2 : Nat) else -((n / 2 : Nat) : Int) - 1

def int64 : Codec Int64 where
  encode v := encodeVarint (zigzag v.toInt)
  decode bs := (decodeVarint 8 bs).map fun p => (Int64.ofInt (unzigzag p.1), p.2)

def int8 : Codec Int8 := byte.refine (fun v => v.toUInt8) fun b => some b.toInt8

def list (c : Codec α) : Codec (List α) where
  encode as := encodeVarint as.length ++ as.flatMap c.encode
  decode bs := do
    let (n, rest) ← decodeVarint 8 bs
    decodeMany c n rest

def text : Codec String where
  encode s := encodeVarint (Bytes.ofText s).length ++ Bytes.ofText s
  decode bs := do
    let (n, rest) ← decodeVarint 8 bs
    let (body, rest) ← Bytes.split? n rest
    let s ← Bytes.toText? body
    return (s, rest)

end Chronicle.Codec
