namespace Chronicle.Saturating

def int64 (n : Int) : Int64 :=
  if n < Int64.minValue.toInt then Int64.minValue
  else if Int64.maxValue.toInt < n then Int64.maxValue
  else Int64.ofInt n

def uint64 (n : Nat) : UInt64 :=
  if n < UInt64.size then UInt64.ofNat n else UInt64.ofNat (UInt64.size - 1)

theorem toInt_int64 (n : Int) :
    (int64 n).toInt = max Int64.minValue.toInt (min n Int64.maxValue.toInt) := by
  have hmin : Int64.minValue.toInt = -9223372036854775808 := by decide
  have hmax : Int64.maxValue.toInt = 9223372036854775807 := by decide
  unfold int64
  split
  · rw [hmin]
    omega
  · split
    · rw [hmax]
      omega
    · rw [Int64.toInt_ofInt_of_le] <;> omega

theorem toNat_uint64 (n : Nat) : (uint64 n).toNat = min n (UInt64.size - 1) := by
  unfold uint64
  split
  · next h =>
    rw [UInt64.toNat_ofNat_of_lt' h]
    omega
  · next h =>
    rw [UInt64.toNat_ofNat_of_lt' (by decide)]
    omega

def add (a b : Int64) : Int64 := int64 (a.toInt + b.toInt)

def sub (a b : Int64) : Int64 := int64 (a.toInt - b.toInt)

def addCount (a b : UInt64) : UInt64 := uint64 (a.toNat + b.toNat)

end Chronicle.Saturating
