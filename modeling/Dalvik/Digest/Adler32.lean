/-!
# Adler-32

Two running sums modulo 65521: one of the bytes, starting from one, and one of the first sum after
each byte. The checksum has the second sum in its high half.
-/

namespace Dalvik.Adler32

/-- The largest prime below `2 ^ 16`. -/
def modulus : Nat := 65521

/-- The two sums after one more byte. -/
def step (sums : Nat × Nat) (byte : UInt8) : Nat × Nat :=
  let low := (sums.1 + byte.toNat) % modulus
  (low, (sums.2 + low) % modulus)

/-- The checksum of a byte string, as `adler` computes it: the sums start from one and zero, are
kept modulo the prime after each byte, and the second goes to the high half. -/
def checksum (bytes : List UInt8) : UInt32 :=
  let sums := bytes.foldl step (1, 0)
  UInt32.ofNat (sums.2 * 0x10000 + sums.1)

end Dalvik.Adler32
