/-!
# Byte strings

The content of a file as an array of bytes addressed by offset, and the little-endian reading of a
few of them as a number.
-/

namespace Dalvik

/-- The content of a file, addressed by offset from its start. -/
abbrev Bytes := Array UInt8

/-- The number whose base 256 digits are `digits`, the lowest first. -/
def ofLittleEndian : List UInt8 → Nat
  | [] => 0
  | digit :: digits => digit.toNat + 256 * ofLittleEndian digits

/-- The lowest `width` base 256 digits of a number, the lowest first. -/
def toLittleEndian : (width : Nat) → Nat → List UInt8
  | 0, _ => []
  | width + 1, n => UInt8.ofNat n :: toLittleEndian width (n / 256)

theorem length_toLittleEndian (width n : Nat) : (toLittleEndian width n).length = width := by
  induction width generalizing n with
  | zero => rfl
  | succ width ih => simp [toLittleEndian, ih]

namespace Bytes

/-- The bytes before the first NUL at or after `pos`, among the next `fuel` bytes. -/
def scanNul (input : Bytes) : (fuel pos : Nat) → Option (List UInt8)
  | 0, _ => none
  | fuel + 1, pos =>
    match input[pos]? with
    | none => none
    | some byte =>
      if byte = 0 then some [] else (scanNul input fuel (pos + 1)).map (byte :: ·)

/-- The bytes from `pos` up to the next NUL, or nothing if no NUL follows. -/
def untilNul (input : Bytes) (pos : Nat) : Option (List UInt8) :=
  scanNul input (input.size - pos) pos

end Bytes

end Dalvik
