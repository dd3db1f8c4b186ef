/-!
# Numerals

Numbers as they stand in messages and listings: lower-case hexadecimal, and fixed-width forms
filled with zeros on the left.
-/

namespace Dalvik.Text

/-- The lower-case hexadecimal numeral of a number. -/
def hex (n : Nat) : String :=
  String.ofList (Nat.toDigits 16 n)

/-- A numeral filled with zeros on the left up to `width` digits. -/
def zeroPadded (width : Nat) (digits : List Char) : String :=
  String.ofList (List.replicate (width - digits.length) '0' ++ digits)

/-- The hexadecimal numeral with at least `width` digits. -/
def paddedHex (width n : Nat) : String :=
  zeroPadded width (Nat.toDigits 16 n)

/-- The decimal numeral with at least `width` digits. -/
def paddedDecimal (width n : Nat) : String :=
  zeroPadded width (Nat.toDigits 10 n)

/-- Bytes as a bracketed list of two hexadecimal digits each. -/
def hexByteList (bytes : List UInt8) : String :=
  let items := String.intercalate ", " (bytes.map fun byte => paddedHex 2 byte.toNat)
  s!"[{items}]"

end Dalvik.Text
