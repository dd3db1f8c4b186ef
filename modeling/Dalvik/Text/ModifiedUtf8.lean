import Dalvik.Text.Utf8

/-!
# Modified UTF-8

The text encoding of string data. NUL takes two bytes, so that none of the bytes is zero, and a
supplementary character is a pair of surrogates of three bytes each. Reading also accepts any
well-formed UTF-8 as it stands.
-/

namespace Dalvik.Text.ModifiedUtf8

open Utf8

/-- A surrogate pair written as two three-byte sequences, the high surrogate first. -/
def isPair (a b c d e f : UInt8) : Bool :=
  a == 0xed && 0xa0 ≤ b && b < 0xb0 && isTail c && d == 0xed && 0xb0 ≤ e && e < 0xc0 && isTail f

/-- The ten low bits of the surrogate whose last two bytes are `b` and `c`. -/
def surrogateBits (b c : UInt8) : Nat :=
  b.toNat % 16 * 64 + tailBits c

def charOfPair (b c e f : UInt8) : Char :=
  Char.ofNat (0x10000 + surrogateBits b c * 1024 + surrogateBits e f)

/-- Reads the two bytes that stand for NUL. -/
def nul? : CharReader
  | a :: b :: rest => if a == 0xc0 && b == 0x80 then some ('\x00', rest) else none
  | _ => none

/-- Reads a supplementary character. -/
def pair? : CharReader
  | a :: b :: c :: d :: e :: f :: rest =>
    if isPair a b c d e f then some (charOfPair b c e f, rest) else none
  | _ => none

/-- Reads a character. At most one of the five forms fits. -/
def next? : CharReader := fun bytes =>
  one? bytes <|> nul? bytes <|> two? bytes <|> three? bytes <|> pair? bytes

/-- The characters of a byte string in modified UTF-8, or nothing if it is not well-formed. -/
def decodeStrict (bytes : List UInt8) : Option (List Char) :=
  readChars next? bytes

/-- The characters of string data. This is the rule of `cesu8` for modified UTF-8: a byte string
that is well-formed UTF-8 is taken as it is, four-byte characters included, and any other has to be
modified UTF-8 throughout, with `C0 80` for NUL, no other overlong form, and surrogates only in
pairs. -/
def decode (bytes : List UInt8) : Option (List Char) :=
  Utf8.decode bytes <|> decodeStrict bytes

/-- The number of UTF-16 units of a character. -/
def units (c : Char) : Nat :=
  if c.toNat < 0x10000 then 1 else 2

/-- The number of UTF-16 units of a text. -/
def unitCount : List Char → Nat
  | [] => 0
  | c :: text => units c + unitCount text

/-- The three-byte form of a code unit that is at least `0x800`. -/
def encodeThree (unit : Nat) : List UInt8 :=
  [UInt8.ofNat (0xe0 + unit / 4096), UInt8.ofNat (0x80 + unit / 64 % 64),
    UInt8.ofNat (0x80 + unit % 64)]

/-- The bytes of a character. -/
def encodeChar (c : Char) : List UInt8 :=
  let code := c.toNat
  if code = 0 then [0xc0, 0x80]
  else if code < 0x80 then [UInt8.ofNat code]
  else if code < 0x800 then [UInt8.ofNat (0xc0 + code / 64), UInt8.ofNat (0x80 + code % 64)]
  else if code < 0x10000 then encodeThree code
  else
    encodeThree (0xd800 + (code - 0x10000) / 1024) ++ encodeThree (0xdc00 + (code - 0x10000) % 1024)

/-- The bytes of a text in modified UTF-8, the NUL that ends it left out. -/
def encode (text : List Char) : List UInt8 :=
  text.flatMap encodeChar

end Dalvik.Text.ModifiedUtf8
