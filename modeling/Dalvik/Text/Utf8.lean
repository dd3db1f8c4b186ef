import Dalvik.Text.Characters

/-!
# UTF-8

A character takes one to four bytes. `Utf8.decode` reads text strictly, and `Utf8.decodeLossy`
puts a replacement character in the place of each maximal ill-formed part: the longest run of bytes
that begins a well-formed sequence without ending it, or else a single byte.
-/

namespace Dalvik.Text.Utf8

/-- A byte that may follow the first of a sequence. -/
def isTail (byte : UInt8) : Bool :=
  0x80 ≤ byte && byte < 0xc0

/-- The first two bytes of a three-byte sequence that is neither overlong nor a surrogate. -/
def opensThree (a b : UInt8) : Bool :=
  0xe0 ≤ a && a < 0xf0 && isTail b && (a != 0xe0 || 0xa0 ≤ b) && (a != 0xed || b < 0xa0)

/-- The first two bytes of a four-byte sequence that is neither overlong nor out of range. -/
def opensFour (a b : UInt8) : Bool :=
  0xf0 ≤ a && a < 0xf5 && isTail b && (a != 0xf0 || 0x90 ≤ b) && (a != 0xf4 || b < 0x90)

def isTwo (a b : UInt8) : Bool :=
  0xc2 ≤ a && a < 0xe0 && isTail b

def isThree (a b c : UInt8) : Bool :=
  opensThree a b && isTail c

def isFour (a b c d : UInt8) : Bool :=
  opensFour a b && isTail c && isTail d

/-- The six bits of a byte that follows the first of a sequence. -/
def tailBits (byte : UInt8) : Nat :=
  byte.toNat % 64

def charOfTwo (a b : UInt8) : Char :=
  Char.ofNat (a.toNat % 32 * 64 + tailBits b)

def charOfThree (a b c : UInt8) : Char :=
  Char.ofNat ((a.toNat % 16 * 64 + tailBits b) * 64 + tailBits c)

def charOfFour (a b c d : UInt8) : Char :=
  Char.ofNat (((a.toNat % 8 * 64 + tailBits b) * 64 + tailBits c) * 64 + tailBits d)

/-- Reads a character of one byte. -/
def one? : CharReader
  | a :: rest => if a < 0x80 then some (Char.ofNat a.toNat, rest) else none
  | _ => none

/-- Reads a character of two bytes. -/
def two? : CharReader
  | a :: b :: rest => if isTwo a b then some (charOfTwo a b, rest) else none
  | _ => none

/-- Reads a character of three bytes. -/
def three? : CharReader
  | a :: b :: c :: rest => if isThree a b c then some (charOfThree a b c, rest) else none
  | _ => none

/-- Reads a character of four bytes. -/
def four? : CharReader
  | a :: b :: c :: d :: rest => if isFour a b c d then some (charOfFour a b c d, rest) else none
  | _ => none

/-- Reads a character. At most one of the four lengths fits. -/
def next? : CharReader := fun bytes =>
  one? bytes <|> two? bytes <|> three? bytes <|> four? bytes

/-- The characters of a byte string, or nothing if it is not well-formed. -/
def decode (bytes : List UInt8) : Option (List Char) :=
  readChars next? bytes

/-- The character that stands for an ill-formed part. -/
def replacement : Char := '\ufffd'

/-- The length of the maximal ill-formed part at the front of bytes that begin no character. -/
def illFormedLength : List UInt8 → Nat
  | a :: b :: c :: _ =>
    if opensFour a b && isTail c then 3
    else if opensThree a b || opensFour a b then 2
    else 1
  | [a, b] => if opensThree a b || opensFour a b then 2 else 1
  | _ => 1

/-- Reads a character, or a replacement for the ill-formed part in its place. -/
def nextLossy? : CharReader := fun bytes =>
  next? bytes <|> some (replacement, bytes.drop (illFormedLength bytes))

/-- The characters of a byte string, each maximal ill-formed part replaced. -/
def decodeLossy (bytes : List UInt8) : List Char :=
  (readChars nextLossy? bytes).getD []

end Dalvik.Text.Utf8
