/-!
# SHA-1

The 160-bit digest of a byte string. The message is padded to whole blocks of sixteen big-endian
words; each block is expanded to eighty words, one per round, and mixed into five chaining words.
-/

namespace Dalvik.Sha1

/-- The five chaining words. -/
structure Chaining where
  a : UInt32
  b : UInt32
  c : UInt32
  d : UInt32
  e : UInt32
  deriving DecidableEq, Repr

def initial : Chaining :=
  ⟨0x67452301, 0xefcdab89, 0x98badcfe, 0x10325476, 0xc3d2e1f0⟩

def rotateLeft (word count : UInt32) : UInt32 :=
  (word <<< count) ||| (word >>> (32 - count))

/-- The bit function of a round and the constant added in it. -/
def roundTerm (round : Nat) (b c d : UInt32) : UInt32 :=
  if round < 20 then ((b &&& c) ||| (~~~b &&& d)) + 0x5a827999
  else if round < 40 then (b ^^^ c ^^^ d) + 0x6ed9eba1
  else if round < 60 then ((b &&& c) ||| (b &&& d) ||| (c &&& d)) + 0x8f1bbcdc
  else (b ^^^ c ^^^ d) + 0xca62c1d6

def applyRound (s : Chaining) (round : Nat) (word : UInt32) : Chaining :=
  { a := rotateLeft s.a 5 + roundTerm round s.b s.c s.d + s.e + word
    b := s.a
    c := rotateLeft s.b 30
    d := s.c
    e := s.d }

/-- Runs `count` rounds from number `round` on. The window holds the next sixteen words of the
message schedule, of which the word sixteen places on is made from four. -/
def runRounds : (count round : Nat) → (window : List UInt32) → Chaining → Chaining
  | 0, _, _, s => s
  | count + 1, round, window, s =>
    match window with
    | [] => s
    | word :: later =>
      let next :=
        rotateLeft
          ((later[12]?.getD 0) ^^^ (later[7]?.getD 0) ^^^ (later[1]?.getD 0) ^^^ word) 1
      runRounds count (round + 1) (later ++ [next]) (applyRound s round word)

/-- Mixes one block of sixteen words into the chaining words. -/
def compress (s : Chaining) (block : List UInt32) : Chaining :=
  let t := runRounds 80 0 block s
  ⟨s.a + t.a, s.b + t.b, s.c + t.c, s.d + t.d, s.e + t.e⟩

def bigEndianWord (a b c d : UInt8) : UInt32 :=
  (a.toUInt32 <<< 24) ||| (b.toUInt32 <<< 16) ||| (c.toUInt32 <<< 8) ||| d.toUInt32

/-- The big-endian words of a byte string whose length is a multiple of four. -/
def words : List UInt8 → List UInt32
  | a :: b :: c :: d :: rest => bigEndianWord a b c d :: words rest
  | _ => []

def bigEndianBytes (word : UInt32) : List UInt8 :=
  [(word >>> 24).toUInt8, (word >>> 16).toUInt8, (word >>> 8).toUInt8, word.toUInt8]

/-- What follows a message of `length` bytes: a one bit, zeros up to eight bytes before the end of
a block, and the length in bits. -/
def padding (length : Nat) : List UInt8 :=
  let zeros := List.replicate ((119 - length % 64) % 64) 0
  let high := UInt32.ofNat (length * 8 / 0x100000000)
  let low := UInt32.ofNat (length * 8)
  0x80 :: (zeros ++ bigEndianBytes high ++ bigEndianBytes low)

/-- Mixes in the first `count` blocks of a list of words. -/
def absorb : (count : Nat) → List UInt32 → Chaining → Chaining
  | 0, _, s => s
  | count + 1, stream, s => absorb count (stream.drop 16) (compress s (stream.take 16))

/-- The digest of a byte string, twenty bytes. This is standard SHA-1, as `sha1` computes it: the
message is padded to blocks of 64 bytes with its length in bits at the end, and the five chaining
words after the last block are written big-endian. -/
def digest (bytes : List UInt8) : List UInt8 :=
  let stream := words (bytes ++ padding bytes.length)
  let s := absorb (stream.length / 16) stream initial
  [s.a, s.b, s.c, s.d, s.e].flatMap bigEndianBytes

theorem length_digest (bytes : List UInt8) : (digest bytes).length = 20 := rfl

end Dalvik.Sha1
