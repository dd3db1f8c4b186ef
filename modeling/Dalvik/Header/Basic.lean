import Dalvik.Decode.Cursor

/-!
# The header

The first `0x70` bytes of a dex file: a magic text with the format version, a checksum and a
signature of what follows, and the sizes and offsets of everything else.
-/

namespace Dalvik

/-- How much of something there is, in items or in bytes, and the offset at which it starts. -/
structure Placement where
  size : UInt32
  offset : UInt32
  deriving DecidableEq, Repr

/-- The header, field by field in the order of the file. -/
structure Header where
  magic : Vector UInt8 8
  checksum : UInt32
  signature : Vector UInt8 20
  fileSize : UInt32
  headerSize : UInt32
  endianTag : UInt32
  link : Placement
  mapOffset : UInt32
  stringIds : Placement
  typeIds : Placement
  protoIds : Placement
  fieldIds : Placement
  methodIds : Placement
  classDefs : Placement
  data : Placement
  deriving DecidableEq, Repr

namespace Header

/-- Where the items of a table are. -/
def placement (header : Header) : Table → Placement
  | .strings => header.stringIds
  | .types => header.typeIds
  | .protos => header.protoIds
  | .fields => header.fieldIds
  | .methods => header.methodIds
  | .classes => header.classDefs

/-- The number of items of a table. -/
def count (header : Header) (table : Table) : Nat :=
  (header.placement table).size.toNat

/-- The offset of the first item of a table. -/
def offset (header : Header) (table : Table) : Nat :=
  (header.placement table).offset.toNat

/-- The three version digits as a number. A byte that is no digit counts as its distance from the
digit zero. -/
def version (header : Header) : Nat :=
  (header.magic.toList.drop 4 |>.take 3).foldl (fun acc digit => acc * 10 + (digit - 48).toNat) 0

/-- The first bytes of every dex file. -/
def magicText : List UInt8 := [0x64, 0x65, 0x78, 0x0a]

def isDigit (byte : UInt8) : Bool :=
  0x30 ≤ byte && byte ≤ 0x39

/-- Whether the magic is the fixed text, three digits and a NUL. -/
def isMagic (magic : List UInt8) : Bool :=
  magic.take 4 == magicText && ((magic.drop 4).take 3).all isDigit && magic.drop 7 == [0]

/-- The endian tag of a little-endian file. -/
def littleEndianTag : UInt32 := 0x12345678

/-- The endian tag of a big-endian file. -/
def bigEndianTag : UInt32 := 0x78563412

/-- Reads a size and an offset. -/
def readPlacement : Decode Placement := do
  let size ← Decode.word
  let offset ← Decode.word
  return { size, offset }

/-- Reads the fields at the cursor, in order. -/
def readFields : Decode Header := do
  let magic ← Decode.block 8
  let checksum ← Decode.word
  let signature ← Decode.block 20
  let fileSize ← Decode.word
  let headerSize ← Decode.word
  let endianTag ← Decode.word
  let link ← readPlacement
  let mapOffset ← Decode.word
  let stringIds ← readPlacement
  let typeIds ← readPlacement
  let protoIds ← readPlacement
  let fieldIds ← readPlacement
  let methodIds ← readPlacement
  let classDefs ← readPlacement
  let data ← readPlacement
  return {
    magic, checksum, signature, fileSize, headerSize, endianTag, link, mapOffset, stringIds,
    typeIds, protoIds, fieldIds, methodIds, classDefs, data }

/-- Fails unless the magic and the endian tag are those of a dex file that can be read. -/
def check (header : Header) : Decode Unit := do
  if !isMagic header.magic.toList then Decode.fail (.badMagic header.magic.toList)
  else if header.endianTag = littleEndianTag then pure ()
  else if header.endianTag = bigEndianTag then Decode.fail .bigEndian
  else Decode.fail (.badEndianTag header.endianTag)

/-- Reads the header of the input and leaves the cursor where it was. -/
def read : Decode Header := do
  let length ← Decode.length
  if length < headerLength then Decode.fail (.headerTooShort length)
  else
    let header ← Decode.atOffset 0 readFields
    header.check
    return header

/-- The bytes of a word, the lowest first. -/
def wordBytes (word : UInt32) : List UInt8 :=
  toLittleEndian 4 word.toNat

def placementBytes (placement : Placement) : List UInt8 :=
  wordBytes placement.size ++ wordBytes placement.offset

/-- The bytes of a header. -/
def encode (header : Header) : List UInt8 :=
  header.magic.toList ++ wordBytes header.checksum ++ header.signature.toList ++
    wordBytes header.fileSize ++ wordBytes header.headerSize ++ wordBytes header.endianTag ++
    placementBytes header.link ++ wordBytes header.mapOffset ++ placementBytes header.stringIds ++
    placementBytes header.typeIds ++ placementBytes header.protoIds ++
    placementBytes header.fieldIds ++ placementBytes header.methodIds ++
    placementBytes header.classDefs ++ placementBytes header.data

end Header

end Dalvik
