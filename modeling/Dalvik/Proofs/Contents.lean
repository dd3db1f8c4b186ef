import Dalvik.Proofs.HeaderReads
import Dalvik.Proofs.Stored

/-!
# Writing a file

What a dex file says, apart from where it says it, and the file that says so: a header, the six
tables without gaps, then one block of data with the strings, the type lists and the class data.
-/

namespace Dalvik

/-- A prototype without the offset of its parameters. -/
structure Contents.Proto where
  shorty : Nat
  returnType : Nat
  parameters : List Nat
  deriving DecidableEq, Repr

/-- A class. Where its annotations and its static values are is only a number to the reader, which
never goes there. -/
structure Contents.Class where
  type : Nat
  flags : AccessFlags
  superclass : Option Nat := none
  interfaces : List Nat := []
  sourceFile : Option Nat := none
  annotationsOffset : UInt32 := 0
  data : Option ClassData := none
  staticValuesOffset : UInt32 := 0
  deriving DecidableEq, Repr

/-- What a dex file says, by index. -/
structure Contents where
  strings : List String := []
  types : List Nat := []
  protos : List Contents.Proto := []
  fields : List FieldItem := []
  methods : List MethodItem := []
  classes : List Contents.Class := []
  deriving DecidableEq, Repr

/-! ## Placing items -/

namespace Placing

variable {α : Type}

/-- The bytes of items placed one after another, when an item's bytes depend on where they start. -/
def bytes (write : (pos : Nat) → α → List UInt8) : (pos : Nat) → List α → List UInt8
  | _, [] => []
  | pos, a :: list => write pos a ++ bytes write (pos + (write pos a).length) list

/-- The offsets that refer to items placed one after another. -/
def offsets (write : (pos : Nat) → α → List UInt8) (offset : (pos : Nat) → α → Nat) :
    (pos : Nat) → List α → List Nat
  | _, [] => []
  | pos, a :: list => offset pos a :: offsets write offset (pos + (write pos a).length) list

@[simp]
theorem length_offsets (write : Nat → α → List UInt8) (offset : Nat → α → Nat) (pos : Nat)
    (list : List α) : (offsets write offset pos list).length = list.length := by
  induction list generalizing pos with
  | nil => rfl
  | cons a list ih => simp [offsets, ih]

end Placing

namespace Contents

/-- String data: the length in UTF-16 units, the text and a NUL. -/
def stringBytes (_pos : Nat) (text : String) : List UInt8 :=
  Uleb128.encode (Text.ModifiedUtf8.unitCount text.toList) ++
    (Text.ModifiedUtf8.encode text.toList ++ [0])

/-- The next multiple of four. -/
def align (pos : Nat) : Nat :=
  (pos + 3) / 4 * 4

/-- A type list, with the padding before it. An empty one is not written. -/
def typeListBytes (pos : Nat) (list : List Nat) : List UInt8 :=
  if list = [] then []
  else List.replicate (align pos - pos) 0 ++
    (toLittleEndian 4 list.length ++ list.flatMap (toLittleEndian 2))

def typeListOffset (pos : Nat) (list : List Nat) : Nat :=
  if list = [] then 0 else align pos

def classDataBytes (_pos : Nat) : Option ClassData → List UInt8
  | none => []
  | some data => data.numbers.flatMap Uleb128.encode

def classDataOffset (pos : Nat) : Option ClassData → Nat
  | none => 0
  | some _ => pos

/-! ## Rows of the tables -/

def protoBytes (item : ProtoItem) : List UInt8 :=
  toLittleEndian 4 item.shorty ++
    (toLittleEndian 4 item.returnType ++ toLittleEndian 4 item.parametersOffset)

def fieldBytes (item : FieldItem) : List UInt8 :=
  toLittleEndian 2 item.classType ++ (toLittleEndian 2 item.type ++ toLittleEndian 4 item.name)

def methodBytes (item : MethodItem) : List UInt8 :=
  toLittleEndian 2 item.classType ++ (toLittleEndian 2 item.proto ++ toLittleEndian 4 item.name)

/-- A class with the offsets of its interfaces and of its class data. -/
def classBytes (row : Class × Nat × Nat) : List UInt8 :=
  toLittleEndian 4 row.1.type ++ (toLittleEndian 4 row.1.flags.bits.toNat ++
    (toLittleEndian 4 (row.1.superclass.getD noIndex) ++ (toLittleEndian 4 row.2.1 ++
      (toLittleEndian 4 (row.1.sourceFile.getD noIndex) ++
        (toLittleEndian 4 row.1.annotationsOffset.toNat ++ (toLittleEndian 4 row.2.2 ++
          toLittleEndian 4 row.1.staticValuesOffset.toNat))))))

/-! ## The parts of the file -/

/-- The number of items of a table. -/
def count (contents : Contents) : Table → Nat
  | .strings => contents.strings.length
  | .types => contents.types.length
  | .protos => contents.protos.length
  | .fields => contents.fields.length
  | .methods => contents.methods.length
  | .classes => contents.classes.length

/-- The size of a table in bytes. -/
def tableSize (contents : Contents) (table : Table) : Nat :=
  contents.count table * table.itemSize

/-- Where a table starts: after the header and the tables before it. -/
def tableStart (contents : Contents) : Table → Nat
  | .strings => headerLength
  | .types => headerLength + contents.tableSize .strings
  | .protos => headerLength + contents.tableSize .strings + contents.tableSize .types
  | .fields =>
    headerLength + contents.tableSize .strings + contents.tableSize .types +
      contents.tableSize .protos
  | .methods =>
    headerLength + contents.tableSize .strings + contents.tableSize .types +
      contents.tableSize .protos + contents.tableSize .fields
  | .classes =>
    headerLength + contents.tableSize .strings + contents.tableSize .types +
      contents.tableSize .protos + contents.tableSize .fields + contents.tableSize .methods

/-- Where the block of data starts. -/
def dataStart (contents : Contents) : Nat :=
  contents.tableStart .classes + contents.tableSize .classes

def stringData (contents : Contents) : List UInt8 :=
  Placing.bytes stringBytes contents.dataStart contents.strings

def parametersStart (contents : Contents) : Nat :=
  contents.dataStart + contents.stringData.length

def parametersData (contents : Contents) : List UInt8 :=
  Placing.bytes typeListBytes contents.parametersStart (contents.protos.map Proto.parameters)

def interfacesStart (contents : Contents) : Nat :=
  contents.parametersStart + contents.parametersData.length

def interfacesData (contents : Contents) : List UInt8 :=
  Placing.bytes typeListBytes contents.interfacesStart (contents.classes.map Class.interfaces)

def classDataStart (contents : Contents) : Nat :=
  contents.interfacesStart + contents.interfacesData.length

def classData (contents : Contents) : List UInt8 :=
  Placing.bytes classDataBytes contents.classDataStart (contents.classes.map Class.data)

/-- The block of data: strings, parameters, interfaces and class data. -/
def data (contents : Contents) : List UInt8 :=
  contents.stringData ++
    (contents.parametersData ++ (contents.interfacesData ++ contents.classData))

def stringOffsets (contents : Contents) : List Nat :=
  Placing.offsets stringBytes (fun pos _ => pos) contents.dataStart contents.strings

def parametersOffsets (contents : Contents) : List Nat :=
  Placing.offsets typeListBytes typeListOffset contents.parametersStart
    (contents.protos.map Proto.parameters)

def interfacesOffsets (contents : Contents) : List Nat :=
  Placing.offsets typeListBytes typeListOffset contents.interfacesStart
    (contents.classes.map Class.interfaces)

def classDataOffsets (contents : Contents) : List Nat :=
  Placing.offsets classDataBytes classDataOffset contents.classDataStart
    (contents.classes.map Class.data)

/-- The prototypes with the offsets of their parameters. -/
def protoItems (contents : Contents) : List ProtoItem :=
  List.zipWith (fun proto offset =>
    { shorty := proto.shorty, returnType := proto.returnType, parametersOffset := offset,
      parameters := proto.parameters }) contents.protos contents.parametersOffsets

/-- The classes with the offsets of their interfaces and of their class data. -/
def classRows (contents : Contents) : List (Class × Nat × Nat) :=
  contents.classes.zip (contents.interfacesOffsets.zip contents.classDataOffsets)

/-- The six tables. -/
def tables (contents : Contents) : List UInt8 :=
  contents.stringOffsets.flatMap (toLittleEndian 4) ++
    (contents.types.flatMap (toLittleEndian 4) ++ (contents.protoItems.flatMap protoBytes ++
      (contents.fields.flatMap fieldBytes ++ (contents.methods.flatMap methodBytes ++
        contents.classRows.flatMap classBytes))))

/-- Everything after the header. -/
def body (contents : Contents) : List UInt8 :=
  contents.tables ++ contents.data

/-- The size of the file in bytes. -/
def size (contents : Contents) : Nat :=
  headerLength + contents.body.length

/-! ## The header -/

/-- The magic of version 035. -/
def magic : Vector UInt8 8 :=
  #v[0x64, 0x65, 0x78, 0x0a, 0x30, 0x33, 0x35, 0x00]

/-- How many items or bytes start at an offset, which is zero if there are none. -/
def placement (size offset : Nat) : Placement :=
  ⟨UInt32.ofNat size, UInt32.ofNat (if size = 0 then 0 else offset)⟩

/-- The header with a checksum and a signature. -/
def headerWith (contents : Contents) (checksum : UInt32) (signature : Vector UInt8 20) :
    Header where
  magic := magic
  checksum := checksum
  signature := signature
  fileSize := UInt32.ofNat contents.size
  headerSize := UInt32.ofNat headerLength
  endianTag := Header.littleEndianTag
  link := placement 0 0
  mapOffset := 0
  stringIds := placement (contents.count .strings) (contents.tableStart .strings)
  typeIds := placement (contents.count .types) (contents.tableStart .types)
  protoIds := placement (contents.count .protos) (contents.tableStart .protos)
  fieldIds := placement (contents.count .fields) (contents.tableStart .fields)
  methodIds := placement (contents.count .methods) (contents.tableStart .methods)
  classDefs := placement (contents.count .classes) (contents.tableStart .classes)
  data := placement contents.data.length contents.dataStart

/-- The bytes of the file under a header. -/
def fileBytes (contents : Contents) (header : Header) : Bytes :=
  (header.encode ++ contents.body).toArray

/-- The signature of the file, over everything after itself. -/
def signature (contents : Contents) : Vector UInt8 20 :=
  ⟨(Sha1.digest ((contents.fileBytes
    (contents.headerWith 0 (Vector.replicate 20 0))).toList.drop 32)).toArray,
    Sha1.length_digest _⟩

/-- The checksum of the file, over everything after itself, the signature included. -/
def checksum (contents : Contents) : UInt32 :=
  Adler32.checksum ((contents.fileBytes (contents.headerWith 0 contents.signature)).toList.drop 12)

def header (contents : Contents) : Header :=
  contents.headerWith contents.checksum contents.signature

/-- The file. -/
def encode (contents : Contents) : Bytes :=
  contents.fileBytes contents.header

end Contents

end Dalvik
