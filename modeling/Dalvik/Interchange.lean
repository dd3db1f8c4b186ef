import Dalvik.Descriptor.Basic
import Dalvik.Header.Basic

/-!
# Interchange form

Descriptors, primitive types, stages and headers as structured values that other programs exchange.
A choice is named by its tag, alone or as the only key of a record; the fields of a record come in
any order, and unknown ones are passed over.
-/

namespace Dalvik.Interchange

/-- A structured value. A number is `mantissa` over a power of ten. -/
inductive Value where
  | null
  | bool (value : Bool)
  | number (mantissa : Int) (decimals : Nat)
  | text (value : String)
  | list (items : List Value)
  | record (fields : List (String × Value))
  deriving Repr, Inhabited

namespace Value

def natural (n : Nat) : Value :=
  number n 0

/-- A number without decimals in the range from zero to `limit`, both ends included. -/
def natural? (limit : Nat) : Value → Option Nat
  | number mantissa 0 =>
    if 0 ≤ mantissa ∧ mantissa ≤ limit then some mantissa.toNat else none
  | _ => none

def word? (value : Value) : Option UInt32 :=
  (value.natural? 0xffffffff).map UInt32.ofNat

def byte? (value : Value) : Option UInt8 :=
  (value.natural? 0xff).map UInt8.ofNat

/-- A list of exactly `size` bytes. -/
def block? (size : Nat) : Value → Option (Vector UInt8 size)
  | list items => do
    let bytes ← items.mapM byte?
    if h : bytes.length = size then some ⟨bytes.toArray, by simpa using h⟩ else none
  | _ => none

def ofBlock {size : Nat} (block : Vector UInt8 size) : Value :=
  list (block.toList.map fun byte => natural byte.toNat)

/-- The tag of a choice that carries nothing. -/
def tag? : Value → Option String
  | text tag => some tag
  | record [(tag, null)] => some tag
  | _ => none

end Value

open Value

/-- The choice among `all` whose name is the tag of a value. -/
def choice? {α : Type} (all : List α) (name : α → String) (value : Value) : Option α := do
  let tag ← value.tag?
  all.find? fun candidate => name candidate == tag

/-- The tag of a primitive type. -/
def primitiveTag : Primitive → String
  | .boolean => "Boolean"
  | .byte => "Byte"
  | .char => "Char"
  | .double => "Double"
  | .float => "Float"
  | .int => "Int"
  | .long => "Long"
  | .short => "Short"
  | .void => "Void"

/-- The tag of a stage. -/
def stageTag : Stage → String
  | .unparsed => "Unparsed"
  | .headerValidated => "HeaderValidated"
  | .stringsResolved => "StringsResolved"
  | .typesResolved => "TypesResolved"
  | .protosResolved => "ProtosResolved"
  | .fieldsResolved => "FieldsResolved"
  | .methodsResolved => "MethodsResolved"
  | .ready => "Ready"
  | .failed => "Failed"

def ofPrimitive (kind : Primitive) : Value :=
  text (primitiveTag kind)

def primitive? : Value → Option Primitive :=
  choice? Primitive.all primitiveTag

def ofStage (stage : Stage) : Value :=
  text (stageTag stage)

def stage? : Value → Option Stage :=
  choice? Stage.all stageTag

def ofDescriptor : Descriptor → Value
  | .primitive kind => record [("Primitive", record [("kind", ofPrimitive kind)])]
  | .classRef name => record [("ClassRef", record [("name", text name)])]
  | .array element => record [("Array", record [("element", ofDescriptor element)])]
  | .unknown raw => record [("Unknown", record [("raw", text raw)])]

/-- The text in a field of a record. -/
def textField? (name : String) (fields : List (String × Value)) : Option String :=
  match fields.lookup name with
  | some (text value) => some value
  | _ => none

mutual

def descriptor? : Value → Option Descriptor
  | record [(tag, record fields)] =>
    if tag = "Primitive" then ((fields.lookup "kind").bind primitive?).map .primitive
    else if tag = "ClassRef" then (textField? "name" fields).map .classRef
    else if tag = "Array" then (element? fields).map .array
    else if tag = "Unknown" then (textField? "raw" fields).map .unknown
    else none
  | _ => none

/-- The descriptor in the field for the elements of an array. -/
def element? : List (String × Value) → Option Descriptor
  | [] => none
  | (name, value) :: fields =>
    if name = "element" then descriptor? value else element? fields

end

/-- The names of the fields of a header, in the order of the file. -/
def headerFields : List String :=
  ["magic", "checksum", "signature", "file_size", "header_size", "endian_tag", "link_size",
    "link_off", "map_off", "string_ids_size", "string_ids_off", "type_ids_size", "type_ids_off",
    "proto_ids_size", "proto_ids_off", "field_ids_size", "field_ids_off", "method_ids_size",
    "method_ids_off", "class_defs_size", "class_defs_off", "data_size", "data_off"]

/-- The size and the offset as two values. -/
def ofPlacement (placement : Placement) : List Value :=
  [natural placement.size.toNat, natural placement.offset.toNat]

/-- The values of the fields of a header, in the order of the file. -/
def headerValues (header : Header) : List Value :=
  [ofBlock header.magic, natural header.checksum.toNat, ofBlock header.signature,
    natural header.fileSize.toNat, natural header.headerSize.toNat,
    natural header.endianTag.toNat] ++
    ofPlacement header.link ++ [natural header.mapOffset.toNat] ++ ofPlacement header.stringIds ++
    ofPlacement header.typeIds ++ ofPlacement header.protoIds ++ ofPlacement header.fieldIds ++
    ofPlacement header.methodIds ++ ofPlacement header.classDefs ++ ofPlacement header.data

def ofHeader (header : Header) : Value :=
  record (headerFields.zip (headerValues header))

def placement? (size offset : Value) : Option Placement := do
  return { size := ← size.word?, offset := ← offset.word? }

/-- A header from the values of its fields in the order of the file. -/
def headerOfValues? : List Value → Option Header
  | [magic, checksum, signature, fileSize, headerSize, endianTag, linkSize, linkOffset, mapOffset,
      stringSize, stringOffset, typeSize, typeOffset, protoSize, protoOffset, fieldSize,
      fieldOffset, methodSize, methodOffset, classSize, classOffset, dataSize, dataOffset] => do
    return {
      magic := ← magic.block? 8
      checksum := ← checksum.word?
      signature := ← signature.block? 20
      fileSize := ← fileSize.word?
      headerSize := ← headerSize.word?
      endianTag := ← endianTag.word?
      link := ← placement? linkSize linkOffset
      mapOffset := ← mapOffset.word?
      stringIds := ← placement? stringSize stringOffset
      typeIds := ← placement? typeSize typeOffset
      protoIds := ← placement? protoSize protoOffset
      fieldIds := ← placement? fieldSize fieldOffset
      methodIds := ← placement? methodSize methodOffset
      classDefs := ← placement? classSize classOffset
      data := ← placement? dataSize dataOffset }
  | _ => none

/-- A header from a record, or from a list of the values of its fields. -/
def header? : Value → Option Header
  | record fields => (headerFields.mapM fun name => fields.lookup name).bind headerOfValues?
  | list items => headerOfValues? items
  | _ => none

theorem primitive?_ofPrimitive (kind : Primitive) : primitive? (ofPrimitive kind) = some kind := by
  cases kind <;> rfl

theorem stage?_ofStage (stage : Stage) : stage? (ofStage stage) = some stage := by
  cases stage <;> rfl

/-- A descriptor survives the exchange, however it was built. -/
theorem descriptor?_ofDescriptor (descriptor : Descriptor) :
    descriptor? (ofDescriptor descriptor) = some descriptor := by
  induction descriptor with
  | primitive kind =>
      simp [ofDescriptor, descriptor?, primitive?_ofPrimitive]
  | classRef name => simp [ofDescriptor, descriptor?, textField?]
  | array element ih => simp [ofDescriptor, descriptor?, element?, ih]
  | unknown raw => simp [ofDescriptor, descriptor?, textField?]

end Dalvik.Interchange
