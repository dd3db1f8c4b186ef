import Dalvik.Pool.Classes
import Dalvik.Proofs.RandomAccess

/-!
# What is stored where

The parts of a file as they stand in the input, each at an absolute offset. A number that refers to
an item of a table is stored only if that table has so many items.
-/

namespace Dalvik

/-- A list of references to `types` types at an offset: the size, then so many 16-bit indices. -/
structure Bytes.HoldsTypes (input : Bytes) (types offset : Nat) (list : List Nat) : Prop where
  length : input.u32At? offset = some list.length
  entry : ∀ index (h : index < list.length),
    input.u16At? (offset + 4 + 2 * index) = some list[index]
  entry_lt : ∀ type ∈ list, type < types

/-- The list of references at an offset, where the offset zero stands for an empty one. -/
def Bytes.HoldsTypesOrNone (input : Bytes) (types offset : Nat) (list : List Nat) : Prop :=
  if offset = 0 then list = [] else input.HoldsTypes types offset list

/-- The reference that a stored index makes, if it makes one. -/
def reference? (index : Nat) : Option Nat :=
  if index = noIndex then none else some index

/-- String data at an offset: the declared length, then the bytes before the next NUL. -/
def StringItem.DataAt (input : Bytes) (offset : Nat) (item : StringItem) : Prop :=
  ∃ unitCount next bytes, input.uleb128At? offset = some (unitCount, next) ∧
    input.untilNul next = some bytes ∧ item = StringItem.ofBytes unitCount bytes

/-- An item of the string table: the offset of string data within the input. -/
def StringItem.StoredAt (input : Bytes) (pos : Nat) (item : StringItem) : Prop :=
  ∃ offset, input.u32At? pos = some offset ∧ offset < input.size ∧ item.DataAt input offset

/-- An item of the type table: the index of the string that spells the type. -/
structure TypeItem.StoredAt (input : Bytes) (strings : Pool.Strings) (arrayLimit index pos : Nat)
    (item : TypeItem) : Prop where
  index_eq : item.index = index
  stringIndex : input.u32At? pos = some item.stringIndex
  descriptor : ∃ string, strings.items[item.stringIndex]? = some string ∧
    item.descriptor = Descriptor.ofText string.text arrayLimit

/-- An item of the prototype table: three words, the last of them the offset of the parameters. -/
structure ProtoItem.StoredAt (input : Bytes) (strings types pos : Nat) (item : ProtoItem) :
    Prop where
  shorty : input.u32At? pos = some item.shorty
  shorty_lt : item.shorty < strings
  returnType : input.u32At? (pos + 4) = some item.returnType
  returnType_lt : item.returnType < types
  parametersOffset : input.u32At? (pos + 8) = some item.parametersOffset
  parameters : input.HoldsTypesOrNone types item.parametersOffset item.parameters

/-- An item of the field table: two half words and a word. -/
structure FieldItem.StoredAt (input : Bytes) (strings types pos : Nat) (item : FieldItem) :
    Prop where
  classType : input.u16At? pos = some item.classType
  classType_lt : item.classType < types
  type : input.u16At? (pos + 2) = some item.type
  type_lt : item.type < types
  name : input.u32At? (pos + 4) = some item.name
  name_lt : item.name < strings

/-- An item of the method table: two half words and a word. -/
structure MethodItem.StoredAt (input : Bytes) (strings types protos pos : Nat)
    (item : MethodItem) : Prop where
  classType : input.u16At? pos = some item.classType
  classType_lt : item.classType < types
  proto : input.u16At? (pos + 2) = some item.proto
  proto_lt : item.proto < protos
  name : input.u32At? (pos + 4) = some item.name
  name_lt : item.name < strings

/-- Variable-length numbers, one after another from one offset to another. -/
def Bytes.HoldsNumbers (input : Bytes) : (pos : Nat) → List Nat → (stop : Nat) → Prop
  | pos, [], stop => stop = pos
  | pos, value :: values, stop =>
    ∃ next, input.uleb128At? pos = some (value, next) ∧ input.HoldsNumbers next values stop

/-- The numbers that follow the index of a field. -/
def DefinedField.details (field : DefinedField) : List Nat :=
  [field.flags.bits.toNat]

/-- The numbers that follow the index of a method. -/
def DefinedMethod.details (method : DefinedMethod) : List Nat :=
  [method.flags.bits.toNat, method.codeOffset]

namespace ClassData

/-- The numbers that a list of members is stored as: the difference of each index from the one
before it, and what follows the index. -/
def memberNumbers {α : Type} (index : α → Nat) (details : α → List Nat) :
    (last : Nat) → List α → List Nat
  | _, [] => []
  | last, member :: members =>
    (index member - last) :: details member ++ memberNumbers index details (index member) members

def fieldNumbers : List DefinedField → List Nat :=
  memberNumbers DefinedField.field DefinedField.details 0

def methodNumbers : List DefinedMethod → List Nat :=
  memberNumbers DefinedMethod.method DefinedMethod.details 0

/-- The numbers that class data is stored as: the sizes of the four lists, then the lists. -/
def numbers (data : ClassData) : List Nat :=
  [data.staticFields.length, data.instanceFields.length, data.directMethods.length,
    data.virtualMethods.length] ++ fieldNumbers data.staticFields ++
    fieldNumbers data.instanceFields ++ methodNumbers data.directMethods ++
    methodNumbers data.virtualMethods

/-- Fields in the order of their indices, all of them below `fields`. -/
structure FieldsInRange (fields : Nat) (list : List DefinedField) : Prop where
  sorted : (list.map DefinedField.field).Pairwise (· ≤ ·)
  field_lt : ∀ member ∈ list, member.field < fields

/-- Methods in the order of their indices, all of them below `methods`, with code in an input of
`length` bytes. -/
structure MethodsInRange (methods length : Nat) (list : List DefinedMethod) : Prop where
  sorted : (list.map DefinedMethod.method).Pairwise (· ≤ ·)
  method_lt : ∀ member ∈ list, member.method < methods
  codeOffset_lt : ∀ member ∈ list, member.codeOffset < length

/-- Class data that refers to `fields` fields and `methods` methods. -/
structure InRange (fields methods length : Nat) (data : ClassData) : Prop where
  staticFields : FieldsInRange fields data.staticFields
  instanceFields : FieldsInRange fields data.instanceFields
  directMethods : MethodsInRange methods length data.directMethods
  virtualMethods : MethodsInRange methods length data.virtualMethods

instance (fields : Nat) (list : List DefinedField) : Decidable (FieldsInRange fields list) :=
  decidable_of_iff
    ((list.map DefinedField.field).Pairwise (· ≤ ·) ∧ ∀ member ∈ list, member.field < fields)
    ⟨fun ⟨sorted, field_lt⟩ => ⟨sorted, field_lt⟩, fun h => ⟨h.sorted, h.field_lt⟩⟩

instance (methods length : Nat) (list : List DefinedMethod) :
    Decidable (MethodsInRange methods length list) :=
  decidable_of_iff
    ((list.map DefinedMethod.method).Pairwise (· ≤ ·) ∧ (∀ member ∈ list, member.method < methods) ∧
      ∀ member ∈ list, member.codeOffset < length)
    ⟨fun ⟨sorted, method_lt, codeOffset_lt⟩ => ⟨sorted, method_lt, codeOffset_lt⟩,
      fun h => ⟨h.sorted, h.method_lt, h.codeOffset_lt⟩⟩

instance (fields methods length : Nat) (data : ClassData) :
    Decidable (data.InRange fields methods length) :=
  decidable_of_iff
    (FieldsInRange fields data.staticFields ∧ FieldsInRange fields data.instanceFields ∧
      MethodsInRange methods length data.directMethods ∧
      MethodsInRange methods length data.virtualMethods)
    ⟨fun ⟨statics, instances, directs, virtuals⟩ => ⟨statics, instances, directs, virtuals⟩,
      fun h => ⟨h.staticFields, h.instanceFields, h.directMethods, h.virtualMethods⟩⟩

/-- Class data from one offset to another. -/
structure StoredAt (input : Bytes) (fields methods offset : Nat) (data : ClassData) (stop : Nat) :
    Prop where
  numbers : input.HoldsNumbers offset data.numbers stop
  inRange : data.InRange fields methods input.size

/-- The class data at an offset, where the offset zero stands for none. -/
def StoredOrNone (input : Bytes) (fields methods offset : Nat) (data? : Option ClassData) : Prop :=
  if offset = 0 then data? = none
  else ∃ data stop, data? = some data ∧ data.StoredAt input fields methods offset stop

end ClassData

/-- The sizes of the tables that a class definition refers to. -/
structure ClassItem.Sizes where
  strings : Nat
  types : Nat
  fields : Nat
  methods : Nat

/-- An item of the class table: eight words, two of them offsets of what stands elsewhere. -/
structure ClassItem.StoredAt (input : Bytes) (sizes : ClassItem.Sizes) (pos : Nat)
    (item : ClassItem) : Prop where
  type : input.u32At? pos = some item.type
  type_lt : item.type < sizes.types
  flags : input.u32At? (pos + 4) = some item.flags.bits.toNat
  superclass : (input.u32At? (pos + 8)).map reference? = some item.superclass
  superclass_lt : ∀ type ∈ item.superclass, type < sizes.types
  interfaces : ∃ offset, input.u32At? (pos + 12) = some offset ∧
    input.HoldsTypesOrNone sizes.types offset item.interfaces
  sourceFile : (input.u32At? (pos + 16)).map reference? = some item.sourceFile
  sourceFile_lt : ∀ string ∈ item.sourceFile, string < sizes.strings
  annotationsOffset : input.u32At? (pos + 20) = some item.annotationsOffset
  data : ∃ offset, input.u32At? (pos + 24) = some offset ∧
    ClassData.StoredOrNone input sizes.fields sizes.methods offset item.data
  staticValuesOffset : input.u32At? (pos + 28) = some item.staticValuesOffset

end Dalvik
