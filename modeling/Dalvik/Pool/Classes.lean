import Dalvik.ClassData

/-!
# The class pool

The classes that a file defines. A type may be defined more than once; the first definition is the
one that counts.
-/

namespace Dalvik

/-- The definition of a class. -/
structure ClassItem where
  type : Nat
  flags : AccessFlags
  superclass : Option Nat
  interfaces : List Nat
  sourceFile : Option Nat
  annotationsOffset : Nat
  data : Option ClassData
  staticValuesOffset : Nat
  deriving DecidableEq, Repr

/-- The pools that a class definition refers to. -/
structure ClassItem.Pools where
  strings : Pool.Strings
  types : Pool.Types
  fields : Pool.Fields
  methods : Pool.Methods

namespace ClassItem

def isInterface (item : ClassItem) : Bool :=
  item.flags.isInterface

/-- What is odd about a class definition in an input of `length` bytes, in the order in which it is
reported. -/
def anomalies (item : ClassItem) (index length : Nat) : List Anomaly :=
  let annotations :=
    if length ≤ item.annotationsOffset then
      [Anomaly.annotationsOutside index item.annotationsOffset] else []
  let staticValues :=
    if length ≤ item.staticValuesOffset then
      [Anomaly.staticValuesOutside index item.staticValuesOffset] else []
  let superclass := if item.superclass = some item.type then [Anomaly.ownSuperclass index] else []
  annotations ++ staticValues ++ superclass

/-- Takes the class data at an offset, where the offset zero stands for none. -/
def readData (pools : Pools) (index offset : Nat) : Decode (Option ClassData) := do
  if offset = 0 then return none
  else
    let step := Decode.atOffset offset (ClassData.read pools.fields.size pools.methods.size)
    return some (← Decode.within (.membersOf index) step)

/-- An item of the class table as it is stored. -/
structure Stored where
  type : Nat
  flags : UInt32
  superclass : Nat
  interfacesOffset : Nat
  sourceFile : Nat
  annotationsOffset : Nat
  dataOffset : Nat
  staticValuesOffset : Nat
  deriving DecidableEq, Repr

/-- Takes the words of an item. -/
def Stored.read : Decode Stored := do
  let type ← Decode.u32
  let flags ← Decode.word
  let superclass ← Decode.u32
  let interfacesOffset ← Decode.u32
  let sourceFile ← Decode.u32
  let annotationsOffset ← Decode.u32
  let dataOffset ← Decode.u32
  let staticValuesOffset ← Decode.u32
  return {
    type, flags, superclass, interfacesOffset, sourceFile, annotationsOffset, dataOffset,
    staticValuesOffset }

/-- Checks the references of a stored item, then takes its interfaces and its class data from where
they are. -/
def ofStored (pools : Pools) (index : Nat) (stored : Stored) : Decode ClassItem := do
  let source := Referrer.item .classes index
  let types := pools.types.size
  Decode.checkReference source .types types stored.type
  let superclass ← Decode.optionalReference source .types types stored.superclass
  let sourceFile ←
    Decode.optionalReference source .strings pools.strings.size stored.sourceFile
  let interfaces ← Decode.typeListAt types stored.interfacesOffset (.interfacesOf index)
  let data ← readData pools index stored.dataOffset
  return {
    type := stored.type, flags := ⟨stored.flags⟩, superclass, interfaces, sourceFile,
    annotationsOffset := stored.annotationsOffset, data
    staticValuesOffset := stored.staticValuesOffset }

/-- Takes an item of the class table, and notes what is odd about it. -/
def readAt (pools : Pools) (index : Nat) : Decode ClassItem := do
  let item ← ofStored pools index (← Stored.read)
  let length ← Decode.length
  (item.anomalies index length).forM fun anomaly => Reporting.warn anomaly
  return item

end ClassItem

/-- The classes of a file, with an index from types to the first definition. -/
structure Pool.Classes where
  items : Array ClassItem := #[]
  byType : FirstIndex Nat := ∅

namespace Pool.Classes

def ofItems (items : Array ClassItem) : Pool.Classes :=
  { items, byType := FirstIndex.ofList (items.toList.map ClassItem.type) }

/-- The types that a definition after the first is given for, once per such definition. -/
def redefinitions (pool : Pool.Classes) : List Nat :=
  (pool.items.toList.zipIdx.filter fun (item, index) =>
    pool.byType[item.type]? != some index).map fun (item, _) => item.type

/-- Reads the class table and everything that it places. -/
def read (pools : ClassItem.Pools) (count offset : Nat) : Decode Pool.Classes := do
  let items ← Decode.table .classes count offset (ClassItem.readAt pools)
  let pool := ofItems items
  pool.redefinitions.forM fun type => Reporting.warn (.redefined type)
  Reporting.record (.poolFinished .classes items.size)
  return pool

def size (pool : Pool.Classes) : Nat :=
  pool.items.size

def get (pool : Pool.Classes) (index : Nat) : Except Failure ClassItem :=
  itemAt Table.classes.itemName Table.classes.plural pool.items index

/-- The definition that counts for a type. -/
def ofType? (pool : Pool.Classes) (type : Nat) : Option ClassItem :=
  pool.byType[type]?.bind fun index => pool.items[index]?

end Pool.Classes

end Dalvik
