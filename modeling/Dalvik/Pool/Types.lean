import Dalvik.Descriptor.Basic
import Dalvik.Pool.Strings

/-!
# The type pool

The types of a file. An item of the table is the index of the string that holds the descriptor.
-/

namespace Dalvik

/-- A type of a file: its own index, the index of its string, and what the string spells. -/
structure TypeItem where
  index : Nat
  stringIndex : Nat
  descriptor : Descriptor
  deriving DecidableEq, Repr

namespace TypeItem

/-- Whether the type is malformed, alone or as the element of an array. -/
def isMalformed (item : TypeItem) : Bool :=
  item.descriptor.leaf.isUnknown

/-- Takes an item of the type table. -/
def readAt (strings : Pool.Strings) (arrayLimit index : Nat) : Decode TypeItem := do
  let stringIndex ← Decode.within (.item .types index) Decode.u32
  match strings.items[stringIndex]? with
  | none =>
    Decode.fail (.dangling (.item .types index) .strings stringIndex strings.size)
  | some string =>
    let item : TypeItem :=
      { index, stringIndex, descriptor := Descriptor.ofText string.text arrayLimit }
    if item.isMalformed then
      Reporting.warn (.malformedType index item.descriptor.text)
    return item

end TypeItem

/-- The types of a file, with an index from descriptors to positions. -/
structure Pool.Types where
  items : Array TypeItem := #[]
  byDescriptor : FirstIndex String := ∅

namespace Pool.Types

/-- The pool of some types whose descriptors are the texts of strings. -/
def ofItems (strings : Pool.Strings) (items : Array TypeItem) : Pool.Types :=
  let texts := items.toList.map fun item =>
    (strings.items[item.stringIndex]?.map StringItem.text).getD ""
  { items, byDescriptor := FirstIndex.ofList texts }

/-- Reads the type table. -/
def read (strings : Pool.Strings) (arrayLimit count offset : Nat) : Decode Pool.Types := do
  let items ← Decode.table .types count offset (TypeItem.readAt strings arrayLimit)
  Reporting.record (.poolFinished .types items.size)
  return ofItems strings items

def size (pool : Pool.Types) : Nat :=
  pool.items.size

def get (pool : Pool.Types) (index : Nat) : Except Failure TypeItem :=
  itemAt Table.types.itemName Table.types.plural pool.items index

/-- The type at an index. -/
def descriptor (pool : Pool.Types) (index : Nat) : Except Failure Descriptor :=
  (pool.get index).map TypeItem.descriptor

/-- The lowest index of a descriptor. -/
def find? (pool : Pool.Types) (descriptor : String) : Option Nat :=
  pool.byDescriptor[descriptor]?

/-- The descriptors as they are written, in file order. -/
def texts (pool : Pool.Types) : List String :=
  pool.items.toList.map fun item => item.descriptor.text

end Pool.Types

end Dalvik
