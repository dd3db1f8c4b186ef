import Dalvik.Decode.Cursor

/-!
# References

Items refer to each other by index. An index is checked when it is read, so that every reference of
a complete pool can be followed; a lookup from outside can still ask for an item that is not there.
-/

namespace Dalvik

/-- The item at an index, or a failure that says how many there are. -/
def itemAt {α : Type} (label plural : String) (items : Array α) (index : Nat) :
    Except Failure α :=
  match items[index]? with
  | some item => .ok item
  | none => .error { fault := .noSuchItem label index items.size plural }

/-- An index that stands for none. -/
def noIndex : Nat := 0xffffffff

namespace Decode

/-- Fails unless the table that an index refers to has that many items. -/
def checkReference (source : Referrer) (target : Table) (size index : Nat) : Decode Unit :=
  if index < size then pure ()
  else fail (.dangling source target index size)

/-- Checks an index that may stand for none. -/
def optionalReference (source : Referrer) (target : Table) (size index : Nat) :
    Decode (Option Nat) := do
  if index = noIndex then return none
  else
    checkReference source target size index
    return some index

/-- Takes a reference in a type list that starts at an offset. -/
def typeListEntry (types start entry : Nat) : Decode Nat := do
  let index ← u16
  checkReference (.typeListEntry entry start) .types types index
  return index

/-- Takes a list of references to `types` types: a count, then as many 16-bit indices. -/
def typeList (types : Nat) : Decode (List Nat) := do
  let start ← position
  let size ← u32
  let left ← remaining
  if left < size * 2 then fail (.typeListTooLong start size)
  else return (← tabulate size (typeListEntry types start)).toList

/-- Takes the type list at an offset, where the offset zero stands for an empty one. -/
def typeListAt (types offset : Nat) (context : Context) : Decode (List Nat) :=
  if offset = 0 then pure []
  else within context (atOffset offset (typeList types))

end Decode

/-- The items of a table that holds nothing but references. A pool that was read from no table has
no name of its own. -/
structure Pool.References (α : Type) where
  table : Option Table := none
  items : Array α := #[]

namespace Pool.References

variable {α : Type}

def size (pool : Pool.References α) : Nat :=
  pool.items.size

/-- What one item is called in failures. -/
def label (pool : Pool.References α) : String :=
  match pool.table with
  | some table => table.itemName
  | none => "id"

def get (pool : Pool.References α) (index : Nat) : Except Failure α :=
  itemAt pool.label "items" pool.items index

/-- Reads the pool of a table. -/
def read (table : Table) (count offset : Nat) (item : Nat → Decode α) :
    Decode (Pool.References α) := do
  let items ← Decode.table table count offset item
  Reporting.record (.poolFinished table items.size)
  return { table := some table, items }

end Pool.References

end Dalvik
