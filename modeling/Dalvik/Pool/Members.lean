import Dalvik.Pool.Protos

/-!
# The field and method pools

The fields and methods that a file mentions, by their class, their type or prototype, and their
name.
-/

namespace Dalvik

/-- A field by its references. -/
structure FieldItem where
  classType : Nat
  type : Nat
  name : Nat
  deriving DecidableEq, Repr

/-- A method by its references. -/
structure MethodItem where
  classType : Nat
  proto : Nat
  name : Nat
  deriving DecidableEq, Repr

abbrev Pool.Fields := Pool.References FieldItem

abbrev Pool.Methods := Pool.References MethodItem

namespace FieldItem

/-- Takes the words of an item. -/
def read : Decode FieldItem := do
  let classType ← Decode.u16
  let type ← Decode.u16
  let name ← Decode.u32
  return { classType, type, name }

/-- Fails unless all references of an item can be followed. -/
def check (strings : Pool.Strings) (types : Pool.Types) (index : Nat) (item : FieldItem) :
    Decode Unit := do
  let source := Referrer.item .fields index
  Decode.checkReference source .types types.size item.classType
  Decode.checkReference source .types types.size item.type
  Decode.checkReference source .strings strings.size item.name

/-- Takes an item of the field table. -/
def readAt (strings : Pool.Strings) (types : Pool.Types) (index : Nat) : Decode FieldItem := do
  let item ← read
  item.check strings types index
  return item

end FieldItem

/-- Reads the field table. -/
def Pool.Fields.read (strings : Pool.Strings) (types : Pool.Types) (count offset : Nat) :
    Decode Pool.Fields :=
  Pool.References.read .fields count offset (FieldItem.readAt strings types)

namespace MethodItem

/-- Takes the words of an item. -/
def read : Decode MethodItem := do
  let classType ← Decode.u16
  let proto ← Decode.u16
  let name ← Decode.u32
  return { classType, proto, name }

/-- Fails unless all references of an item can be followed. -/
def check (strings : Pool.Strings) (types : Pool.Types) (protos : Pool.Protos) (index : Nat)
    (item : MethodItem) : Decode Unit := do
  let source := Referrer.item .methods index
  Decode.checkReference source .types types.size item.classType
  Decode.checkReference source .protos protos.size item.proto
  Decode.checkReference source .strings strings.size item.name

/-- Takes an item of the method table. -/
def readAt (strings : Pool.Strings) (types : Pool.Types) (protos : Pool.Protos) (index : Nat) :
    Decode MethodItem := do
  let item ← read
  item.check strings types protos index
  return item

end MethodItem

/-- Reads the method table. -/
def Pool.Methods.read (strings : Pool.Strings) (types : Pool.Types) (protos : Pool.Protos)
    (count offset : Nat) : Decode Pool.Methods :=
  Pool.References.read .methods count offset (MethodItem.readAt strings types protos)

end Dalvik
