import Dalvik.Pool.Types

/-!
# The prototype pool

The signatures of methods: a return type, parameter types and a short form that spells each type
with one letter. The short form is stored on its own, and may disagree with the types.
-/

namespace Dalvik

/-- A prototype by its references. -/
structure ProtoItem where
  shorty : Nat
  returnType : Nat
  /-- Where the list of parameters is; zero if there are none. -/
  parametersOffset : Nat
  parameters : List Nat
  deriving DecidableEq, Repr

abbrev Pool.Protos := Pool.References ProtoItem

namespace ProtoItem

/-- The written form: the parameters in parentheses, then the return type. -/
def descriptor (item : ProtoItem) (types : Pool.Types) : Except Failure String := do
  let parameters ← item.parameters.mapM types.descriptor
  let returnType ← types.descriptor item.returnType
  return "(" ++ String.join (parameters.map Descriptor.text) ++ ")" ++ returnType.text

/-- The letters of some types, or none if one of them has none. The types after that one are not
looked up. -/
def letters (types : Pool.Types) : List Nat → Except Failure (Option (List Char))
  | [] => .ok (some [])
  | index :: indices => do
    match (← types.descriptor index).shorty? with
    | none => return none
    | some letter => return (← letters types indices).map (letter :: ·)

/-- The short form that the types give: the return type, then the parameters. -/
def shortyOfTypes (item : ProtoItem) (types : Pool.Types) : Except Failure (Option String) := do
  let spelled ← letters types (item.returnType :: item.parameters)
  return spelled.map String.ofList

/-- The disagreement between the stored short form and the types, if there is one. -/
def anomaly? (item : ProtoItem) (strings : Pool.Strings) (types : Pool.Types) (index : Nat) :
    Except Failure (Option Anomaly) := do
  match ← item.shortyOfTypes types with
  | none => return none
  | some expected =>
    let stored ← strings.text item.shorty
    return if stored = expected then none else some (.shorty index stored expected)

/-- An item of the prototype table as it is stored. -/
structure Stored where
  shorty : Nat
  returnType : Nat
  parametersOffset : Nat
  deriving DecidableEq, Repr

/-- Takes the words of an item. -/
def Stored.read : Decode Stored := do
  let shorty ← Decode.u32
  let returnType ← Decode.u32
  let parametersOffset ← Decode.u32
  return { shorty, returnType, parametersOffset }

/-- Checks the references of a stored item and takes its parameters from where they are. -/
def ofStored (strings : Pool.Strings) (types : Pool.Types) (index : Nat) (stored : Stored) :
    Decode ProtoItem := do
  let source := Referrer.item .protos index
  Decode.checkReference source .strings strings.size stored.shorty
  Decode.checkReference source .types types.size stored.returnType
  let parameters ← Decode.typeListAt types.size stored.parametersOffset (.item .protos index)
  return {
    shorty := stored.shorty, returnType := stored.returnType,
    parametersOffset := stored.parametersOffset, parameters }

/-- Takes an item of the prototype table, and notes a disagreement in it. -/
def readAt (strings : Pool.Strings) (types : Pool.Types) (index : Nat) : Decode ProtoItem := do
  let item ← ofStored strings types index (← Stored.read)
  match ← (item.anomaly? strings types index : Except Failure _) with
  | some anomaly => Reporting.warn anomaly
  | none => pure ()
  return item

end ProtoItem

/-- Reads the prototype table and the parameter lists that it places. -/
def Pool.Protos.read (strings : Pool.Strings) (types : Pool.Types) (count offset : Nat) :
    Decode Pool.Protos :=
  Pool.References.read .protos count offset (ProtoItem.readAt strings types)

end Dalvik
