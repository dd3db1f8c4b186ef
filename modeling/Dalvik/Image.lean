import Dalvik.Layout
import Dalvik.Listing
import Dalvik.Pool.Classes

/-!
# Images

A dex file that has been read completely. Every reference in it can be followed.
-/

namespace Dalvik

/-- A complete file: its bytes, the header and layout, the six pools, and what was noted while they
were read. -/
structure Image where
  input : Bytes
  header : Header
  layout : Layout
  strings : Pool.Strings
  types : Pool.Types
  protos : Pool.Protos
  fields : Pool.Fields
  methods : Pool.Methods
  classes : Pool.Classes
  journal : Journal

namespace Image

def diagnostics (image : Image) : List Diagnostic :=
  image.journal.diagnostics

/-- The text of a string. -/
def stringAt (image : Image) (index : Nat) : Except Failure String :=
  image.strings.text index

def typeAt (image : Image) (index : Nat) : Except Failure Descriptor :=
  image.types.descriptor index

/-- The written form of a prototype, such as `(I[J)V`. -/
def protoText (image : Image) (index : Nat) : Except Failure String := do
  (← image.protos.get index).descriptor image.types

/-- A field with its class and its type. -/
def fieldText (image : Image) (index : Nat) : Except Failure String := do
  let field ← image.fields.get index
  let classType ← image.types.descriptor field.classType
  let name ← image.strings.text field.name
  let type ← image.types.descriptor field.type
  return s!"{classType.text}->{name}:{type.text}"

/-- A method with its class and its prototype. -/
def methodText (image : Image) (index : Nat) : Except Failure String := do
  let method ← image.methods.get index
  let classType ← image.types.descriptor method.classType
  let name ← image.strings.text method.name
  let proto ← image.protoText method.proto
  return s!"{classType.text}->{name}{proto}"

/-- The definition of the class that a descriptor names. -/
def classNamed? (image : Image) (descriptor : String) : Option ClassItem :=
  (image.types.find? descriptor).bind image.classes.ofType?

/-- The readable form of the strings and the types. -/
def listing (image : Image) : String :=
  image.strings.listing ++ image.types.listing

/-- The markup form of the strings and the types. -/
def markup (image : Image) : String :=
  "<dex>\n" ++ image.strings.markup ++ image.types.markup ++ "</dex>\n"

end Image

end Dalvik
