import Dalvik.AccessFlags
import Dalvik.Pool.Members

/-!
# Class data

The fields and methods that a class defines, in four lists. Only variable-length numbers are stored:
the four counts, then for each entry the difference of its index from the entry before in the same
list, its flags and, for a method, the offset of its code.
-/

namespace Dalvik

/-- A field that a class defines. -/
structure DefinedField where
  field : Nat
  flags : AccessFlags
  deriving DecidableEq, Repr

/-- A method that a class defines; the offset of its code is zero if it has none. -/
structure DefinedMethod where
  method : Nat
  flags : AccessFlags
  codeOffset : Nat
  deriving DecidableEq, Repr

/-- What a class defines. -/
structure ClassData where
  staticFields : List DefinedField := []
  instanceFields : List DefinedField := []
  directMethods : List DefinedMethod := []
  virtualMethods : List DefinedMethod := []
  deriving DecidableEq, Repr

namespace ClassData

variable {α : Type}

/-- The static fields, then the instance fields. -/
def fields (data : ClassData) : List DefinedField :=
  data.staticFields ++ data.instanceFields

/-- The direct methods, then the virtual methods. -/
def methods (data : ClassData) : List DefinedMethod :=
  data.directMethods ++ data.virtualMethods

/-- The index that stands `difference` after `last`, if it fits 32 bits and is below `size`. -/
def indexAfter (list : MemberList) (size last difference : Nat) : Decode Nat :=
  let index := last + difference
  if 0x100000000 ≤ index then Decode.fail (.memberOverflow list)
  else if size ≤ index then Decode.fail (.memberOutOfRange list index size)
  else pure index

/-- Takes `count` entries of a list whose last entry had the index `last`, and adds them to those in
`done`. The step `entry` takes what follows the index of an entry. -/
def readMembers (list : MemberList) (size : Nat) (entry : Nat → Decode α) :
    (count last : Nat) → (done : Array α) → Decode (Array α)
  | 0, _, done => pure done
  | count + 1, last, done => do
    let index ← indexAfter list size last (← Decode.uleb128)
    let member ← entry index
    readMembers list size entry count index (done.push member)

/-- Takes a set of flags. -/
def readFlags : Decode AccessFlags := do
  return ⟨UInt32.ofNat (← Decode.uleb128)⟩

/-- Takes what follows the index of a field. -/
def readField (field : Nat) : Decode DefinedField := do
  let flags ← readFlags
  return { field, flags }

/-- Takes what follows the index of a method. The code has to start within the input. -/
def readMethod (list : MemberList) (method : Nat) : Decode DefinedMethod := do
  let flags ← readFlags
  let codeOffset ← Decode.uleb128
  let length ← Decode.length
  if length ≤ codeOffset then Decode.fail (.codeOutside list method codeOffset)
  else return { method, flags, codeOffset }

/-- Takes a list of fields out of `size` fields. -/
def readFields (list : MemberList) (size count : Nat) : Decode (List DefinedField) := do
  return (← readMembers list size readField count 0 #[]).toList

/-- Takes a list of methods out of `size` methods. -/
def readMethods (list : MemberList) (size count : Nat) : Decode (List DefinedMethod) := do
  return (← readMembers list size (readMethod list) count 0 #[]).toList

/-- Takes class data that refers to `fields` fields and `methods` methods. -/
def read (fields methods : Nat) : Decode ClassData := do
  let staticCount ← Decode.uleb128
  let instanceCount ← Decode.uleb128
  let directCount ← Decode.uleb128
  let virtualCount ← Decode.uleb128
  let staticFields ← readFields .staticFields fields staticCount
  let instanceFields ← readFields .instanceFields fields instanceCount
  let directMethods ← readMethods .directMethods methods directCount
  let virtualMethods ← readMethods .virtualMethods methods virtualCount
  return { staticFields, instanceFields, directMethods, virtualMethods }

end ClassData

end Dalvik
