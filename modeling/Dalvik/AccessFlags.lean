import Dalvik.Text.Numeral

/-!
# Access flags

The 32-bit set of modifiers of a class, a field or a method. Some bits mean different things
depending on what carries them, and so have two names.
-/

namespace Dalvik

/-- A set of modifiers; bits without a meaning are kept. -/
structure AccessFlags where
  bits : UInt32
  deriving DecidableEq, Repr

namespace AccessFlags

/-- The named flags in ascending order; of two names for one bit, the first is the one shown. -/
def declared : List (String × AccessFlags) :=
  [("PUBLIC", ⟨0x1⟩), ("PRIVATE", ⟨0x2⟩), ("PROTECTED", ⟨0x4⟩), ("STATIC", ⟨0x8⟩),
    ("FINAL", ⟨0x10⟩), ("SYNCHRONIZED", ⟨0x20⟩), ("VOLATILE", ⟨0x40⟩), ("BRIDGE", ⟨0x40⟩),
    ("TRANSIENT", ⟨0x80⟩), ("VARARGS", ⟨0x80⟩), ("NATIVE", ⟨0x100⟩), ("INTERFACE", ⟨0x200⟩),
    ("ABSTRACT", ⟨0x400⟩), ("STRICT", ⟨0x800⟩), ("SYNTHETIC", ⟨0x1000⟩),
    ("ANNOTATION", ⟨0x2000⟩), ("ENUM", ⟨0x4000⟩), ("CONSTRUCTOR", ⟨0x10000⟩),
    ("DECLARED_SYNCHRONIZED", ⟨0x20000⟩)]

/-- The flag that marks a class as an interface. -/
def interfaceFlag : AccessFlags := ⟨0x200⟩

instance : OrOp AccessFlags := ⟨fun f g => ⟨f.bits ||| g.bits⟩⟩

instance : AndOp AccessFlags := ⟨fun f g => ⟨f.bits &&& g.bits⟩⟩

/-- The flags of the first set that are not in the second. -/
instance : SDiff AccessFlags := ⟨fun f g => ⟨f.bits &&& ~~~g.bits⟩⟩

/-- Whether every flag of `g` is in `f`. -/
def contains (f g : AccessFlags) : Bool :=
  f.bits &&& g.bits == g.bits

/-- Whether the two sets share a flag. -/
def intersects (f g : AccessFlags) : Bool :=
  f.bits &&& g.bits != 0

/-- All flags that have a name. -/
def known : AccessFlags :=
  declared.foldl (fun acc (_, flag) => acc ||| flag) ⟨0⟩

/-- Leaves out the flags without a name. -/
def truncate (f : AccessFlags) : AccessFlags :=
  f &&& known

/-- The named flags that are not in the set. -/
def complement (f : AccessFlags) : AccessFlags :=
  known \ f

/-- Whether every flag of the set has a name. -/
def isKnown (f : AccessFlags) : Bool :=
  known.contains f

def ofName? (name : String) : Option AccessFlags :=
  declared.lookup name

/-- The names among `candidates` that a set is shown by, and what is left of it after them. -/
def split (f : AccessFlags) : (candidates : List (String × AccessFlags)) →
    (rest : AccessFlags) → List String × AccessFlags
  | [], rest => ([], rest)
  | (name, flag) :: candidates, rest =>
    if f.contains flag && rest.intersects flag then
      let (names, rest) := split f candidates (rest \ flag)
      (name :: names, rest)
    else split f candidates rest

/-- The names that a set is shown by. -/
def names (f : AccessFlags) : List String :=
  (f.split declared f).1

/-- The names, then the flags without one as a number. -/
def text (f : AccessFlags) : String :=
  let (names, rest) := f.split declared f
  let unnamed := "0x" ++ Text.hex rest.bits.toNat
  let items := if rest.bits = 0 && !names.isEmpty then names else names ++ [unnamed]
  let body := String.intercalate " | " items
  s!"AccessFlags({body})"

def isInterface (f : AccessFlags) : Bool :=
  f.contains interfaceFlag

end AccessFlags

end Dalvik
