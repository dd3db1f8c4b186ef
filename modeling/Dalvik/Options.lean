/-!
# Options

What a caller may choose about loading. The defaults keep every limit switched on and still accept
a file whose checksum is stale.
-/

namespace Dalvik

/-- The largest number of array levels that the format allows in a descriptor. -/
def maxArrayLevels : Nat := 255

/-- The choices that a load depends on. -/
structure Options where
  /-- Longer inputs are refused before anything is read. -/
  inputLimit : Nat := 512 * 1024 * 1024
  /-- A descriptor with more array levels counts as malformed. -/
  arrayLimit : Nat := maxArrayLevels
  /-- Whether the checksum in the header is compared with the input. -/
  compareChecksum : Bool := true
  /-- Whether the signature in the header is compared with the input. -/
  compareSignature : Bool := true
  /-- Whether a header that contradicts the input is a failure and not only a warning. -/
  strict : Bool := false
  deriving DecidableEq, Repr

namespace Options

instance : Inhabited Options := ⟨{}⟩

/-- Every contradiction between header and input is a failure. -/
def strictChecks : Options :=
  { strict := true }

/-- Checksum and signature are not looked at. -/
def lenient : Options :=
  { compareChecksum := false, compareSignature := false }

def limitInput (options : Options) (limit : Nat) : Options :=
  { options with inputLimit := limit }

/-- Sets the array depth, at most to what the format allows. -/
def limitArrays (options : Options) (depth : Nat) : Options :=
  { options with arrayLimit := min depth maxArrayLevels }

end Options

end Dalvik
