import Std.Data.TreeMap

/-!
# First positions

For a list with repetitions, the position at which each of its elements first stands.
-/

namespace Dalvik

/-- A map from keys to positions in a list. -/
abbrev FirstIndex (κ : Type) [Ord κ] := Std.TreeMap κ Nat

namespace FirstIndex

variable {κ : Type} [Ord κ]

/-- Adds the elements of a list that starts at a position, without moving those already there. -/
def extend : (keys : List κ) → (position : Nat) → FirstIndex κ → FirstIndex κ
  | [], _, index => index
  | key :: keys, position, index => extend keys (position + 1) (index.insertIfNew key position)

/-- The first position of each element of a list. -/
def ofList (keys : List κ) : FirstIndex κ :=
  extend keys 0 ∅

end FirstIndex

end Dalvik
