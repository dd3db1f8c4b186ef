import Dalvik.Pool.FirstIndex
import Dalvik.Pool.References
import Dalvik.Text.ModifiedUtf8

/-!
# The string pool

The strings of a file with their texts decoded. An item of the table is the offset of the string
data: the length in UTF-16 units, then the text, ended by a NUL.
-/

namespace Dalvik

/-- A string as it stands in the file. -/
structure StringItem where
  /-- The number of UTF-16 units that the file declares. -/
  unitCount : Nat
  text : String
  /-- Whether the bytes were ill-formed and the text has replacements in it. -/
  lossy : Bool
  deriving DecidableEq, Repr

namespace StringItem

/-- The item with a declared length and the bytes of a text. -/
def ofBytes (unitCount : Nat) (bytes : List UInt8) : StringItem :=
  match Text.ModifiedUtf8.decode bytes with
  | some chars => ⟨unitCount, String.ofList chars, false⟩
  | none => ⟨unitCount, String.ofList (Text.Utf8.decodeLossy bytes), true⟩

/-- Takes string data. -/
def read : Decode StringItem := do
  let unitCount ← Decode.uleb128
  let bytes ← Decode.untilNul
  return ofBytes unitCount bytes

/-- What is odd about a string, if anything. -/
def anomaly? (item : StringItem) (index : Nat) : Option Anomaly :=
  let actual := Text.ModifiedUtf8.unitCount item.text.toList
  if item.lossy then some (.lossyString index)
  else if actual ≠ item.unitCount then some (.unitCount index item.unitCount actual)
  else none

/-- Takes an item of the string table, and the string data that it places. -/
def readAt (index : Nat) : Decode StringItem := do
  let offset ← Decode.u32
  let length ← Decode.length
  if length ≤ offset then
    Decode.within (.item .strings index) (Decode.fail (.stringOutside offset length))
  else
    let item ← Decode.within (.stringData index offset) (Decode.atOffset offset read)
    match item.anomaly? index with
    | some anomaly => Reporting.warn anomaly
    | none => pure ()
    return item

end StringItem

/-- The strings of a file, with an index from texts to positions. -/
structure Pool.Strings where
  items : Array StringItem := #[]
  byText : FirstIndex String := ∅

namespace Pool.Strings

def ofItems (items : Array StringItem) : Pool.Strings :=
  { items, byText := FirstIndex.ofList (items.toList.map StringItem.text) }

/-- Reads the string table and everything that it places. -/
def read (count offset : Nat) : Decode Pool.Strings := do
  let items ← Decode.table .strings count offset StringItem.readAt
  Reporting.record (.poolFinished .strings items.size)
  return ofItems items

def size (pool : Pool.Strings) : Nat :=
  pool.items.size

def get (pool : Pool.Strings) (index : Nat) : Except Failure StringItem :=
  itemAt Table.strings.itemName Table.strings.plural pool.items index

/-- The text of the string at an index. -/
def text (pool : Pool.Strings) (index : Nat) : Except Failure String :=
  (pool.get index).map StringItem.text

/-- The lowest index of a text. -/
def find? (pool : Pool.Strings) (text : String) : Option Nat :=
  pool.byText[text]?

/-- The texts in file order. -/
def texts (pool : Pool.Strings) : List String :=
  pool.items.toList.map StringItem.text

end Pool.Strings

end Dalvik
