import Dalvik.Stage
import Dalvik.Table
import Dalvik.Text.Numeral

/-!
# Failures

Why a file cannot be loaded or a reference cannot be followed. A `Fault` is the cause, in one of
seven kinds; a `Failure` adds the places that it was met in, the innermost first.
-/

namespace Dalvik

open Text

/-- The four lists of members in the data of a class. -/
inductive MemberList where
  | staticFields
  | instanceFields
  | directMethods
  | virtualMethods
  deriving DecidableEq, Repr

/-- What one member of the list is called in messages. -/
def MemberList.itemName : MemberList → String
  | staticFields => "static field"
  | instanceFields => "instance field"
  | directMethods => "direct method"
  | virtualMethods => "virtual method"

/-- The place that an index into a table stands in. -/
inductive Referrer where
  | item (table : Table) (index : Nat)
  | typeListEntry (entry start : Nat)
  deriving DecidableEq, Repr

def Referrer.text : Referrer → String
  | item table index => s!"{table.itemName} {index}"
  | typeListEntry entry start => s!"type_list entry {entry} at 0x{hex start}"

/-- A statement of the header that the input contradicts. Whether it stops the loading depends on
the options. -/
inductive Contradiction where
  | headerSize (declared : UInt32)
  | fileSize (declared : UInt32) (actual : Nat)
  | checksum (declared computed : UInt32)
  | signature (declared : List UInt8)
  | blockPastEnd (block : Section) (start stop length : Nat)
  deriving DecidableEq, Repr

/-- The size of the header in bytes. -/
def headerLength : Nat := 0x70

/-- The broad classes of faults. -/
inductive Fault.Kind where
  | truncated
  | indexOutOfRange
  | invalidHeader
  | limitExceeded
  | integrity
  | notReady
  | inputOutput
  deriving DecidableEq, Repr

def Fault.Kind.text : Fault.Kind → String
  | truncated => "truncated input"
  | indexOutOfRange => "index out of range"
  | invalidHeader => "invalid header"
  | limitExceeded => "limit exceeded"
  | integrity => "integrity check failed"
  | notReady => "dex not ready"
  | inputOutput => "io error"

namespace Contradiction

def kind : Contradiction → Fault.Kind
  | headerSize _ | fileSize .. => .invalidHeader
  | checksum .. | signature _ => .integrity
  | blockPastEnd .. => .truncated

def message : Contradiction → String
  | headerSize declared =>
    s!"header_size is 0x{hex declared.toNat}, expected 0x{hex headerLength}"
  | fileSize declared actual =>
    s!"file_size is 0x{hex declared.toNat} but input has 0x{hex actual} bytes"
  | checksum declared computed =>
    let stored := paddedHex 8 declared.toNat
    let actual := paddedHex 8 computed.toNat
    s!"Checksum mismatch: header 0x{stored}, computed 0x{actual}"
  | signature declared => s!"SHA-1 signature mismatch: header {hexByteList declared}"
  | blockPastEnd block start stop length =>
    s!"{block.name} section 0x{hex start}..0x{hex stop} runs past end of input " ++
      s!"(0x{hex length} bytes)"

end Contradiction

/-- The causes of a failure. -/
inductive Fault where
  /-- The cursor cannot move past the end. -/
  | seekPastEnd (target length : Nat)
  /-- Fewer bytes are left than are asked for. -/
  | endOfInput (wanted pos : Nat)
  /-- The input ends inside a variable-length number. -/
  | unterminatedNumber (pos : Nat)
  /-- No NUL follows. -/
  | unterminatedString (pos : Nat)
  /-- A table does not fit between the cursor and the end. -/
  | tableTooLarge (table : String) (count pos needed left : Nat)
  | headerTooShort (length : Nat)
  | badMagic (magic : List UInt8)
  | bigEndian
  | badEndianTag (tag : UInt32)
  /-- The header contradicts the input, and the options make that a failure. -/
  | contradicted (statement : Contradiction)
  /-- The header places a table past the end of the input. -/
  | tablePastEnd (table : Table) (start stop count length : Nat)
  | stringOutside (offset length : Nat)
  /-- An index refers to no item of its table. -/
  | dangling (source : Referrer) (target : Table) (index size : Nat)
  | typeListTooLong (start size : Nat)
  /-- The sum of the differences in a member list does not fit 32 bits. -/
  | memberOverflow (list : MemberList)
  | memberOutOfRange (list : MemberList) (index size : Nat)
  | codeOutside (list : MemberList) (index offset : Nat)
  /-- A lookup for an item that does not exist. -/
  | noSuchItem (label : String) (index size : Nat) (plural : String)
  | inputTooLarge (length limit : Nat)
  | notReady (stage : Stage)
  | neverLoaded
  /-- The file cannot be read; the text is what the system says. -/
  | unreadable (text : String)
  deriving DecidableEq, Repr

namespace Fault

def kind : Fault → Kind
  | seekPastEnd .. | endOfInput .. | unterminatedNumber _ | unterminatedString _
  | tableTooLarge .. | headerTooShort _ | tablePastEnd .. | stringOutside ..
  | typeListTooLong .. | codeOutside .. => .truncated
  | dangling .. | memberOverflow _ | memberOutOfRange .. | noSuchItem .. => .indexOutOfRange
  | badMagic _ | bigEndian | badEndianTag _ => .invalidHeader
  | contradicted statement => statement.kind
  | inputTooLarge .. => .limitExceeded
  | notReady _ | neverLoaded => .notReady
  | unreadable _ => .inputOutput

def message : Fault → String
  | seekPastEnd target length =>
    s!"Seek to 0x{hex target} past end of input (0x{hex length} bytes)"
  | endOfInput wanted pos =>
    s!"Unexpected end of stream reading {wanted} bytes at index 0x{hex pos}"
  | unterminatedNumber pos => s!"Unterminated uleb128 at index 0x{hex pos}"
  | unterminatedString pos => s!"Unterminated string data at index 0x{hex pos}"
  | tableTooLarge table count pos needed left =>
    s!"{table} table of {count} items at 0x{hex pos} needs 0x{hex needed} bytes, " ++
      s!"only 0x{hex left} remain"
  | headerTooShort length =>
    s!"Not enough bytes for header: 0x{hex length} < 0x{hex headerLength}"
  | badMagic magic => s!"Invalid magic value {hexByteList magic}"
  | bigEndian => "Big-endian dex files are not supported"
  | badEndianTag tag =>
    let stored := paddedHex 8 tag.toNat
    s!"Invalid endian tag 0x{stored}"
  | contradicted statement => statement.message
  | tablePastEnd table start stop count length =>
    s!"{table.name} table 0x{hex start}..0x{hex stop} ({count} items) " ++
      s!"runs past end of input (0x{hex length} bytes)"
  | stringOutside offset length =>
    s!"string data offset 0x{hex offset} outside file (0x{hex length} bytes)"
  | dangling source target index size =>
    s!"{source.text} refers to {target.itemName} {index} " ++
      s!"but there are only {size} {target.plural}"
  | typeListTooLong start size =>
    s!"type_list at 0x{hex start} declares {size} entries, past end of input"
  | memberOverflow list => s!"{list.itemName} index overflows u32"
  | memberOutOfRange list index size =>
    s!"{list.itemName} index {index} out of range ({size} items)"
  | codeOutside list index offset =>
    s!"{list.itemName} {index} has code_off 0x{hex offset} outside file"
  | noSuchItem label index size plural => s!"{label} {index} out of range ({size} {plural})"
  | inputTooLarge length limit => s!"input is 0x{hex length} bytes, limit is 0x{hex limit}"
  | notReady stage => s!"dex is not ready (state: {stage.text})"
  | neverLoaded => "dex was never loaded"
  | unreadable text => text

end Fault

/-- The places that a failure passes through on its way out. -/
inductive Context where
  | integer (bits pos : Nat)
  | item (table : Table) (index : Nat)
  | stringData (index offset : Nat)
  | interfacesOf (index : Nat)
  | membersOf (index : Nat)
  | pool (table : Table)
  | file (path : String)
  deriving DecidableEq, Repr

def Context.text : Context → String
  | integer bits pos => s!"u{bits} at 0x{hex pos}"
  | item table index => s!"{table.itemName} {index}"
  | stringData index offset => s!"{Table.strings.itemName} {index} at 0x{hex offset}"
  | interfacesOf index => s!"interfaces of {Table.classes.itemName} {index}"
  | membersOf index => s!"class_data of {Table.classes.itemName} {index}"
  | pool table => s!"{table.phrase} pool"
  | file path => path

/-- A fault and the places that it was met in, the innermost first. -/
structure Failure where
  fault : Fault
  contexts : List Context := []
  deriving DecidableEq, Repr

namespace Failure

def kind (failure : Failure) : Fault.Kind :=
  failure.fault.kind

/-- The failure as seen from one place further out. -/
def within (failure : Failure) (context : Context) : Failure :=
  { failure with contexts := failure.contexts ++ [context] }

/-- The kind and the message, then the contexts from the inside out. -/
def text (failure : Failure) : String :=
  let head := s!"{failure.kind.text}: {failure.fault.message}"
  match failure.contexts.map Context.text with
  | [] => head
  | contexts => head ++ " for " ++ String.intercalate " of " contexts

end Failure

end Dalvik
