import Dalvik.Failure
import Dalvik.Text.Escaped

/-!
# The journal of a load

What is noted while a file is read: diagnostics, which tell the caller of anomalies, and events,
which tell of progress. Diagnostics are kept in a list, and apart from it everything goes to the log
as a line of text. Nothing ties the two together but that a diagnostic is both kept and logged.
-/

namespace Dalvik

open Text

/-- Something odd that does not stop the loading. -/
inductive Anomaly where
  | unknownVersion (version : Nat)
  | contradicted (statement : Contradiction)
  | overlap (block : Section) (start stop : Nat) (others : List Section)
  | lossyString (index : Nat)
  | unitCount (index declared actual : Nat)
  | malformedType (index : Nat) (descriptor : String)
  | shorty (index : Nat) (stored expected : String)
  | annotationsOutside (index offset : Nat)
  | staticValuesOutside (index offset : Nat)
  | ownSuperclass (index : Nat)
  | redefined (type : Nat)
  deriving DecidableEq, Repr

namespace Anomaly

/-- The part of the file that the anomaly is in. -/
def part : Anomaly → String
  | unknownVersion _ | contradicted _ | overlap .. => "header"
  | lossyString _ | unitCount .. => "strings"
  | malformedType .. => "types"
  | shorty .. => "protos"
  | annotationsOutside .. | staticValuesOutside .. | ownSuperclass _ | redefined _ => "class_defs"

def message : Anomaly → String
  | unknownVersion version =>
    let number := paddedDecimal 3 version
    s!"Unrecognised dex version {number}"
  | contradicted statement => statement.message
  | overlap block start stop others =>
    let names := String.intercalate ", " (others.map Section.name)
    s!"{block.name} section 0x{hex start}..0x{hex stop} overlaps {names}"
  | lossyString index => s!"string_id {index} is not valid MUTF-8, decoded lossily"
  | unitCount index declared actual =>
    s!"string_id {index} declares {declared} UTF-16 units but decodes to {actual}"
  | malformedType index descriptor =>
    s!"type_id {index} has malformed descriptor \"{escaped descriptor}\""
  | shorty index stored expected =>
    s!"proto_id {index} has shorty \"{escaped stored}\" but its types give \"{expected}\""
  | annotationsOutside index offset =>
    s!"class_def {index} has annotations offset 0x{hex offset} outside file"
  | staticValuesOutside index offset =>
    s!"class_def {index} has static values offset 0x{hex offset} outside file"
  | ownSuperclass index => s!"class_def {index} is its own superclass"
  | redefined type => s!"type_id {type} is defined more than once"

end Anomaly

inductive Severity where
  | warning
  | error
  deriving DecidableEq, Repr

def Severity.text : Severity → String
  | warning => "warning"
  | error => "error"

/-- A note for the caller: how grave it is, which part of the file it is about, and what it says. -/
structure Diagnostic where
  severity : Severity
  part : String
  message : String
  deriving DecidableEq, Repr

def Diagnostic.text (diagnostic : Diagnostic) : String :=
  s!"[{diagnostic.part}] {diagnostic.severity.text}: {diagnostic.message}"

/-- The warning that tells of an anomaly. -/
def Anomaly.warning (anomaly : Anomaly) : Diagnostic :=
  ⟨.warning, anomaly.part, anomaly.message⟩

/-- The sizes of the six pools of a file. -/
structure PoolSizes where
  strings : Nat
  types : Nat
  protos : Nat
  fields : Nat
  methods : Nat
  classes : Nat
  deriving DecidableEq, Repr

/-- A step of the loading that is worth a line in the log. -/
inductive Event where
  | opening (path : String)
  | headerAccepted (version strings types classes : Nat)
  | tableStarted (table : Table) (offset count : Nat)
  | poolFinished (table : Table) (size : Nat)
  | advanced (before after : Stage)
  | fileParsed (sizes : PoolSizes) (diagnostics : Nat)
  deriving DecidableEq, Repr

/-- The levels of a log line, the least urgent first. -/
inductive Level where
  | debug
  | info
  | warn
  | error
  deriving DecidableEq, Repr

def Level.text : Level → String
  | debug => "DEBUG"
  | info => "INFO"
  | warn => "WARN"
  | error => "ERROR"

namespace Event

def level : Event → Level
  | opening _ | poolFinished .. | fileParsed .. => .info
  | headerAccepted .. | tableStarted .. | advanced .. => .debug

def message : Event → String
  | opening path => s!"Loading dex from {path}"
  | headerAccepted version strings types classes =>
    let number := paddedDecimal 3 version
    s!"dex header ok: version {number}, {strings} strings, {types} types, {classes} classes"
  | tableStarted table offset count =>
    s!"{table.poolName} start parsing {table.phrase}s in offset 0x{hex offset} with size {count}"
  | poolFinished table size =>
    s!"{table.poolName} parsing correct ({size} {table.plural})"
  | advanced before after => s!"DexParser {before.text} -> {after.text}"
  | fileParsed sizes diagnostics =>
    s!"DexFile parsed: {sizes.strings} strings, {sizes.types} types, {sizes.protos} protos, " ++
      s!"{sizes.fields} fields, {sizes.methods} methods, {sizes.classes} classes " ++
      s!"({diagnostics} diagnostics)"

end Event

/-- A line of the log. -/
structure LogLine where
  level : Level
  message : String
  deriving DecidableEq, Repr

def LogLine.text (line : LogLine) : String :=
  s!"{line.level.text}: {line.message}"

/-- The level at which the log shows a diagnostic. -/
def Severity.level : Severity → Level
  | warning => .warn
  | error => .error

/-- The log line of a diagnostic. It names the part in brackets. -/
def Diagnostic.logLine (diagnostic : Diagnostic) : LogLine :=
  ⟨diagnostic.severity.level, s!"[{diagnostic.part}] {diagnostic.message}"⟩

def Event.logLine (event : Event) : LogLine :=
  ⟨event.level, event.message⟩

/-- Something to note. -/
inductive Entry where
  | diagnostic (diagnostic : Diagnostic)
  | event (event : Event)
  deriving DecidableEq, Repr

/-- What has been noted so far, the oldest first. -/
structure Journal where
  /-- The diagnostics, kept for the caller. -/
  entries : Array Diagnostic := #[]
  /-- The lines sent to the log. -/
  lines : Array LogLine := #[]
  deriving DecidableEq, Repr

namespace Journal

instance : Inhabited Journal := ⟨{}⟩

instance : Append Journal where
  append first second := ⟨first.entries ++ second.entries, first.lines ++ second.lines⟩

/-- Keeps a diagnostic. -/
def keep (journal : Journal) (diagnostic : Diagnostic) : Journal :=
  { journal with entries := journal.entries.push diagnostic }

/-- Sends a line to the log. -/
def send (journal : Journal) (line : LogLine) : Journal :=
  { journal with lines := journal.lines.push line }

/-- Takes a note. A diagnostic is logged and kept, an event only logged. -/
def push (journal : Journal) : Entry → Journal
  | .diagnostic d => (journal.send d.logLine).keep d
  | .event e => journal.send e.logLine

/-- The journal without its first `count` diagnostics. -/
def since (journal : Journal) (count : Nat) : Journal :=
  { journal with entries := journal.entries.extract count journal.entries.size }

def diagnostics (journal : Journal) : List Diagnostic :=
  journal.entries.toList

def log (journal : Journal) : List LogLine :=
  journal.lines.toList

def warnings (journal : Journal) : List Diagnostic :=
  journal.diagnostics.filter fun d => d.severity == .warning

/-- The diagnostics about one part of the file. -/
def about (journal : Journal) (part : String) : List Diagnostic :=
  journal.diagnostics.filter fun d => d.part == part

def hasError (journal : Journal) : Bool :=
  journal.diagnostics.any fun d => d.severity == .error

@[simp]
theorem diagnostics_push_diagnostic (journal : Journal) (diagnostic : Diagnostic) :
    (journal.push (.diagnostic diagnostic)).diagnostics = journal.diagnostics ++ [diagnostic] := by
  simp [diagnostics, push, keep, send]

@[simp]
theorem diagnostics_push_event (journal : Journal) (event : Event) :
    (journal.push (.event event)).diagnostics = journal.diagnostics := rfl

theorem diagnostics_append (first second : Journal) :
    (first ++ second).diagnostics = first.diagnostics ++ second.diagnostics :=
  Array.toList_append

theorem log_append (first second : Journal) : (first ++ second).log = first.log ++ second.log :=
  Array.toList_append

end Journal

end Dalvik
