import Dalvik.Bytes.Uleb128
import Dalvik.Decode.Basic

/-!
# The cursor

The elementary decoding steps. All offsets count from the start of the input, and the cursor never
leaves it: a step that would need bytes past the end fails and stays where it was.
-/

namespace Dalvik.Decode

variable {α : Type}

/-- The size of the input. -/
def length : Decode Nat :=
  ofRun fun input scan => (.ok input.size, scan)

/-- The offset of the cursor. -/
def position : Decode Nat :=
  ofRun fun _ scan => (.ok scan.pos, scan)

/-- The number of bytes after the cursor. -/
def remaining : Decode Nat :=
  ofRun fun input scan => (.ok (input.size - scan.pos), scan)

@[simp]
theorem run_length (input : Bytes) (scan : Scan) :
    run length input scan = (.ok input.size, scan) := rfl

@[simp]
theorem run_position (input : Bytes) (scan : Scan) :
    run position input scan = (.ok scan.pos, scan) := rfl

@[simp]
theorem run_remaining (input : Bytes) (scan : Scan) :
    run remaining input scan = (.ok (input.size - scan.pos), scan) := rfl

/-- Moves the cursor to an offset of the input, or to its end. -/
def seek (target : Nat) : Decode Unit :=
  ofRun fun input scan =>
    if input.size < target then (.error { fault := .seekPastEnd target input.size }, scan)
    else (.ok (), { scan with pos := target })

theorem run_seek_of_le {target : Nat} {input : Bytes} (h : target ≤ input.size) (scan : Scan) :
    run (seek target) input scan = (.ok (), { scan with pos := target }) := by
  rw [seek, run_ofRun, if_neg (by omega)]

theorem run_seek_of_lt {target : Nat} {input : Bytes} (h : input.size < target) (scan : Scan) :
    run (seek target) input scan =
      (.error { fault := .seekPastEnd target input.size }, scan) := by
  rw [seek, run_ofRun, if_pos h]

/-- Runs a step at an offset and puts the cursor back, whether the step fails or not. -/
def atOffset (offset : Nat) (step : Decode α) : Decode α :=
  ofRun fun input scan =>
    let (result, after) := (do seek offset; step).run input scan
    (result, { after with pos := scan.pos })

/-- The cursor is where it was, however the step at the other offset ends. -/
@[simp]
theorem pos_run_atOffset (offset : Nat) (step : Decode α) (input : Bytes) (scan : Scan) :
    (run (atOffset offset step) input scan).2.pos = scan.pos := rfl

/-- A step at an offset of the input is the step run there. -/
theorem run_atOffset_of_le {offset : Nat} {input : Bytes} (h : offset ≤ input.size)
    (step : Decode α) (scan : Scan) :
    run (atOffset offset step) input scan =
      ((run step input { scan with pos := offset }).1,
        { (run step input { scan with pos := offset }).2 with pos := scan.pos }) := by
  rw [atOffset, run_ofRun, run_bind_of_ok (run_seek_of_le h scan)]

/-- Past the end of the input no step is made. -/
theorem run_atOffset_of_lt {offset : Nat} {input : Bytes} (h : input.size < offset)
    (step : Decode α) (scan : Scan) :
    run (atOffset offset step) input scan =
      (.error { fault := .seekPastEnd offset input.size }, scan) := by
  rw [atOffset, run_ofRun, run_bind_of_error (run_seek_of_lt h scan)]

/-- Takes the next `count` bytes. -/
def block (count : Nat) : Decode (Vector UInt8 count) :=
  ofRun fun input scan =>
    if h : input.size - scan.pos < count then
      (.error { fault := .endOfInput count scan.pos }, scan)
    else
      (.ok ⟨input.extract scan.pos (scan.pos + count), by rw [Array.size_extract]; omega⟩,
        { scan with pos := scan.pos + count })

/-- Takes the next `count` bytes as a list. -/
def bytes (count : Nat) : Decode (List UInt8) := do
  return (← block count).toList

/-- Takes a little-endian number of `width` bytes. -/
def natural (width : Nat) : Decode Nat := do
  let start ← position
  let digits ← within (.integer (8 * width) start) (bytes width)
  return ofLittleEndian digits

def u8 : Decode Nat := natural 1

def u16 : Decode Nat := natural 2

def u32 : Decode Nat := natural 4

/-- Takes a 32-bit word. -/
def word : Decode UInt32 := do
  return UInt32.ofNat (← u32)

/-- Takes a variable-length number of at most five bytes. -/
def uleb128 : Decode Nat :=
  ofRun fun input scan =>
    match Uleb128.decode (input.extract scan.pos (scan.pos + 5)).toList with
    | some (value, used) => (.ok value, { scan with pos := scan.pos + used })
    | none => (.error { fault := .unterminatedNumber scan.pos }, scan)

/-- Takes the bytes before the next NUL, and steps over the NUL. -/
def untilNul : Decode (List UInt8) :=
  ofRun fun input scan =>
    match input.untilNul scan.pos with
    | some text => (.ok text, { scan with pos := scan.pos + text.length + 1 })
    | none => (.error { fault := .unterminatedString scan.pos }, scan)

/-- The largest size that a table is said to need. -/
def maxSize : Nat := 0xffffffffffffffff

/-- Fails unless a table of `count` items fits between the cursor and the end of the input. -/
def requireTable (name : String) (count itemSize : Nat) : Decode Unit :=
  ofRun fun input scan =>
    let needed := min (count * itemSize) maxSize
    let left := input.size - scan.pos
    if left < needed then
      (.error { fault := .tableTooLarge name count scan.pos needed left }, scan)
    else (.ok (), scan)

/-- Reads the items of a table, each at the place where the one before it ended, and notes that it
does so. The cursor is put back. -/
def table (table : Table) (count offset : Nat) (item : Nat → Decode α) : Decode (Array α) := do
  Reporting.record (.tableStarted table offset count)
  within (.pool table) <| atOffset offset do
    requireTable table.name count table.itemSize
    tabulate count item

end Dalvik.Decode
