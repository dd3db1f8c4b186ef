import Dalvik.Image

/-!
# Reading a whole file

The header first, then one pool after another, each checked against those before it. The first
failure ends the reading, and the stage says how far it came.
-/

namespace Dalvik

/-- How far the reading of a file has come: the last stage completed, and the scan. -/
structure Progress where
  stage : Stage := .unparsed
  scan : Scan := {}
  deriving DecidableEq, Repr

/-- A step of the reading of a file. -/
abbrev Load := ReaderT Bytes (ExceptT Failure (StateM Progress))

namespace Load

variable {α : Type}

/-- The result of a step and the progress after it. -/
def run (step : Load α) (input : Bytes) (progress : Progress) : Except Failure α × Progress :=
  StateT.run (ExceptT.run (ReaderT.run step input)) progress

instance : MonadLift Decode Load where
  monadLift step := fun input => ExceptT.mk fun progress =>
    let (result, scan) := step.run input progress.scan
    (result, { progress with scan })

/-- How far the reading has come. -/
def progress : Load Progress :=
  fun _ => ExceptT.mk fun progress => (.ok progress, progress)

/-- Makes a stage the last one completed. -/
def reach (stage : Stage) : Load Unit :=
  fun _ => ExceptT.mk fun progress => (.ok (), { progress with stage })

/-- Completes a stage, and notes that. -/
def complete (stage : Stage) : Load Unit := do
  let before ← progress
  Reporting.record (.advanced before.stage stage)
  reach stage

/-- Refuses an input that is longer than the options allow. -/
def checkSize (options : Options) : Load Unit := do
  let length ← Decode.length
  if options.inputLimit < length then
    Decode.fail (.inputTooLarge length options.inputLimit)

/-- Reads a whole file. -/
def image (options : Options) : Load Image := do
  checkSize options
  let input ← read
  let header ← Header.read
  header.checkAgainst input options
  let layout ← Layout.ofHeader header input.size options
  complete .headerValidated
  let strings ← Pool.Strings.read (header.count .strings) (header.offset .strings)
  complete .stringsResolved
  let types ←
    Pool.Types.read strings options.arrayLimit (header.count .types) (header.offset .types)
  complete .typesResolved
  let protos ← Pool.Protos.read strings types (header.count .protos) (header.offset .protos)
  complete .protosResolved
  let fields ← Pool.Fields.read strings types (header.count .fields) (header.offset .fields)
  complete .fieldsResolved
  let methods ←
    Pool.Methods.read strings types protos (header.count .methods) (header.offset .methods)
  complete .methodsResolved
  let classes ←
    Pool.Classes.read { strings, types, fields, methods } (header.count .classes)
      (header.offset .classes)
  complete .ready
  let sizes : PoolSizes := {
    strings := strings.size, types := types.size, protos := protos.size, fields := fields.size,
    methods := methods.size, classes := classes.size }
  let noted ← progress
  Reporting.record (.fileParsed sizes noted.scan.journal.diagnostics.length)
  let last ← progress
  return {
    input, header, layout, strings, types, protos, fields, methods, classes
    journal := last.scan.journal }

end Load

/-- Something that reads one input, any number of times, and knows how far it came the last time. -/
structure Loader where
  input : Bytes
  options : Options
  stage : Stage := .unparsed
  journal : Journal := {}

namespace Loader

/-- Reads the input from the start. Nothing is kept of an earlier run. -/
def run (loader : Loader) : Except Failure Image × Loader :=
  let (result, progress) := (Load.image loader.options).run loader.input {}
  (result, { loader with stage := progress.stage, journal := progress.scan.journal })

end Loader

/-- Reads a whole file, or tells why it cannot be read. -/
def Image.read (input : Bytes) (options : Options) : Except Failure Image :=
  (Loader.run { input, options }).1

end Dalvik
