import Dalvik.Loader
import Dalvik.Storage

/-!
# Loaded files

A file that was loaded, or that remembers why it was not. Loading in this form never fails, so many
files can be loaded in a row and looked at later. What is remembered stands in fields of their own.
Nothing in their types makes them agree, only how a load fills them in.
-/

namespace Dalvik

/-- A load that is over: the file, if there is one, and what the load has left behind. -/
structure Loaded where
  image? : Option Image
  stage : Stage
  /-- The last stage that was completed before the failure. -/
  reached? : Option Stage
  failure? : Option Failure
  /-- The diagnostics and, apart from them, the lines sent to the log. -/
  journal : Journal

namespace Loaded

/-- Takes up a file that was read, with its diagnostics. Nothing is logged for that. -/
def ofImage (image : Image) : Loaded where
  image? := some image
  stage := .ready
  reached? := none
  failure? := none
  journal := { entries := image.journal.entries }

/-- The diagnostic that ends a failed load. -/
def giveUpNote (failure : Failure) (head : String) : Diagnostic :=
  ⟨.error, "parser", s!"{head}: {failure.text}"⟩

/-- Gives up with a failure, and says so in a last diagnostic. -/
def giveUp (reached : Stage) (failure : Failure) (journal : Journal) (head : String) : Loaded where
  image? := none
  stage := .failed
  reached? := some reached
  failure? := some failure
  journal := journal.push (.diagnostic (giveUpNote failure head))

/-- Loads a file from its bytes. -/
def load (input : Bytes) (options : Options) : Loaded :=
  match Loader.run { input, options } with
  | (.ok image, loader) =>
    let loaded := ofImage image
    { loaded with journal := { loaded.journal with lines := loader.journal.lines } }
  | (.error failure, loader) =>
    giveUp loader.stage failure loader.journal s!"Error loading dex after {loader.stage.text}"

/-- Loads the file at a path. A file that cannot be read counts as one that failed at once. -/
def openPath (storage : Storage) (path : String) (options : Options) : Loaded :=
  let opening := ({} : Journal).push (.event (.opening path))
  match storage.read path with
  | .ok input =>
    let loaded := load input options
    { loaded with journal := opening ++ loaded.journal }
  | .error refusal =>
    let failure : Failure :=
      { fault := .unreadable refusal.message, contexts := [.file path] }
    giveUp .unparsed failure opening "Error loading dex"

def isReady (loaded : Loaded) : Bool :=
  loaded.stage == .ready

/-- The file, or the failure that kept it from being loaded. -/
def toExcept (loaded : Loaded) : Except Failure Image :=
  match loaded.image?, loaded.failure? with
  | some image, _ => .ok image
  | none, some failure => .error failure
  | none, none => .error { fault := .neverLoaded }

def diagnostics (loaded : Loaded) : List Diagnostic :=
  loaded.journal.diagnostics

/-- The file, or the complaint that there is none to ask. -/
def readyImage (loaded : Loaded) : Except Failure Image :=
  match loaded.image? with
  | some image => .ok image
  | none => .error { fault := .notReady loaded.stage }

def stringAt (loaded : Loaded) (index : Nat) : Except Failure String := do
  (← loaded.readyImage).stringAt index

def typeAt (loaded : Loaded) (index : Nat) : Except Failure Descriptor := do
  (← loaded.readyImage).typeAt index

end Loaded

end Dalvik
