import Dalvik.Bytes.Basic
import Dalvik.Journal

/-!
# Decoding steps

A decoding step reads an input from a cursor. It ends with a value or with a failure, and either way
leaves a cursor and a journal behind, so what was noted before a failure is kept.
-/

namespace Dalvik

/-- A step that only writes to the journal, and may fail. -/
abbrev Reporting := ExceptT Failure (StateM Journal)

/-- Where a decoding step stands: the cursor and the notes so far. -/
structure Scan where
  pos : Nat := 0
  journal : Journal := {}
  deriving DecidableEq, Repr

/-- A step that reads an input from a cursor. -/
abbrev Decode := ReaderT Bytes (ExceptT Failure (StateM Scan))

namespace Reporting

variable {α : Type}

/-- The result of a step and the journal after it. -/
def run (step : Reporting α) (journal : Journal) : Except Failure α × Journal :=
  StateT.run (ExceptT.run step) journal

def note (entry : Entry) : Reporting Unit :=
  modify fun journal => journal.push entry

def warn (anomaly : Anomaly) : Reporting Unit :=
  note (.diagnostic anomaly.warning)

def record (event : Event) : Reporting Unit :=
  note (.event event)

def fail (fault : Fault) : Reporting α :=
  throw { fault }

@[simp]
theorem run_pure (a : α) (journal : Journal) :
    run (pure a) journal = (.ok a, journal) := rfl

theorem run_bind {β : Type} (step : Reporting α) (next : α → Reporting β) (journal : Journal) :
    run (step >>= next) journal =
      match run step journal with
      | (.ok a, after) => run (next a) after
      | (.error failure, after) => (.error failure, after) := by
  unfold run ExceptT.run StateT.run
  simp only [bind, ExceptT.bind, ExceptT.mk, StateT.bind]
  cases step journal with
  | mk result after =>
      cases result with
      | ok a => rfl
      | error failure => rfl

@[simp]
theorem run_note (entry : Entry) (journal : Journal) :
    run (note entry) journal = (.ok (), journal.push entry) := rfl

@[simp]
theorem run_warn (anomaly : Anomaly) (journal : Journal) :
    run (warn anomaly) journal = (.ok (), journal.push (.diagnostic anomaly.warning)) := rfl

@[simp]
theorem run_record (event : Event) (journal : Journal) :
    run (record event) journal = (.ok (), journal.push (.event event)) := rfl

@[simp]
theorem run_fail (fault : Fault) (journal : Journal) :
    run (fail fault : Reporting α) journal = (.error { fault }, journal) := rfl

end Reporting

namespace Decode

variable {α : Type}

/-- The result of a step and the state after it. -/
def run (step : Decode α) (input : Bytes) (scan : Scan) : Except Failure α × Scan :=
  StateT.run (ExceptT.run (ReaderT.run step input)) scan

/-- The step with a given result and effect. -/
def ofRun (effect : Bytes → Scan → Except Failure α × Scan) : Decode α :=
  fun input => ExceptT.mk fun scan => effect input scan

@[simp]
theorem run_ofRun (effect : Bytes → Scan → Except Failure α × Scan) (input : Bytes)
    (scan : Scan) : run (ofRun effect) input scan = effect input scan := rfl

@[simp]
theorem run_pure (a : α) (input : Bytes) (scan : Scan) :
    run (pure a) input scan = (.ok a, scan) := rfl

theorem run_bind {β : Type} (step : Decode α) (next : α → Decode β) (input : Bytes)
    (scan : Scan) :
    run (step >>= next) input scan =
      match run step input scan with
      | (.ok a, after) => run (next a) input after
      | (.error failure, after) => (.error failure, after) := by
  unfold run ReaderT.run ExceptT.run StateT.run
  simp only [bind, ReaderT.bind, ExceptT.bind, ExceptT.mk, StateT.bind]
  cases step input scan with
  | mk result after =>
      cases result with
      | ok a => rfl
      | error failure => rfl

/-- What follows a step that succeeds. -/
theorem run_bind_of_ok {β : Type} {step : Decode α} {next : α → Decode β} {input : Bytes}
    {scan after : Scan} {a : α} (h : run step input scan = (.ok a, after)) :
    run (step >>= next) input scan = run (next a) input after := by
  rw [run_bind, h]

/-- Nothing follows a step that fails. -/
theorem run_bind_of_error {β : Type} {step : Decode α} {next : α → Decode β} {input : Bytes}
    {scan after : Scan} {failure : Failure} (h : run step input scan = (.error failure, after)) :
    run (step >>= next) input scan = (.error failure, after) := by
  rw [run_bind, h]

instance : MonadLift Reporting Decode where
  monadLift step := ofRun fun _ scan =>
    let (result, journal) := step.run scan.journal
    (result, { scan with journal })

def fail (fault : Fault) : Decode α :=
  throw { fault }

@[simp]
theorem run_fail (fault : Fault) (input : Bytes) (scan : Scan) :
    run (fail fault : Decode α) input scan = (.error { fault }, scan) := rfl

@[simp]
theorem run_monadLift (step : Reporting α) (input : Bytes) (scan : Scan) :
    run (monadLift step : Decode α) input scan =
      ((step.run scan.journal).1, { scan with journal := (step.run scan.journal).2 }) := rfl

/-- Names the place of a step in its failures. -/
def within (context : Context) (step : Decode α) : Decode α :=
  ofRun fun input scan =>
    let (result, after) := step.run input scan
    (result.mapError fun failure => failure.within context, after)

@[simp]
theorem run_within (context : Context) (step : Decode α) (input : Bytes) (scan : Scan) :
    run (within context step) input scan =
      ((run step input scan).1.mapError fun failure => failure.within context,
        (run step input scan).2) := rfl

/-- The results of `body` for `count` indices from `index` on, in order, after those in `done`. -/
def tabulateFrom (body : Nat → Decode α) : (count index : Nat) → (done : Array α) →
    Decode (Array α)
  | 0, _, done => pure done
  | count + 1, index, done => do
    let item ← body index
    tabulateFrom body count (index + 1) (done.push item)

/-- The results of `body` for the indices below `count`, in order. -/
def tabulate (count : Nat) (body : Nat → Decode α) : Decode (Array α) :=
  tabulateFrom body count 0 #[]

end Decode

end Dalvik
