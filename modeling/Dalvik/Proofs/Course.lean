import Dalvik.Proofs.HeaderNotes
import Dalvik.Proofs.ImageReads
import Dalvik.Proofs.ItemNotes

/-!
# The course of a load

Where a load stands is told by the stage that it has completed last and by what it has noted so far.
The stage at which it stops tells what it has stopped at. What it has noted until then are the
anomalies of everything that it has read, in order, and the stages on the way.
-/

namespace Dalvik

variable {α β : Type} {input : Bytes} {options : Options}

namespace Stage

/-- The steps from one stage to the next on the way to a stage. -/
def path (stage : Stage) : List (Stage × Stage) :=
  (all.zip all.tail).take stage.rank

/-- The log line of a step from one stage to the next. -/
def stepLine (step : Stage × Stage) : LogLine :=
  (Event.advanced step.1 step.2).logLine

/-- The table that is read once a stage is completed. -/
def next? : Stage → Option Table
  | headerValidated => some .strings
  | stringsResolved => some .types
  | typesResolved => some .protos
  | protosResolved => some .fields
  | fieldsResolved => some .methods
  | methodsResolved => some .classes
  | unparsed | ready | failed => none

end Stage

/-- What stops a load at a stage: before the first stage the size of the input or the header, and
later on the pool of the table that comes next. -/
inductive Failure.StopsAt (input : Bytes) (options : Options) : Failure → Stage → Prop where
  | size (h : options.inputLimit < input.size) :
    StopsAt input options { fault := .inputTooLarge input.size options.inputLimit } .unparsed
  | header {failure : Failure} (hsize : input.size ≤ options.inputLimit)
    (h : failure.OfHeader options) : StopsAt input options failure .unparsed
  | pool {failure : Failure} {stage : Stage} {table : Table}
    (hsize : input.size ≤ options.inputLimit) (hnext : stage.next? = some table)
    (h : failure.OfPool table) : StopsAt input options failure stage

/-- The last stage completed is `stage`, after all stages before it, and all diagnostics so far are
warnings of some anomalies. The log shows both, and nothing else of that kind. -/
structure Progress.Stands (progress : Progress) (stage : Stage) (anomalies : List Anomaly) :
    Prop where
  stage_eq : progress.stage = stage
  diagnostics : progress.scan.journal.diagnostics = anomalies.map Anomaly.warning
  alerts : progress.scan.journal.alerts =
    progress.scan.journal.diagnostics.map Diagnostic.alert
  transitions : progress.scan.journal.transitions = stage.path.map Stage.stepLine

theorem Progress.stands_initial : Stands {} .unparsed [] := ⟨rfl, rfl, rfl, rfl⟩

/-- A step that notes something leaves the stage as it is. -/
theorem Progress.Stands.note {progress : Progress} {stage : Stage} {before rest : List Anomaly}
    {added : Journal} (h : progress.Stands stage before) (htells : added.Tells rest) (pos : Nat) :
    Stands { progress with scan := ⟨pos, progress.scan.journal ++ added⟩ } stage (before ++ rest)
    where
  stage_eq := h.stage_eq
  diagnostics := by
    rw [Journal.diagnostics_append, h.diagnostics, htells.diagnostics, List.map_append]
  alerts := by
    rw [Journal.alerts_append, h.alerts, htells.alerts, Journal.diagnostics_append, List.map_append]
  transitions := by
    rw [Journal.transitions_append, h.transitions, htells.transitions, List.append_nil]

theorem Progress.Stands.complete {progress : Progress} {before after : Stage}
    {anomalies : List Anomaly} (h : progress.Stands before anomalies)
    (hpath : after.path = before.path ++ [(before, after)]) :
    Stands ⟨after, progress.scan.pos,
      progress.scan.journal.push (.event (.advanced progress.stage after))⟩ after anomalies where
  stage_eq := rfl
  diagnostics := h.diagnostics
  alerts := by
    rw [Journal.push_eq_append_single, Journal.alerts_append, Journal.alerts_single_event, h.alerts]
    exact List.append_nil _
  transitions := by
    rw [Journal.push_eq_append_single, Journal.transitions_append,
      Journal.transitions_single_advanced, h.transitions, h.stage_eq, hpath, List.map_append]
    rfl

namespace Load

/-- The end of a step: a value that `goal` admits with the progress after it, or a failure that
`stop` allows at the stage completed last. -/
inductive Arrives (goal : α → Progress → Prop) (stop : Failure → Stage → Prop) :
    Except Failure α × Progress → Prop where
  | value {a : α} {after : Progress} (h : goal a after) : Arrives goal stop (.ok a, after)
  | failure {failure : Failure} {stage : Stage} {anomalies : List Anomaly} {after : Progress}
    (hstands : after.Stands stage anomalies) (h : stop failure stage) :
    Arrives goal stop (.error failure, after)

theorem Arrives.imp {goal goalOther : α → Progress → Prop} {stop : Failure → Stage → Prop}
    {outcome : Except Failure α × Progress} (h : Arrives goal stop outcome)
    (hgoal : ∀ a after, goal a after → goalOther a after) : Arrives goalOther stop outcome := by
  cases h with
  | value h => exact .value (hgoal _ _ h)
  | failure hstands h => exact .failure hstands h

/-- Where a load leads that has completed `stage` and has warned of `sofar`. -/
def Leads (step : Load α) (input : Bytes) (stage : Stage) (sofar : List Anomaly)
    (goal : α → Progress → Prop) (stop : Failure → Stage → Prop) : Prop :=
  ∀ progress : Progress, progress.Stands stage sofar → Arrives goal stop (run step input progress)

variable {stage : Stage} {sofar : List Anomaly} {goal : β → Progress → Prop}
  {stop : Failure → Stage → Prop}

theorem Leads.imp {step : Load β} {goalOther : β → Progress → Prop}
    (h : step.Leads input stage sofar goal stop)
    (hgoal : ∀ b after, goal b after → goalOther b after) :
    step.Leads input stage sofar goalOther stop := fun progress hstands =>
  (h progress hstands).imp hgoal

theorem leads_bind_notes {step : Decode α} {next : α → Load β} {cause : Failure → Prop}
    {noted : α → List Anomaly → Prop} (hstep : step.Notes input cause noted)
    (hstop : ∀ failure, cause failure → stop failure stage)
    (hnext : ∀ a rest, noted a rest → (next a).Leads input stage (sofar ++ rest) goal stop) :
    Leads (liftM step >>= next) input stage sofar goal stop := by
  intro progress hstands
  obtain ⟨result, pos, added, hrun, hending⟩ := hstep progress.scan.pos
  have hlift : run (liftM step) input progress =
      (result, { progress with scan := ⟨pos, progress.scan.journal ++ added⟩ }) := by
    have hrun := hrun progress.scan.journal
    change ((step.run input progress.scan).1,
      { progress with scan := (step.run input progress.scan).2 }) = _
    rw [hrun]
  rw [run_bind, hlift]
  cases hending with
  | value h htells => exact hnext _ _ h _ (hstands.note htells pos)
  | failure h htells => exact .failure (hstands.note htells pos) (hstop _ h)

theorem leads_bind_complete {after : Stage} {next : Unit → Load β}
    (hpath : after.path = stage.path ++ [(stage, after)])
    (hnext : (next ()).Leads input after sofar goal stop) :
    Leads (complete after >>= next) input stage sofar goal stop := fun _ hstands =>
  hnext _ (hstands.complete hpath)

theorem leads_bind_read {next : Bytes → Load β}
    (hnext : (next input).Leads input stage sofar goal stop) :
    Leads (read >>= next) input stage sofar goal stop := fun progress hstands =>
  hnext progress hstands

theorem run_checkSize_of_lt (h : options.inputLimit < input.size) (progress : Progress) :
    run (checkSize options) input progress =
      (.error { fault := .inputTooLarge input.size options.inputLimit }, progress) := by
  have hlength : run (liftM Decode.length : Load Nat) input progress =
      (.ok input.size, progress) := rfl
  rw [checkSize, run_bind, hlength]
  simp only [if_pos h]
  rfl

theorem leads_bind_checkSize {next : Unit → Load β}
    (hstop : options.inputLimit < input.size →
      stop { fault := .inputTooLarge input.size options.inputLimit } stage)
    (hnext : input.size ≤ options.inputLimit → (next ()).Leads input stage sofar goal stop) :
    Leads (checkSize options >>= next) input stage sofar goal stop := by
  intro progress hstands
  by_cases hle : input.size ≤ options.inputLimit
  · rw [run_bind, run_checkSize_of_le hle]
    exact hnext hle progress hstands
  · have hlt : options.inputLimit < input.size := Nat.lt_of_not_le hle
    rw [run_bind, run_checkSize_of_lt hlt]
    exact .failure hstands (hstop hlt)

/-- Making the image of what has been read cannot stop a load, and warns of nothing more. -/
theorem leads_finish {event : Progress → Event}
    (hevent : ∀ noted, (event noted).logLine.isTransition = false) (found : Image) :
    Leads (do
      let noted ← progress
      Reporting.record (event noted)
      let last ← progress
      return { found with journal := last.scan.journal }) input stage sofar
      (fun image after => image = { found with journal := after.scan.journal } ∧
        after.Stands stage sofar) stop := by
  intro progress hstands
  have hafter := hstands.note (Journal.tells_event (hevent progress)) progress.scan.pos
  rw [List.append_nil] at hafter
  exact .value ⟨rfl, hafter⟩

end Load

/-- What is odd about a file, part by part and in the order of each part. -/
def Image.anomalies (image : Image) (options : Options) : List Anomaly :=
  image.header.anomalies image.input options ++ image.strings.anomalies ++ image.types.anomalies ++
    image.protos.anomalies image.strings image.types ++ image.classes.anomalies image.input.size

/-- A load ends with an image once it has completed all stages and has warned of all anomalies, or
it stops at the stage that its failure belongs to. -/
theorem Load.leads_image (options : Options) :
    (image options).Leads input .unparsed []
      (fun image after => image.journal = after.scan.journal ∧
        after.Stands .ready (image.anomalies options)) (Failure.StopsAt input options) := by
  -- One law for each step of a load, in their order.
  apply leads_bind_checkSize .size
  intro hsize
  apply leads_bind_read
  apply leads_bind_notes Header.silent_read fun _ => .header hsize
  rintro header _ rfl
  apply leads_bind_notes (Decode.notes_liftReporting (header.notes_checkAgainst input options))
    fun _ => .header hsize
  rintro _ _ rfl
  apply leads_bind_notes (Decode.notes_liftReporting (Layout.notes_ofHeader header _ options))
    fun _ => .header hsize
  rintro layout _ rfl
  apply leads_bind_complete rfl
  apply leads_bind_notes (Pool.Strings.notes_read _ _) fun _ => .pool hsize rfl
  rintro strings _ rfl
  apply leads_bind_complete rfl
  apply leads_bind_notes (Pool.Types.notes_read strings _ _ _) fun _ => .pool hsize rfl
  rintro types _ rfl
  apply leads_bind_complete rfl
  apply leads_bind_notes (Pool.Protos.notes_read strings types _ _) fun _ => .pool hsize rfl
  rintro protos _ rfl
  apply leads_bind_complete rfl
  apply leads_bind_notes (Pool.Fields.silent_read strings types _ _) fun _ => .pool hsize rfl
  rintro fields _ rfl
  apply leads_bind_complete rfl
  apply leads_bind_notes (Pool.Methods.silent_read strings types protos _ _)
    fun _ => .pool hsize rfl
  rintro methods _ rfl
  apply leads_bind_complete rfl
  apply leads_bind_notes (Pool.Classes.notes_read _ _ _) fun _ => .pool hsize rfl
  rintro classes _ rfl
  apply leads_bind_complete rfl
  refine (leads_finish (fun _ => rfl) ⟨_, header, layout, strings, types, protos, fields, methods,
    classes, {}⟩).imp ?_
  rintro _ after ⟨rfl, hstands⟩
  refine ⟨rfl, ?_⟩
  simpa only [Image.anomalies, Header.anomalies, List.nil_append, List.append_nil,
    List.append_assoc] using hstands

namespace Loader

variable {loader after : Loader}

theorem run_of_read {result : Except Failure Image} (h : Image.read input options = result) :
    Loader.run { input, options } = (result, (Loader.run { input, options }).2) :=
  Prod.ext h rfl

theorem arrives_run (loader : Loader) :
    Load.Arrives (fun image after => image.journal = after.scan.journal ∧
      after.Stands .ready (image.anomalies loader.options))
      (Failure.StopsAt loader.input loader.options)
      ((Load.image loader.options).run loader.input {}) :=
  Load.leads_image loader.options {} Progress.stands_initial

/-- A load that succeeds has completed all stages, and has warned of what is odd about the image. -/
theorem of_run_ok {image : Image} (h : loader.run = (.ok image, after)) :
    image.journal = after.journal ∧ after.stage = .ready ∧
      after.journal.diagnostics = (image.anomalies loader.options).map Anomaly.warning ∧
      after.journal.alerts = after.journal.diagnostics.map Diagnostic.alert ∧
      after.journal.transitions = Stage.ready.path.map Stage.stepLine := by
  have harrives := loader.arrives_run
  rw [run] at h
  cases hrun : (Load.image loader.options).run loader.input {} with
  | mk result progress =>
      rw [hrun] at h harrives
      cases harrives with
      | value hgoal =>
          cases h
          obtain ⟨hjournal, hstands⟩ := hgoal
          exact ⟨hjournal, hstands.stage_eq, hstands.diagnostics, hstands.alerts,
            hstands.transitions⟩
      | failure hstands hstop => cases h

/-- A load that fails has completed the stages up to the one that its failure belongs to, and all
that it has told of are warnings. -/
theorem of_run_error {failure : Failure} (h : loader.run = (.error failure, after)) :
    failure.StopsAt loader.input loader.options after.stage ∧
      (∃ anomalies : List Anomaly, after.journal.diagnostics = anomalies.map Anomaly.warning) ∧
      after.journal.alerts = after.journal.diagnostics.map Diagnostic.alert ∧
      after.journal.transitions = after.stage.path.map Stage.stepLine := by
  have harrives := loader.arrives_run
  rw [run] at h
  cases hrun : (Load.image loader.options).run loader.input {} with
  | mk result progress =>
      rw [hrun] at h harrives
      cases harrives with
      | value hgoal => cases h
      | failure hstands hstop =>
          cases h
          obtain ⟨rfl, hdiagnostics, halerts, htransitions⟩ := hstands
          exact ⟨hstop, ⟨_, hdiagnostics⟩, halerts, htransitions⟩

end Loader

end Dalvik
