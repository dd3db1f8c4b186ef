import Dalvik.Loaded
import Dalvik.Proofs.Course
import Dalvik.Proofs.RoundTrip
import Dalvik.Proofs.TableAdmission
import Mathlib.Data.List.TFAE

/-!
# Loaded files and loads

A loaded file tells the same as the load that it comes from: all its answers to whether there is a
file agree, a failure is noted once and after everything else, and the log shows the diagnostics and
the stages in the order in which they came. None of that holds of every loaded file that can be
written down, as each answer has a field of its own and the log is apart from the diagnostics.
-/

namespace Dalvik

variable {input : Bytes} {options : Options}

/-! ## The stages on the way -/

namespace Stage

/-- The stages of a load in their order, with their names in the log. -/
def course : List (Stage × String) :=
  [(unparsed, "unparsed"), (headerValidated, "header validated"),
    (stringsResolved, "strings resolved"), (typesResolved, "types resolved"),
    (protosResolved, "protos resolved"), (fieldsResolved, "fields resolved"),
    (methodsResolved, "methods resolved"), (ready, "ready")]

/-- The log lines of the steps along some stages, each from one stage to the next. -/
def stepLines : List (Stage × String) → List LogLine
  | (_, before) :: (stage, after) :: rest =>
    ⟨.debug, "DexParser " ++ before ++ " -> " ++ after⟩ :: stepLines ((stage, after) :: rest)
  | _ => []

/-- The log shows a load that has come as far as the stage, which the log calls by `name`. -/
def IsShownBy (stage : Stage) (name : String) (lines : List LogLine) : Prop :=
  ∃ before, before ++ [(stage, name)] <+: course ∧ lines = stepLines (before ++ [(stage, name)])

theorem isShownBy_path {stage : Stage} (h : stage ≠ .failed) :
    stage.IsShownBy stage.text (stage.path.map stepLine) := by
  refine ⟨course.take stage.rank, ?_, ?_⟩
  · cases stage with
    | failed => exact (h rfl).elim
    | _ => exact ⟨_, rfl⟩
  · cases stage with
    | failed => exact (h rfl).elim
    | _ => rfl

example : stringsResolved.IsShownBy "strings resolved"
    [⟨.debug, "DexParser unparsed -> header validated"⟩,
      ⟨.debug, "DexParser header validated -> strings resolved"⟩] :=
  ⟨[(unparsed, "unparsed"), (headerValidated, "header validated")], ⟨_, rfl⟩, rfl⟩

end Stage

theorem Failure.StopsAt.ne_failed {failure : Failure} {stage : Stage}
    (h : failure.StopsAt input options stage) : stage ≠ .failed := by
  cases h with
  | size | header => decide
  | pool hsize hnext =>
      rintro rfl
      cases hnext

namespace Journal

/-- The diagnostics of a journal of warnings, one by one. -/
theorem severity_of_warnings {journal : Journal} {anomalies : List Anomaly}
    (h : journal.diagnostics = anomalies.map Anomaly.warning) :
    ∀ diagnostic ∈ journal.diagnostics, diagnostic.severity = .warning := by
  rw [h]
  intro diagnostic hmem
  obtain ⟨anomaly, -, rfl⟩ := List.mem_map.mp hmem
  rfl

theorem hasError_eq_false_iff (journal : Journal) :
    journal.hasError = false ↔
      ∀ diagnostic ∈ journal.diagnostics, diagnostic.severity ≠ .error := by
  simp [hasError]

end Journal

/-! ## Loads -/

namespace Loaded

/-- All the ways to ask a loaded file whether there is a file. -/
def readySigns (loaded : Loaded) : List Prop :=
  [loaded.isReady = true, loaded.stage = .ready, loaded.image?.isSome = true,
    loaded.failure? = none, loaded.reached? = none, loaded.journal.hasError = false,
    ∀ diagnostic ∈ loaded.diagnostics, diagnostic.severity ≠ .error]

/-- What a loaded file tells of a load that has read a file. -/
structure ReadyWith (loaded : Loaded) (image : Image) : Prop where
  image? : loaded.image? = some image
  diagnostics : loaded.diagnostics = image.diagnostics
  shown : Stage.ready.IsShownBy "ready" (loaded.journal.log.filter LogLine.isTransition)

/-- What a loaded file tells of a load that has failed and has come as far as `after`, to a stage
that the log calls by `name`. -/
structure FailedAs (loaded : Loaded) (failure : Failure) (after : Loader) (name : String) :
    Prop where
  image? : loaded.image? = none
  stage : loaded.stage = .failed
  reached? : loaded.reached? = some after.stage
  failure? : loaded.failure? = some failure
  warnings : ∀ diagnostic ∈ after.journal.diagnostics, diagnostic.severity = .warning
  diagnostics : loaded.diagnostics = after.journal.diagnostics ++
    [⟨.error, "parser", "Error loading dex after " ++ name ++ ": " ++ failure.text⟩]
  stringAt : ∀ index, ∃ refusal, loaded.stringAt index = .error refusal ∧
    refusal.kind = .notReady
  typeAt : ∀ index, ∃ refusal, loaded.typeAt index = .error refusal ∧ refusal.kind = .notReady
  shown : after.stage.IsShownBy name (loaded.journal.log.filter LogLine.isTransition)

theorem load_of_ok {image : Image} {after : Loader}
    (h : Loader.run { input, options } = (.ok image, after)) :
    load input options = { ofImage image with journal := after.journal } := by
  obtain ⟨hjournal, -⟩ := Loader.of_run_ok h
  rw [load, h]
  change { ofImage image with journal := ⟨image.journal.entries, after.journal.lines⟩ } = _
  rw [hjournal]

theorem load_of_error {failure : Failure} {after : Loader}
    (h : Loader.run { input, options } = (.error failure, after)) :
    load input options = giveUp after.stage failure after.journal
      s!"Error loading dex after {after.stage.text}" := by
  rw [load, h]

theorem readyWith_load {image : Image} (h : Image.read input options = .ok image) :
    (load input options).ReadyWith image := by
  have hrun := Loader.run_of_read h
  obtain ⟨hjournal, -, -, -, htransitions⟩ := Loader.of_run_ok hrun
  rw [load_of_ok hrun]
  refine ⟨rfl, ?_, ?_⟩
  · rw [diagnostics, Image.diagnostics, hjournal]
  · have hready : Stage.ready ≠ .failed := by decide
    have hshown := Stage.isShownBy_path hready
    rwa [← htransitions] at hshown

theorem failedAs_load {failure : Failure} (h : Image.read input options = .error failure) :
    ∃ name, (load input options).FailedAs failure (Loader.run { input, options }).2 name := by
  have hrun := Loader.run_of_read h
  obtain ⟨hstops, ⟨anomalies, hwarnings⟩, -, htransitions⟩ := Loader.of_run_error hrun
  have hshown := Stage.isShownBy_path hstops.ne_failed
  rw [← htransitions] at hshown
  rw [load_of_error hrun]
  refine ⟨_, rfl, rfl, rfl, rfl, Journal.severity_of_warnings hwarnings,
    Journal.diagnostics_push_diagnostic _ _, fun _ => ⟨_, rfl, rfl⟩, fun _ => ⟨_, rfl, rfl⟩, ?_⟩
  -- The last diagnostic goes to the log too, but it is no step between stages.
  have hlines := Journal.transitions_push_diagnostic (Loader.run { input, options }).2.journal
    (giveUpNote failure s!"Error loading dex after {(Loader.run { input, options }).2.stage.text}")
  rw [← hlines] at hshown
  exact hshown

/-- The log shows every diagnostic of a load, in the order in which they were kept. -/
theorem alerts_load (input : Bytes) (options : Options) :
    (load input options).journal.alerts =
      (load input options).diagnostics.map Diagnostic.alert := by
  cases hread : Image.read input options with
  | ok image =>
      have hrun := Loader.run_of_read hread
      obtain ⟨-, -, -, halerts, -⟩ := Loader.of_run_ok hrun
      rw [load_of_ok hrun]
      exact halerts
  | error failure =>
      have hrun := Loader.run_of_read hread
      obtain ⟨-, -, halerts, -⟩ := Loader.of_run_error hrun
      rw [load_of_error hrun, diagnostics, giveUp, Journal.diagnostics_push_diagnostic,
        Journal.alerts_push_diagnostic, halerts, List.map_append, List.map_singleton]

theorem toExcept_load (input : Bytes) (options : Options) :
    (load input options).toExcept = Image.read input options := by
  cases hread : Image.read input options with
  | ok image =>
      rw [load_of_ok (Loader.run_of_read hread)]
      rfl
  | error failure =>
      rw [load_of_error (Loader.run_of_read hread)]
      rfl

/-- A loaded file shows all signs of a file that was read, or none. -/
theorem tfae_readySigns (input : Bytes) (options : Options) :
    ((∃ image, Image.read input options = .ok image) ::
      (load input options).readySigns).TFAE := by
  cases hread : Image.read input options with
  | ok image =>
      have hrun := Loader.run_of_read hread
      obtain ⟨-, -, hwarnings, -⟩ := Loader.of_run_ok hrun
      have hmild : ∀ diagnostic ∈ (Loader.run { input, options }).2.journal.diagnostics,
          diagnostic.severity ≠ .error := fun diagnostic hmem herror => by
        rw [Journal.severity_of_warnings hwarnings diagnostic hmem] at herror
        cases herror
      have herror := (Journal.hasError_eq_false_iff _).mpr hmild
      rw [load_of_ok hrun]
      refine List.tfae_of_forall True _ ?_
      simp only [readySigns, List.forall_mem_cons, List.not_mem_nil, false_implies, implies_true,
        and_true, iff_true]
      exact ⟨⟨image, rfl⟩, rfl, rfl, rfl, rfl, rfl, herror, hmild⟩
  | error failure =>
      obtain ⟨name, hfailed⟩ := failedAs_load hread
      have hsevere : ¬∀ diagnostic ∈ (load input options).diagnostics,
          diagnostic.severity ≠ .error := fun hmild => by
        rw [hfailed.diagnostics] at hmild
        exact hmild _ (List.mem_append_right _ List.mem_cons_self) rfl
      have herror : (load input options).journal.hasError ≠ false := fun h =>
        hsevere ((Journal.hasError_eq_false_iff _).mp h)
      have hnone : ¬∃ image, (Except.error failure : Except Failure Image) = .ok image := by
        rintro ⟨image, himage⟩
        cases himage
      refine List.tfae_of_forall False _ ?_
      simp only [readySigns, List.forall_mem_cons, List.not_mem_nil, false_implies, implies_true,
        and_true, iff_false, isReady, hfailed.image?, hfailed.stage, hfailed.failure?,
        hfailed.reached?]
      exact ⟨hnone, nofun, nofun, nofun, nofun, nofun, herror, hsevere⟩

/-- A loaded file tells the same as the load that it comes from: the file or the failure, whether
there is a file, the diagnostics, and how far the load has come. The log tells the same once
more. -/
theorem load_tells (input : Bytes) (options : Options) :
    let loaded := load input options
    loaded.toExcept = Image.read input options ∧
    ((∃ image, Image.read input options = .ok image) :: loaded.readySigns).TFAE ∧
    (∀ image, Image.read input options = .ok image → loaded.ReadyWith image) ∧
    (∀ failure, Image.read input options = .error failure →
      ∃ name, loaded.FailedAs failure (Loader.run { input, options }).2 name) ∧
    loaded.journal.log.filter LogLine.isAlert = loaded.diagnostics.map Diagnostic.alert :=
  ⟨toExcept_load input options, tfae_readySigns input options, fun _ => readyWith_load,
    fun _ => failedAs_load, alerts_load input options⟩

/-- Of the sample there is a file to ask. The string table of another file is placed past its end,
and so its load has come no further than the header. -/
theorem load_tells_sample :
    (∃ image, Image.read Contents.sample.encode {} = .ok image ∧
      (load Contents.sample.encode {}).isReady = true ∧
      (load Contents.sample.encode {}).ReadyWith image) ∧
    ∃ failure name,
      Image.read Contents.strayHeader.encode.toArray .lenient = .error failure ∧
      (load Contents.strayHeader.encode.toArray .lenient).FailedAs failure
        (Loader.run { input := Contents.strayHeader.encode.toArray, options := .lenient }).2 name ∧
      (load Contents.strayHeader.encode.toArray .lenient).reached? = some .headerValidated := by
  constructor
  · have hlimit : 285 ≤ ({} : Options).inputLimit := by decide
    obtain ⟨journal, hread⟩ := (Image.read_eq_ok_iff _).mpr (Contents.storedIn_sample hlimit)
    obtain ⟨-, hsigns, hready, -⟩ := load_tells Contents.sample.encode {}
    have hiff : (∃ image, Image.read Contents.sample.encode {} = .ok image) ↔
        (load Contents.sample.encode {}).isReady = true := hsigns.out 0 1
    exact ⟨_, hread, hiff.mp ⟨_, hread⟩, hready _ hread⟩
  · obtain ⟨after, hrun, hstage⟩ := Contents.exists_failure_strayHeader
    have hread := congrArg Prod.fst hrun
    obtain ⟨-, -, -, hfails, -⟩ := load_tells Contents.strayHeader.encode.toArray .lenient
    obtain ⟨name, hfailed⟩ := hfails _ hread
    refine ⟨_, name, hread, hfailed, ?_⟩
    rw [hfailed.reached?, hrun, hstage]

end Loaded

end Dalvik
