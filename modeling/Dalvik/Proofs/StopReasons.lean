import Dalvik.Proofs.Course
import Dalvik.Proofs.TableAdmission
import Mathlib.Logic.Function.Iterate

/-!
# Why a load stops

The stage of a loader whose load has failed and the failure tell the same: which part of the file
was read last without fault, and which part the fault is in. A loader can be run any number of
times, and always runs as it did the first time.
-/

namespace Dalvik

variable {input : Bytes} {options : Options} {failure : Failure} {stage : Stage}

/-- The stages that a load can stop at after the header, each with the text of the place that its
failures come from. -/
def Stage.places : List (Stage × String) :=
  [(headerValidated, "string pool"), (stringsResolved, "type pool"), (typesResolved, "proto pool"),
    (protosResolved, "field pool"), (fieldsResolved, "method pool"),
    (methodsResolved, "class def pool")]

/-- What a failure says of the stage at which a load has stopped. -/
structure Failure.Explains (failure : Failure) (input : Bytes) (options : Options) (stage : Stage) :
    Prop where
  stage_mem : stage ∈ Stage.unparsed :: Stage.places.map Prod.fst
  limitExceeded : failure.kind = .limitExceeded ↔ options.inputLimit < input.size
  integrity : failure.kind = .integrity → options.strict = true
  unparsed : stage = .unparsed → failure.contexts = [] ∧
    failure.kind ∈ [.limitExceeded, .truncated, .invalidHeader, .integrity]
  pool : stage ≠ .unparsed → failure.kind ∈ [.truncated, .indexOutOfRange] ∧
    ∃ text, (stage, text) ∈ Stage.places ∧
      (failure.contexts.map Context.text).getLast? = some text
  strings : stage = .headerValidated → failure.kind = .truncated

/-- The table that is read next is the one that the stage has its place in. -/
theorem Stage.mem_places {table : Table} (h : stage.next? = some table) :
    (stage, (Context.pool table).text) ∈ places := by
  cases stage <;> cases h <;> decide

theorem Failure.OfPool.getLast?_texts {table : Table} (h : failure.OfPool table) :
    (failure.contexts.map Context.text).getLast? = some (Context.pool table).text := by
  rw [List.getLast?_map, h.context]
  rfl

theorem Failure.OfPool.kind_mem {table : Table} (h : failure.OfPool table) :
    failure.kind ∈ [.truncated, .indexOutOfRange] := by
  obtain ⟨-, htruncated | hother⟩ := h
  · simp [htruncated]
  · cases table <;> simp_all [Table.otherKinds]

theorem Failure.OfHeader.explains (h : failure.OfHeader options)
    (hsize : input.size ≤ options.inputLimit) : failure.Explains input options .unparsed where
  stage_mem := List.mem_cons_self
  limitExceeded := by
    refine iff_of_false ?_ (Nat.not_lt.mpr hsize)
    rcases h.kind with hkind | ⟨hkind, -⟩
    · intro hlimit
      simp [hlimit] at hkind
    · simp [hkind]
  integrity hintegrity := by
    rcases h.kind with hkind | ⟨-, hstrict⟩
    · simp [hintegrity] at hkind
    · exact hstrict
  unparsed _ := by
    refine ⟨h.contexts, ?_⟩
    rcases h.kind with hkind | ⟨hkind, -⟩
    · grind
    · simp [hkind]
  pool hne := (hne rfl).elim
  strings := nofun

theorem Failure.OfPool.explains {table : Table} (h : failure.OfPool table)
    (hsize : input.size ≤ options.inputLimit) (hnext : stage.next? = some table) :
    failure.Explains input options stage := by
  have hplace := Stage.mem_places hnext
  have hkind := h.kind_mem
  exact {
    stage_mem := List.mem_cons_of_mem _ (List.mem_map_of_mem hplace)
    limitExceeded := by
      refine iff_of_false ?_ (Nat.not_lt.mpr hsize)
      intro hlimit
      simp [hlimit] at hkind
    integrity := by
      intro hintegrity
      simp [hintegrity] at hkind
    unparsed := by
      rintro rfl
      cases hnext
    pool := fun _ => ⟨hkind, _, hplace, h.getLast?_texts⟩
    strings := by
      rintro rfl
      cases hnext
      exact h.kind.resolve_right (List.not_mem_nil) }

/-- What stops a load at a stage explains why it stands there. -/
theorem Failure.StopsAt.explains (h : failure.StopsAt input options stage) :
    failure.Explains input options stage := by
  cases h with
  | size hlt =>
      have hkind : Failure.kind ⟨.inputTooLarge input.size options.inputLimit, []⟩ =
          .limitExceeded := rfl
      exact ⟨List.mem_cons_self, iff_of_true hkind hlt, nofun, fun _ => ⟨rfl, List.mem_cons_self⟩,
        fun hne => (hne rfl).elim, nofun⟩
  | header hsize hheader => exact hheader.explains hsize
  | pool hsize hnext hpool => exact hpool.explains hsize hnext

/-- A run leaves nothing behind that the next run looks at. -/
theorem Loader.run_run (loader : Loader) : loader.run.2.run = loader.run := rfl

/-- The failure of a load and the stage at which the load has stopped agree, a load that succeeds
ends at the last stage, and however often a loader has been run before makes no difference. -/
theorem Loader.run_explained (loader : Loader) :
    (∀ failure after, loader.run = (.error failure, after) →
      failure.Explains loader.input loader.options after.stage) ∧
    (∀ image after, loader.run = (.ok image, after) → after.stage = .ready) ∧
    ∀ times, Loader.run ((fun before : Loader => before.run.2)^[times] loader) = loader.run := by
  refine ⟨?_, ?_, ?_⟩
  · intro failure after hrun
    exact (of_run_error hrun).1.explains
  · intro image after hrun
    exact (of_run_ok hrun).2.1
  · intro times
    induction times with
    | zero => rfl
    | succ times ih => rw [Function.iterate_succ_apply', run_run, ih]

/-- A load that the string table stops says so, and the load of the sample is complete. -/
theorem Contents.run_explained_strayHeader :
    (∃ failure after, Loader.run { input := strayHeader.encode.toArray, options := .lenient } =
        (.error failure, after) ∧ after.stage = .headerValidated ∧
      failure.Explains strayHeader.encode.toArray .lenient .headerValidated) ∧
    ∃ image after, Loader.run { input := sample.encode, options := {} } = (.ok image, after) ∧
      after.stage = .ready := by
  constructor
  · obtain ⟨after, hrun, hstage⟩ := exists_failure_strayHeader
    have hexplained := (Loader.run_explained _).1 _ _ hrun
    exact ⟨_, _, hrun, hstage, hstage ▸ hexplained⟩
  · have hlimit : 285 ≤ ({} : Options).inputLimit := by decide
    obtain ⟨journal, hread⟩ := (Image.read_eq_ok_iff _).mpr (storedIn_sample hlimit)
    have hrun := Loader.run_of_read hread
    exact ⟨_, _, hrun, (Loader.run_explained _).2.1 _ _ hrun⟩

end Dalvik
