import Dalvik.Proofs.Acceptance
import Dalvik.Proofs.Failures

/-!
# Tables that lie outside the input

A layout is made only if every table that has items lies within the input. A table without items may
be placed anywhere, and if that is past the end, the pool of the table cannot be read.
-/

namespace Dalvik

variable {α β : Type} {input : Bytes} {options : Options}

/-- Whether so many items of a table fit between an offset and the end of the input. -/
def Table.Fits (table : Table) (input : Bytes) (count offset : Nat) : Prop :=
  offset ≤ input.size ∧ count * table.itemSize ≤ input.size - offset

namespace Decode

/-- Puts the cursor at the start of a table and checks that the items fit. The reading of a pool
starts with it. -/
def openTable (table : Table) (count offset : Nat) : Decode Unit := do
  seek offset
  requireTable table.name count table.itemSize

variable {table : Table} {count : Nat}

theorem exists_run_openTable_iff (hcount : count < 2 ^ 32) (offset : Nat) (scan : Scan) :
    (∃ after, run (openTable table count offset) input scan = (.ok (), after)) ↔
      table.Fits input count offset := by
  rw [Table.Fits]
  by_cases hle : offset ≤ input.size
  · have hreads : (requireTable table.name count table.itemSize).Reads input 0 _ :=
      reads_requireTable (table.size_le_maxSize hcount)
    rw [openTable, run_bind_of_ok (run_seek_of_le hle scan), and_iff_right hle]
    constructor
    · rintro ⟨after, hrun⟩
      exact ((hreads _ () after.pos).mp ⟨after.journal, hrun⟩).2
    · intro hfits
      obtain ⟨journal, hrun⟩ := (hreads { scan with pos := offset } () offset).mpr ⟨rfl, hfits⟩
      exact ⟨_, hrun⟩
  · rw [openTable, run_bind_of_error (run_seek_of_lt (Nat.lt_of_not_le hle) scan)]
    simp [hle]

theorem fails_openTable {cause : Failure → Prop} (hcount : count < 2 ^ 32) {offset : Nat}
    (hfits : table.Fits input count offset) :
    (openTable table count offset).Fails input cause := by
  intro scan failure after hrun
  obtain ⟨opened, hopened⟩ := (exists_run_openTable_iff hcount offset scan).mpr hfits
  rw [hopened] at hrun
  cases hrun

/-- A table is opened and read item by item in the name of its pool, and the cursor is put back. -/
theorem run_table (table : Table) (count offset : Nat) (item : Nat → Decode α) (input : Bytes)
    (scan : Scan) :
    run (Decode.table table count offset item) input scan =
      let (result, after) := run (do openTable table count offset; tabulate count item) input
        { scan with journal := scan.journal.push (.event (.tableStarted table offset count)) }
      (result.mapError fun failure => failure.within (.pool table),
        { after with pos := scan.pos }) := by
  have hrecord :
      run (Reporting.record (.tableStarted table offset count) : Decode Unit) input scan =
      (.ok (), { scan with
        journal := scan.journal.push (.event (.tableStarted table offset count)) }) := rfl
  rw [Decode.table, run_bind_of_ok hrecord, run_within, atOffset, run_ofRun, openTable, bind_assoc]

/-- A table that fits fails in its items only, and that is no failure of a table. -/
theorem fails_table {item : Nat → Decode α}
    (h : ∀ index, (item index).Fails input Failure.OfItem) (table : Table)
    (hcount : count < 2 ^ 32) (offset : Nat) :
    (Decode.table table count offset item).Fails input fun failure =>
      ∀ other, failure.OfTable other → other = table ∧ ¬table.Fits input count offset := by
  intro scan failure after hrun other hoftable
  rw [run_table] at hrun
  generalize { scan with journal := scan.journal.push _ } = start at hrun
  cases hitems : run (do openTable table count offset; tabulate count item) input start with
  | mk result middle =>
      rw [hitems] at hrun
      cases result with
      | ok items => cases hrun
      | error inner =>
          cases hrun
          have hcontexts : inner.contexts ++ [.pool table] = [] ++ [.pool other] :=
            hoftable.contexts
          obtain ⟨hnil, hpool⟩ := List.append_inj' hcontexts rfl
          cases hpool
          refine ⟨rfl, fun hfits => ?_⟩
          have hinside := ((fails_openTable hcount hfits).bind fun _ => fails_tabulate h count)
            start inner middle hitems hnil
          have houtside : inner.fault.isOutside = true := hoftable.isOutside
          rw [hinside] at houtside
          cases houtside

end Decode

open Decode

/-! ## What the header may say of a table -/

theorem Layout.table_mem_order (table : Table) : .table table ∈ Layout.order := by
  cases table <;> decide

namespace Header

/-- An empty table that is placed past the end of the input. -/
def IsStray (header : Header) (input : Bytes) (table : Table) : Prop :=
  header.count table = 0 ∧ input.size < header.offset table

instance (header : Header) (input : Bytes) (table : Table) :
    Decidable (header.IsStray input table) := inferInstanceAs (Decidable (_ ∧ _))

/-- A table that a layout admits fits into the input unless it is a stray one. -/
theorem Admits.fits_iff {header : Header} {table : Table}
    (h : header.Admits input.size options (.table table)) :
    table.Fits input (header.count table) (header.offset table) ↔
      ¬header.IsStray input table := by
  have hsize : 0 < table.itemSize := by cases table <;> decide
  rw [Table.Fits, IsStray, not_and, Nat.not_lt]
  rcases h with hempty | hfits | ⟨-, hblock⟩
  · have hzero : header.count table = 0 := by
      change header.offset table =
        header.offset table + header.count table * table.itemSize at hempty
      have hproduct : header.count table * table.itemSize = 0 := by omega
      exact (Nat.mul_eq_zero.mp hproduct).resolve_right (Nat.ne_of_gt hsize)
    simp [hzero]
  · change header.offset table + header.count table * table.itemSize ≤ input.size at hfits
    constructor
    · exact fun hfits _ => hfits.1
    · exact fun _ => ⟨by omega, by omega⟩
  · exact (hblock table rfl).elim

/-- A failure that says of no table but a stray one that it lies outside the input. -/
def BlamesStrays (header : Header) (input : Bytes) (failure : Failure) : Prop :=
  ∀ table, failure.OfTable table → header.IsStray input table

/-- What a load knows of the tables once it has a layout. -/
def AdmitsTables (header : Header) (input : Bytes) (options : Options) : Prop :=
  ∀ table, header.Admits input.size options (.table table)

theorem AdmitsTables.fails_table {header : Header} (h : header.AdmitsTables input options)
    {item : Nat → Decode α} (hitem : ∀ index, (item index).Fails input Failure.OfItem)
    (table : Table) :
    (Decode.table table (header.count table) (header.offset table) item).Fails input
      (header.BlamesStrays input) := by
  intro scan failure after hrun other hoftable
  obtain ⟨rfl, hclosed⟩ :=
    Decode.fails_table hitem table (header.count_lt table) _ scan failure after hrun other hoftable
  rw [(h other).fits_iff, Decidable.not_not] at hclosed
  exact hclosed

end Header

/-! ## Pools -/

section Pools

variable {header : Header}

theorem Pool.Strings.fails_read (h : header.AdmitsTables input options) :
    (Pool.Strings.read (header.count .strings) (header.offset .strings)).Fails input
      (header.BlamesStrays input) :=
  (h.fails_table StringItem.fails_readAt .strings).bind fun _ => (fails_record _).bind fun _ =>
    fails_pure _

theorem Pool.Types.fails_read (h : header.AdmitsTables input options) (strings : Pool.Strings)
    (arrayLimit : Nat) :
    (Pool.Types.read strings arrayLimit (header.count .types) (header.offset .types)).Fails input
      (header.BlamesStrays input) :=
  (h.fails_table (TypeItem.fails_readAt strings arrayLimit) .types).bind fun _ =>
    (fails_record _).bind fun _ => fails_pure _

theorem Pool.References.fails_read (h : header.AdmitsTables input options)
    {item : Nat → Decode α} (hitem : ∀ index, (item index).Fails input Failure.OfItem)
    (table : Table) :
    (Pool.References.read table (header.count table) (header.offset table) item).Fails input
      (header.BlamesStrays input) :=
  (h.fails_table hitem table).bind fun _ => (fails_record _).bind fun _ => fails_pure _

theorem Pool.Classes.fails_read (h : header.AdmitsTables input options) (pools : ClassItem.Pools) :
    (Pool.Classes.read pools (header.count .classes) (header.offset .classes)).Fails input
      (header.BlamesStrays input) :=
  (h.fails_table (ClassItem.fails_readAt pools) .classes).bind fun _ =>
    (fails_forM_warn Anomaly.redefined _).bind fun _ => (fails_record _).bind fun _ => fails_pure _

end Pools

/-! ## Loads -/

namespace Load

variable {cause : Failure → Prop}

/-- Every failure of a step is one that `cause` allows, if the step has completed a stage. -/
def FailsLate (step : Load α) (input : Bytes) (cause : Failure → Prop) : Prop :=
  ∀ progress failure after, run step input progress = (.error failure, after) →
    after.stage = progress.stage ∨ cause failure

/-- Every failure of a step is one that `cause` allows. -/
def Fails (step : Load α) (input : Bytes) (cause : Failure → Prop) : Prop :=
  ∀ progress failure after, run step input progress = (.error failure, after) → cause failure

theorem fails_liftDecode {step : Decode α} (h : step.Fails input cause) :
    Fails (liftM step) input cause := by
  intro progress failure after hrun
  have hresult : (step.run input progress.scan).1 = .error failure := congrArg Prod.fst hrun
  exact h progress.scan failure _ (Prod.ext hresult rfl)

theorem fails_complete (stage : Stage) : (complete stage).Fails input cause := by
  intro progress failure after hrun
  cases hrun

theorem Fails.bind {step : Load α} {next : α → Load β} (hstep : step.Fails input cause)
    (hnext : ∀ a, (next a).Fails input cause) : (step >>= next).Fails input cause := by
  intro progress failure after hrun
  rw [run_bind_eq_andThen] at hrun
  rcases Effect.error_of_andThen hrun with hfirst | ⟨a, middle, -, hsecond⟩
  · exact hstep progress failure after hfirst
  · exact hnext a middle failure after hsecond

theorem Fails.late {step : Load α} (h : step.Fails input cause) : step.FailsLate input cause :=
  fun progress failure after hrun => .inr (h progress failure after hrun)

/-- A step that completes no stage, whether it fails or not, leaves the failures to what follows. -/
theorem FailsLate.bind {step : Load α} {next : α → Load β} {condition : α → Prop}
    (hends : ∀ a, step.Ends input (· = a) (condition a))
    (hstage : ∀ progress, (run step input progress).2.stage = progress.stage)
    (hnext : ∀ a, condition a → (next a).FailsLate input cause) :
    (step >>= next).FailsLate input cause := by
  intro progress failure after hrun
  have hkept := hstage progress
  rw [run_bind_eq_andThen] at hrun
  rcases Effect.error_of_andThen hrun with hfirst | ⟨a, middle, hfirst, hsecond⟩
  · rw [hfirst] at hkept
    exact .inl hkept
  · rw [hfirst] at hkept
    rw [← hkept]
    have hcondition := (hends a progress).mp ⟨a, middle, hfirst, rfl⟩
    exact hnext a hcondition middle failure after hsecond

theorem stage_checkSize (progress : Progress) :
    (run (checkSize options) input progress).2.stage = progress.stage := by
  have hlength : run (liftM Decode.length : Load Nat) input progress =
      (.ok input.size, progress) := rfl
  rw [checkSize, run_bind, hlength]
  dsimp only
  split
  · rfl
  · rfl

theorem fails_finish (event : Progress → Event) (found : Image) :
    Fails (do
      let noted ← progress
      Reporting.record (event noted)
      let last ← progress
      return { found with journal := last.scan.journal }) input cause := by
  intro progress failure after hrun
  cases hrun

theorem failsLate_image {header : Header} (hheader : header.StoredIn input) :
    (image options).FailsLate input (header.BlamesStrays input) := by
  refine FailsLate.bind ends_checkSize stage_checkSize fun _ _ => ?_
  refine FailsLate.bind ends_read (fun _ => rfl) ?_
  rintro input rfl
  refine FailsLate.bind (ends_liftDecode Header.reads_read) (fun _ => rfl) fun found hfound => ?_
  obtain rfl : found = header := Decode.Reads.eq_of_spec Header.reads_read 0 hfound hheader
  refine FailsLate.bind (ends_liftReporting (found.yields_checkAgainst input options))
    (fun _ => rfl) fun _ _ => ?_
  refine FailsLate.bind (ends_liftReporting (Layout.yields_ofHeader found _ options))
    (fun _ => rfl) ?_
  rintro layout ⟨hadmits, -⟩
  have htables : found.AdmitsTables input options := fun table =>
    hadmits _ (Layout.table_mem_order table)
  -- From here on a stage is completed, and what can fail is a pool.
  apply Fails.late
  exact (fails_complete _).bind fun _ =>
    (fails_liftDecode (Pool.Strings.fails_read htables)).bind fun strings =>
    (fails_complete _).bind fun _ =>
    (fails_liftDecode (Pool.Types.fails_read htables strings _)).bind fun types =>
    (fails_complete _).bind fun _ =>
    (fails_liftDecode (Pool.References.fails_read htables
      (ProtoItem.fails_readAt strings types) .protos)).bind fun protos =>
    (fails_complete _).bind fun _ =>
    (fails_liftDecode (Pool.References.fails_read htables
      (FieldItem.fails_readAt strings types) .fields)).bind fun fields =>
    (fails_complete _).bind fun _ =>
    (fails_liftDecode (Pool.References.fails_read htables
      (MethodItem.fails_readAt strings types protos) .methods)).bind fun methods =>
    (fails_complete _).bind fun _ =>
    (fails_liftDecode (Pool.Classes.fails_read htables _)).bind fun classes =>
    (fails_complete _).bind fun _ => fails_finish _
      { input, header := found, layout, strings, types, protos, fields, methods, classes
        journal := {} }

end Load

/-- Every table of an image lies within the input, the empty ones too. -/
theorem Image.StoredIn.not_isStray {image : Image} (h : image.StoredIn input options)
    (table : Table) : ¬image.header.IsStray input table := by
  have hfits : image.header.offset table + image.header.count table * table.itemSize ≤
      input.size := by
    cases table with
    | strings => exact h.strings.holds.fits
    | types => exact h.types.holds.fits
    | protos => exact h.protos.holds.fits
    | fields => exact h.fields.holds.fits
    | methods => exact h.methods.holds.fits
    | classes => exact h.classes.holds.fits
  rintro ⟨-, hlt⟩
  omega

/-- Once a layout has been made every table can be opened, except an empty one that is placed past
the end of the input. Such a table keeps every load from its end; otherwise a load that has
completed a stage does not fail on a table as a whole. -/
theorem Header.opens_iff_not_isStray (header : Header) (input : Bytes) (options : Options) :
    (∀ journal layout after,
      (Layout.ofHeader header input.size options).run journal = (.ok layout, after) →
      ∀ table scan,
        (∃ next, (openTable table (header.count table) (header.offset table)).run input scan =
          (.ok (), next)) ↔ ¬header.IsStray input table) ∧
    (header.StoredIn input →
      (∀ table, header.IsStray input table → ∀ image, Image.read input options ≠ .ok image) ∧
      ∀ failure loader, Loader.run { input, options } = (.error failure, loader) →
        loader.stage ≠ .unparsed →
          ∀ table, failure.OfTable table → header.IsStray input table) := by
  refine ⟨?_, fun hheader => ⟨?_, ?_⟩⟩
  · intro journal layout after hlayout table scan
    have hadmits := ((Layout.yields_ofHeader header input.size options) journal layout).mp
      ⟨after, hlayout⟩
    rw [exists_run_openTable_iff (header.count_lt table)]
    exact (hadmits.1 _ (Layout.table_mem_order table)).fits_iff
  · intro table hstray image hread
    have hstored := image.read_eq_ok_iff.mp ⟨image.journal, hread⟩
    have hsame : image.header = header :=
      Header.reads_read.eq_of_spec 0 hstored.header hheader
    exact hstored.not_isStray table (hsame ▸ hstray)
  · intro failure loader hrun hstage
    have hfailure : ((Load.image options).run input {}).1 = .error failure :=
      congrArg Prod.fst hrun
    have hloader : ((Load.image options).run input {}).2.stage = loader.stage :=
      congrArg (fun outcome => outcome.2.stage) hrun
    rcases Load.failsLate_image hheader {} failure _ (Prod.ext hfailure rfl) with hkept | hstray
    · rw [hloader] at hkept
      exact (hstage hkept).elim
    · exact hstray

namespace Contents

/-- The header of an empty file, but for the table of strings, which has no items and is placed past
the end. -/
def strayHeader : Header :=
  { ({} : Contents).headerWith 0 (Vector.replicate 20 0) with stringIds := ⟨0, 0x1000⟩ }

theorem size_strayHeader : strayHeader.encode.toArray.size = 0x70 := by
  rw [List.size_toArray, Header.length_encode]
  rfl

theorem isStray_strayHeader : strayHeader.IsStray strayHeader.encode.toArray .strings := by
  rw [Header.IsStray, size_strayHeader]
  decide +kernel

theorem exists_layout_strayHeader :
    ∃ layout after, (Layout.ofHeader strayHeader 0x70 .lenient).run {} = (.ok layout, after) := by
  have hok : ((Layout.ofHeader strayHeader 0x70 .lenient).run {}).1.isOk := by decide +kernel
  cases hrun : (Layout.ofHeader strayHeader 0x70 .lenient).run {} with
  | mk result after =>
      rw [hrun] at hok
      cases result with
      | ok layout => exact ⟨layout, after, rfl⟩
      | error failure => cases hok

theorem exists_failure_strayHeader :
    ∃ loader, Loader.run { input := strayHeader.encode.toArray, options := .lenient } =
        (.error { fault := .seekPastEnd 0x1000 0x70, contexts := [.pool .strings] }, loader) ∧
      loader.stage = .headerValidated := by
  have hfailure : (match (Loader.run
        { input := strayHeader.encode.toArray, options := .lenient }).1 with
      | .error failure => some failure
      | .ok _ => none) =
        some { fault := .seekPastEnd 0x1000 0x70, contexts := [.pool .strings] } := by
    decide +kernel
  have hstage : (Loader.run
      { input := strayHeader.encode.toArray, options := .lenient }).2.stage = .headerValidated := by
    decide +kernel
  cases hrun : Loader.run { input := strayHeader.encode.toArray, options := .lenient } with
  | mk result loader =>
      rw [hrun] at hfailure hstage
      cases result with
      | ok image => cases hfailure
      | error failure =>
          obtain rfl := Option.some.inj hfailure
          exact ⟨loader, rfl, hstage⟩

/-- A layout is made for the stray table. Then it cannot be opened, which ends the load. -/
theorem run_strayHeader :
    ∃ layout after loader,
      (Layout.ofHeader strayHeader strayHeader.encode.toArray.size .lenient).run {} =
        (.ok layout, after) ∧
      (∀ scan next, (openTable .strings (strayHeader.count .strings)
        (strayHeader.offset .strings)).run strayHeader.encode.toArray scan ≠ (.ok (), next)) ∧
      Loader.run { input := strayHeader.encode.toArray, options := .lenient } =
        (.error { fault := .seekPastEnd 0x1000 0x70, contexts := [.pool .strings] }, loader) ∧
      loader.stage = .headerValidated := by
  obtain ⟨layout, after, hlayout⟩ := exists_layout_strayHeader
  obtain ⟨loader, hrun, hstage⟩ := exists_failure_strayHeader
  refine ⟨layout, after, loader, by rw [size_strayHeader, hlayout], ?_, hrun, hstage⟩
  intro scan next hopen
  have hstray := isStray_strayHeader.2
  have hfits := (exists_run_openTable_iff (strayHeader.count_lt .strings) _ scan).mp ⟨next, hopen⟩
  exact Nat.not_le_of_lt hstray hfits.1

theorem storedIn_strayHeader : strayHeader.StoredIn strayHeader.encode.toArray where
  bytes := List.prefix_refl _
  magic := by decide
  endianTag := rfl

/-- No load gets past the stray table. -/
theorem read_strayHeader :
    ¬∃ image, Image.read strayHeader.encode.toArray .lenient = .ok image := by
  have hstray := (Header.opens_iff_not_isStray strayHeader strayHeader.encode.toArray .lenient).2
    storedIn_strayHeader
  rintro ⟨image, hread⟩
  exact hstray.1 .strings isStray_strayHeader image hread

end Contents

end Dalvik
