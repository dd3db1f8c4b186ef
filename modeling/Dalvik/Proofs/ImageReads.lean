import Dalvik.Loader
import Dalvik.Proofs.Effects
import Dalvik.Proofs.HeaderChecks
import Dalvik.Proofs.PoolReads

/-!
# Reading a whole file

An image is read from an input just when every part of it is stored there. The journal of the image
is the only thing left open.
-/

namespace Dalvik

open Decode

variable {input : Bytes} {options : Options}

/-- The sizes of the pools that the classes of an image refer to. -/
def Image.sizes (image : Image) : ClassItem.Sizes where
  strings := image.strings.size
  types := image.types.size
  fields := image.fields.size
  methods := image.methods.size

/-- An image whose parts are all stored in an input, each where the header or the part before it
places it, and whose header the options accept. -/
structure Image.StoredIn (input : Bytes) (options : Options) (image : Image) : Prop where
  input_eq : image.input = input
  size_le : input.size ≤ options.inputLimit
  header : image.header.StoredIn input
  described : options.strict → image.header.DescribesInput input options
  admitted : ∀ block ∈ Layout.order, image.header.Admits input.size options block
  layout : image.layout = Layout.placed image.header input.size
  strings : image.strings.StoredIn input image.header
  types : image.types.StoredIn input image.header image.strings options.arrayLimit
  protos : image.protos.StoredIn input image.header .protos fun pos item =>
    item.StoredAt input image.strings.size image.types.size pos
  fields : image.fields.StoredIn input image.header .fields fun pos item =>
    item.StoredAt input image.strings.size image.types.size pos
  methods : image.methods.StoredIn input image.header .methods fun pos item =>
    item.StoredAt input image.strings.size image.types.size image.protos.size pos
  classes : image.classes.StoredIn input image.header image.sizes

theorem Pool.References.StoredIn.size_le {α : Type} {header : Header} {table : Table}
    {storedAt : Nat → α → Prop} {pool : Pool.References α}
    (h : pool.StoredIn input header table storedAt) : pool.size ≤ 2 ^ 32 :=
  Nat.le_trans (Nat.le_of_eq h.holds.size) (Nat.le_of_lt (header.count_lt table))

namespace Load

variable {α β : Type}

/-- A step can end with a value that `goal` admits, from any progress, just under a condition. -/
def Ends (step : Load α) (input : Bytes) (goal : α → Prop) (condition : Prop) : Prop :=
  ∀ progress, (∃ value after, run step input progress = (.ok value, after) ∧ goal value) ↔ condition

theorem Ends.congr {step : Load α} {goal : α → Prop} {condition other : Prop}
    (h : step.Ends input goal condition) (hiff : condition ↔ other) : step.Ends input goal other :=
  fun progress => (h progress).trans hiff

theorem run_bind (step : Load α) (next : α → Load β) (input : Bytes) (progress : Progress) :
    run (step >>= next) input progress =
      match run step input progress with
      | (.ok a, after) => run (next a) input after
      | (.error failure, after) => (.error failure, after) := by
  unfold run ReaderT.run ExceptT.run StateT.run
  simp only [bind, ReaderT.bind, ExceptT.bind, ExceptT.mk, StateT.bind]
  cases step input progress with
  | mk result after => cases result <;> rfl

theorem run_bind_eq_andThen (step : Load α) (next : α → Load β) (input : Bytes) :
    run (step >>= next) input = Effect.andThen (run step input) fun a => run (next a) input := by
  funext progress
  rw [run_bind, Effect.andThen]
  cases run step input progress with
  | mk result after => cases result <;> rfl

theorem Ends.bind {step : Load α} {next : α → Load β} {condition : α → Prop}
    {goal : β → Prop} {conditionNext : α → Prop}
    (hstep : ∀ a, step.Ends input (· = a) (condition a))
    (hnext : ∀ a, condition a → (next a).Ends input goal (conditionNext a)) :
    (step >>= next).Ends input goal (∃ a, condition a ∧ conditionNext a) := by
  intro progress
  rw [run_bind]
  constructor
  · rintro ⟨b, after, hrun, hgoal⟩
    cases hfirst : run step input progress with
    | mk result middle =>
        rw [hfirst] at hrun
        cases result with
        | error failure => cases hrun
        | ok a =>
            have hcondition := (hstep a progress).mp ⟨a, middle, hfirst, rfl⟩
            exact ⟨a, hcondition, (hnext a hcondition middle).mp ⟨b, after, hrun, hgoal⟩⟩
  · rintro ⟨a, hcondition, hconditionNext⟩
    obtain ⟨_, middle, hfirst, rfl⟩ := (hstep a progress).mpr hcondition
    rw [hfirst]
    exact (hnext _ hcondition middle).mpr hconditionNext

theorem ends_pure (a : α) : Ends (pure a) input (· = a) True := by
  intro progress
  rw [iff_true]
  exact ⟨a, progress, rfl, rfl⟩

/-- A step that leaves the cursor alone ends as it does in the scan. -/
theorem ends_liftDecode {step : Decode α} {spec : α → Prop}
    (h : step.Reads input 0 fun _ => spec) (a : α) :
    Ends (liftM step) input (· = a) (spec a) := by
  intro progress
  have hrun : run (liftM step) input progress = ((step.run input progress.scan).1,
      { progress with scan := (step.run input progress.scan).2 }) := rfl
  rw [hrun]
  constructor
  · rintro ⟨value, after, hstep, rfl⟩
    cases hresult : step.run input progress.scan with
    | mk result scan =>
        rw [hresult] at hstep
        obtain ⟨rfl, -⟩ := Prod.mk.inj hstep
        exact ((h progress.scan value scan.pos).mp ⟨scan.journal, hresult⟩).2
  · intro hspec
    obtain ⟨journal, hstep⟩ := (h progress.scan a progress.scan.pos).mpr ⟨rfl, hspec⟩
    rw [hstep]
    exact ⟨a, _, rfl, rfl⟩

theorem ends_liftReporting {step : Reporting α} {spec : α → Prop} (h : step.Yields spec) (a : α) :
    Ends (liftM step) input (· = a) (spec a) :=
  ends_liftDecode (reads_liftReporting h) a

theorem ends_read (a : Bytes) : Ends (read : Load Bytes) input (· = a) (a = input) := by
  intro progress
  have hrun : run (read : Load Bytes) input progress = (.ok input, progress) := rfl
  rw [hrun]
  constructor
  · rintro ⟨_, _, ⟨rfl, rfl⟩, rfl⟩
    rfl
  · rintro rfl
    exact ⟨_, _, rfl, rfl⟩

theorem ends_complete (stage : Stage) (a : Unit) : (complete stage).Ends input (· = a) True := by
  intro progress
  rw [iff_true]
  exact ⟨(), _, rfl, rfl⟩

theorem ends_checkSize (a : Unit) :
    (checkSize options).Ends input (· = a) (input.size ≤ options.inputLimit) := by
  have hfail : ∀ length, Ends (if options.inputLimit < length then
      liftM (Decode.fail (.inputTooLarge length options.inputLimit) : Decode Unit) else pure ())
      input (· = a) (length ≤ options.inputLimit) := fun length => by
    split
    next hlt => exact (ends_liftDecode (reads_fail _ 0) a).congr (by simp; omega)
    next hle => exact (ends_pure a).congr (by simp; omega)
  refine ((Ends.bind (ends_liftDecode reads_length) fun length _ => hfail length)).congr ?_
  constructor
  · rintro ⟨_, rfl, hle⟩
    exact hle
  · exact fun hle => ⟨_, rfl, hle⟩

theorem run_checkSize_of_le (h : input.size ≤ options.inputLimit) (progress : Progress) :
    run (checkSize options) input progress = (.ok (), progress) := by
  have hlength : run (liftM Decode.length : Load Nat) input progress =
      (.ok input.size, progress) := rfl
  rw [checkSize, run_bind, hlength]
  simp only [if_neg (Nat.not_lt.mpr h)]
  rfl

/-- Making the image of what has been read cannot fail. -/
theorem ends_finish (event : Progress → Event) (found target : Image) :
    Ends (do
      let noted ← progress
      Reporting.record (event noted)
      let last ← progress
      return { found with journal := last.scan.journal }) input
      (fun image => ∃ journal, image = { target with journal })
      (∃ journal, target = { found with journal }) := by
  intro progress
  constructor
  · rintro ⟨_, _, ⟨rfl, rfl⟩, journal, heq⟩
    injection heq with hinput hheader hlayout hstrings htypes hprotos hfields hmethods hclasses
    refine ⟨target.journal, ?_⟩
    rw [hinput, hheader, hlayout, hstrings, htypes, hprotos, hfields, hmethods, hclasses]
  · rintro ⟨journal, rfl⟩
    exact ⟨_, _, rfl, _, rfl⟩

/-- A load ends with an image just when that is stored in the input. -/
theorem ends_image (target : Image) :
    (image options).Ends input (fun found => ∃ journal, found = { target with journal })
      (target.StoredIn input options) := by
  -- One law for each step of a load, in their order. What a pool is said to hold bounds its size,
  -- which the classes rely on.
  refine (Ends.bind ends_checkSize fun _ _ => Ends.bind ends_read fun input _ =>
    Ends.bind (ends_liftDecode Header.reads_read) fun header _ =>
    Ends.bind (ends_liftReporting (header.yields_checkAgainst input options)) fun _ _ =>
    Ends.bind (ends_liftReporting (Layout.yields_ofHeader header _ options)) fun layout _ =>
    Ends.bind (ends_complete _) fun _ _ =>
    Ends.bind (ends_liftDecode (Pool.Strings.reads_read header)) fun strings _ =>
    Ends.bind (ends_complete _) fun _ _ =>
    Ends.bind (ends_liftDecode (Pool.Types.reads_read header strings options.arrayLimit))
      fun types _ =>
    Ends.bind (ends_complete _) fun _ _ =>
    Ends.bind (ends_liftDecode (Pool.References.reads_read
      (ProtoItem.reads_readAt strings types) header)) fun protos _ =>
    Ends.bind (ends_complete _) fun _ _ =>
    Ends.bind (ends_liftDecode (Pool.References.reads_read
      (FieldItem.reads_readAt strings types) header)) fun fields hfields =>
    Ends.bind (ends_complete _) fun _ _ =>
    Ends.bind (ends_liftDecode (Pool.References.reads_read
      (MethodItem.reads_readAt strings types protos) header)) fun methods hmethods =>
    Ends.bind (ends_complete _) fun _ _ =>
    Ends.bind (ends_liftDecode (Pool.Classes.reads_read hfields.size_le hmethods.size_le header))
      fun classes _ =>
    Ends.bind (ends_complete _) fun _ _ => ends_finish _
      { input, header, layout, strings, types, protos, fields, methods, classes, journal := {} }
      target).congr ?_
  constructor
  · rintro ⟨_, hsize, _, rfl, header, hheader, _, hdescribed, layout, ⟨hadmitted, hlayout⟩, _, -,
      strings, hstrings, _, -, types, htypes, _, -, protos, hprotos, _, -, fields, hfields, _, -,
      methods, hmethods, _, -, classes, hclasses, _, -, journal, rfl⟩
    exact ⟨rfl, hsize, hheader, hdescribed, hadmitted, hlayout, hstrings, htypes, hprotos, hfields,
      hmethods, hclasses⟩
  · intro h
    exact ⟨(), h.size_le, _, rfl, _, h.header, (), h.described, _, ⟨h.admitted, h.layout⟩, (),
      trivial, _, h.strings, (), trivial, _, h.types, (), trivial, _, h.protos, (), trivial, _,
      h.fields, (), trivial, _, h.methods, (), trivial, _, h.classes, (), trivial, target.journal,
      by rw [← h.input_eq]⟩

end Load

/-- The images that can be read from an input are those that are stored in it, whatever is noted
while one is read. -/
theorem Image.read_eq_ok_iff (image : Image) :
    (∃ journal, Image.read input options = .ok { image with journal }) ↔
      image.StoredIn input options := by
  have hread : Image.read input options = ((Load.image options).run input {}).1 := rfl
  rw [hread, ← Load.ends_image image {}]
  constructor
  · rintro ⟨journal, hok⟩
    exact ⟨_, _, Prod.ext hok rfl, journal, rfl⟩
  · rintro ⟨_, _, hrun, journal, rfl⟩
    exact ⟨journal, congrArg Prod.fst hrun⟩

/-- Whether an input can be read at all. -/
theorem Image.exists_read_iff :
    (∃ image, Image.read input options = .ok image) ↔
      ∃ image : Image, image.StoredIn input options :=
  ⟨fun ⟨image, hok⟩ => ⟨image, image.read_eq_ok_iff.mp ⟨image.journal, hok⟩⟩,
    fun ⟨image, h⟩ => (image.read_eq_ok_iff.mpr h).elim fun _ hok => ⟨_, hok⟩⟩

end Dalvik
