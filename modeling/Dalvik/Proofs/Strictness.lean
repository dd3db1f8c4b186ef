import Dalvik.Proofs.Acceptance

/-!
# Strict loads

A strict load does what a load that is not strict does, as long as the input contradicts no
statement of the header. At the first statement that it contradicts, the strict load stops.
-/

namespace Dalvik

variable {α β : Type} {input : Bytes} {options : Options}

/-- The options with the strict checks switched on. -/
def Options.tightened (options : Options) : Options :=
  { options with strict := true }

/-! ## What is contradicted -/

namespace Contradiction

/-- A statement, if there is a reason to hold it against the header. -/
def when (statement : Contradiction) (c : Prop) [Decidable c] : List Contradiction :=
  if c then [statement] else []

end Contradiction

namespace Header

/-- What a header says of its own size, the size of the file, the checksum and the signature, as far
as the input contradicts it. -/
def misstatements (header : Header) (input : Bytes) (options : Options) : List Contradiction :=
  let checksum := Adler32.checksum (input.toList.drop 12)
  let signature := Sha1.digest (input.toList.drop 32)
  (Contradiction.headerSize header.headerSize).when (header.headerSize.toNat ≠ 0x70) ++
    ((Contradiction.fileSize header.fileSize input.size).when
        (header.fileSize.toNat ≠ input.size) ++
      ((Contradiction.checksum header.checksum checksum).when
          (options.compareChecksum ∧ checksum ≠ header.checksum) ++
        (Contradiction.signature header.signature.toList).when
          (options.compareSignature ∧ signature ≠ header.signature.toList)))

theorem misstatements_eq (header : Header) (input : Bytes) (options : Options) :
    header.misstatements input options =
      (Contradiction.headerSize header.headerSize).when (header.headerSize.toNat ≠ headerLength) ++
        ((Contradiction.fileSize header.fileSize input.size).when
            (header.fileSize.toNat ≠ input.size) ++
          ((Contradiction.checksum header.checksum (computedChecksum input)).when
              (options.compareChecksum ∧ computedChecksum input ≠ header.checksum) ++
            (Contradiction.signature header.signature.toList).when
              (options.compareSignature ∧ computedSignature input ≠ header.signature.toList))) :=
  rfl

/-- What a header says of a section that is no table, if the section is not empty and does not end
within `length` bytes. -/
def overrun (header : Header) (length : Nat) : Section → List Contradiction
  | .table _ => []
  | block =>
    let span := header.span block
    (Contradiction.blockPastEnd block span.start span.stop length).when
      (span.start ≠ span.stop ∧ length < span.stop)

/-- The statements of a header that an input contradicts, in the order in which they are looked
at. -/
def contradictions (header : Header) (input : Bytes) (options : Options) : List Contradiction :=
  header.misstatements input options ++ Layout.order.flatMap (header.overrun input.size)

/-- Of the sections that the header places, all but two are tables. -/
theorem flatMap_overrun (header : Header) (length : Nat) :
    Layout.order.flatMap (header.overrun length) =
      header.overrun length .data ++ header.overrun length .link := by
  simp [Layout.order, Section.all, overrun]

end Header

/-! ## What a strict load demands -/

/-- Something that a strict load demands of a header, the statement that it holds against a header
that does not meet the demand, and the kind of failure that this is. -/
structure Demand where
  isMet : Prop
  statement : Contradiction
  kind : Fault.Kind

/-- The statements held against a header are those of the demands that it does not meet. -/
inductive Demand.Unmet : List Demand → List Contradiction → Prop where
  | nil : Unmet [] []
  | met {demand : Demand} {demands : List Demand} {statements : List Contradiction}
    (h : demand.isMet) (hrest : Unmet demands statements) : Unmet (demand :: demands) statements
  | unmet {demand : Demand} {demands : List Demand} {statements : List Contradiction}
    (h : ¬demand.isMet) (hrest : Unmet demands statements) :
    Unmet (demand :: demands) (demand.statement :: statements)

namespace Demand

variable {demands : List Demand} {statements : List Contradiction}

theorem Unmet.when {demand : Demand} {c : Prop} [Decidable c] (hc : c ↔ ¬demand.isMet)
    (hrest : Unmet demands statements) :
    Unmet (demand :: demands) (demand.statement.when c ++ statements) := by
  rw [Contradiction.when]
  split
  next h => exact .unmet (hc.mp h) hrest
  next h => exact .met (Classical.not_not.mp fun hunmet => h (hc.mpr hunmet)) hrest

theorem Unmet.eq_nil_iff (h : Unmet demands statements) :
    statements = [] ↔ ∀ demand ∈ demands, demand.isMet := by
  induction h with
  | nil => simp
  | met h _ ih => simp [h, ih]
  | unmet h => simp [h]

/-- The first statement belongs to the first demand that is not met. -/
theorem Unmet.exists_first {first : Contradiction} (h : Unmet demands (first :: statements)) :
    ∃ before demand after, demands = before ++ demand :: after ∧
      (∀ earlier ∈ before, earlier.isMet) ∧ ¬demand.isMet ∧ demand.statement = first := by
  generalize heq : first :: statements = violated at h
  induction h with
  | nil => cases heq
  | @met demand demands _ hmet _ ih =>
      obtain ⟨before, next, after, rfl, hbefore, hnext⟩ := ih heq
      exact ⟨demand :: before, next, after, rfl, List.forall_mem_cons.mpr ⟨hmet, hbefore⟩, hnext⟩
  | @unmet demand demands _ hunmet =>
      exact ⟨[], demand, demands, rfl, by simp, hunmet, (List.cons.inj heq).1.symm⟩

/-- There is only one first demand that is not met. -/
theorem eq_of_append_eq {front back before after : List Demand} {demand other : Demand}
    (h : front ++ demand :: back = before ++ other :: after)
    (hfront : ∀ earlier ∈ front, earlier.isMet) (hdemand : ¬demand.isMet)
    (hbefore : ∀ earlier ∈ before, earlier.isMet) (hother : ¬other.isMet) : other = demand := by
  rcases List.append_eq_append_iff.mp h with ⟨middle, rfl, hmiddle⟩ | ⟨middle, rfl, hmiddle⟩
  · cases middle with
    | nil => exact (List.cons.inj hmiddle).1.symm
    | cons next middle =>
        obtain rfl : demand = next := (List.cons.inj hmiddle).1
        exact (hdemand (hbefore _ (by simp))).elim
  · cases middle with
    | nil => exact (List.cons.inj hmiddle).1
    | cons next middle =>
        obtain rfl : other = next := (List.cons.inj hmiddle).1
        exact (hother (hfront _ (by simp))).elim

end Demand

namespace Header

/-- What a strict load demands of a header, in the order in which it looks: the size of the header
and of the file, the checksum and the signature if the options ask for them, and that the data and
the link section end within the input unless they are empty. -/
def demands (header : Header) (input : Bytes) (options : Options) : List Demand :=
  let checksum := Adler32.checksum (input.toList.drop 12)
  let signature := Sha1.digest (input.toList.drop 32)
  let dataStart := header.data.offset.toNat
  let dataStop := header.data.offset.toNat + header.data.size.toNat
  let linkStart := header.link.offset.toNat
  let linkStop := header.link.offset.toNat + header.link.size.toNat
  [⟨header.headerSize.toNat = 0x70, .headerSize header.headerSize, .invalidHeader⟩,
    ⟨header.fileSize.toNat = input.size, .fileSize header.fileSize input.size, .invalidHeader⟩,
    ⟨options.compareChecksum → checksum = header.checksum, .checksum header.checksum checksum,
      .integrity⟩,
    ⟨options.compareSignature → signature = header.signature.toList,
      .signature header.signature.toList, .integrity⟩,
    ⟨header.data.size.toNat ≠ 0 → dataStop ≤ input.size,
      .blockPastEnd .data dataStart dataStop input.size, .truncated⟩,
    ⟨header.link.size.toNat ≠ 0 → linkStop ≤ input.size,
      .blockPastEnd .link linkStart linkStop input.size, .truncated⟩]

theorem unmet_contradictions (header : Header) (input : Bytes) (options : Options) :
    Demand.Unmet (header.demands input options) (header.contradictions input options) := by
  rw [contradictions, flatMap_overrun, misstatements, ← List.append_nil (header.overrun _ .link)]
  simp only [List.append_assoc]
  refine .when ?_ <| .when ?_ <| .when ?_ <| .when ?_ <| .when ?_ <| .when ?_ .nil
  · exact Iff.rfl
  · exact Iff.rfl
  · simp only [Classical.not_imp, ne_eq]
  · simp only [Classical.not_imp, ne_eq]
  · simp only [span]
    omega
  · simp only [span]
    omega

/-- A demand that is not met is a failure of the kind that the demand names. -/
theorem kind_of_mem_demands {header : Header} {demand : Demand}
    (h : demand ∈ header.demands input options) : demand.statement.kind = demand.kind := by
  simp only [demands, List.mem_cons, List.not_mem_nil, or_false] at h
  rcases h with rfl | rfl | rfl | rfl | rfl | rfl <;> rfl

end Header

/-! ## Effects -/

namespace Effect

variable {σ κ : Type}

/-- A strict step against one that is not, when `violated` is what the input contradicts. If that is
nothing the two do the same. Otherwise the strict step fails; if the other succeeds, the first
contradiction is to blame and `key` of the state is left as it was. -/
def Tightens (key : σ → κ) (lax strict : Effect σ α) : (violated : List Contradiction) → Prop
  | [] => strict = lax
  | first :: _ => ∀ state, ∃ failure after, strict state = (.error failure, after) ∧
      ∀ a laxAfter, lax state = (.ok a, laxAfter) →
        failure = { fault := .contradicted first } ∧ key after = key state

theorem Tightens.bind {key : σ → κ} {lax strict : Effect σ α} {laxNext strictNext : α → Effect σ β}
    {spec : α → Prop} {violated violatedNext : List Contradiction}
    (hstep : Tightens key lax strict violated)
    (hkeeps : ∀ state a after, lax state = (.ok a, after) → key after = key state ∧ spec a)
    (hnext : ∀ a, spec a → Tightens key (laxNext a) (strictNext a) violatedNext) :
    Tightens key (lax.andThen laxNext) (strict.andThen strictNext) (violated ++ violatedNext) := by
  cases violated with
  | nil =>
      -- Both come to the second step in the same way.
      obtain rfl : strict = lax := hstep
      cases violatedNext with
      | nil =>
          funext state
          cases hrun : strict state with
          | mk result middle =>
              cases result with
              | ok a =>
                  have hsame : strictNext a = laxNext a := hnext a (hkeeps state a middle hrun).2
                  rw [andThen_of_ok hrun, andThen_of_ok hrun, hsame]
              | error failure => rw [andThen_of_error hrun, andThen_of_error hrun]
      | cons first rest =>
          intro state
          cases hrun : strict state with
          | mk result middle =>
              cases result with
              | ok a =>
                  obtain ⟨hkey, hspec⟩ := hkeeps state a middle hrun
                  obtain ⟨failure, after, hsecond, hblame⟩ := hnext a hspec middle
                  rw [andThen_of_ok hrun, andThen_of_ok hrun]
                  refine ⟨failure, after, hsecond, ?_⟩
                  intro b laxAfter hlax
                  rw [← hkey]
                  exact hblame b laxAfter hlax
              | error failure =>
                  rw [andThen_of_error hrun, andThen_of_error hrun]
                  exact ⟨failure, middle, rfl, by simp⟩
  | cons first rest =>
      intro state
      obtain ⟨failure, after, hrun, hblame⟩ := hstep state
      rw [andThen_of_error hrun]
      refine ⟨failure, after, rfl, ?_⟩
      intro b laxAfter hlax
      cases hfirst : lax state with
      | mk result middle =>
          cases result with
          | ok a => exact hblame a middle hfirst
          | error refusal =>
              rw [andThen_of_error hfirst] at hlax
              cases hlax

end Effect

/-! ## Steps that only write to the journal -/

namespace Reporting

/-- A strict step against one that is not. -/
def Tightens (lax strict : Reporting α) (violated : List Contradiction) : Prop :=
  Effect.Tightens (fun _ => ()) (run lax) (run strict) violated

theorem tightens_refl (step : Reporting α) : Tightens step step [] :=
  rfl

theorem Tightens.bind {lax strict : Reporting α} {laxNext strictNext : α → Reporting β}
    {violated violatedNext : List Contradiction} (hstep : Tightens lax strict violated)
    (hnext : ∀ a, Tightens (laxNext a) (strictNext a) violatedNext) :
    Tightens (lax >>= laxNext) (strict >>= strictNext) (violated ++ violatedNext) := by
  rw [Tightens, run_bind_eq_andThen, run_bind_eq_andThen]
  exact Effect.Tightens.bind hstep (fun _ _ _ _ => ⟨rfl, trivial⟩) fun a _ => hnext a

theorem tightens_contradict (options : Options) (statement : Contradiction) :
    Tightens (contradict options statement) (contradict options.tightened statement)
      [statement] :=
  fun journal => ⟨_, journal, rfl, fun _ _ _ => ⟨rfl, rfl⟩⟩

/-- A statement that is held against the header on a condition, before what follows. -/
theorem tightens_contradictIf (options : Options) (statement : Contradiction) (c : Prop)
    [Decidable c] {lax strict : Reporting α} {violated : List Contradiction}
    (hrest : Tightens lax strict violated) :
    Tightens
      (if c then do
        contradict options statement
        lax
      else lax)
      (if c then do
        contradict options.tightened statement
        strict
      else strict) (statement.when c ++ violated) := by
  by_cases hc : c
  · simp only [Contradiction.when, if_pos hc]
    exact (tightens_contradict options statement).bind fun _ => hrest
  · simp only [Contradiction.when, if_neg hc]
    exact hrest

theorem tightens_warnIf (anomaly : Anomaly) (c : Prop) [Decidable c] {lax strict : Reporting α}
    {violated : List Contradiction} (hrest : Tightens lax strict violated) :
    Tightens
      (if c then do
        warn anomaly
        lax
      else lax)
      (if c then do
        warn anomaly
        strict
      else strict) violated := by
  split
  · exact (tightens_refl (warn anomaly)).bind fun _ => hrest
  · exact hrest

/-- A statement that is looked at only if the options ask for it. -/
theorem tightens_contradictIfAsked (options : Options) (statement : Contradiction) (asked : Bool)
    (c : Prop) [Decidable c] {lax strict : Reporting α} {violated : List Contradiction}
    (hrest : Tightens lax strict violated) :
    Tightens
      (if asked then
        if c then do
          contradict options statement
          lax
        else lax
      else lax)
      (if asked then
        if c then do
          contradict options.tightened statement
          strict
        else strict
      else strict) (statement.when (asked ∧ c) ++ violated) := by
  cases asked with
  | true =>
      simp only [if_true, true_and]
      exact tightens_contradictIf options statement c hrest
  | false =>
      simp only [Bool.false_eq_true, if_false, false_and, Contradiction.when]
      exact hrest

end Reporting

open Reporting

namespace Header

theorem tightens_checkAgainst (header : Header) (input : Bytes) (options : Options) :
    Tightens (header.checkAgainst input options) (header.checkAgainst input options.tightened)
      (header.misstatements input options) := by
  have hrecord := tightens_refl (record (.headerAccepted header.version (header.count .strings)
    (header.count .types) (header.count .classes)))
  apply tightens_warnIf
  apply tightens_contradictIf
  apply tightens_contradictIf
  apply tightens_contradictIfAsked
  have hsignature := tightens_contradictIfAsked options (.signature header.signature.toList)
    options.compareSignature (computedSignature input ≠ header.signature.toList) hrecord
  rwa [List.append_nil] at hsignature

end Header

namespace Layout

theorem tightens_placeSection (header : Header) (length : Nat) (options : Options)
    (layout : Layout) (block : Section) :
    Tightens (placeSection header length options layout block)
      (placeSection header length options.tightened layout block)
      (header.overrun length block) := by
  cases block with
  | table table => exact tightens_refl (placeSection header length options layout (.table table))
  | header | data | link =>
      simp only [placeSection, Header.overrun, Contradiction.when]
      split
      next hempty =>
        rw [if_neg fun hover => hover.1 hempty]
        exact tightens_refl _
      next hne =>
        split
        next hlt =>
          rw [if_pos ⟨hne, hlt⟩]
          exact (tightens_contradict options _).bind fun _ => tightens_refl (pure layout)
        next hle =>
          rw [if_neg fun hover => hle hover.2]
          exact tightens_refl _

theorem tightens_foldlM_placeSection (header : Header) (length : Nat) (options : Options)
    (blocks : List Section) (layout : Layout) :
    Tightens (blocks.foldlM (placeSection header length options) layout)
      (blocks.foldlM (placeSection header length options.tightened) layout)
      (blocks.flatMap (header.overrun length)) := by
  induction blocks generalizing layout with
  | nil => exact tightens_refl _
  | cons block blocks ih =>
      rw [List.foldlM_cons, List.foldlM_cons, List.flatMap_cons]
      exact (tightens_placeSection header length options layout block).bind ih

end Layout

/-! ## Loads -/

namespace Load

/-- A strict load against one that is not. A contradiction is met before a stage is completed. -/
def Tightens (input : Bytes) (lax strict : Load α) (violated : List Contradiction) : Prop :=
  Effect.Tightens Progress.stage (run lax input) (run strict input) violated

/-- A step that completes no stage, and ends with nothing but what `spec` tells of. -/
def Keeps (step : Load α) (input : Bytes) (spec : α → Prop) : Prop :=
  ∀ progress a after, run step input progress = (.ok a, after) →
    after.stage = progress.stage ∧ spec a

theorem tightens_refl (step : Load α) : Tightens input step step [] :=
  rfl

theorem tightens_liftReporting {lax strict : Reporting α} {violated : List Contradiction}
    (h : Reporting.Tightens lax strict violated) :
    Tightens input (liftM lax) (liftM strict) violated := by
  have hrun : ∀ (step : Reporting α) progress, run (liftM step) input progress =
      ((step.run progress.scan.journal).1, { progress with
        scan := { progress.scan with journal := (step.run progress.scan.journal).2 } }) :=
    fun _ _ => rfl
  cases violated with
  | nil =>
      have hsame : Reporting.run strict = Reporting.run lax := h
      funext progress
      rw [hrun, hrun, hsame]
  | cons first rest =>
      intro progress
      obtain ⟨failure, after, hstrict, hblame⟩ := h progress.scan.journal
      refine ⟨failure, _, by rw [hrun, hstrict], ?_⟩
      intro a laxAfter hlax
      rw [hrun] at hlax
      obtain ⟨hok, -⟩ := Prod.mk.inj hlax
      exact ⟨(hblame a _ (Prod.ext hok rfl)).1, rfl⟩

theorem Tightens.bind {lax strict : Load α} {laxNext strictNext : α → Load β} {spec : α → Prop}
    {violated violatedNext : List Contradiction} (hstep : Tightens input lax strict violated)
    (hkeeps : lax.Keeps input spec)
    (hnext : ∀ a, spec a → Tightens input (laxNext a) (strictNext a) violatedNext) :
    Tightens input (lax >>= laxNext) (strict >>= strictNext) (violated ++ violatedNext) := by
  rw [Tightens, run_bind_eq_andThen, run_bind_eq_andThen]
  exact Effect.Tightens.bind hstep hkeeps hnext

/-- Before what is compared, both loads make the same step. -/
theorem tightens_bind_of_keeps {step : Load α} {laxNext strictNext : α → Load β} {spec : α → Prop}
    {violated : List Contradiction} (hkeeps : step.Keeps input spec)
    (hnext : ∀ a, spec a → Tightens input (laxNext a) (strictNext a) violated) :
    Tightens input (step >>= laxNext) (step >>= strictNext) violated :=
  Tightens.bind (tightens_refl step) hkeeps hnext

theorem keeps_liftDecode {step : Decode α} {spec : α → Prop}
    (h : step.Reads input 0 fun _ => spec) : Keeps (liftM step) input spec := by
  intro progress a after hrun
  have hends := (ends_liftDecode h a progress).mp ⟨a, after, hrun, rfl⟩
  exact ⟨(congrArg (fun outcome => outcome.2.stage) hrun).symm, hends⟩

theorem keeps_liftReporting (step : Reporting α) :
    Keeps (liftM step) input fun _ => True := by
  intro progress a after hrun
  exact ⟨(congrArg (fun outcome => outcome.2.stage) hrun).symm, trivial⟩

theorem keeps_read : Keeps (read : Load Bytes) input (· = input) := by
  intro progress a after hrun
  cases hrun
  exact ⟨rfl, rfl⟩

theorem keeps_checkSize : (checkSize options).Keeps input fun _ => True := by
  intro progress a after hrun
  have hle := (ends_checkSize a progress).mp ⟨a, after, hrun, rfl⟩
  rw [run_checkSize_of_le hle] at hrun
  cases hrun
  exact ⟨rfl, trivial⟩

/-- A strict load and one that is not part ways only where the input contradicts the header that it
starts with. -/
theorem tightens_image {header : Header} (h : header.StoredIn input) (options : Options) :
    Tightens input (image options) (image options.tightened)
      (header.contradictions input options) := by
  apply tightens_bind_of_keeps keeps_checkSize
  intro _ _
  apply tightens_bind_of_keeps keeps_read
  rintro _ rfl
  apply tightens_bind_of_keeps (keeps_liftDecode Header.reads_read)
  intro found hfound
  obtain rfl : found = header := Decode.Reads.eq_of_spec Header.reads_read 0 hfound h
  apply Tightens.bind (tightens_liftReporting (found.tightens_checkAgainst _ options))
    (keeps_liftReporting _)
  intro _ _
  rw [← List.append_nil (Layout.order.flatMap _)]
  apply Tightens.bind (tightens_liftReporting
    (Layout.tightens_foldlM_placeSection found _ options Layout.order _)) (keeps_liftReporting _)
  -- Whatever follows does not ask whether the load is strict.
  exact fun layout _ => tightens_refl _

end Load

section Loader

variable {header : Header}

/-- Where nothing is contradicted, being strict makes no difference. -/
theorem Image.read_tightened_of_nil (h : header.StoredIn input)
    (hviolated : header.contradictions input options = []) :
    Image.read input options.tightened = Image.read input options := by
  have htightens := Load.tightens_image h options
  rw [hviolated] at htightens
  have hsame : (Load.image options.tightened).run input = (Load.image options).run input :=
    htightens
  change ((Load.image options.tightened).run input {}).1 = _
  rw [hsame]
  rfl

/-- Where something is contradicted, a strict load fails. -/
theorem Loader.run_tightened_of_cons (h : header.StoredIn input) {first : Contradiction}
    {rest : List Contradiction} (hviolated : header.contradictions input options = first :: rest) :
    ∃ failure after, Loader.run { input, options := options.tightened } = (.error failure, after) ∧
      ∀ image, Image.read input options = .ok image →
        failure = { fault := .contradicted first } ∧ after.stage = .unparsed := by
  have htightens := Load.tightens_image h options
  rw [hviolated] at htightens
  obtain ⟨failure, progress, hrun, hblame⟩ := htightens {}
  refine ⟨failure, _, by rw [Loader.run, hrun], ?_⟩
  intro image hread
  exact hblame image _ (Prod.ext hread rfl)

end Loader

/-- A strict load ends with an image just when a load that is not strict ends with that image, notes
included, and the header meets all demands. Where only the strict load fails, it does so before the
first stage is completed, and with the first demand that is not met. -/
theorem Image.read_tightened (input : Bytes) (options : Options) :
    (∀ image, Image.read input options.tightened = .ok image ↔
      Image.read input options = .ok image ∧
        ∀ demand ∈ image.header.demands input options, demand.isMet) ∧
    ∀ image, Image.read input options = .ok image →
      (∀ other, Image.read input options.tightened ≠ .ok other) →
      ∃ before demand rest failure after,
        image.header.demands input options = before ++ demand :: rest ∧
        (∀ earlier ∈ before, earlier.isMet) ∧ ¬demand.isMet ∧
        Loader.run { input, options := options.tightened } = (.error failure, after) ∧
        failure.fault = .contradicted demand.statement ∧ failure.kind = demand.kind ∧
        after.stage = .unparsed := by
  have hheader : ∀ {options image}, Image.read input options = .ok image →
      image.header.StoredIn input := fun {_ image} hok =>
    (image.read_eq_ok_iff.mp ⟨image.journal, hok⟩).header
  constructor
  · intro image
    rw [← (image.header.unmet_contradictions input options).eq_nil_iff]
    constructor
    · intro hstrict
      cases hviolated : image.header.contradictions input options with
      | nil => exact ⟨Image.read_tightened_of_nil (hheader hstrict) hviolated ▸ hstrict, rfl⟩
      | cons first rest =>
          obtain ⟨failure, after, hrun, -⟩ :=
            Loader.run_tightened_of_cons (hheader hstrict) hviolated
          rw [Image.read, hrun] at hstrict
          cases hstrict
    · rintro ⟨hlax, hviolated⟩
      rw [Image.read_tightened_of_nil (hheader hlax) hviolated, hlax]
  · intro image hlax hrefused
    have hunmet := image.header.unmet_contradictions input options
    cases hviolated : image.header.contradictions input options with
    | nil =>
        have hstrict := Image.read_tightened_of_nil (hheader hlax) hviolated
        exact (hrefused image (hstrict.trans hlax)).elim
    | cons first rest =>
        rw [hviolated] at hunmet
        obtain ⟨before, demand, later, hdemands, hbefore, hdemand, rfl⟩ := hunmet.exists_first
        have hmem : demand ∈ image.header.demands input options :=
          hdemands ▸ List.mem_append_right before List.mem_cons_self
        obtain ⟨failure, after, hrun, hblame⟩ :=
          Loader.run_tightened_of_cons (hheader hlax) hviolated
        obtain ⟨rfl, hstage⟩ := hblame image hlax
        exact ⟨before, demand, later, _, after, hdemands, hbefore, hdemand, hrun, rfl,
          Header.kind_of_mem_demands hmem, hstage⟩

namespace Contents

/-- The header of an empty file with a stale checksum, and with a link section past the end. -/
def staleHeader : Header :=
  { ({} : Contents).headerWith 0 (Vector.replicate 20 0) with link := ⟨8, 0x1000⟩ }

def staleFile : Bytes :=
  staleHeader.encode.toArray

theorem exists_image_staleFile :
    ∃ image, Image.read staleFile {} = .ok image ∧ image.header = staleHeader := by
  have hheader : (match Image.read staleFile {} with
      | .ok image => some image.header
      | .error _ => none) = some staleHeader := by
    decide +kernel
  cases hread : Image.read staleFile {} with
  | ok image =>
      rw [hread] at hheader
      exact ⟨image, rfl, Option.some.inj hheader⟩
  | error failure =>
      rw [hread] at hheader
      cases hheader

theorem checksum_staleFile :
    Adler32.checksum (staleFile.toList.drop 12) ≠ staleHeader.checksum := by
  decide +kernel

/-- The sample meets all demands. The stale file meets the first two, on the sizes, but not the next
one, on the checksum, so that a strict load stops there and not at the link section. -/
theorem read_tightened_sample :
    (∃ image, Image.read sample.encode ({} : Options).tightened = .ok image) ∧
    ∃ image failure after, Image.read staleFile {} = .ok image ∧
      Loader.run { input := staleFile, options := ({} : Options).tightened } =
        (.error failure, after) ∧
      failure.kind = .integrity ∧ after.stage = .unparsed := by
  constructor
  · have hlimit : 285 ≤ ({} : Options).inputLimit := by decide
    obtain ⟨journal, hread⟩ := (Image.read_eq_ok_iff _).mpr (storedIn_sample hlimit)
    refine ⟨_, ((Image.read_tightened sample.encode {}).1 _).mpr ⟨hread, ?_⟩⟩
    have htight : 285 ≤ ({} : Options).tightened.inputLimit := hlimit
    have hstored := storedIn_sample htight
    have hdescribed := hstored.described rfl
    simp only [Header.demands, List.forall_mem_cons, List.not_mem_nil, false_implies,
      implies_true, and_true]
    refine ⟨hdescribed.headerSize, hdescribed.fileSize, fun _ => hdescribed.checksum rfl,
      fun _ => hdescribed.signature rfl, fun hdata => ?_, fun hlink => (hlink rfl).elim⟩
    -- A strict load lets no section that is not empty end past the input.
    rcases hstored.admitted .data (by decide) with hempty | hfits | ⟨hfalse, -⟩
    · exact (hdata (Nat.left_eq_add.mp hempty)).elim
    · exact hfits
    · cases hfalse
  · obtain ⟨image, hread, hheader⟩ := exists_image_staleFile
    have hstale : ¬((({} : Options).compareChecksum = true →
        Adler32.checksum (staleFile.toList.drop 12) = staleHeader.checksum)) :=
      fun h => checksum_staleFile (h rfl)
    have hrefused : ∀ other, Image.read staleFile ({} : Options).tightened ≠ .ok other := by
      intro other hstrict
      obtain ⟨hlax, hmet⟩ := ((Image.read_tightened staleFile {}).1 other).mp hstrict
      obtain rfl : other = image := Except.ok.inj (hlax.symm.trans hread)
      rw [hheader] at hmet
      exact hstale (hmet _ (List.mem_cons_of_mem _ (List.mem_cons_of_mem _ List.mem_cons_self)))
    obtain ⟨before, demand, rest, failure, after, hdemands, hbefore, hdemand, hrun, -, hkind,
      hstage⟩ := (Image.read_tightened staleFile {}).2 image hread hrefused
    rw [hheader] at hdemands
    have hsizes : ∀ earlier ∈ (staleHeader.demands staleFile {}).take 2, earlier.isMet :=
      List.forall_mem_cons.mpr ⟨rfl, List.forall_mem_cons.mpr ⟨rfl, by simp⟩⟩
    have hfirst : demand.kind = .integrity :=
      congrArg Demand.kind (Demand.eq_of_append_eq hdemands hsizes hstale hbefore hdemand)
    exact ⟨image, failure, after, hread, hrun, hkind.trans hfirst, hstage⟩

end Contents

end Dalvik
