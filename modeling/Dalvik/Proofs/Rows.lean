import Dalvik.Proofs.Failures
import Mathlib.Algebra.GroupWithZero.Nat

/-!
# Rows

An item of a table is read in a row of steps. Some take a number of the table, each chosen by what
was read before; the others are made aside of the table: a reference is checked, or something is
read elsewhere and the cursor put back. If the widths of the numbers are known, and as many bytes
are there, then no number fails to be taken, whatever the steps aside end with.
-/

namespace Dalvik

open Decode

variable {α β : Type} {input : Bytes}

namespace Decode

/-- A step that leaves the cursor where it is whenever it succeeds, with a value that `spec` tells
of. -/
def Stays (step : Decode α) (input : Bytes) (spec : α → Prop) : Prop :=
  ∀ scan value after, run step input scan = (.ok value, after) →
    after.pos = scan.pos ∧ spec value

theorem Reads.stays {step : Decode α} {spec : α → Prop}
    (h : step.Reads input 0 fun _ => spec) : step.Stays input spec := by
  intro scan value after hrun
  exact (h scan value after.pos).mp ⟨after.journal, hrun⟩

theorem Stays.imp {step : Decode α} {spec other : α → Prop} (h : step.Stays input spec)
    (himp : ∀ value, spec value → other value) : step.Stays input other :=
  fun scan value after hrun => (h scan value after hrun).imp_right (himp value)

theorem Stays.bind {step : Decode α} {next : α → Decode β} {spec : α → Prop} {specNext : β → Prop}
    (hstep : step.Stays input spec) (hnext : ∀ a, spec a → (next a).Stays input specNext) :
    (step >>= next).Stays input specNext := by
  intro scan value after hrun
  obtain ⟨a, middle, hfirst, hsecond⟩ := ok_of_run_bind hrun
  obtain ⟨hmiddle, hspec⟩ := hstep scan a middle hfirst
  rw [← hmiddle]
  exact hnext a hspec middle value after hsecond

/-- Whatever is read at another offset, the cursor is put back. -/
theorem stays_atOffset (offset : Nat) (step : Decode α) :
    (atOffset offset step).Stays input fun _ => True := by
  intro scan value after hrun
  have hpos := pos_run_atOffset offset step input scan
  rw [hrun] at hpos
  exact ⟨hpos, trivial⟩

theorem Stays.within {step : Decode α} {spec : α → Prop} (h : step.Stays input spec)
    (context : Context) : (within context step).Stays input spec := by
  intro scan value after hrun
  rw [run_within] at hrun
  cases hresult : run step input scan with
  | mk result middle =>
      rw [hresult] at hrun
      cases result with
      | error failure => cases hrun
      | ok found =>
          cases hrun
          exact h scan _ _ hresult

/-- A number whose bytes are there is taken, and nothing is noted. -/
theorem run_natural {width pos value : Nat} (h : input.numberAt? width pos = some value)
    (journal : Journal) :
    run (natural width) input ⟨pos, journal⟩ = (.ok value, ⟨pos + width, journal⟩) := by
  obtain ⟨hfits, rfl⟩ := Bytes.numberAt?_eq_some_iff.mp h
  have hle : width ≤ input.size - (Scan.mk pos journal).pos := Nat.le_sub_of_add_le' hfits
  obtain ⟨block, hblock, hrun⟩ := run_block_of_le hle
  have hbytes : run (bytes width) input ⟨pos, journal⟩ =
      (.ok block.toList, ⟨pos + width, journal⟩) := run_bind_of_ok hrun
  rw [natural, run_bind_of_ok (run_position input _), run_bind, run_within, hbytes, ← hblock]
  rfl

theorem run_u16 {pos value : Nat} (h : input.u16At? pos = some value) (journal : Journal) :
    run u16 input ⟨pos, journal⟩ = (.ok value, ⟨pos + 2, journal⟩) :=
  run_natural h journal

theorem run_u32 {pos value : Nat} (h : input.u32At? pos = some value) (journal : Journal) :
    run u32 input ⟨pos, journal⟩ = (.ok value, ⟨pos + 4, journal⟩) :=
  run_natural h journal

theorem run_word {pos value : Nat} (h : input.u32At? pos = some value) (journal : Journal) :
    run word input ⟨pos, journal⟩ = (.ok (UInt32.ofNat value), ⟨pos + 4, journal⟩) :=
  run_bind_of_ok (run_u32 h journal)

/-! ## Items one after another -/

/-- The last of some items is read where the others have been. -/
theorem tabulateFrom_succ (body : Nat → Decode α) (count index : Nat) (done : Array α) :
    tabulateFrom body (count + 1) index done = do
      let items ← tabulateFrom body count index done
      let item ← body (index + count)
      return items.push item := by
  induction count generalizing index done with
  | zero => rfl
  | succ count ih =>
      rw [tabulateFrom, tabulateFrom, bind_assoc]
      refine bind_congr fun item => ?_
      rw [ih, Nat.add_right_comm index 1 count, Nat.add_assoc]

theorem tabulate_succ (body : Nat → Decode α) (count : Nat) :
    tabulate (count + 1) body = do
      let items ← tabulate count body
      let item ← body count
      return items.push item := by
  rw [tabulate, tabulateFrom_succ, Nat.zero_add]
  rfl

/-- A tabulation comes to the item at an index, and stands there. -/
def Reaches (body : Nat → Decode α) (input : Bytes) (count : Nat) (start : Scan) (index : Nat)
    (here : Scan) : Prop :=
  index < count ∧ ∃ items, run (tabulate index body) input start = (.ok items, here)

variable {body : Nat → Decode α} {count width : Nat} {start : Scan}

/-- A tabulation fails as an item does that it comes to. -/
theorem exists_reaches_of_error {failure : Failure} {after : Scan}
    (h : run (tabulate count body) input start = (.error failure, after)) :
    ∃ index here, Reaches body input count start index here ∧
      run (body index) input here = (.error failure, after) := by
  induction count with
  | zero => cases h
  | succ count ih =>
      rw [tabulate_succ, run_bind_eq_andThen] at h
      rcases Effect.error_of_andThen h with hitems | ⟨items, here, hitems, hlast⟩
      · obtain ⟨index, here, ⟨hlt, hreaches⟩, hitem⟩ := ih hitems
        exact ⟨index, here, ⟨Nat.lt_succ_of_lt hlt, hreaches⟩, hitem⟩
      · rw [run_bind_eq_andThen] at hlast
        rcases Effect.error_of_andThen hlast with hitem | ⟨item, next, -, hpush⟩
        · exact ⟨count, here, ⟨Nat.lt_succ_self count, items, hitems⟩, hitem⟩
        · cases hpush

/-- An item, read where it is all there, takes `width` bytes. -/
def TakesWidth (body : Nat → Decode α) (input : Bytes) (width : Nat) : Prop :=
  ∀ index scan item after, scan.pos + width ≤ input.size →
    run (body index) input scan = (.ok item, after) → after.pos = scan.pos + width

/-- If all the items are there, each is come to where it stands. -/
theorem Reaches.pos_eq (hbody : TakesWidth body input width)
    (hfits : start.pos + count * width ≤ input.size) {index : Nat} {here : Scan}
    (h : Reaches body input count start index here) :
    here.pos = start.pos + index * width := by
  obtain ⟨hlt, items, hitems⟩ := h
  induction index generalizing items here with
  | zero =>
      cases hitems
      rw [Nat.zero_mul, Nat.add_zero]
  | succ index ih =>
      rw [tabulate_succ] at hitems
      obtain ⟨before, middle, hbefore, hlast⟩ := ok_of_run_bind hitems
      obtain ⟨item, next, hitem, hpush⟩ := ok_of_run_bind hlast
      cases hpush
      have hmiddle := ih (Nat.lt_of_succ_lt hlt) before hbefore
      have hroom : (index + 1) * width ≤ count * width := Nat.mul_le_mul_right width (by omega)
      rw [Nat.succ_mul] at hroom ⊢
      have hnext := hbody index middle item here (by omega) hitem
      omega

theorem Reaches.room (hbody : TakesWidth body input width)
    (hfits : start.pos + count * width ≤ input.size) {index : Nat} {here : Scan}
    (h : Reaches body input count start index here) : here.pos + width ≤ input.size := by
  have hpos := h.pos_eq hbody hfits
  have hroom : (index + 1) * width ≤ count * width := Nat.mul_le_mul_right width h.1
  rw [Nat.succ_mul] at hroom
  omega

/-! ## Ends that differ in the place of a failure only -/

/-- Two ends of a step that are the same, but for where a failure leaves the cursor. -/
inductive SameEnd : Except Failure α × Scan → Except Failure α × Scan → Prop where
  | same (ending : Except Failure α × Scan) : SameEnd ending ending
  | failed (failure : Failure) (journal : Journal) (pos other : Nat) :
      SameEnd (.error failure, ⟨pos, journal⟩) (.error failure, ⟨other, journal⟩)

theorem SameEnd.bind {first second : Decode α} {scan : Scan}
    {firstNext secondNext : α → Decode β}
    (h : SameEnd (run first input scan) (run second input scan))
    (hnext : ∀ a after, run first input scan = (.ok a, after) →
      SameEnd (run (firstNext a) input after) (run (secondNext a) input after)) :
    SameEnd (run (first >>= firstNext) input scan) (run (second >>= secondNext) input scan) := by
  rw [run_bind, run_bind]
  generalize run first input scan = firstEnd at h hnext
  generalize run second input scan = secondEnd at h
  cases h with
  | same =>
      obtain ⟨result, after⟩ := firstEnd
      cases result with
      | ok a => exact hnext a after rfl
      | error failure => exact .same _
  | failed failure journal pos other => exact .failed failure journal pos other

/-- Items that end the same where they are all there are tabulated the same. -/
theorem sameEnd_tabulate {first second : Nat → Decode α} (hfirst : TakesWidth first input width)
    (h : ∀ index scan, scan.pos + width ≤ input.size →
      SameEnd (run (first index) input scan) (run (second index) input scan))
    (hfits : start.pos + count * width ≤ input.size) :
    SameEnd (run (tabulate count first) input start) (run (tabulate count second) input start) := by
  induction count with
  | zero => exact .same _
  | succ count ih =>
      rw [tabulate_succ, tabulate_succ]
      have hfewer : start.pos + count * width ≤ input.size := by
        rw [Nat.succ_mul] at hfits
        omega
      refine (ih hfewer).bind fun items here hitems => ?_
      have hreaches : Reaches first input (count + 1) start count here :=
        ⟨Nat.lt_succ_self count, items, hitems⟩
      exact (h count here (hreaches.room hfirst hfits)).bind fun item after _ => .same _

end Decode

/-! ## Rows of steps -/

/-- The reading of an item as a row of steps. -/
inductive Row (α : Type) : Type 1 where
  | done (item : α)
  /-- Takes a number of the table. Its failures may name a place. -/
  | number (width : Nat) (place? : Option Context) (next : Nat → Row α)
  | aside {β : Type} (step : Decode β) (next : β → Row α)

/-- A number that was to be taken from a table: where it stands, its width, and what came of it. -/
structure Taken where
  pos : Nat
  width : Nat
  result : Except Failure Nat

/-- The number that stands there was taken. -/
def Taken.Succeeds (taken : Taken) (input : Bytes) : Prop :=
  ∃ value, taken.result = .ok value ∧ input.numberAt? taken.width taken.pos = some value

namespace Row

def takeNumber (width : Nat) : Option Context → Decode Nat
  | none => natural width
  | some place => within place (natural width)

/-- The decoding step that a row is. -/
def decode : Row α → Decode α
  | done item => pure item
  | number width place? next => do
    let value ← takeNumber width place?
    (next value).decode
  | aside step next => do
    let result ← step
    (next result).decode

/-- The numbers that a run of a row takes from the table, up to a failure. -/
def trace (input : Bytes) : Row α → Scan → List Taken
  | done _, _ => []
  | number width place? next, scan =>
    let (result, after) := (takeNumber width place?).run input scan
    ⟨scan.pos, width, result⟩ ::
      match result with
      | .ok value => (next value).trace input after
      | .error _ => []
  | aside step next, scan =>
    match step.run input scan with
    | (.ok result, after) => (next result).trace input after
    | (.error _, _) => []

/-- Where the numbers of a trace stand, and their widths. -/
def placesTaken (trace : List Taken) : List (Nat × Nat) :=
  trace.map fun taken => (taken.pos, taken.width)

/-- Where numbers of some widths stand that follow one another, and their widths. -/
def places : (pos : Nat) → (widths : List Nat) → List (Nat × Nat)
  | _, [] => []
  | pos, width :: widths => (pos, width) :: places (pos + width) widths

theorem run_takeNumber {width pos value : Nat} (h : input.numberAt? width pos = some value)
    (place? : Option Context) (journal : Journal) :
    run (takeNumber width place?) input ⟨pos, journal⟩ = (.ok value, ⟨pos + width, journal⟩) := by
  cases place? with
  | none => exact run_natural h journal
  | some place =>
      rw [takeNumber, run_within, run_natural h]
      rfl

theorem run_decode_number {width pos value : Nat} (h : input.numberAt? width pos = some value)
    (place? : Option Context) (next : Nat → Row α) (journal : Journal) :
    run (number width place? next).decode input ⟨pos, journal⟩ =
      run (next value).decode input ⟨pos + width, journal⟩ :=
  run_bind_of_ok (run_takeNumber h place? journal)

theorem trace_number {width pos value : Nat} (h : input.numberAt? width pos = some value)
    (place? : Option Context) (next : Nat → Row α) (journal : Journal) :
    (number width place? next).trace input ⟨pos, journal⟩ =
      ⟨pos, width, .ok value⟩ :: (next value).trace input ⟨pos + width, journal⟩ := by
  rw [trace, run_takeNumber h]

/-- A row takes numbers of the given widths from `pos` on, whatever it goes by. Before the last is
taken it may refuse one, and after the last it may fail elsewhere. -/
inductive Takes (input : Bytes) (refused placed : Failure → Prop) :
    Row α → (pos : Nat) → (widths : List Nat) → Prop where
  | done (item : α) (pos : Nat) : Takes input refused placed (.done item) pos []
  | number {width : Nat} {place? : Option Context} {next : Nat → Row α} {pos : Nat}
      {widths : List Nat}
      (hnext : ∀ value, input.numberAt? width pos = some value →
        Takes input refused placed (next value) (pos + width) widths) :
      Takes input refused placed (.number width place? next) pos (width :: widths)
  | check {β : Type} {step : Decode β} {next : β → Row α} {pos : Nat} {widths : List Nat}
      {spec : β → Prop} (hstays : step.Stays input spec) (hfails : step.Fails input refused)
      (hnext : ∀ value, spec value → Takes input refused placed (next value) pos widths) :
      Takes input refused placed (.aside step next) pos widths
  | excursion {β : Type} {step : Decode β} {next : β → Row α} {pos : Nat}
      {spec : β → Prop} (hstays : step.Stays input spec) (hfails : step.Fails input placed)
      (hnext : ∀ value, spec value → Takes input refused placed (next value) pos []) :
      Takes input refused placed (.aside step next) pos []

/-- What comes of the reading of an item at `start` whose numbers have the given widths and are all
there, by the numbers that it takes and how it ends. -/
structure Completes (trace : List Taken) (ending : Except Failure α × Scan) (input : Bytes)
    (refused placed : Failure → Prop) (start : Nat) (widths : List Nat) : Prop where
  succeeds : ∀ taken ∈ trace, taken.Succeeds input
  places : placesTaken trace <+: places start widths
  /-- An item is made of all the numbers, and the cursor ends after them. -/
  value : ∀ item after, ending = (.ok item, after) →
    placesTaken trace = Row.places start widths ∧ after.pos = start + widths.sum
  /-- A number that was taken is refused, or all are taken and something elsewhere fails. -/
  failure : ∀ failure after, ending = (.error failure, after) →
    refused failure ∨ placed failure ∧ placesTaken trace = Row.places start widths

variable {refused placed : Failure → Prop} {trace : List Taken} {ending : Except Failure α × Scan}
  {start : Nat} {widths : List Nat}

theorem Completes.of_sameEnd {other : Except Failure α × Scan}
    (h : Completes trace ending input refused placed start widths) (hsame : SameEnd ending other) :
    Completes trace other input refused placed start widths := by
  cases hsame with
  | same => exact h
  | failed failure journal pos other =>
      refine ⟨h.succeeds, h.places, fun item after hok => (by cases hok), ?_⟩
      intro _ _ herror
      cases herror
      exact h.failure failure _ rfl

theorem completes_done (item : α) (journal : Journal) :
    Completes [] (.ok item, ⟨start, journal⟩) input refused placed start [] where
  succeeds := List.forall_mem_nil _
  places := List.prefix_refl _
  value _ _ hok := by
    cases hok
    exact ⟨rfl, rfl⟩
  failure _ _ herror := by cases herror

theorem Completes.cons {width value : Nat}
    (h : Completes trace ending input refused placed (start + width) widths)
    (hvalue : input.numberAt? width start = some value) :
    Completes (⟨start, width, .ok value⟩ :: trace) ending input refused placed start
      (width :: widths) where
  succeeds := List.forall_mem_cons.mpr ⟨⟨value, rfl, hvalue⟩, h.succeeds⟩
  places := (List.prefix_cons_inj _).mpr h.places
  value item after hok := by
    obtain ⟨htaken, hpos⟩ := h.value item after hok
    rw [hpos, List.sum_cons, ← Nat.add_assoc]
    exact ⟨congrArg (List.cons (start, width)) htaken, rfl⟩
  failure failure after herror := (h.failure failure after herror).imp_right
    fun ⟨hplaced, htaken⟩ => ⟨hplaced, congrArg (List.cons (start, width)) htaken⟩

theorem completes_error {failure : Failure} {after : Scan}
    (h : refused failure ∨ placed failure ∧ widths = []) :
    Completes [] ((.error failure, after) : Except Failure α × Scan) input refused placed start
      widths where
  succeeds := List.forall_mem_nil _
  places := List.nil_prefix
  value _ _ hok := by cases hok
  failure _ _ herror := by
    cases herror
    refine h.imp_right ?_
    rintro ⟨hplaced, rfl⟩
    exact ⟨hplaced, rfl⟩

/-- A step aside fails, or what follows it starts where it stood. -/
theorem completes_aside {step : Decode β} {next : β → Row α} {spec : β → Prop} {journal : Journal}
    (hstays : step.Stays input spec)
    (hfails : step.Fails input fun failure => refused failure ∨ placed failure ∧ widths = [])
    (h : ∀ value journal, spec value → Completes ((next value).trace input ⟨start, journal⟩)
      (run (next value).decode input ⟨start, journal⟩) input refused placed start widths) :
    Completes ((aside step next).trace input ⟨start, journal⟩)
      (run (aside step next).decode input ⟨start, journal⟩) input refused placed start widths := by
  rw [decode, Row.trace]
  cases hrun : run step input ⟨start, journal⟩ with
  | mk result after =>
      cases result with
      | ok value =>
          obtain ⟨hpos, hspec⟩ := hstays _ value after hrun
          obtain ⟨_, noted⟩ := after
          subst hpos
          rw [run_bind_of_ok hrun]
          exact h value noted hspec
      | error failure =>
          rw [run_bind_of_error hrun]
          exact completes_error (hfails _ failure after hrun)

/-- If all the bytes are there that a row takes, its numbers are taken. -/
theorem Takes.completes {row : Row α} (h : row.Takes input refused placed start widths)
    (hroom : start + widths.sum ≤ input.size) (journal : Journal) :
    Completes (row.trace input ⟨start, journal⟩) (run row.decode input ⟨start, journal⟩) input
      refused placed start widths := by
  -- Each number leaves the bytes of those after it, and a step aside leaves the cursor alone.
  induction h generalizing journal with
  | done item pos => exact completes_done item journal
  | @number width place? next pos widths hnext ih =>
      rw [List.sum_cons] at hroom
      obtain ⟨value, hvalue⟩ :=
        Bytes.exists_numberAt?_iff.mpr (show pos + width ≤ input.size by omega)
      rw [run_decode_number hvalue, trace_number hvalue]
      exact (ih value hvalue (by omega) journal).cons hvalue
  | check hstays hfails hnext ih =>
      exact completes_aside hstays (fun scan failure after hrun =>
        .inl (hfails scan failure after hrun)) fun value journal hspec =>
          ih value hspec hroom journal
  | excursion hstays hfails hnext ih =>
      exact completes_aside hstays (fun scan failure after hrun =>
        .inr ⟨hfails scan failure after hrun, rfl⟩) fun value journal hspec =>
          ih value hspec hroom journal

end Row

end Dalvik
