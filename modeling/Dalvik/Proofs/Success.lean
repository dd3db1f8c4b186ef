import Dalvik.Proofs.RandomAccess

/-!
# Successful steps

A decoding step is described by the runs of it that succeed: which values it can end with from a
cursor, and where it leaves the cursor. Descriptions are put together as steps are, and say nothing
of what is noted on the way.
-/

namespace Dalvik

namespace Decode

variable {α β : Type} {input : Bytes}

/-- The runs of a step that succeed are those that `spec` tells of, by the cursor before, the value
and the cursor after. -/
def Yields (step : Decode α) (input : Bytes) (spec : Nat → α → Nat → Prop) : Prop :=
  ∀ scan value next,
    (∃ journal, run step input scan = (.ok value, ⟨next, journal⟩)) ↔ spec scan.pos value next

/-- A step that takes `width` bytes whenever it succeeds, and ends with the values that `spec` tells
of. -/
def Reads (step : Decode α) (input : Bytes) (width : Nat) (spec : Nat → α → Prop) : Prop :=
  Yields step input fun pos value next => next = pos + width ∧ spec pos value

/-! ## Any steps -/

theorem Yields.congr {step : Decode α} {spec other : Nat → α → Nat → Prop}
    (h : step.Yields input spec)
    (hiff : ∀ pos value next, spec pos value next ↔ other pos value next) :
    step.Yields input other := fun scan value next =>
  (h scan value next).trans (hiff scan.pos value next)

/-- A run succeeds if something can be told of its value. -/
theorem exists_run_of_map {step : Decode α} {scan : Scan} {f : α → β} {b : β}
    (h : (run step input scan).1.map f = .ok b) :
    ∃ a, run step input scan = (.ok a, (run step input scan).2) ∧ f a = b := by
  cases hrun : run step input scan with
  | mk result after =>
      rw [hrun] at h
      cases result with
      | error failure => cases h
      | ok a => exact ⟨a, rfl, Except.ok.inj h⟩

theorem yields_pure (a : α) :
    Yields (pure a) input fun pos value next => value = a ∧ next = pos := by
  intro scan value next
  simp only [run_pure, Prod.mk.injEq, Except.ok.injEq]
  constructor
  · rintro ⟨journal, rfl, rfl⟩
    exact ⟨rfl, rfl⟩
  · rintro ⟨rfl, rfl⟩
    exact ⟨scan.journal, rfl, rfl⟩

theorem yields_fail (fault : Fault) :
    Yields (fail fault : Decode α) input fun _ _ _ => False := by
  intro scan value next
  simp

theorem Yields.bind {step : Decode α} {next : α → Decode β} {spec : Nat → α → Nat → Prop}
    {specNext : α → Nat → β → Nat → Prop} (hstep : step.Yields input spec)
    (hnext : ∀ a, (next a).Yields input (specNext a)) :
    (step >>= next).Yields input fun pos b stop =>
      ∃ a middle, spec pos a middle ∧ specNext a middle b stop := by
  intro scan b stop
  constructor
  · rintro ⟨journal, hrun⟩
    rw [run_bind] at hrun
    cases hfirst : run step input scan with
    | mk result after =>
        rw [hfirst] at hrun
        cases result with
        | error failure => simp at hrun
        | ok a =>
            refine ⟨a, after.pos, (hstep scan a after.pos).mp ⟨after.journal, hfirst⟩, ?_⟩
            exact (hnext a after b stop).mp ⟨journal, hrun⟩
  · rintro ⟨a, middle, hspec, hspecNext⟩
    obtain ⟨journal, hfirst⟩ := (hstep scan a middle).mpr hspec
    obtain ⟨last, hsecond⟩ := (hnext a ⟨middle, journal⟩ b stop).mpr hspecNext
    exact ⟨last, (run_bind_of_ok hfirst).trans hsecond⟩

/-- A step that leaves the journal alone yields what its runs show. -/
theorem yields_of_run {step : Decode α} {spec : Nat → α → Nat → Prop}
    (hok : ∀ scan value next, spec scan.pos value next →
      run step input scan = (.ok value, { scan with pos := next }))
    (hspec : ∀ scan value after, run step input scan = (.ok value, after) →
      spec scan.pos value after.pos) :
    step.Yields input spec := fun scan value next =>
  ⟨fun ⟨journal, hrun⟩ => hspec scan value ⟨next, journal⟩ hrun,
    fun h => ⟨scan.journal, hok scan value next h⟩⟩

theorem Yields.ite {first second : Decode α} {spec specElse : Nat → α → Nat → Prop} {c : Prop}
    [Decidable c] (hfirst : c → first.Yields input spec)
    (hsecond : ¬c → second.Yields input specElse) :
    (if c then first else second).Yields input fun pos value next =>
      if c then spec pos value next else specElse pos value next := by
  split
  next hc => exact hfirst hc
  next hc => exact hsecond hc

theorem Yields.within {step : Decode α} {spec : Nat → α → Nat → Prop}
    (h : step.Yields input spec) (context : Context) : (within context step).Yields input spec := by
  intro scan value next
  rw [← h scan value next]
  simp only [run_within]
  cases run step input scan with
  | mk result after =>
      -- A context is added to a fault, and to nothing else.
      cases result with
      | ok found => exact Iff.rfl
      | error refusal =>
          constructor
          · rintro ⟨journal, ⟨⟩⟩
          · rintro ⟨journal, ⟨⟩⟩

/-- A step at an offset takes nothing from where the cursor is. -/
theorem Yields.atOffset {step : Decode α} {spec : Nat → α → Nat → Prop}
    (h : step.Yields input spec) (offset : Nat) :
    (atOffset offset step).Reads input 0 fun _ value =>
      offset ≤ input.size ∧ ∃ stop, spec offset value stop := by
  intro scan value next
  by_cases hle : offset ≤ input.size
  · have hspec := fun stop => h { scan with pos := offset } value stop
    rw [run_atOffset_of_le hle]
    cases hrun : run step input { scan with pos := offset } with
    | mk result after =>
        simp only [hrun, Prod.mk.injEq] at hspec
        simp only [Prod.mk.injEq, Scan.mk.injEq, Nat.add_zero]
        constructor
        · rintro ⟨journal, hok, rfl, -⟩
          exact ⟨rfl, hle, after.pos, (hspec after.pos).mp ⟨after.journal, hok, rfl⟩⟩
        · rintro ⟨rfl, -, stop, hstop⟩
          obtain ⟨journal, hok, -⟩ := (hspec stop).mpr hstop
          exact ⟨after.journal, hok, rfl, rfl⟩
  · -- Past the end of the input the cursor cannot be put at all.
    rw [run_atOffset_of_lt (Nat.lt_of_not_le hle)]
    simp [hle]

/-! ## Steps of fixed width -/

theorem Reads.congr {step : Decode α} {width other : Nat} {spec specOther : Nat → α → Prop}
    (h : step.Reads input width spec) (hwidth : width = other)
    (hiff : ∀ pos value, spec pos value ↔ specOther pos value) :
    step.Reads input other specOther := by
  subst hwidth
  exact Yields.congr h fun pos value _ => and_congr_right' (hiff pos value)

/-- How a step of fixed width ends, without what it leaves behind. -/
theorem Reads.result_eq_ok_iff {step : Decode α} {width : Nat} {spec : Nat → α → Prop}
    (h : step.Reads input width spec) {scan : Scan} {value : α} :
    (run step input scan).1 = .ok value ↔ spec scan.pos value := by
  have hspec := h scan value (scan.pos + width)
  simp only [true_and] at hspec
  constructor
  · intro hok
    -- The cursor after the run is the one that the description gives.
    have hrun : run step input scan = (.ok value, (run step input scan).2) := Prod.ext hok rfl
    exact ((h scan value _).mp ⟨_, hrun⟩).2
  · intro hvalue
    obtain ⟨journal, hrun⟩ := hspec.mpr hvalue
    rw [hrun]

/-- A step of fixed width ends with one value only. -/
theorem Reads.eq_of_spec {step : Decode α} {width : Nat} {spec : Nat → α → Prop}
    (h : step.Reads input width spec) (pos : Nat) {first second : α} (hfirst : spec pos first)
    (hsecond : spec pos second) : first = second := by
  obtain ⟨journal, hrun⟩ := (h { pos } first (pos + width)).mpr ⟨rfl, hfirst⟩
  obtain ⟨other, hother⟩ := (h { pos } second (pos + width)).mpr ⟨rfl, hsecond⟩
  rw [hrun] at hother
  cases hother
  rfl

theorem reads_pure (a : α) : Reads (pure a) input 0 fun _ value => value = a :=
  (yields_pure a).congr fun _ _ _ => and_comm

theorem reads_fail (fault : Fault) (width : Nat) :
    Reads (fail fault : Decode α) input width fun _ _ => False :=
  (yields_fail fault).congr fun _ _ _ => by simp

theorem Reads.bind {step : Decode α} {next : α → Decode β} {first second : Nat}
    {spec : Nat → α → Prop} {specNext : α → Nat → β → Prop} (hstep : step.Reads input first spec)
    (hnext : ∀ a, (next a).Reads input second (specNext a)) :
    (step >>= next).Reads input (first + second) fun pos b =>
      ∃ a, spec pos a ∧ specNext a (pos + first) b :=
  (Yields.bind hstep hnext).congr fun pos b stop => by
    constructor
    · rintro ⟨a, _, ⟨rfl, hspec⟩, rfl, hspecNext⟩
      exact ⟨by omega, a, hspec, hspecNext⟩
    · rintro ⟨rfl, a, hspec, hspecNext⟩
      exact ⟨a, pos + first, ⟨rfl, hspec⟩, by omega, hspecNext⟩

theorem Reads.ite {first second : Decode α} {width : Nat} {spec specElse : Nat → α → Prop}
    {c : Prop} [Decidable c] (hfirst : c → first.Reads input width spec)
    (hsecond : ¬c → second.Reads input width specElse) :
    (if c then first else second).Reads input width fun pos value =>
      if c then spec pos value else specElse pos value :=
  (Yields.ite hfirst hsecond).congr fun pos value next => by split <;> rfl

theorem Reads.within {step : Decode α} {width : Nat} {spec : Nat → α → Prop}
    (h : step.Reads input width spec) (context : Context) :
    (within context step).Reads input width spec :=
  Yields.within h context

theorem Reads.atOffset {step : Decode α} {width : Nat} {spec : Nat → α → Prop}
    (h : step.Reads input width spec) (offset : Nat) :
    (atOffset offset step).Reads input 0 fun _ value => offset ≤ input.size ∧ spec offset value :=
  Reads.congr (Yields.atOffset h offset) rfl fun _ _ => by simp

theorem reads_tabulateFrom {body : Nat → Decode α} {width : Nat} {spec : Nat → Nat → α → Prop}
    (h : ∀ index, (body index).Reads input width (spec index)) (count index : Nat)
    (done : Array α) :
    (tabulateFrom body count index done).Reads input (count * width) fun pos items =>
      ∃ added : List α, items = done ++ added.toArray ∧ added.length = count ∧
        ∀ i (hi : i < added.length), spec (index + i) (pos + i * width) added[i] := by
  -- On the items left to read, of which the first has the index `index` and stands at the cursor.
  induction count generalizing index done with
  | zero =>
      refine (reads_pure done).congr (by omega) fun pos items => ?_
      constructor
      · rintro rfl
        exact ⟨[], by simp, rfl, by simp⟩
      · rintro ⟨added, rfl, hlength, -⟩
        simp [List.length_eq_zero_iff.mp hlength]
  | succ count ih =>
      have hindex : ∀ i, index + (i + 1) = index + 1 + i := fun i => by omega
      have hpos : ∀ pos i, pos + (i + 1) * width = pos + width + i * width := fun pos i => by
        rw [Nat.succ_mul]
        omega
      rw [tabulateFrom]
      refine ((h index).bind fun item => ih (index + 1) (done.push item)).congr
        (by rw [Nat.succ_mul]; omega) fun pos items => ?_
      constructor
      · rintro ⟨item, hitem, added, rfl, hlength, hadded⟩
        refine ⟨item :: added, by simp, by simp [hlength], ?_⟩
        intro i hi
        cases i with
        | zero => simpa using hitem
        | succ i =>
            rw [List.getElem_cons_succ, hindex, hpos]
            exact hadded i (by simpa using hi)
      · rintro ⟨added, rfl, hlength, hadded⟩
        cases added with
        | nil => simp at hlength
        | cons item added =>
            have hitem := hadded 0 (by simp)
            rw [Nat.add_zero, Nat.zero_mul, Nat.add_zero, List.getElem_cons_zero] at hitem
            refine ⟨item, hitem, added, by simp, by simpa using hlength, ?_⟩
            intro i hi
            have hrest := hadded (i + 1) (by simpa using hi)
            rwa [List.getElem_cons_succ, hindex, hpos] at hrest

/-- The items of a tabulation stand one after another. -/
theorem reads_tabulate {body : Nat → Decode α} {width : Nat} {spec : Nat → Nat → α → Prop}
    (h : ∀ index, (body index).Reads input width (spec index)) (count : Nat) :
    (tabulate count body).Reads input (count * width) fun pos items =>
      items.size = count ∧ ∀ i (hi : i < items.size), spec i (pos + i * width) items[i] := by
  refine (reads_tabulateFrom h count 0 #[]).congr rfl fun pos items => ?_
  simp only [Nat.zero_add, Array.empty_append]
  constructor
  · rintro ⟨added, rfl, hlength, hadded⟩
    exact ⟨by simpa using hlength, by simpa using hadded⟩
  · rintro ⟨hsize, hitems⟩
    exact ⟨items.toList, by simp, by simpa using hsize, by simpa using hitems⟩

end Decode

end Dalvik
