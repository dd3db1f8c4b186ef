import Dalvik.Proofs.Success

/-!
# Elementary steps and random access

What the elementary steps end with is what stands in the input at the cursor.
-/

namespace Dalvik

namespace Reporting

variable {α β : Type}

/-- The runs of a step that succeed are those with a value that `spec` tells of. -/
def Yields (step : Reporting α) (spec : α → Prop) : Prop :=
  ∀ journal value, (∃ after, run step journal = (.ok value, after)) ↔ spec value

theorem Yields.congr {step : Reporting α} {spec other : α → Prop} (h : step.Yields spec)
    (hiff : ∀ value, spec value ↔ other value) : step.Yields other := fun journal value =>
  (h journal value).trans (hiff value)

theorem yields_pure (a : α) : Yields (pure a) fun value => value = a := by
  intro journal value
  simp [eq_comm]

theorem yields_fail (fault : Fault) : Yields (fail fault : Reporting α) fun _ => False := by
  intro journal value
  simp

theorem yields_warn (anomaly : Anomaly) : Yields (warn anomaly) fun _ => True := by
  intro journal value
  simp

theorem yields_record (event : Event) : Yields (record event) fun _ => True := by
  intro journal value
  simp

theorem Yields.bind {step : Reporting α} {next : α → Reporting β} {spec : α → Prop}
    {specNext : α → β → Prop} (hstep : step.Yields spec)
    (hnext : ∀ a, (next a).Yields (specNext a)) :
    (step >>= next).Yields fun b => ∃ a, spec a ∧ specNext a b := by
  intro journal b
  rw [run_bind]
  cases hrun : run step journal with
  | mk result middle =>
      have hspec := hstep journal
      simp only [hrun, Prod.mk.injEq] at hspec
      cases result with
      | error failure =>
          have hnone : ∀ a, ¬spec a := fun a ha => by simpa using (hspec a).mpr ha
          simp [hnone]
      | ok a =>
          have hsome : ∀ value, spec value ↔ value = a := fun value => by
            rw [← hspec value]
            simp [eq_comm]
          simp only [hsome, exists_eq_left]
          exact hnext a middle b

theorem Yields.ite {first second : Reporting α} {spec specElse : α → Prop} {c : Prop}
    [Decidable c] (hfirst : c → first.Yields spec) (hsecond : ¬c → second.Yields specElse) :
    (if c then first else second).Yields fun value => if c then spec value else specElse value := by
  split
  next hc => exact hfirst hc
  next hc => exact hsecond hc

end Reporting

namespace Decode

variable {α β : Type} {input : Bytes}

theorem reads_length : length.Reads input 0 fun _ value => value = input.size :=
  yields_of_run (by rintro scan _ _ ⟨rfl, rfl⟩; rfl) (by rintro scan _ _ ⟨rfl, rfl⟩; simp)

theorem reads_position : position.Reads input 0 fun pos value => value = pos :=
  yields_of_run (by rintro scan _ _ ⟨rfl, rfl⟩; rfl) (by rintro scan _ _ ⟨rfl, rfl⟩; simp)

theorem reads_remaining : remaining.Reads input 0 fun pos value => value = input.size - pos :=
  yields_of_run (by rintro scan _ _ ⟨rfl, rfl⟩; rfl) (by rintro scan _ _ ⟨rfl, rfl⟩; simp)

/-- A lookup that is made on the way is the lookup. -/
theorem reads_liftExcept (result : Except Failure α) :
    Reads (liftM result) input 0 fun _ value => result = .ok value := by
  intro scan value next
  cases result with
  | error failure =>
      have hrun : run (liftM (Except.error failure : Except Failure α)) input scan =
          (.error failure, scan) := rfl
      simp [hrun]
  | ok a =>
      have hrun : run (liftM (Except.ok a : Except Failure α)) input scan = (.ok a, scan) := rfl
      rw [hrun]
      constructor
      · rintro ⟨_, ⟨rfl, rfl⟩⟩
        exact ⟨rfl, rfl⟩
      · rintro ⟨rfl, h⟩
        cases h
        exact ⟨scan.journal, rfl⟩

/-- A step that only writes to the journal takes no bytes. -/
theorem reads_liftReporting {step : Reporting α} {spec : α → Prop} (h : step.Yields spec) :
    Reads (liftM step) input 0 fun _ value => spec value := by
  intro scan value next
  have hrun : run (liftM step) input scan =
      ((step.run scan.journal).1, { scan with journal := (step.run scan.journal).2 }) := rfl
  have hspec := h scan.journal value
  rw [hrun]
  cases hstep : step.run scan.journal with
  | mk result after =>
      simp only [hstep, Prod.mk.injEq] at hspec
      simp only [Prod.mk.injEq, Scan.mk.injEq, Nat.add_zero, ← hspec]
      constructor
      · rintro ⟨journal, hok, rfl, -⟩
        exact ⟨rfl, after, hok, rfl⟩
      · rintro ⟨rfl, -, hok, -⟩
        exact ⟨after, hok, rfl, rfl⟩

theorem reads_warn (anomaly : Anomaly) :
    Reads (liftM (Reporting.warn anomaly)) input 0 fun _ _ => True :=
  reads_liftReporting (Reporting.yields_warn anomaly)

theorem reads_record (event : Event) :
    Reads (liftM (Reporting.record event)) input 0 fun _ _ => True :=
  reads_liftReporting (Reporting.yields_record event)

/-- Warnings take no bytes, however many they are. -/
theorem reads_forM_warn (anomaly : α → Anomaly) (list : List α) :
    Reads (list.forM fun a => Reporting.warn (anomaly a) : Decode Unit) input 0
      fun _ _ => True := by
  induction list with
  | nil => exact (reads_pure ()).congr rfl fun _ _ => by simp
  | cons a list ih => exact ((reads_warn (anomaly a)).bind fun _ => ih).congr rfl fun _ _ => by simp

/-! ## Bytes and numbers -/

theorem run_block_of_le {count : Nat} {scan : Scan} (h : count ≤ input.size - scan.pos) :
    ∃ value : Vector UInt8 count, value.toList = (input.suffix scan.pos).take count ∧
      run (block count) input scan = (.ok value, { scan with pos := scan.pos + count }) := by
  refine ⟨⟨input.extract scan.pos (scan.pos + count), ?_⟩, ?_, ?_⟩
  · rw [Array.size_extract]
    omega
  · rw [← Bytes.toList_extract_eq_take_suffix]
    rfl
  · rw [block, run_ofRun, dif_neg (by omega)]

theorem run_block_of_lt {count : Nat} {scan : Scan} (h : input.size - scan.pos < count) :
    run (block count) input scan = (.error { fault := .endOfInput count scan.pos }, scan) := by
  rw [block, run_ofRun, dif_pos h]

theorem reads_block {count : Nat} (hcount : 0 < count) :
    (block count).Reads input count fun pos value => input.HasAt pos value.toList := by
  apply yields_of_run
  · rintro scan value _ ⟨rfl, hat⟩
    -- An empty block may be placed anywhere; one that is not empty ends within the input.
    have hfits := hat.end_le (List.length_pos_iff.mp (by simpa using hcount))
    rw [Vector.length_toList] at hfits
    have hle : count ≤ input.size - scan.pos := by omega
    obtain ⟨found, hfound, hrun⟩ := run_block_of_le hle
    have heq : found = value := by
      rw [← Vector.toList_inj, hfound, hat.suffix_eq, List.take_left' (by simp)]
    rw [hrun, heq]
  · intro scan value after hrun
    by_cases hle : count ≤ input.size - scan.pos
    · obtain ⟨found, hfound, hfoundRun⟩ := run_block_of_le hle
      rw [hfoundRun] at hrun
      cases hrun
      refine ⟨rfl, ?_⟩
      change value.toList <+: input.suffix scan.pos
      rw [hfound]
      exact List.take_prefix _ _
    · rw [run_block_of_lt (Nat.lt_of_not_le hle)] at hrun
      cases hrun

theorem reads_natural {width : Nat} (hwidth : 0 < width) :
    (natural width).Reads input width fun pos value => input.numberAt? width pos = some value := by
  refine (reads_position.bind fun start => (((reads_block hwidth).bind fun block =>
    reads_pure block.toList).within (.integer (8 * width) start)).bind fun digits =>
    reads_pure (ofLittleEndian digits)).congr (by simp) fun pos value => ?_
  constructor
  · rintro ⟨_, rfl, _, ⟨block, hat, rfl⟩, rfl⟩
    have hlength := block.length_toList
    have hvalue := ofLittleEndian_lt block.toList
    rw [hlength] at hvalue
    rw [Bytes.numberAt?_eq_some_iff_hasAt hwidth hvalue]
    have hdigits := toLittleEndian_ofLittleEndian block.toList
    rw [hlength] at hdigits
    rw [hdigits]
    exact hat
  · intro hnumber
    have hvalue := Bytes.numberAt?_lt hnumber
    have hat := (Bytes.numberAt?_eq_some_iff_hasAt hwidth hvalue).mp hnumber
    have hlength := length_toLittleEndian width value
    have hnat := (ofLittleEndian_toLittleEndian hvalue).symm
    exact ⟨pos, rfl, _, ⟨⟨(toLittleEndian width value).toArray, by simpa using hlength⟩, hat, rfl⟩,
      hnat⟩

theorem reads_u16 : u16.Reads input 2 fun pos value => input.u16At? pos = some value :=
  reads_natural (by decide)

theorem reads_u32 : u32.Reads input 4 fun pos value => input.u32At? pos = some value :=
  reads_natural (by decide)

theorem reads_word : word.Reads input 4 fun pos value => input.u32At? pos = some value.toNat := by
  refine (reads_u32.bind fun value => reads_pure _).congr rfl fun pos value => ?_
  constructor
  · rintro ⟨number, hnumber, rfl⟩
    rw [hnumber, UInt32.toNat_ofNat', Nat.mod_eq_of_lt (Bytes.u32At?_lt hnumber)]
  · intro h
    exact ⟨value.toNat, h, by simp⟩

theorem run_uleb128_of_some {scan : Scan} {value next : Nat}
    (h : input.uleb128At? scan.pos = some (value, next)) :
    run uleb128 input scan = (.ok value, { scan with pos := next }) := by
  obtain ⟨⟨number, used⟩, hdecode, heq⟩ := Option.map_eq_some_iff.mp h
  cases heq
  rw [uleb128, run_ofRun, Bytes.toList_extract_eq_take_suffix, Uleb128.decode_take, hdecode]

theorem run_uleb128_of_none {scan : Scan} (h : input.uleb128At? scan.pos = none) :
    run uleb128 input scan = (.error { fault := .unterminatedNumber scan.pos }, scan) := by
  have hdecode := Option.map_eq_none_iff.mp h
  rw [uleb128, run_ofRun, Bytes.toList_extract_eq_take_suffix, Uleb128.decode_take, hdecode]

theorem yields_uleb128 :
    uleb128.Yields input fun pos value next => input.uleb128At? pos = some (value, next) := by
  apply yields_of_run
  · intro scan value next hnumber
    exact run_uleb128_of_some hnumber
  · intro scan value after hafter
    cases hnumber : input.uleb128At? scan.pos with
    | none =>
        rw [run_uleb128_of_none hnumber] at hafter
        cases hafter
    | some found =>
        rw [run_uleb128_of_some hnumber] at hafter
        cases hafter
        rfl

theorem yields_untilNul :
    untilNul.Yields input fun pos value next =>
      next = pos + value.length + 1 ∧ input.untilNul pos = some value := by
  apply yields_of_run
  · rintro scan value _ ⟨rfl, htext⟩
    rw [untilNul, run_ofRun, htext]
  · intro scan value after hafter
    rw [untilNul, run_ofRun] at hafter
    cases htext : input.untilNul scan.pos with
    | none =>
        rw [htext] at hafter
        cases hafter
    | some text =>
        rw [htext] at hafter
        cases hafter
        exact ⟨rfl, rfl⟩

/-! ## Tables -/

theorem reads_requireTable {name : String} {count itemSize : Nat}
    (hcount : count * itemSize ≤ maxSize) :
    (requireTable name count itemSize).Reads input 0 fun pos _ =>
      count * itemSize ≤ input.size - pos := by
  apply yields_of_run
  · rintro scan value _ ⟨rfl, hfits⟩
    rw [requireTable, run_ofRun, if_neg (by omega)]
    rfl
  · intro scan value after hrun
    rw [requireTable, run_ofRun] at hrun
    by_cases hfits : input.size - scan.pos < min (count * itemSize) maxSize
    · simp [hfits] at hrun
    · simp only [hfits, if_false] at hrun
      cases hrun
      exact ⟨rfl, by omega⟩

end Decode

/-- The items of a table that fits into the input: as many as are asked for, each being what
`itemAt` says of its index and its offset. -/
structure Table.Holds {α : Type} (table : Table) (input : Bytes) (count offset : Nat)
    (itemAt : Nat → Nat → α → Prop) (items : Array α) : Prop where
  fits : offset + count * table.itemSize ≤ input.size
  size : items.size = count
  item : ∀ index (h : index < items.size),
    itemAt index (offset + index * table.itemSize) items[index]

theorem Table.itemSize_le (table : Table) : table.itemSize ≤ 32 := by
  cases table <;> decide

/-- A table whose size is a 32-bit number needs less than the largest size, which the sizes of
tables are cut down to. -/
theorem Table.size_le_maxSize (table : Table) {count : Nat} (hcount : count < 2 ^ 32) :
    count * table.itemSize ≤ Decode.maxSize := by
  have := Nat.mul_le_mul (Nat.le_of_lt hcount) table.itemSize_le
  rw [Decode.maxSize]
  omega

/-- A table whose size is a 32-bit number is read item by item. -/
theorem Decode.reads_table {α : Type} {input : Bytes} {table : Table} {item : Nat → Decode α}
    {itemAt : Nat → Nat → α → Prop}
    (h : ∀ index, (item index).Reads input table.itemSize (itemAt index)) {count : Nat}
    (hcount : count < 2 ^ 32) (offset : Nat) :
    (Decode.table table count offset item).Reads input 0 fun _ items =>
      table.Holds input count offset itemAt items := by
  have hneeded := table.size_le_maxSize hcount
  refine ((reads_record _).bind fun _ => (((reads_requireTable hneeded).bind fun _ =>
    reads_tabulate h count).atOffset offset).within (.pool table)).congr rfl fun pos items => ?_
  constructor
  · rintro ⟨_, -, hle, _, hfits, hsize, hitem⟩
    exact ⟨by omega, hsize, hitem⟩
  · rintro ⟨hfits, hsize, hitem⟩
    exact ⟨(), trivial, by omega, (), by omega, hsize, hitem⟩

end Dalvik
