import Dalvik.Proofs.Cursor

/-!
# Safety of the cursor

However a decoder uses the elementary steps, going by what it has read so far and catching failures
or not, the cursor stays within the input. A step that reads takes the bytes between the cursor
before and the cursor after, a step that fails does not move it and had nothing to read, and an
excursion to another offset brings it back.
-/

namespace Dalvik

/-- The bytes from one offset up to another. -/
def Bytes.between (input : Bytes) (start stop : Nat) : List UInt8 :=
  (input.extract start stop).toList

namespace Bytes

variable {input : Bytes} {start stop : Nat}

theorem between_add (input : Bytes) (start count : Nat) :
    input.between start (start + count) = (input.suffix start).take count :=
  toList_extract_eq_take_suffix input start count

/-- All the bytes between two offsets of an input are there. -/
theorem length_between (h : stop ≤ input.size) :
    (input.between start stop).length = stop - start := by
  rw [between, Array.length_toList, Array.size_extract]
  omega

theorem hasAt_iff_between {content : List UInt8} :
    input.HasAt start content ↔ input.between start (start + content.length) = content := by
  rw [between_add, HasAt, List.prefix_iff_eq_take, eq_comm]

theorem between_append_suffix (h : start ≤ stop) :
    input.between start stop ++ input.suffix stop = input.suffix start := by
  obtain ⟨count, rfl⟩ := Nat.exists_eq_add_of_le h
  rw [between_add, suffix_add, List.take_append_drop]

/-- A variable-length number is decoded from the bytes that it takes, and from no others. -/
theorem uleb128At?_eq_some_iff_between {value : Nat} :
    input.uleb128At? start = some (value, stop) ↔ start < stop ∧ stop ≤ input.size ∧
      Uleb128.decode (input.between start stop) = some (value, stop - start) := by
  constructor
  · intro h
    obtain ⟨hlt, hle⟩ := uleb128At?_next h
    refine ⟨hlt, hle, ?_⟩
    obtain ⟨⟨number, used⟩, hdecode, heq⟩ := Option.map_eq_some_iff.mp h
    cases heq
    rw [between_add, Nat.add_sub_cancel_left]
    exact Uleb128.decode_take_used hdecode
  · rintro ⟨hlt, hle, hdecode⟩
    have hstop : start + (stop - start) = stop := Nat.add_sub_cancel' (Nat.le_of_lt hlt)
    rw [uleb128At?, ← between_append_suffix (Nat.le_of_lt hlt), Uleb128.decode_append hdecode]
    exact congrArg (fun stop => some (value, stop)) hstop

/-- The bytes before the next NUL, and the NUL. -/
theorem untilNul_eq_some_iff_between {text : List UInt8} :
    input.untilNul start = some text ↔
      0 ∉ text ∧ input.between start (start + text.length + 1) = text ++ [0] := by
  rw [untilNul_eq_some_iff, hasAt_iff_between, List.length_append, List.length_singleton,
    Nat.add_assoc]

end Bytes

namespace Decode

variable {α β : Type} {input : Bytes}

/-- A step that, from a cursor within the input, takes it to another place within the input, or
fails and changes nothing. What it can give is told by the cursor before, the value and the cursor
after, and it fails only if it can give nothing. -/
def Moves (step : Decode α) (input : Bytes) (gives : Nat → α → Nat → Prop) : Prop :=
  ∀ scan : Scan, scan.pos ≤ input.size →
    (∃ value next, run step input scan = (.ok value, { scan with pos := next }) ∧
      next ≤ input.size ∧ gives scan.pos value next) ∨
    ∃ failure, run step input scan = (.error failure, scan) ∧
      ∀ value next, next ≤ input.size → ¬gives scan.pos value next

theorem Moves.congr {step : Decode α} {gives other : Nat → α → Nat → Prop}
    (h : step.Moves input gives)
    (hiff : ∀ before value after, gives before value after ↔ other before value after) :
    step.Moves input other := by
  obtain rfl : gives = other := by
    funext before value after
    exact propext (hiff before value after)
  exact h

theorem Moves.map {step : Decode α} {gives : Nat → α → Nat → Prop}
    (h : step.Moves input gives) (f : α → β) :
    (do return f (← step)).Moves input fun before result after =>
      ∃ value, gives before value after ∧ result = f value := by
  intro scan hscan
  obtain ⟨value, next, hrun, hnext, hgives⟩ | ⟨failure, hrun, hnone⟩ := h scan hscan
  · exact .inl ⟨f value, next, run_bind_of_ok hrun, hnext, value, hgives, rfl⟩
  · refine .inr ⟨failure, run_bind_of_error hrun, ?_⟩
    rintro _ next hnext ⟨value, hgives, -⟩
    exact hnone value next hnext hgives

theorem Moves.within {step : Decode α} {gives : Nat → α → Nat → Prop}
    (h : step.Moves input gives) (context : Context) :
    (within context step).Moves input gives := by
  intro scan hscan
  obtain ⟨value, next, hrun, hnext, hgives⟩ | ⟨failure, hrun, hnone⟩ := h scan hscan
  · exact .inl ⟨value, next, by rw [run_within, hrun]; rfl, hnext, hgives⟩
  · exact .inr ⟨failure.within context, by rw [run_within, hrun]; rfl, hnone⟩

/-! ## The elementary steps -/

theorem moves_seek (target : Nat) :
    (seek target).Moves input fun _ _ after => after = target := by
  intro scan _
  by_cases hle : target ≤ input.size
  · exact .inl ⟨(), target, run_seek_of_le hle scan, hle, rfl⟩
  · refine .inr ⟨_, run_seek_of_lt (Nat.lt_of_not_le hle) scan, ?_⟩
    rintro _ next hnext rfl
    exact hle hnext

/-- The next bytes, whatever is made of them. -/
theorem moves_block (count : Nat) (f : List UInt8 → α) :
    (do return f (← block count).toList).Moves input fun before value after =>
      after = before + count ∧ value = f (input.between before after) := by
  intro scan hscan
  by_cases hle : count ≤ input.size - scan.pos
  · obtain ⟨block, hblock, hrun⟩ := run_block_of_le hle
    rw [← Bytes.between_add] at hblock
    exact .inl ⟨f block.toList, scan.pos + count, run_bind_of_ok hrun, by omega, rfl,
      congrArg f hblock⟩
  · refine .inr ⟨_, run_bind_of_error (run_block_of_lt (Nat.lt_of_not_le hle)), ?_⟩
    rintro _ next hnext ⟨rfl, -⟩
    omega

theorem moves_bytes (count : Nat) :
    (bytes count).Moves input fun before value after =>
      after = before + count ∧ value = input.between before after :=
  moves_block count id

theorem moves_natural (width : Nat) :
    (natural width).Moves input fun before value after =>
      after = before + width ∧ value = ofLittleEndian (input.between before after) := by
  intro scan hscan
  have hdigits : (do
      let digits ← within (.integer (8 * width) scan.pos) (bytes width)
      return ofLittleEndian digits).Moves input fun before value after =>
        after = before + width ∧ value = ofLittleEndian (input.between before after) := by
    refine (((moves_bytes width).within _).map ofLittleEndian).congr fun before value after => ?_
    constructor
    · rintro ⟨digits, ⟨hafter, rfl⟩, rfl⟩
      exact ⟨hafter, rfl⟩
    · rintro ⟨hafter, rfl⟩
      exact ⟨_, ⟨hafter, rfl⟩, rfl⟩
  rw [natural, run_bind_of_ok (run_position input scan)]
  exact hdigits scan hscan

theorem moves_uleb128 :
    uleb128.Moves input fun before value after => before < after ∧
      Uleb128.decode (input.between before after) = some (value, after - before) := by
  intro scan _
  cases hnumber : input.uleb128At? scan.pos with
  | some found =>
      obtain ⟨hlt, hle, hdecode⟩ := Bytes.uleb128At?_eq_some_iff_between.mp hnumber
      exact .inl ⟨found.1, found.2, run_uleb128_of_some hnumber, hle, hlt, hdecode⟩
  | none =>
      refine .inr ⟨_, run_uleb128_of_none hnumber, ?_⟩
      rintro value next hnext ⟨hlt, hdecode⟩
      rw [Bytes.uleb128At?_eq_some_iff_between.mpr ⟨hlt, hnext, hdecode⟩] at hnumber
      cases hnumber

theorem moves_untilNul :
    untilNul.Moves input fun before value after =>
      after = before + value.length + 1 ∧ 0 ∉ value ∧
        input.between before after = value ++ [0] := by
  intro scan _
  cases htext : input.untilNul scan.pos with
  | some text =>
      have hend := (Bytes.untilNul_eq_some_iff.mp htext).2.end_le (by simp)
      rw [List.length_append, List.length_singleton] at hend
      refine .inl ⟨text, scan.pos + text.length + 1, ?_, hend, rfl,
        Bytes.untilNul_eq_some_iff_between.mp htext⟩
      rw [untilNul, run_ofRun, htext]
  | none =>
      refine .inr ⟨{ fault := .unterminatedString scan.pos }, ?_, ?_⟩
      · rw [untilNul, run_ofRun, htext]
      · rintro text _ _ ⟨rfl, hbetween⟩
        rw [Bytes.untilNul_eq_some_iff_between.mpr hbetween] at htext
        cases htext

/-- Goes on with how a step ended, also if that is a failure. -/
def attempt (step : Decode α) : Decode (Except Failure α) :=
  ofRun fun input scan => (.ok (run step input scan).1, (run step input scan).2)

theorem run_attempt_bind (step : Decode α) (next : Except Failure α → Decode β) (input : Bytes)
    (scan : Scan) :
    run (attempt step >>= next) input scan =
      run (next (run step input scan).1) input (run step input scan).2 :=
  run_bind_of_ok rfl

end Decode

/-! ## Walks over an input -/

/-- What a step can tell. -/
inductive Reading where
  | nothing
  | number (value : Nat)
  | bytes (content : List UInt8)
  deriving DecidableEq, Repr

/-- The elementary steps that move the cursor, with all their arguments. -/
inductive Operation where
  | seek (target : Nat)
  /-- A little-endian number: `u8`, `u16` and `u32` are those of one, two and four bytes. -/
  | number (width : Nat)
  | bytes (count : Nat)
  /-- As many bytes as its type says. -/
  | block (count : Nat)
  | uleb128
  | untilNul
  deriving DecidableEq, Repr

/-- A use of the cursor: steps one after the other, each chosen by how those before it ended, and
excursions, which are such uses themselves. It can stop with a failure anywhere. -/
inductive Walk where
  | stop (outcome : Except Failure Reading)
  | step (operation : Operation) (next : Except Failure Reading → Walk)
  | atOffset (offset : Nat) (body : Walk) (next : Except Failure Reading → Walk)

namespace Operation

open Decode

def decode : Operation → Decode Reading
  | seek target => do
    Decode.seek target
    return .nothing
  | number width => return .number (← natural width)
  | bytes count => return .bytes (← Decode.bytes count)
  | block count => return .bytes (← Decode.block count).toList
  | uleb128 => return .number (← Decode.uleb128)
  | untilNul => return .bytes (← Decode.untilNul)

/-- What an operation gives is told by the bytes between the cursor before and the cursor after. -/
def Gives (operation : Operation) (input : Bytes) (before : Nat) (reading : Reading)
    (after : Nat) : Prop :=
  let taken := input.between before after
  match operation, reading with
  | seek target, .nothing => after = target
  | number width, .number value => after = before + width ∧ value = ofLittleEndian taken
  | bytes count, .bytes content | block count, .bytes content =>
    after = before + count ∧ content = taken
  | uleb128, .number value =>
    before < after ∧ Uleb128.decode taken = some (value, after - before)
  | untilNul, .bytes text => after = before + text.length + 1 ∧ 0 ∉ text ∧ taken = text ++ [0]
  | _, _ => False

theorem moves (operation : Operation) (input : Bytes) :
    operation.decode.Moves input (operation.Gives input) := by
  cases operation with
  | seek target =>
      refine ((moves_seek target).map fun _ => Reading.nothing).congr fun _ reading _ => ?_
      cases reading <;> simp [Gives]
  | number width =>
      refine ((moves_natural width).map Reading.number).congr fun _ reading _ => ?_
      cases reading <;> simp [Gives]
  | bytes count =>
      refine ((moves_bytes count).map Reading.bytes).congr fun _ reading _ => ?_
      cases reading <;> simp [Gives]
  | block count =>
      refine (moves_block count Reading.bytes).congr fun _ reading _ => ?_
      cases reading <;> simp [Gives]
  | uleb128 =>
      refine (moves_uleb128.map Reading.number).congr fun _ reading _ => ?_
      cases reading <;> simp [Gives]
  | untilNul =>
      refine (moves_untilNul.map Reading.bytes).congr fun _ reading _ => ?_
      cases reading <;> simp [Gives]

end Operation

namespace Walk

open Decode

/-- The decoding step that a walk is. -/
def decode : Walk → Decode Reading
  | stop outcome => liftM outcome
  | step operation next => do
    let result ← attempt operation.decode
    (next result).decode
  | atOffset offset body next => do
    let result ← attempt (Decode.atOffset offset body.decode)
    (next result).decode

/-- What is done at one time of a walk. -/
inductive Action where
  | elementary (operation : Operation)
  | excursion (offset : Nat)
  deriving DecidableEq, Repr

/-- What came of an action, and the cursor before and after it. -/
structure Record where
  action : Action
  before : Nat
  result : Except Failure Reading
  after : Nat

/-- The records of all the actions of a walk, those of an excursion before the excursion itself,
which ends after them. -/
def trace (input : Bytes) : Walk → Scan → List Record
  | stop _, _ => []
  | step operation next, scan =>
    let (result, after) := operation.decode.run input scan
    ⟨.elementary operation, scan.pos, result, after.pos⟩ :: (next result).trace input after
  | atOffset offset body next, scan =>
    let inside :=
      match (seek offset).run input scan with
      | (.ok (), start) => body.trace input start
      | (.error _, _) => []
    let (result, after) := (Decode.atOffset offset body.decode).run input scan
    inside ++ ⟨.excursion offset, scan.pos, result, after.pos⟩ :: (next result).trace input after

/-- What an action gives. An excursion gives what it likes and leaves the cursor where it was. -/
def Action.Gives (action : Action) (input : Bytes) (before : Nat) (reading : Reading)
    (after : Nat) : Prop :=
  match action with
  | .elementary operation => operation.Gives input before reading after
  | .excursion _ => after = before

/-- The cursor stays within the input, what is read is what stands between the cursor before and the
cursor after, and a failure does not move the cursor. An operation fails only where there is nothing
that it could give. -/
structure Record.IsSafe (record : Record) (input : Bytes) : Prop where
  before_le : record.before ≤ input.size
  after_le : record.after ≤ input.size
  /-- No byte between the two is missing. -/
  taken : (input.between record.before record.after).length = record.after - record.before
  gives : ∀ reading, record.result = .ok reading →
    record.action.Gives input record.before reading record.after
  stays : ∀ failure, record.result = .error failure → record.after = record.before
  refuses : ∀ operation failure, record.action = .elementary operation →
    record.result = .error failure →
    ∀ reading next, next ≤ input.size → ¬operation.Gives input record.before reading next

variable {input : Bytes} {scan : Scan}

theorem isSafe_operation (operation : Operation) (h : scan.pos ≤ input.size) :
    Record.IsSafe ⟨.elementary operation, scan.pos, (operation.decode.run input scan).1,
      (operation.decode.run input scan).2.pos⟩ input := by
  obtain ⟨reading, next, hrun, hnext, hgives⟩ | ⟨failure, hrun, hnone⟩ :=
    operation.moves input scan h
  · rw [hrun]
    refine ⟨h, hnext, Bytes.length_between hnext, ?gives, ?stays, ?refuses⟩
    case gives =>
      intro _ hok
      cases hok
      exact hgives
    case stays =>
      intro _ herror
      cases herror
    case refuses =>
      intro _ _ _ herror
      cases herror
  · rw [hrun]
    refine ⟨h, h, Bytes.length_between h, ?gives, fun _ _ => rfl, ?refuses⟩
    case gives =>
      intro _ hok
      cases hok
    case refuses =>
      intro _ _ hoperation _
      cases hoperation
      exact hnone

theorem isSafe_excursion (offset : Nat) (body : Walk) (h : scan.pos ≤ input.size) :
    Record.IsSafe ⟨.excursion offset, scan.pos,
      ((Decode.atOffset offset body.decode).run input scan).1,
      ((Decode.atOffset offset body.decode).run input scan).2.pos⟩ input := by
  have hpos := pos_run_atOffset offset body.decode input scan
  have hafter := Nat.le_trans (Nat.le_of_eq hpos) h
  refine ⟨h, hafter, Bytes.length_between hafter, fun _ _ => hpos, fun _ _ => hpos, ?refuses⟩
  case refuses =>
    intro _ _ hoperation
    cases hoperation

/-- From a cursor within the input every action is safe. -/
theorem isSafe_of_mem_trace (walk : Walk) (h : scan.pos ≤ input.size) :
    ∀ record ∈ walk.trace input scan, record.IsSafe input := by
  -- That the cursor is within the input is what each action hands on to the next.
  induction walk generalizing scan with
  | stop outcome => exact List.forall_mem_nil _
  | step operation next ih =>
      have hrecord := isSafe_operation operation h
      exact List.forall_mem_cons.mpr ⟨hrecord, ih _ hrecord.after_le⟩
  | atOffset offset body next ihBody ihNext =>
      have hrecord := isSafe_excursion offset body h
      refine List.forall_mem_append.mpr ⟨?_, List.forall_mem_cons.mpr ⟨hrecord, ?_⟩⟩
      · -- The body starts at the offset, if the cursor can be put there.
        obtain ⟨_, start, hrun, hstart, -⟩ | ⟨failure, hrun, -⟩ := moves_seek offset scan h
        · rw [hrun]
          exact ihBody hstart
        · rw [hrun]
          exact List.forall_mem_nil _
      · exact ihNext _ hrecord.after_le

/-- A walk ends where its last action ended, or where it began if it has none. -/
theorem pos_run_decode (walk : Walk) (input : Bytes) (scan : Scan) :
    (run walk.decode input scan).2.pos =
      ((walk.trace input scan).map Record.after).getLastD scan.pos := by
  induction walk generalizing scan with
  | stop outcome => cases outcome <;> rfl
  | step operation next ih =>
      rw [decode, run_attempt_bind, ih, trace, List.map_cons, List.getLastD_cons]
  | atOffset offset body next ihBody ihNext =>
      -- The record of the excursion stands after those of its body, so none of them is the last.
      rw [decode, run_attempt_bind, ihNext, trace, List.map_append, List.map_cons]
      simp only [List.getLastD_eq_getLast?, List.getLast?_append, List.getLast?_cons,
        Option.getD_some, Option.some_or]

theorem pos_run_decode_le (walk : Walk) (h : scan.pos ≤ input.size) :
    (run walk.decode input scan).2.pos ≤ input.size := by
  have hlast : (run walk.decode input scan).2.pos ∈
      scan.pos :: (walk.trace input scan).map Record.after := by
    rw [pos_run_decode]
    exact List.getLastD_mem_cons
  rw [List.mem_cons, List.mem_map] at hlast
  obtain hstart | ⟨record, hmem, hafter⟩ := hlast
  · rw [hstart]
    exact h
  · rw [← hafter]
    exact (walk.isSafe_of_mem_trace h record hmem).after_le

/-- Every walk from the start of an input is safe at each of its actions, those of excursions among
them, and ends within the input, where its last action ended. -/
theorem cursor_safe (walk : Walk) (input : Bytes) (journal : Journal) :
    (∀ record ∈ walk.trace input { journal }, record.IsSafe input) ∧
      (run walk.decode input { journal }).2.pos ≤ input.size ∧
      (run walk.decode input { journal }).2.pos =
        ((walk.trace input { journal }).map Record.after).getLastD 0 := by
  have hstart : ({ journal } : Scan).pos ≤ input.size := Nat.zero_le _
  exact ⟨walk.isSafe_of_mem_trace hstart, walk.pos_run_decode_le hstart,
    walk.pos_run_decode input { journal }⟩

def interruptedInput : Bytes := #[0x61, 0x62, 0, 0xe5, 0x8e, 0x26, 0x80]

/-- A walk with an excursion that cannot even begin within one that fails half way. -/
def interrupted : Walk :=
  .step .untilNul fun _ =>
  .atOffset 0
    (.step (.number 2) fun _ =>
     .atOffset 9 (.stop (.ok .nothing)) fun _ =>
     .step (.block 6) fun result => .stop result) fun _ =>
  .step .uleb128 fun _ =>
  .step .uleb128 fun result => .stop result

theorem trace_interrupted : interrupted.trace interruptedInput {} = [
    ⟨.elementary .untilNul, 0, .ok (.bytes [0x61, 0x62]), 3⟩,
    ⟨.elementary (.number 2), 0, .ok (.number 0x6261), 2⟩,
    ⟨.excursion 9, 2, .error { fault := .seekPastEnd 9 7 }, 2⟩,
    ⟨.elementary (.block 6), 2, .error { fault := .endOfInput 6 2 }, 2⟩,
    ⟨.excursion 0, 3, .error { fault := .endOfInput 6 2 }, 3⟩,
    ⟨.elementary .uleb128, 3, .ok (.number 624485), 6⟩,
    ⟨.elementary .uleb128, 6, .error { fault := .unterminatedNumber 6 }, 6⟩] := by
  rfl

theorem cursor_safe_interrupted :
    let record : Record := ⟨.excursion 0, 3, .error { fault := .endOfInput 6 2 }, 3⟩
    record ∈ interrupted.trace interruptedInput {} ∧ record.IsSafe interruptedInput ∧
      (run interrupted.decode interruptedInput {}).2.pos = 6 := by
  intro record
  have hmem : record ∈ interrupted.trace interruptedInput {} := by
    rw [trace_interrupted]
    simp [record]
  obtain ⟨hsafe, -, hend⟩ := interrupted.cursor_safe interruptedInput {}
  refine ⟨hmem, hsafe record hmem, hend.trans ?_⟩
  rw [trace_interrupted]
  rfl

end Walk

end Dalvik
