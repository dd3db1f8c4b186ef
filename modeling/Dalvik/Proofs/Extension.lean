import Dalvik.Proofs.Cursor
import Dalvik.Proofs.Effects

/-!
# Steps on a longer input

A step on an input is compared with a step on the same input with more bytes after it. Bytes that
follow may cure a failure for lack of bytes. They change no other failure, and no value that does
not tell how long the input is.
-/

namespace Dalvik

variable {α β γ δ : Type} {input more : Bytes}

/-- What may become of a result when more bytes follow the input: a value stays a value, one that it
is related to; a failure for lack of bytes may become anything; any other failure stays. -/
inductive Continues (related : α → β → Prop) : Except Failure α → Except Failure β → Prop where
  | value {a : α} {b : β} (h : related a b) : Continues related (.ok a) (.ok b)
  | truncated {failure : Failure} (h : failure.kind = .truncated) (result : Except Failure β) :
    Continues related (.error failure) result
  | failure (failure : Failure) : Continues related (.error failure) (.error failure)

theorem Continues.imp {related other : α → β → Prop} {short : Except Failure α}
    {long : Except Failure β} (h : Continues related short long)
    (himp : ∀ a b, related a b → other a b) : Continues other short long := by
  cases h with
  | value h => exact .value (himp _ _ h)
  | truncated h _ => exact .truncated h _
  | failure failure => exact .failure failure

/-- The places that a result passes through are the same on the longer input. -/
theorem Continues.within {related : α → β → Prop} {short : Except Failure α}
    {long : Except Failure β} (h : Continues related short long) (context : Context) :
    Continues related (short.mapError fun failure => failure.within context)
      (long.mapError fun failure => failure.within context) := by
  cases h with
  | value h => exact .value h
  | @truncated failure h _ =>
      have hwithin : (failure.within context).kind = .truncated := h
      exact .truncated hwithin _
  | failure failure => exact .failure _

namespace Effect

variable {σ τ : Type}

/-- From states that agree, the result of one step continues to that of another. If both succeed,
the states after them agree. -/
def Persists (agree : σ → τ → Prop) (related : α → β → Prop) (short : Effect σ α)
    (long : Effect τ β) : Prop :=
  ∀ state other, agree state other →
    Continues (fun a b => related a b ∧ agree (short state).2 (long other).2) (short state).1
      (long other).1

theorem Persists.bind {agree : σ → τ → Prop} {related : α → β → Prop} {relatedNext : γ → δ → Prop}
    {short : Effect σ α} {long : Effect τ β} {shortNext : α → Effect σ γ}
    {longNext : β → Effect τ δ}
    (hstep : Persists agree related short long)
    (hnext : ∀ a b, related a b → Persists agree relatedNext (shortNext a) (longNext b)) :
    Persists agree relatedNext (short.andThen shortNext) (long.andThen longNext) := by
  intro state other hagree
  have hfirst := hstep state other hagree
  cases hshort : short state with
  | mk result after =>
      cases hlong : long other with
      | mk resultLong afterLong =>
          rw [hshort, hlong] at hfirst
          cases hfirst with
          | value h =>
              rw [andThen_of_ok hshort, andThen_of_ok hlong]
              exact hnext _ _ h.1 after afterLong h.2
          | truncated h _ =>
              rw [andThen_of_error hshort]
              exact .truncated h _
          | failure failure =>
              rw [andThen_of_error hshort, andThen_of_error hlong]
              exact .failure failure

end Effect

/-! ## The bytes of the input -/

namespace Bytes

variable {pos : Nat}

theorem size_le_append (input more : Bytes) : input.size ≤ (input ++ more).size := by
  rw [Array.size_append]
  omega

theorem suffix_append (h : pos ≤ input.size) (more : Bytes) :
    (input ++ more).suffix pos = input.suffix pos ++ more.toList := by
  rw [suffix, Array.toList_append, List.drop_append_of_le_length (by simpa using h), suffix]

/-- Bytes that the input has are not changed by those that follow. None can be taken anywhere. -/
theorem take_suffix_append {count : Nat} (h : count ≤ input.size - pos) (more : Bytes) :
    ((input ++ more).suffix pos).take count = (input.suffix pos).take count := by
  by_cases hpos : pos ≤ input.size
  · rw [suffix_append hpos, List.take_append_of_le_length (by simpa using h)]
  · have hzero : count = 0 := by omega
    rw [hzero, List.take_zero, List.take_zero]

theorem HasAt.append {content : List UInt8} (h : input.HasAt pos content) (more : Bytes) :
    (input ++ more).HasAt pos content := by
  cases content with
  | nil => exact List.nil_prefix
  | cons byte content =>
      have hend := h.end_le (List.cons_ne_nil byte content)
      rw [HasAt, suffix_append (by omega)]
      exact h.trans (List.prefix_append _ _)

theorem uleb128At?_append {found : Nat × Nat} (h : input.uleb128At? pos = some found)
    (more : Bytes) : (input ++ more).uleb128At? pos = some found := by
  have hnext := uleb128At?_next h
  obtain ⟨number, hnumber, heq⟩ := Option.map_eq_some_iff.mp h
  rw [uleb128At?, suffix_append (by omega), Uleb128.decode_append hnumber, Option.map_some, heq]

theorem untilNul_append {text : List UInt8} (h : input.untilNul pos = some text) (more : Bytes) :
    (input ++ more).untilNul pos = some text := by
  rw [untilNul_eq_some_iff] at h ⊢
  exact ⟨h.1, h.2.append more⟩

end Bytes

/-! ## Steps that only write to the journal -/

namespace Reporting

/-- Whatever has been noted before, the result of a step continues to that of another. -/
def Persists (related : α → β → Prop) (short : Reporting α) (long : Reporting β) : Prop :=
  Effect.Persists (fun _ _ => True) related (run short) (run long)

variable {related : α → β → Prop} {relatedNext : γ → δ → Prop}

theorem persists_pure {a : α} {b : β} (h : related a b) :
    Persists related (pure a) (pure b) := fun _ _ _ => .value ⟨h, trivial⟩

theorem persists_fail_of_truncated {fault : Fault} (h : fault.kind = .truncated)
    (long : Reporting β) : Persists related (fail fault) long := by
  have hkind : ({ fault } : Failure).kind = .truncated := h
  exact fun _ _ _ => .truncated hkind _

theorem Persists.bind {short : Reporting α} {long : Reporting β} {shortNext : α → Reporting γ}
    {longNext : β → Reporting δ} (hstep : Persists related short long)
    (hnext : ∀ a b, related a b → Persists relatedNext (shortNext a) (longNext b)) :
    Persists relatedNext (short >>= shortNext) (long >>= longNext) := by
  rw [Persists, run_bind_eq_andThen, run_bind_eq_andThen]
  exact Effect.Persists.bind hstep hnext

/-- Steps that always succeed are compared by the values they end with. -/
theorem persists_of_yields {short : Reporting α} {long : Reporting β} {spec : α → Prop}
    {specLong : β → Prop} (hshort : short.Yields spec) (hlong : long.Yields specLong)
    (hsome : ∃ a, spec a) (hsomeLong : ∃ b, specLong b)
    (hrelated : ∀ a b, spec a → specLong b → related a b) : Persists related short long := by
  intro journal other _
  obtain ⟨a, ha⟩ := hsome
  obtain ⟨b, hb⟩ := hsomeLong
  obtain ⟨after, hrun⟩ := (hshort journal a).mpr ha
  obtain ⟨afterLong, hrunLong⟩ := (hlong other b).mpr hb
  rw [hrun, hrunLong]
  exact .value ⟨hrelated a b ha hb, trivial⟩

end Reporting

/-! ## Decoding steps -/

namespace Decode

/-- From the same offset, the result of a step on an input continues to that of another step on the
longer input. Steps that succeed leave the cursor at the same offset. -/
def Persists (input more : Bytes) (related : α → β → Prop) (short : Decode α) (long : Decode β) :
    Prop :=
  Effect.Persists (fun scan other : Scan => scan.pos = other.pos) related (run short input)
    (run long (input ++ more))

/-- A step that ends with the same value on the longer input. -/
abbrev Lasts (step : Decode α) (input more : Bytes) : Prop :=
  Persists input more (· = ·) step step

variable {related : α → β → Prop} {relatedNext : γ → δ → Prop}

theorem persists_pure {a : α} {b : β} (h : related a b) :
    Persists input more related (pure a) (pure b) := fun _ _ hpos => .value ⟨h, hpos⟩

theorem lasts_pure (a : α) : Lasts (pure a) input more :=
  persists_pure rfl

theorem lasts_fail (fault : Fault) : Lasts (fail fault : Decode α) input more :=
  fun _ _ _ => .failure _

/-- A step that is always refused for lack of bytes. -/
theorem persists_of_truncated {short : Decode α}
    (h : ∀ scan, ∃ failure, (run short input scan).1 = .error failure ∧ failure.kind = .truncated)
    (long : Decode β) : Persists input more related short long := by
  intro scan other _
  obtain ⟨failure, hrun, hkind⟩ := h scan
  rw [hrun]
  exact .truncated hkind _

theorem Persists.bind {short : Decode α} {long : Decode β} {shortNext : α → Decode γ}
    {longNext : β → Decode δ} (hstep : Persists input more related short long)
    (hnext : ∀ a b, related a b → Persists input more relatedNext (shortNext a) (longNext b)) :
    Persists input more relatedNext (short >>= shortNext) (long >>= longNext) := by
  rw [Persists, run_bind_eq_andThen, run_bind_eq_andThen]
  exact Effect.Persists.bind hstep hnext

theorem Lasts.bind {step : Decode α} {next : α → Decode β} (hstep : step.Lasts input more)
    (hnext : ∀ a, (next a).Lasts input more) : (step >>= next).Lasts input more := by
  apply Persists.bind hstep
  rintro a _ rfl
  exact hnext a

theorem Lasts.ite {first second : Decode α} {c : Prop} [Decidable c]
    (hfirst : c → first.Lasts input more) (hsecond : ¬c → second.Lasts input more) :
    (if c then first else second).Lasts input more := by
  split
  next hc => exact hfirst hc
  next hc => exact hsecond hc

/-- A step that is refused for lack of bytes, unless there are enough of them. More bytes are enough
whenever fewer are. -/
theorem Persists.guard {short refusal : Decode α} {long refusalLong : Decode β} {c cLong : Prop}
    [Decidable c] [Decidable cLong]
    (hrefusal : ∀ step : Decode β, Persists input more related refusal step) (hc : cLong → c)
    (h : ¬c → Persists input more related short long) :
    Persists input more related (if c then refusal else short)
      (if cLong then refusalLong else long) := by
  by_cases hshort : c
  · rw [if_pos hshort]
    exact hrefusal _
  · rw [if_neg hshort, if_neg fun hlong => hshort (hc hlong)]
    exact h hshort

theorem Persists.within {short : Decode α} {long : Decode β}
    (h : Persists input more related short long) (context : Context) :
    Persists input more related (within context short) (within context long) :=
  fun scan other hpos => (h scan other hpos).within context

/-- An offset within the input is one of the longer input. -/
theorem Persists.atOffset {short : Decode α} {long : Decode β}
    (h : Persists input more related short long) (offset : Nat) :
    Persists input more related (atOffset offset short) (atOffset offset long) := by
  intro scan other hpos
  by_cases hle : offset ≤ input.size
  · have hleLong := Nat.le_trans hle (Bytes.size_le_append input more)
    have hstep := h { scan with pos := offset } { other with pos := offset } rfl
    rw [run_atOffset_of_le hle, run_atOffset_of_le hleLong]
    -- Whatever the step does to the cursor is undone.
    cases hshort : run short input { scan with pos := offset } with
    | mk result after =>
        cases hlong : run long (input ++ more) { other with pos := offset } with
        | mk resultLong afterLong =>
            rw [hshort, hlong] at hstep
            cases hstep with
            | value h => exact .value ⟨h.1, hpos⟩
            | truncated h _ => exact .truncated h _
            | failure failure => exact .failure failure
  · rw [run_atOffset_of_lt (Nat.lt_of_not_le hle)]
    exact .truncated rfl _

theorem lasts_tabulateFrom {body : Nat → Decode α} (h : ∀ index, (body index).Lasts input more)
    (count index : Nat) (done : Array α) :
    (tabulateFrom body count index done).Lasts input more := by
  induction count generalizing index done with
  | zero => exact lasts_pure done
  | succ count ih => exact (h index).bind fun item => ih (index + 1) (done.push item)

theorem lasts_tabulate {body : Nat → Decode α} (h : ∀ index, (body index).Lasts input more)
    (count : Nat) : (tabulate count body).Lasts input more :=
  lasts_tabulateFrom h count 0 #[]

/-- Steps of one width that always succeed are compared by the values they end with. -/
theorem persists_of_reads {short : Decode α} {long : Decode β} {width : Nat}
    {spec : Nat → α → Prop} {specLong : Nat → β → Prop} (hshort : short.Reads input width spec)
    (hlong : long.Reads (input ++ more) width specLong) (hsome : ∀ pos, ∃ a, spec pos a)
    (hsomeLong : ∀ pos, ∃ b, specLong pos b)
    (hrelated : ∀ pos a b, spec pos a → specLong pos b → related a b) :
    Persists input more related short long := by
  intro scan other hpos
  obtain ⟨a, ha⟩ := hsome scan.pos
  obtain ⟨b, hb⟩ := hsomeLong scan.pos
  obtain ⟨journal, hrun⟩ := (hshort scan a (scan.pos + width)).mpr ⟨rfl, ha⟩
  obtain ⟨journalLong, hrunLong⟩ :=
    (hlong other b (scan.pos + width)).mpr ⟨by rw [hpos], hpos ▸ hb⟩
  rw [hrun, hrunLong]
  exact .value ⟨hrelated scan.pos a b ha hb, rfl⟩

theorem persists_liftReporting {short : Reporting α} {long : Reporting β}
    (h : Reporting.Persists related short long) :
    Persists input more related (liftM short) (liftM long) := by
  intro scan other hpos
  exact (h scan.journal other.journal trivial).imp fun _ _ hrelated => ⟨hrelated.1, hpos⟩

/-! ## Elementary steps -/

theorem persists_length :
    Persists input more (fun short long => short ≤ long) length length := by
  apply persists_of_reads reads_length reads_length
  · exact fun _ => ⟨_, rfl⟩
  · exact fun _ => ⟨_, rfl⟩
  · rintro _ _ _ rfl rfl
    exact Bytes.size_le_append input more

theorem persists_remaining :
    Persists input more (fun short long => short ≤ long) remaining remaining := by
  apply persists_of_reads reads_remaining reads_remaining
  · exact fun _ => ⟨_, rfl⟩
  · exact fun _ => ⟨_, rfl⟩
  · rintro pos _ _ rfl rfl
    exact Nat.sub_le_sub_right (Bytes.size_le_append input more) pos

theorem lasts_position : position.Lasts input more := by
  apply persists_of_reads reads_position reads_position
  · exact fun _ => ⟨_, rfl⟩
  · exact fun _ => ⟨_, rfl⟩
  · rintro _ _ _ rfl rfl
    rfl

/-- Notes are no part of a value, and the two runs may make different ones. -/
theorem persists_of_notes {short long : Decode Unit} (hshort : short.Reads input 0 fun _ _ => True)
    (hlong : long.Reads (input ++ more) 0 fun _ _ => True) :
    Persists input more (· = ·) short long := by
  apply persists_of_reads hshort hlong
  · exact fun _ => ⟨(), trivial⟩
  · exact fun _ => ⟨(), trivial⟩
  · exact fun _ _ _ _ _ => rfl

theorem lasts_warn (anomaly : Anomaly) :
    Lasts (liftM (Reporting.warn anomaly)) input more :=
  persists_of_notes (reads_warn anomaly) (reads_warn anomaly)

theorem lasts_record (event : Event) : Lasts (liftM (Reporting.record event)) input more :=
  persists_of_notes (reads_record event) (reads_record event)

theorem lasts_liftExcept (result : Except Failure α) : Lasts (liftM result) input more := by
  intro scan other hpos
  cases result with
  | ok a => exact .value ⟨rfl, hpos⟩
  | error failure => exact .failure failure

theorem lasts_block (count : Nat) : (block count).Lasts input more := by
  intro scan other hpos
  by_cases hle : count ≤ input.size - scan.pos
  · have hsize := Bytes.size_le_append input more
    have hleLong : count ≤ (input ++ more).size - other.pos := by omega
    obtain ⟨value, hvalue, hrun⟩ := run_block_of_le hle
    obtain ⟨valueLong, hvalueLong, hrunLong⟩ := run_block_of_le hleLong
    rw [hrun, hrunLong]
    refine .value ⟨Vector.toList_inj.mp ?_, by rw [hpos]⟩
    rw [hvalue, hvalueLong, ← hpos, Bytes.take_suffix_append hle]
  · rw [run_block_of_lt (Nat.lt_of_not_le hle)]
    exact .truncated rfl _

theorem lasts_natural (width : Nat) : (natural width).Lasts input more := by
  apply lasts_position.bind
  intro start
  apply Lasts.bind
  · exact ((lasts_block width).bind fun block => lasts_pure block.toList).within _
  · exact fun digits => lasts_pure _

theorem lasts_u16 : u16.Lasts input more :=
  lasts_natural 2

theorem lasts_u32 : u32.Lasts input more :=
  lasts_natural 4

theorem lasts_word : word.Lasts input more :=
  lasts_u32.bind fun _ => lasts_pure _

theorem lasts_uleb128 : uleb128.Lasts input more := by
  intro scan other hpos
  cases hnumber : input.uleb128At? scan.pos with
  | none =>
      rw [run_uleb128_of_none hnumber]
      exact .truncated rfl _
  | some found =>
      have hlong := Bytes.uleb128At?_append hnumber more
      rw [hpos] at hlong
      rw [run_uleb128_of_some hnumber, run_uleb128_of_some hlong]
      exact .value ⟨rfl, rfl⟩

theorem lasts_untilNul : untilNul.Lasts input more := by
  intro scan other hpos
  rw [untilNul, run_ofRun, run_ofRun]
  cases htext : input.untilNul scan.pos with
  | none => exact .truncated rfl _
  | some text =>
      have hlong := Bytes.untilNul_append htext more
      rw [hpos] at hlong
      rw [hlong]
      exact .value ⟨rfl, by rw [hpos]⟩

/-- A table that fits before the end of the input fits before a later end. -/
theorem lasts_requireTable (name : String) (count itemSize : Nat) :
    (requireTable name count itemSize).Lasts input more := by
  intro scan other hpos
  rw [requireTable, run_ofRun, run_ofRun]
  by_cases hfits : input.size - scan.pos < min (count * itemSize) maxSize
  · simp only [if_pos hfits]
    exact .truncated rfl _
  · have hsize := Bytes.size_le_append input more
    have hfitsLong : ¬(input ++ more).size - other.pos < min (count * itemSize) maxSize := by omega
    simp only [if_neg hfits, if_neg hfitsLong]
    exact .value ⟨trivial, hpos⟩

theorem lasts_table {item : Nat → Decode α} (h : ∀ index, (item index).Lasts input more)
    (table : Table) (count offset : Nat) :
    (Decode.table table count offset item).Lasts input more := by
  apply (lasts_record _).bind
  intro _
  apply Persists.within
  apply Persists.atOffset
  exact (lasts_requireTable _ _ _).bind fun _ => lasts_tabulate h count

end Decode

end Dalvik
