import Dalvik.Proofs.HeaderNotes
import Dalvik.Proofs.ItemNotes

/-!
# Independence of the scan

The header and the pools are read at offsets of their own. Where the cursor happens to be and what
has been noted before change neither how the reading ends nor what it notes, and the cursor is put
back however the reading ends.
-/

namespace Dalvik

namespace Decode

variable {α β : Type} {input : Bytes}

/-- A step that ends in one way only, with the same notes from every scan, and leaves the cursor
where it was. -/
def Settled (step : Decode α) (input : Bytes) : Prop :=
  ∃ result added, ∀ scan, run step input scan = (result, ⟨scan.pos, scan.journal ++ added⟩)

/-- What a scan is to a step that does not depend on it: the result is the same from any other scan,
the cursor stays, and the notes that are added are the same, the diagnostics among them. -/
structure Independent (step : Decode α) (input : Bytes) : Prop where
  result : ∀ scan other, (run step input scan).1 = (run step input other).1
  pos : ∀ scan, (run step input scan).2.pos = scan.pos
  journal : ∃ added, ∀ scan, (run step input scan).2.journal = scan.journal ++ added
  diagnostics : ∃ found, ∀ scan,
    (run step input scan).2.journal.diagnostics = scan.journal.diagnostics ++ found

theorem Settled.independent {step : Decode α} (h : step.Settled input) :
    step.Independent input := by
  obtain ⟨result, added, hrun⟩ := h
  exact {
    result := fun scan other => by rw [hrun, hrun]
    pos := fun scan => by rw [hrun]
    journal := ⟨added, fun scan => by rw [hrun]⟩
    diagnostics := ⟨added.diagnostics, fun scan => by rw [hrun, Journal.diagnostics_append]⟩ }

/-! ## Steps that stay where they are -/

theorem settled_of_run {step : Decode α} {result : Except Failure α}
    (h : ∀ scan, run step input scan = (result, scan)) : step.Settled input :=
  ⟨result, {}, fun scan => by rw [h, Journal.append_empty]⟩

theorem settled_pure (a : α) : Settled (pure a) input :=
  settled_of_run fun _ => rfl

theorem settled_fail (fault : Fault) : Settled (fail fault : Decode α) input :=
  settled_of_run fun _ => rfl

theorem settled_length : length.Settled input :=
  settled_of_run fun _ => rfl

theorem settled_warn (anomaly : Anomaly) : Settled (liftM (Reporting.warn anomaly)) input :=
  ⟨.ok (), .single (.diagnostic anomaly.warning), fun _ => rfl⟩

theorem settled_record (event : Event) : Settled (liftM (Reporting.record event)) input :=
  ⟨.ok (), .single (.event event), fun _ => rfl⟩

/-- The notes of two steps are those of the first and then those of the second, wherever the second
starts. -/
theorem Settled.bind {step : Decode α} {next : α → Decode β} (hstep : step.Settled input)
    (hnext : ∀ a, (next a).Settled input) : (step >>= next).Settled input := by
  obtain ⟨result, added, hrun⟩ := hstep
  cases result with
  | error failure => exact ⟨.error failure, added, fun scan => run_bind_of_error (hrun scan)⟩
  | ok a =>
      obtain ⟨resultNext, last, hrunNext⟩ := hnext a
      refine ⟨resultNext, added ++ last, fun scan => ?_⟩
      rw [run_bind_of_ok (hrun scan), hrunNext, Journal.append_assoc]

theorem Settled.ite {first second : Decode α} {c : Prop} [Decidable c]
    (hfirst : first.Settled input) (hsecond : second.Settled input) :
    (if c then first else second).Settled input := by
  split
  · exact hfirst
  · exact hsecond

theorem Settled.within {step : Decode α} (h : step.Settled input) (context : Context) :
    (within context step).Settled input := by
  obtain ⟨result, added, hrun⟩ := h
  exact ⟨result.mapError fun failure => failure.within context, added, fun scan => by
    rw [run_within, hrun]⟩

theorem settled_forM_warn (anomaly : α → Anomaly) (list : List α) :
    Settled (list.forM fun a => Reporting.warn (anomaly a) : Decode Unit) input := by
  induction list with
  | nil => exact settled_pure ()
  | cons a list ih => exact (settled_warn (anomaly a)).bind fun _ => ih

/-! ## Steps elsewhere -/

/-- A step may depend on where it starts. At an offset of its own it starts in one place, or not at
all. -/
theorem Notes.settled_atOffset {step : Decode α} {cause : Failure → Prop}
    {noted : α → List Anomaly → Prop} (h : step.Notes input cause noted) (offset : Nat) :
    (Decode.atOffset offset step).Settled input := by
  by_cases hle : offset ≤ input.size
  · obtain ⟨result, next, added, hrun, -⟩ := h offset
    refine ⟨result, added, fun scan => ?_⟩
    rw [run_atOffset_of_le hle, hrun]
  · exact settled_of_run (run_atOffset_of_lt (Nat.lt_of_not_le hle) step)

theorem settled_table (table : Table) {item : Nat → Decode α} {anomalies : α → Nat → List Anomaly}
    (h : ∀ index, (item index).Notes input (Failure.LacksBytesOr table.otherKinds)
      fun value list => list = anomalies value index) (count offset : Nat) :
    (Decode.table table count offset item).Settled input :=
  (settled_record _).bind fun _ => (Notes.settled_atOffset
    ((silent_requireTable _ _ _).bind_notes fun _ => notes_tabulate h count) offset).within _

end Decode

open Decode

variable {input : Bytes}

/-! ## The header and the pools -/

theorem Header.settled_check (header : Header) : header.check.Settled input :=
  settled_of_run (header.run_check input)

theorem Header.settled_read : Header.read.Settled input := by
  refine settled_length.bind fun length => Settled.ite (settled_fail _) ?_
  refine (Notes.settled_atOffset silent_readFields 0).bind fun header => ?_
  exact header.settled_check.bind fun _ => settled_pure header

namespace Pool

theorem Strings.settled_read (count offset : Nat) :
    (Pool.Strings.read count offset).Settled input :=
  (settled_table .strings StringItem.notes_readAt count offset).bind fun _ =>
    (settled_record _).bind fun _ => settled_pure _

theorem Types.settled_read (strings : Pool.Strings) (arrayLimit count offset : Nat) :
    (Pool.Types.read strings arrayLimit count offset).Settled input :=
  (settled_table .types (TypeItem.notes_readAt strings arrayLimit) count offset).bind fun _ =>
    (settled_record _).bind fun _ => settled_pure _

theorem References.settled_read {α : Type} (table : Table) {item : Nat → Decode α}
    {anomalies : α → Nat → List Anomaly}
    (h : ∀ index, (item index).Notes input (Failure.LacksBytesOr table.otherKinds)
      fun value list => list = anomalies value index) (count offset : Nat) :
    (Pool.References.read table count offset item).Settled input :=
  (settled_table table h count offset).bind fun _ => (settled_record _).bind fun _ =>
    settled_pure _

theorem Classes.settled_read (pools : ClassItem.Pools) (count offset : Nat) :
    (Pool.Classes.read pools count offset).Settled input :=
  (settled_table .classes (ClassItem.notes_readAt pools) count offset).bind fun items =>
    (settled_forM_warn .redefined (ofItems items).redefinitions).bind fun _ =>
      (settled_record _).bind fun _ => settled_pure _

end Pool

/-- The header and each of the six pools are read alike from all scans, whatever their arguments. -/
theorem Decode.readers_independent (input : Bytes) :
    Header.read.Independent input ∧
    (∀ count offset, (Pool.Strings.read count offset).Independent input) ∧
    (∀ strings arrayLimit count offset,
      (Pool.Types.read strings arrayLimit count offset).Independent input) ∧
    (∀ strings types count offset,
      (Pool.Protos.read strings types count offset).Independent input) ∧
    (∀ strings types count offset,
      (Pool.Fields.read strings types count offset).Independent input) ∧
    (∀ strings types protos count offset,
      (Pool.Methods.read strings types protos count offset).Independent input) ∧
    ∀ pools count offset, (Pool.Classes.read pools count offset).Independent input := by
  refine ⟨Header.settled_read.independent,
    fun count offset => (Pool.Strings.settled_read count offset).independent,
    fun strings arrayLimit count offset =>
      (Pool.Types.settled_read strings arrayLimit count offset).independent,
    fun strings types count offset => Settled.independent ?_,
    fun strings types count offset => Settled.independent ?_,
    fun strings types protos count offset => Settled.independent ?_,
    fun pools count offset => (Pool.Classes.settled_read pools count offset).independent⟩
  · exact Pool.References.settled_read .protos (ProtoItem.notes_readAt strings types) count offset
  · exact Pool.References.settled_read .fields (FieldItem.silent_readAt strings types) count offset
  · exact Pool.References.settled_read .methods (MethodItem.silent_readAt strings types protos)
      count offset

end Dalvik
