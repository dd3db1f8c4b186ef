import Dalvik.Proofs.ItemRows
import Dalvik.Proofs.TableAdmission

/-!
# Tables read row by row

Once a table is known to lie within the input, the numbers of its items are there to be taken. What
can fail is a reference that cannot be followed, and what an item places elsewhere.
-/

namespace Dalvik

open Decode

variable {α : Type} {input : Bytes}

/-! ## Pools

A pool fails as its table does; what is made of the items cannot fail. -/

section Pools

variable {table : Table} {count offset : Nat} {scan after : Scan} {failure : Failure}

theorem Pool.Strings.error_of_read
    (h : run (Pool.Strings.read count offset) input scan = (.error failure, after)) :
    run (Decode.table .strings count offset StringItem.readAt) input scan =
      (.error failure, after) :=
  error_of_run_bind (fun _ => (fails_record _).bind fun _ => fails_pure _) h

theorem Pool.Types.error_of_read {strings : Pool.Strings} {arrayLimit : Nat}
    (h : run (Pool.Types.read strings arrayLimit count offset) input scan =
      (.error failure, after)) :
    run (Decode.table .types count offset (TypeItem.readAt strings arrayLimit)) input scan =
      (.error failure, after) :=
  error_of_run_bind (fun _ => (fails_record _).bind fun _ => fails_pure _) h

theorem Pool.References.error_of_read {item : Nat → Decode α}
    (h : run (Pool.References.read table count offset item) input scan = (.error failure, after)) :
    run (Decode.table table count offset item) input scan = (.error failure, after) :=
  error_of_run_bind (fun _ => (fails_record _).bind fun _ => fails_pure _) h

theorem Pool.Classes.error_of_read {pools : ClassItem.Pools}
    (h : run (Pool.Classes.read pools count offset) input scan = (.error failure, after)) :
    run (Decode.table .classes count offset (ClassItem.readAt pools)) input scan =
      (.error failure, after) :=
  error_of_run_bind (fun _ => (fails_forM_warn Anomaly.redefined _).bind fun _ =>
    (fails_record _).bind fun _ => fails_pure _) h

end Pools

/-! ## Tables -/

namespace Table

/-- What an item of a table is read as. -/
def Item : Table → Type
  | strings => StringItem
  | types => TypeItem
  | protos => ProtoItem
  | fields => FieldItem
  | methods => MethodItem
  | classes => ClassItem

variable (pools : Pools)

/-- Takes an item of a table. -/
def readItem : (table : Table) → Nat → Decode table.Item
  | strings => StringItem.readAt
  | types => TypeItem.readAt pools.strings pools.arrayLimit
  | protos => ProtoItem.readAt pools.strings pools.types
  | fields => FieldItem.readAt pools.strings pools.types
  | methods => MethodItem.readAt pools.strings pools.types pools.protos
  | classes => ClassItem.readAt pools.ofClasses

/-- Reads the pool of a table. -/
def readPool (table : Table) (count offset : Nat) : Decode Unit :=
  match table with
  | strings => do
    let _ ← Pool.Strings.read count offset
  | types => do
    let _ ← Pool.Types.read pools.strings pools.arrayLimit count offset
  | protos => do
    let _ ← Pool.Protos.read pools.strings pools.types count offset
  | fields => do
    let _ ← Pool.Fields.read pools.strings pools.types count offset
  | methods => do
    let _ ← Pool.Methods.read pools.strings pools.types pools.protos count offset
  | classes => do
    let _ ← Pool.Classes.read pools.ofClasses count offset

/-- The row of an item. -/
def row : (table : Table) → Nat → Row table.Item
  | strings => StringItem.row
  | types => TypeItem.row pools.strings pools.arrayLimit
  | protos => ProtoItem.row pools.strings pools.types
  | fields => FieldItem.row pools.strings pools.types
  | methods => MethodItem.row pools.strings pools.types pools.protos
  | classes => ClassItem.row pools.ofClasses

variable {table : Table} {count offset : Nat}

theorem sameEnd_row (table : Table) (index : Nat) {scan : Scan}
    (hroom : scan.pos + table.itemSize ≤ input.size) :
    SameEnd (run (table.row pools index).decode input scan)
      (run (table.readItem pools index) input scan) := by
  cases table with
  | strings => exact StringItem.sameEnd_row index scan
  | types => exact TypeItem.sameEnd_row _ _ index scan
  | protos => exact ProtoItem.sameEnd_row _ _ index hroom scan.journal
  | fields =>
      rw [readItem, FieldItem.readAt_eq_readMember]
      exact Row.sameEnd_ofMember _ _ _ _ _ _ _ hroom scan.journal
  | methods =>
      rw [readItem, MethodItem.readAt_eq_readMember]
      exact Row.sameEnd_ofMember _ _ _ _ _ _ _ hroom scan.journal
  | classes => exact ClassItem.sameEnd_row _ index hroom scan.journal

theorem takes_row (table : Table) (index start : Nat) :
    (table.row pools index).Takes input (table.Refuses index)
      (FailsElsewhere pools input table index start) start table.widths := by
  cases table with
  | strings => exact StringItem.takes_row pools index start
  | types => exact TypeItem.takes_row pools index start
  | protos => exact ProtoItem.takes_row pools index start
  | fields => exact Row.takes_ofMember _ _ _ _ _ _ _ start
  | methods => exact Row.takes_ofMember _ _ _ _ _ _ _ start
  | classes => exact ClassItem.takes_row pools index start

/-- An item that is all there. -/
theorem completes_row (table : Table) (index : Nat) {scan : Scan}
    (hroom : scan.pos + table.itemSize ≤ input.size) :
    Row.Completes ((table.row pools index).trace input scan)
      (run (table.row pools index).decode input scan) input (table.Refuses index)
      (FailsElsewhere pools input table index scan.pos) scan.pos table.widths := by
  rw [← table.sum_widths] at hroom
  exact (takes_row pools table index scan.pos).completes hroom scan.journal

theorem completes_readItem (table : Table) (index : Nat) {scan : Scan}
    (hroom : scan.pos + table.itemSize ≤ input.size) :
    Row.Completes ((table.row pools index).trace input scan)
      (run (table.readItem pools index) input scan) input (table.Refuses index)
      (FailsElsewhere pools input table index scan.pos) scan.pos table.widths :=
  (completes_row pools table index hroom).of_sameEnd (sameEnd_row pools table index hroom)

theorem takesWidth_row (table : Table) (input : Bytes) :
    TakesWidth (fun index => (table.row pools index).decode) input table.itemSize := by
  intro index scan item after hroom hrun
  rw [((completes_row pools table index hroom).value item after hrun).2, table.sum_widths]

theorem takesWidth_readItem (table : Table) (input : Bytes) :
    TakesWidth (table.readItem pools) input table.itemSize := by
  intro index scan item after hroom hrun
  rw [((completes_readItem pools table index hroom).value item after hrun).2, table.sum_widths]

theorem error_of_readPool {scan after : Scan} {failure : Failure}
    (h : run (table.readPool pools count offset) input scan = (.error failure, after)) :
    run (Decode.table table count offset (table.readItem pools)) input scan =
      (.error failure, after) := by
  have hunit : ∀ {α : Type} {step : Decode α},
      run (do let _ ← step) input scan = (.error failure, after) →
        run step input scan = (.error failure, after) :=
    error_of_run_bind fun _ => fails_pure ()
  cases table with
  | strings => exact Pool.Strings.error_of_read (hunit h)
  | types => exact Pool.Types.error_of_read (hunit h)
  | protos => exact Pool.References.error_of_read (hunit h)
  | fields => exact Pool.References.error_of_read (hunit h)
  | methods => exact Pool.References.error_of_read (hunit h)
  | classes => exact Pool.Classes.error_of_read (hunit h)

theorem Fits.run_openTable (h : table.Fits input count offset) (scan : Scan) :
    run (openTable table count offset) input scan = (.ok (), { scan with pos := offset }) := by
  obtain ⟨hle, hfits⟩ := h
  rw [openTable, run_bind_of_ok (run_seek_of_le hle scan), requireTable, run_ofRun]
  exact if_neg (Nat.not_lt_of_le (Nat.le_trans (Nat.min_le_left _ _) hfits))

theorem Fits.end_le (h : table.Fits input count offset) :
    offset + count * table.itemSize ≤ input.size :=
  (Nat.le_sub_iff_add_le' h.1).mp h.2

/-- A table that lies within the input is its items one after another. -/
theorem Fits.run_table (h : table.Fits input count offset) (item : Nat → Decode α) (scan : Scan) :
    let start : Scan := ⟨offset, scan.journal.push (.event (.tableStarted table offset count))⟩
    run (Decode.table table count offset item) input scan =
      ((run (tabulate count item) input start).1.mapError fun failure =>
          failure.within (.pool table),
        { (run (tabulate count item) input start).2 with pos := scan.pos }) := by
  rw [Decode.run_table, run_bind_of_ok (h.run_openTable _)]

/-- It makes no difference to such a table whether a reference is checked as soon as it is taken. -/
theorem Fits.run_table_row (h : table.Fits input count offset) (scan : Scan) :
    run (Decode.table table count offset fun index => (table.row pools index).decode) input scan =
      run (Decode.table table count offset (table.readItem pools)) input scan := by
  rw [h.run_table, h.run_table]
  generalize hstart : (⟨offset, _⟩ : Scan) = start
  have hpos : start.pos = offset := by rw [← hstart]
  have hsame := sameEnd_tabulate (takesWidth_row pools table input)
    (fun index _ => sameEnd_row pools table index) (hpos.symm ▸ h.end_le)
  generalize run (tabulate count fun index => (table.row pools index).decode) input start = ending
    at hsame ⊢
  generalize run (tabulate count (table.readItem pools)) input start = other at hsame ⊢
  cases hsame with
  | same => rfl
  | failed => rfl

/-- What is known of an item of a table that lies within the input. -/
theorem Fits.item (h : table.Fits input count offset) {journal : Journal}
    {index : Nat} {here : Scan}
    (hreaches : Reaches (table.readItem pools) input count ⟨offset, journal⟩ index here) :
    here.pos = offset + index * table.itemSize ∧
      SameEnd (run (table.row pools index).decode input here)
        (run (table.readItem pools index) input here) ∧
      Row.Completes ((table.row pools index).trace input here)
        (run (table.readItem pools index) input here) input (table.Refuses index)
        (FailsElsewhere pools input table index here.pos) here.pos table.widths := by
  have hwidth := takesWidth_readItem pools table input
  have hroom := hreaches.room hwidth h.end_le
  exact ⟨hreaches.pos_eq hwidth h.end_le, sameEnd_row pools table index hroom,
    completes_readItem pools table index hroom⟩

/-- A pool fails as an item of its table does that it comes to. -/
theorem Fits.exists_reaches (h : table.Fits input count offset) {scan after : Scan}
    {failure : Failure}
    (hrun : run (table.readPool pools count offset) input scan = (.error failure, after)) :
    ∃ journal index here inner next,
      Reaches (table.readItem pools) input count ⟨offset, journal⟩ index here ∧
        run (table.readItem pools index) input here = (.error inner, next) ∧
        failure = inner.within (.pool table) := by
  have htable := error_of_readPool pools hrun
  rw [h.run_table] at htable
  cases hitems : run (tabulate count (table.readItem pools)) input
      ⟨offset, scan.journal.push (.event (.tableStarted table offset count))⟩ with
  | mk result next =>
      rw [hitems] at htable
      cases result with
      | ok items => cases htable
      | error inner =>
          cases htable
          obtain ⟨index, here, hreaches, hitem⟩ := exists_reaches_of_error hitems
          exact ⟨_, index, here, inner, next, hreaches, hitem, rfl⟩

theorem Refuses.kind_eq {index : Nat} {failure : Failure} (h : table.Refuses index failure) :
    failure.kind = .indexOutOfRange := by
  obtain ⟨target, reference, size, rfl⟩ := h
  rfl

theorem Refuses.contexts_eq {index : Nat} {failure : Failure} (h : table.Refuses index failure) :
    failure.contexts = [] := by
  obtain ⟨target, reference, size, rfl⟩ := h
  rfl

/-- Once the cursor is put at the start of a table and the items fit, no number of the table fails
to be taken. Each item that is come to stands where it has to; its numbers are those that stand
there, in order and without gaps, and the cursor moves by the size of an item. If the pool fails,
then on a reference to no item, or for want of bytes, which are never those of the table, but of
string data, of a list of types or of class data. A type, which has nothing elsewhere, never fails
at the place of its number. -/
theorem takes_items_whole {scan opened : Scan} (hcount : count < 2 ^ 32)
    (hopen : run (openTable table count offset) input scan = (.ok (), opened)) :
    table.widths.sum = table.itemSize ∧
    (∀ journal index here,
      Reaches (table.readItem pools) input count ⟨offset, journal⟩ index here →
        here.pos = offset + index * table.itemSize ∧
        SameEnd (run (table.row pools index).decode input here)
          (run (table.readItem pools index) input here) ∧
        Row.Completes ((table.row pools index).trace input here)
          (run (table.readItem pools index) input here) input (table.Refuses index)
          (FailsElsewhere pools input table index here.pos) here.pos table.widths) ∧
    (∀ scan failure after,
      run (table.readPool pools count offset) input scan = (.error failure, after) →
        ∃ index inner, index < count ∧ failure = inner.within (.pool table) ∧
          (table.Refuses index inner ∨
            FailsElsewhere pools input table index (offset + index * table.itemSize) inner) ∧
          (failure.kind = .truncated →
            FailsElsewhere pools input table index (offset + index * table.itemSize) inner) ∧
          (table = .types → failure.contexts = [.pool .types])) ∧
    ∀ scan,
      run (Decode.table table count offset fun index => (table.row pools index).decode) input scan =
        run (Decode.table table count offset (table.readItem pools)) input scan := by
  have hfits := (exists_run_openTable_iff hcount offset scan).mp ⟨opened, hopen⟩
  refine ⟨table.sum_widths, fun journal index here => hfits.item pools, ?_,
    hfits.run_table_row pools⟩
  intro scan failure after hrun
  obtain ⟨journal, index, here, inner, next, hreaches, hitem, rfl⟩ :=
    hfits.exists_reaches pools hrun
  obtain ⟨hpos, -, hcompletes⟩ := hfits.item pools hreaches
  have hcause := (hcompletes.failure inner next hitem).imp_right And.left
  rw [hpos] at hcause
  refine ⟨index, inner, hreaches.1, rfl, hcause, fun htruncated => ?_, ?_⟩
  · -- A reference that cannot be followed is no want of bytes.
    refine hcause.resolve_left fun hrefuses => ?_
    have hkind : inner.kind = .truncated := htruncated
    rw [hrefuses.kind_eq] at hkind
    cases hkind
  · rintro rfl
    obtain hrefuses | hplaced := hcause
    · exact congrArg (· ++ [Context.pool .types]) hrefuses.contexts_eq
    · -- A type has nothing elsewhere.
      cases hplaced

/-- A class whose one direct method has its code past the end of the input. -/
def strayCode : Bytes :=
  #[0, 0, 0, 0, 1, 0, 0, 0, 0xff, 0xff, 0xff, 0xff, 0, 0, 0, 0, 0xff, 0xff, 0xff, 0xff, 0, 0, 0, 0,
    0x20, 0, 0, 0, 0, 0, 0, 0, 0, 0, 1, 0, 0, 1, 0x7f]

/-- A type and a method for the class to refer to. -/
def strayCodePools : Pools where
  strings := {}
  types := { items := #[{ index := 0, stringIndex := 0, descriptor := .classRef "LMain;" }] }
  protos := {}
  fields := {}
  methods := { items := #[{ classType := 0, proto := 0, name := 0 }] }
  arrayLimit := 8

theorem run_openTable_strayCode : run (openTable .classes 1 0) strayCode {} = (.ok (), {}) := by
  rfl

theorem exists_error_strayCode :
    ∃ after, run (classes.readPool strayCodePools 1 0) strayCode {} =
      (.error { fault := .codeOutside .directMethods 0 0x7f,
                contexts := [.membersOf 0, .pool .classes] }, after) := by
  have hfailure : (match (run (classes.readPool strayCodePools 1 0) strayCode {}).1 with
      | .error failure => some failure
      | .ok _ => none) =
        some { fault := .codeOutside .directMethods 0 0x7f,
               contexts := [.membersOf 0, .pool .classes] } := by
    decide +kernel
  cases hrun : run (classes.readPool strayCodePools 1 0) strayCode {} with
  | mk result after =>
      rw [hrun] at hfailure
      cases result with
      | error failure =>
          obtain rfl := Option.some.inj hfailure
          exact ⟨after, rfl⟩
      | ok _ => cases hfailure

/-- The eight numbers of the class are taken, and the offset of the code is what fails. -/
theorem takes_items_whole_strayCode :
    1 < 2 ^ 32 ∧ run (openTable .classes 1 0) strayCode {} = (.ok (), {}) ∧
      ∃ failure after,
        run (classes.readPool strayCodePools 1 0) strayCode {} = (.error failure, after) ∧
        failure = { fault := .codeOutside .directMethods 0 0x7f,
                    contexts := [.membersOf 0, .pool .classes] } ∧
        FailsElsewhere strayCodePools strayCode .classes 0 0
          { fault := .codeOutside .directMethods 0 0x7f, contexts := [.membersOf 0] } ∧
        Row.placesTaken ((classes.row strayCodePools 0).trace strayCode {}) =
          [(0, 4), (4, 4), (8, 4), (12, 4), (16, 4), (20, 4), (24, 4), (28, 4)] ∧
        ∀ taken ∈ (classes.row strayCodePools 0).trace strayCode {}, taken.Succeeds strayCode := by
  obtain ⟨after, hrun⟩ := exists_error_strayCode
  obtain ⟨-, hitems, hfails, -⟩ :=
    takes_items_whole strayCodePools (by decide : 1 < 2 ^ 32) run_openTable_strayCode
  obtain ⟨index, inner, hindex, hinner, -, htruncated, -⟩ := hfails _ _ _ hrun
  obtain rfl : index = 0 := Nat.lt_one_iff.mp hindex
  obtain ⟨-, -, hcompletes⟩ := hitems {} 0 {} ⟨Nat.one_pos, #[], rfl⟩
  obtain ⟨fault, contexts⟩ := inner
  obtain ⟨rfl, hcontexts⟩ := Failure.mk.inj hinner
  have hinside : [Context.membersOf 0] ++ [.pool .classes] = contexts ++ [.pool .classes] :=
    hcontexts
  obtain rfl := List.append_cancel_right hinside
  exact ⟨by decide, run_openTable_strayCode, _, after, hrun, rfl, htruncated rfl,
    by decide +kernel, hcompletes.succeeds⟩

end Table

end Dalvik
