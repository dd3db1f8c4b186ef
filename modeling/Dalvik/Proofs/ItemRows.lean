import Dalvik.Proofs.Rows

/-!
# The items of tables as rows

The reading of an item of each of the six tables as a row of steps, in which a reference is checked
as soon as it is taken. A row takes numbers of known widths and ends as the reading of the item
does. Apart from references that cannot be followed, it fails only in what the item places
elsewhere.
-/

namespace Dalvik

open Decode

variable {α β : Type} {input : Bytes}

/-- The widths of the numbers of an item, in order. -/
def Table.widths : Table → List Nat
  | strings => [4]
  | types => [4]
  | protos => [4, 4, 4]
  | fields => [2, 2, 4]
  | methods => [2, 2, 4]
  | classes => [4, 4, 4, 4, 4, 4, 4, 4]

/-- The numbers of an item take up all of it. -/
theorem Table.sum_widths (table : Table) : table.widths.sum = table.itemSize := by
  cases table <;> rfl

/-- What the reading of a table goes by. -/
structure Table.Pools where
  strings : Pool.Strings
  types : Pool.Types
  protos : Pool.Protos
  fields : Pool.Fields
  methods : Pool.Methods
  arrayLimit : Nat

/-- The pools that a class definition refers to. -/
def Table.Pools.ofClasses (pools : Table.Pools) : ClassItem.Pools where
  strings := pools.strings
  types := pools.types
  fields := pools.fields
  methods := pools.methods

/-! ## Failures of an item -/

/-- A failure of an item that has a reference to no item. -/
def Table.Refuses (table : Table) (index : Nat) (failure : Failure) : Prop :=
  ∃ target reference size,
    failure = { fault := .dangling (.item table index) target reference size }

/-- A failure that a step can end with. -/
def Decode.Raises (step : Decode α) (input : Bytes) (failure : Failure) : Prop :=
  ∃ scan after, run step input scan = (.error failure, after)

/-- A failure of what an item at `start` places elsewhere: of string data, of a list of types or of
class data, with the offsets of code in it. -/
inductive Table.FailsElsewhere (pools : Table.Pools) (input : Bytes) :
    (table : Table) → (index start : Nat) → Failure → Prop where
  | stringOutside {index start offset : Nat} (hoffset : input.u32At? start = some offset)
      (hle : input.size ≤ offset) :
      FailsElsewhere pools input .strings index start
        { fault := .stringOutside offset input.size, contexts := [.item .strings index] }
  | stringData {index start offset : Nat} {failure : Failure}
      (hoffset : input.u32At? start = some offset) (hlt : offset < input.size)
      (hraises : (atOffset offset StringItem.read).Raises input failure) :
      FailsElsewhere pools input .strings index start (failure.within (.stringData index offset))
  | parameters {index start offset : Nat} {failure : Failure}
      (hoffset : input.u32At? (start + 8) = some offset) (hne : offset ≠ 0)
      (hraises : (atOffset offset (typeList pools.types.size)).Raises input failure) :
      FailsElsewhere pools input .protos index start (failure.within (.item .protos index))
  | interfaces {index start offset : Nat} {failure : Failure}
      (hoffset : input.u32At? (start + 12) = some offset) (hne : offset ≠ 0)
      (hraises : (atOffset offset (typeList pools.types.size)).Raises input failure) :
      FailsElsewhere pools input .classes index start (failure.within (.interfacesOf index))
  | members {index start offset : Nat} {failure : Failure}
      (hoffset : input.u32At? (start + 24) = some offset) (hne : offset ≠ 0)
      (hraises : (atOffset offset
        (ClassData.read pools.fields.size pools.methods.size)).Raises input failure) :
      FailsElsewhere pools input .classes index start (failure.within (.membersOf index))

/-- A number is there that lies within bytes that are there. -/
theorem Bytes.exists_numberAt?_of_le {stop : Nat} (width pos : Nat) (hroom : stop ≤ input.size)
    (hle : pos + width ≤ stop) : ∃ value, input.numberAt? width pos = some value :=
  exists_numberAt?_iff.mpr (Nat.le_trans hle hroom)

namespace Decode

/-- If what follows a step cannot fail, the step does. -/
theorem error_of_run_bind {step : Decode α} {next : α → Decode β} {scan after : Scan}
    {failure : Failure} (hnext : ∀ a, (next a).Fails input fun _ => False)
    (h : run (step >>= next) input scan = (.error failure, after)) :
    run step input scan = (.error failure, after) := by
  rw [run_bind_eq_andThen] at h
  rcases Effect.error_of_andThen h with hstep | ⟨a, middle, -, hrun⟩
  · exact hstep
  · exact (hnext a middle failure after hrun).elim

theorem fails_raises (step : Decode α) : step.Fails input (step.Raises input) :=
  fun scan _ after hrun => ⟨scan, after, hrun⟩

/-- A step that is a value already, or a failure. -/
def IsCheck (step : Decode α) : Prop :=
  (∃ value, step = pure value) ∨ ∃ fault, step = fail fault

theorem isCheck_checkReference (source : Referrer) (target : Table) (size reference : Nat) :
    (checkReference source target size reference).IsCheck := by
  unfold checkReference
  split
  · exact .inl ⟨(), rfl⟩
  · exact .inr ⟨_, rfl⟩

theorem isCheck_optionalReference (source : Referrer) (target : Table) (size reference : Nat) :
    (optionalReference source target size reference).IsCheck := by
  unfold optionalReference
  split
  · exact .inl ⟨none, rfl⟩
  · obtain ⟨_, hcheck⟩ | ⟨fault, hcheck⟩ := isCheck_checkReference source target size reference
    · rw [hcheck]
      exact .inl ⟨some reference, rfl⟩
    · rw [hcheck]
      exact .inr ⟨fault, rfl⟩

theorem refuses_checkReference (table : Table) (index : Nat) (target : Table)
    (size reference : Nat) :
    (checkReference (.item table index) target size reference).Fails input
      (table.Refuses index) :=
  Fails.ite (fun _ => fails_pure ()) fun _ => fails_fail ⟨target, reference, size, rfl⟩

theorem refuses_optionalReference (table : Table) (index : Nat) (target : Table)
    (size reference : Nat) :
    (optionalReference (.item table index) target size reference).Fails input
      (table.Refuses index) :=
  Fails.ite (fun _ => fails_pure none) fun _ =>
    (refuses_checkReference table index target size reference).bind fun _ => fails_pure _

/-- A list of types that is placed anywhere fails as the list does there. -/
theorem fails_typeListAt_elsewhere {types offset : Nat} {context : Context}
    {cause : Failure → Prop}
    (h : offset ≠ 0 → ∀ failure, (atOffset offset (typeList types)).Raises input failure →
      cause (failure.within context)) : (typeListAt types offset context).Fails input cause :=
  Fails.ite (fun _ => fails_pure []) fun hne => (fails_raises _).within context (h hne)

/-- A check may be made at another place as well. -/
theorem SameEnd.check {step : Decode β} (hcheck : step.IsCheck) {first second : β → Decode α}
    {pos other : Nat} {journal : Journal}
    (h : ∀ value, SameEnd (run (first value) input ⟨pos, journal⟩)
      (run (second value) input ⟨other, journal⟩)) :
    SameEnd (run (step >>= first) input ⟨pos, journal⟩)
      (run (step >>= second) input ⟨other, journal⟩) := by
  obtain ⟨value, rfl⟩ | ⟨fault, rfl⟩ := hcheck
  · rw [pure_bind, pure_bind]
    exact h value
  · exact .failed { fault } journal pos other

end Decode

namespace Row

variable {table : Table} {index start : Nat} {widths : List Nat} {placed : Failure → Prop}

/-- A row goes on with a reference that can be followed. -/
theorem takes_reference {target : Table} {size reference : Nat} {next : Unit → Row α}
    (hnext : reference < size →
      (next ()).Takes input (table.Refuses index) placed start widths) :
    (aside (checkReference (.item table index) target size reference) next).Takes input
      (table.Refuses index) placed start widths :=
  .check (reads_checkReference _ _ _ _).stays (refuses_checkReference _ _ _ _ _) fun _ => hnext

theorem takes_optionalReference {target : Table} {size reference : Nat}
    {next : Option Nat → Row α}
    (hnext : ∀ reference?,
      (next reference?).Takes input (table.Refuses index) placed start widths) :
    (aside (optionalReference (.item table index) target size reference) next).Takes input
      (table.Refuses index) placed start widths :=
  .check (reads_optionalReference _ _ _ _).stays (refuses_optionalReference _ _ _ _ _)
    fun reference? _ => hnext reference?

end Row

/-! ## Strings -/

namespace StringItem

def row (index : Nat) : Row StringItem :=
  .number 4 none fun offset =>
  .aside Decode.length fun length =>
  .aside (if length ≤ offset then
      within (.item .strings index) (fail (.stringOutside offset length)) else pure ()) fun _ =>
  .aside (within (.stringData index offset) (atOffset offset read)) fun item =>
  .aside (do
    match item.anomaly? index with
    | some anomaly => Reporting.warn anomaly
    | none => pure ()
    return item) .done

theorem sameEnd_row (index : Nat) (scan : Scan) :
    SameEnd (run (row index).decode input scan) (run (readAt index) input scan) := by
  simp only [row, Row.decode, readAt, bind_pure]
  refine SameEnd.bind (.same _) fun offset after _ => ?_
  refine SameEnd.bind (.same _) fun length after _ => ?_
  split
  · exact .same _
  · exact .same _

theorem takes_row (pools : Table.Pools) (index start : Nat) :
    (row index).Takes input (Table.Refuses .strings index)
      (Table.FailsElsewhere pools input .strings index start) start Table.strings.widths := by
  refine .number fun offset hoffset => .check reads_length.stays fails_length ?_
  rintro _ rfl
  have hstays : Stays (if input.size ≤ offset then
      within (.item .strings index) (fail (.stringOutside offset input.size)) else pure ()) input
      fun _ => offset < input.size := by
    refine Reads.stays ((Reads.ite (fun _ => (reads_fail _ 0).within _)
      fun _ => reads_pure ()).congr rfl fun _ _ => ?_)
    simp
  refine .excursion hstays ?_ fun _ hlt => ?_
  · refine Fails.ite (fun hle => Fails.within (fails_fail rfl) _ ?_) fun _ => fails_pure ()
    rintro _ rfl
    exact .stringOutside hoffset hle
  refine .excursion ((stays_atOffset offset read).within _)
    ((fails_raises _).within _ fun _ => .stringData hoffset hlt) fun item _ => ?_
  exact .excursion (reads_warnFirst _ _).stays (fails_warnFirst _ _) fun item _ => .done item _

end StringItem

/-! ## Types -/

namespace TypeItem

def row (strings : Pool.Strings) (arrayLimit index : Nat) : Row TypeItem :=
  .number 4 (some (.item .types index)) fun stringIndex =>
  .aside (match strings.items[stringIndex]? with
    | none => fail (.dangling (.item .types index) .strings stringIndex strings.size)
    | some string => pure string) fun string =>
  .aside (do
    let item : TypeItem :=
      { index, stringIndex, descriptor := Descriptor.ofText string.text arrayLimit }
    if item.isMalformed then
      Reporting.warn (.malformedType index item.descriptor.text)
    return item) .done

theorem sameEnd_row (strings : Pool.Strings) (arrayLimit index : Nat) (scan : Scan) :
    SameEnd (run (row strings arrayLimit index).decode input scan)
      (run (readAt strings arrayLimit index) input scan) := by
  simp only [row, Row.decode, readAt, bind_pure]
  refine SameEnd.bind (.same _) fun stringIndex after _ => ?_
  cases strings.items[stringIndex]? with
  | none => exact .same _
  | some string =>
      dsimp only
      rw [pure_bind]
      exact .same _

theorem takes_row (pools : Table.Pools) (index start : Nat) :
    (row pools.strings pools.arrayLimit index).Takes input (Table.Refuses .types index)
      (Table.FailsElsewhere pools input .types index start) start Table.types.widths := by
  refine .number fun stringIndex _ => ?_
  have hstays : Stays (match pools.strings.items[stringIndex]? with
      | none => fail (.dangling (.item .types index) .strings stringIndex pools.strings.size)
      | some string => pure string) input fun _ => True := by
    cases pools.strings.items[stringIndex]? with
    | none => exact (reads_fail _ 0).stays.imp fun _ => False.elim
    | some string => exact (reads_pure string).stays.imp fun _ _ => trivial
  refine .check hstays ?_ fun string _ => ?_
  · cases pools.strings.items[stringIndex]? with
    | none => exact fails_fail ⟨_, _, _, rfl⟩
    | some string => exact fails_pure string
  · exact .check (reads_warnIf _ _ _).stays (fails_of_reads (reads_warnIf _ _ _) fun _ => ⟨_, rfl⟩)
      fun item _ => .done item _

end TypeItem

/-! ## Prototypes, fields and methods -/

namespace ProtoItem

def row (strings : Pool.Strings) (types : Pool.Types) (index : Nat) : Row ProtoItem :=
  let source := Referrer.item .protos index
  .number 4 none fun shorty =>
  .aside (checkReference source .strings strings.size shorty) fun _ =>
  .number 4 none fun returnType =>
  .aside (checkReference source .types types.size returnType) fun _ =>
  .number 4 none fun parametersOffset =>
  .aside (typeListAt types.size parametersOffset (.item .protos index)) fun parameters =>
  let item : ProtoItem := { shorty, returnType, parametersOffset, parameters }
  .aside (do
    match ← (item.anomaly? strings types index : Except Failure _) with
    | some anomaly => Reporting.warn anomaly
    | none => pure ()
    return item) .done

theorem Stored.run_read {shorty returnType parametersOffset pos : Nat}
    (hshorty : input.u32At? pos = some shorty)
    (hreturn : input.u32At? (pos + 4) = some returnType)
    (hoffset : input.u32At? (pos + 8) = some parametersOffset) (journal : Journal) :
    run Stored.read input ⟨pos, journal⟩ =
      (.ok ⟨shorty, returnType, parametersOffset⟩, ⟨pos + 12, journal⟩) := by
  rw [Stored.read, run_bind_of_ok (run_u32 hshorty journal),
    run_bind_of_ok (run_u32 hreturn journal), run_bind_of_ok (run_u32 hoffset journal)]
  rfl

theorem sameEnd_row (strings : Pool.Strings) (types : Pool.Types) (index : Nat) {pos : Nat}
    (hroom : pos + 12 ≤ input.size) (journal : Journal) :
    SameEnd (run (row strings types index).decode input ⟨pos, journal⟩)
      (run (readAt strings types index) input ⟨pos, journal⟩) := by
  obtain ⟨shorty, hshorty⟩ := Bytes.exists_numberAt?_of_le 4 pos hroom (by omega)
  obtain ⟨returnType, hreturn⟩ := Bytes.exists_numberAt?_of_le 4 (pos + 4) hroom (by omega)
  obtain ⟨parametersOffset, hoffset⟩ := Bytes.exists_numberAt?_of_le 4 (pos + 8) hroom (by omega)
  rw [readAt, run_bind_of_ok (Stored.run_read hshorty hreturn hoffset journal), row,
    Row.run_decode_number hshorty, ofStored]
  simp only [bind_assoc, pure_bind]
  refine SameEnd.check (isCheck_checkReference _ _ _ _) fun _ => ?_
  rw [Row.run_decode_number hreturn]
  refine SameEnd.check (isCheck_checkReference _ _ _ _) fun _ => ?_
  rw [Row.run_decode_number hoffset]
  simp only [Row.decode, bind_pure]
  exact .same _

theorem takes_row (pools : Table.Pools) (index start : Nat) :
    (row pools.strings pools.types index).Takes input (Table.Refuses .protos index)
      (Table.FailsElsewhere pools input .protos index start) start Table.protos.widths := by
  refine .number fun shorty _ => Row.takes_reference fun hshorty => ?_
  refine .number fun returnType _ => Row.takes_reference fun hreturn => ?_
  refine .number fun parametersOffset hoffset => .excursion (reads_typeListAt _ _ _).stays
    (fails_typeListAt_elsewhere fun hne _ => .parameters hoffset hne)
      fun parameters hparameters => ?_
  -- Whatever the short form is compared with can be looked up.
  obtain ⟨anomaly?, hanomaly⟩ := exists_anomaly?
    (show ProtoItem.shorty ⟨shorty, returnType, parametersOffset, parameters⟩ < _ from hshorty)
    hreturn hparameters.lt index
  refine .check (((reads_liftExcept _).bind fun _ => reads_warnFirst _ _).stays) ?_
    fun item _ => .done item _
  refine Fails.bind (fails_liftExcept fun failure hfailure => ?_) fun _ => fails_warnFirst _ _
  rw [hanomaly] at hfailure
  cases hfailure

end ProtoItem

namespace Row

variable (table : Table) (index types : Nat) (second : Table) (size strings : Nat)
  (make : Nat → Nat → Nat → α)

/-- The row of a member: the type that has it, a reference to one of `size` items, and its name. -/
def ofMember : Row α :=
  .number 2 none fun classType =>
  .aside (checkReference (.item table index) .types types classType) fun _ =>
  .number 2 none fun reference =>
  .aside (checkReference (.item table index) second size reference) fun _ =>
  .number 4 none fun name =>
  .aside (checkReference (.item table index) .strings strings name) fun _ =>
  .done (make classType reference name)

/-- A member whose references are checked once all of them are taken. -/
def readMember : Decode α := do
  let classType ← u16
  let reference ← u16
  let name ← u32
  checkReference (.item table index) .types types classType
  checkReference (.item table index) second size reference
  checkReference (.item table index) .strings strings name
  return make classType reference name

theorem sameEnd_ofMember {pos : Nat} (hroom : pos + 8 ≤ input.size) (journal : Journal) :
    SameEnd (run (ofMember table index types second size strings make).decode input ⟨pos, journal⟩)
      (run (readMember table index types second size strings make) input ⟨pos, journal⟩) := by
  obtain ⟨classType, hclass⟩ := Bytes.exists_numberAt?_of_le 2 pos hroom (by omega)
  obtain ⟨reference, hreference⟩ := Bytes.exists_numberAt?_of_le 2 (pos + 2) hroom (by omega)
  obtain ⟨name, hname⟩ := Bytes.exists_numberAt?_of_le 4 (pos + 4) hroom (by omega)
  rw [readMember, run_bind_of_ok (run_u16 hclass journal),
    run_bind_of_ok (run_u16 hreference journal), run_bind_of_ok (run_u32 hname journal), ofMember,
    run_decode_number hclass]
  refine SameEnd.check (isCheck_checkReference _ _ _ _) fun _ => ?_
  rw [run_decode_number hreference]
  refine SameEnd.check (isCheck_checkReference _ _ _ _) fun _ => ?_
  rw [run_decode_number hname]
  exact SameEnd.check (isCheck_checkReference _ _ _ _) fun _ => .same _

theorem takes_ofMember {placed : Failure → Prop} (start : Nat) :
    (ofMember table index types second size strings make).Takes input (table.Refuses index) placed
      start [2, 2, 4] :=
  .number fun _ _ => takes_reference fun _ => .number fun _ _ => takes_reference fun _ =>
    .number fun _ _ => takes_reference fun _ => .done _ _

end Row

namespace FieldItem

def row (strings : Pool.Strings) (types : Pool.Types) (index : Nat) : Row FieldItem :=
  .ofMember .fields index types.size .types types.size strings.size .mk

theorem readAt_eq_readMember (strings : Pool.Strings) (types : Pool.Types) (index : Nat) :
    readAt strings types index =
      Row.readMember .fields index types.size .types types.size strings.size .mk := by
  simp only [readAt, read, check, Row.readMember, bind_assoc, pure_bind]

end FieldItem

namespace MethodItem

def row (strings : Pool.Strings) (types : Pool.Types) (protos : Pool.Protos) (index : Nat) :
    Row MethodItem :=
  .ofMember .methods index types.size .protos protos.size strings.size .mk

theorem readAt_eq_readMember (strings : Pool.Strings) (types : Pool.Types) (protos : Pool.Protos)
    (index : Nat) :
    readAt strings types protos index =
      Row.readMember .methods index types.size .protos protos.size strings.size .mk := by
  simp only [readAt, read, check, Row.readMember, bind_assoc, pure_bind]

end MethodItem

/-! ## Classes -/

namespace ClassItem

def row (pools : Pools) (index : Nat) : Row ClassItem :=
  let source := Referrer.item .classes index
  let types := pools.types.size
  .number 4 none fun type =>
  .aside (checkReference source .types types type) fun _ =>
  .number 4 none fun flags =>
  .number 4 none fun superclass =>
  .aside (optionalReference source .types types superclass) fun superclass =>
  .number 4 none fun interfacesOffset =>
  .number 4 none fun sourceFile =>
  .aside (optionalReference source .strings pools.strings.size sourceFile) fun sourceFile =>
  .number 4 none fun annotationsOffset =>
  .number 4 none fun dataOffset =>
  .number 4 none fun staticValuesOffset =>
  .aside (typeListAt types interfacesOffset (.interfacesOf index)) fun interfaces =>
  .aside (readData pools index dataOffset) fun data =>
  let item : ClassItem := {
    type, flags := ⟨UInt32.ofNat flags⟩, superclass, interfaces, sourceFile, annotationsOffset,
    data, staticValuesOffset }
  .aside (do
    let length ← Decode.length
    (item.anomalies index length).forM fun anomaly => Reporting.warn anomaly
    return item) .done

/-- Class data is read elsewhere, however large the pools are that it refers to. -/
theorem stays_readData (pools : Pools) (index offset : Nat) :
    (readData pools index offset).Stays input fun _ => True := by
  unfold readData
  split
  · exact (reads_pure none).stays.imp fun _ _ => trivial
  · exact ((stays_atOffset _ _).within _).bind fun data _ =>
      (reads_pure (some data)).stays.imp fun _ _ => trivial

theorem sameEnd_row (pools : Pools) (index : Nat) {pos : Nat} (hroom : pos + 32 ≤ input.size)
    (journal : Journal) :
    SameEnd (run (row pools index).decode input ⟨pos, journal⟩)
      (run (readAt pools index) input ⟨pos, journal⟩) := by
  obtain ⟨type, htype⟩ := Bytes.exists_numberAt?_of_le 4 pos hroom (by omega)
  obtain ⟨flags, hflags⟩ := Bytes.exists_numberAt?_of_le 4 (pos + 4) hroom (by omega)
  obtain ⟨superclass, hsuperclass⟩ := Bytes.exists_numberAt?_of_le 4 (pos + 8) hroom (by omega)
  obtain ⟨interfaces, hinterfaces⟩ := Bytes.exists_numberAt?_of_le 4 (pos + 12) hroom (by omega)
  obtain ⟨sourceFile, hsource⟩ := Bytes.exists_numberAt?_of_le 4 (pos + 16) hroom (by omega)
  obtain ⟨annotations, hannotations⟩ := Bytes.exists_numberAt?_of_le 4 (pos + 20) hroom (by omega)
  obtain ⟨data, hdata⟩ := Bytes.exists_numberAt?_of_le 4 (pos + 24) hroom (by omega)
  obtain ⟨staticValues, hvalues⟩ := Bytes.exists_numberAt?_of_le 4 (pos + 28) hroom (by omega)
  have hstored : run Stored.read input ⟨pos, journal⟩ =
      (.ok ⟨type, UInt32.ofNat flags, superclass, interfaces, sourceFile, annotations, data,
        staticValues⟩, ⟨pos + 32, journal⟩) := by
    rw [Stored.read, run_bind_of_ok (run_u32 htype journal),
      run_bind_of_ok (run_word hflags journal), run_bind_of_ok (run_u32 hsuperclass journal),
      run_bind_of_ok (run_u32 hinterfaces journal), run_bind_of_ok (run_u32 hsource journal),
      run_bind_of_ok (run_u32 hannotations journal), run_bind_of_ok (run_u32 hdata journal),
      run_bind_of_ok (run_u32 hvalues journal)]
    rfl
  rw [readAt, run_bind_of_ok hstored, row, Row.run_decode_number htype, ofStored]
  simp only [bind_assoc, pure_bind]
  -- The row makes a check before it takes the numbers that follow, which it can take either way.
  refine SameEnd.check (isCheck_checkReference _ _ _ _) fun _ => ?_
  rw [Row.run_decode_number hflags, Row.run_decode_number hsuperclass]
  refine SameEnd.check (isCheck_optionalReference _ _ _ _) fun _ => ?_
  rw [Row.run_decode_number hinterfaces, Row.run_decode_number hsource]
  refine SameEnd.check (isCheck_optionalReference _ _ _ _) fun _ => ?_
  rw [Row.run_decode_number hannotations, Row.run_decode_number hdata,
    Row.run_decode_number hvalues]
  simp only [Row.decode, bind_pure]
  exact .same _

theorem takes_row (pools : Table.Pools) (index start : Nat) :
    (row pools.ofClasses index).Takes input (Table.Refuses .classes index)
      (Table.FailsElsewhere pools input .classes index start) start Table.classes.widths := by
  refine .number fun type _ => Row.takes_reference fun _ => ?_
  refine .number fun flags _ => .number fun superclass _ =>
    Row.takes_optionalReference fun superclass => ?_
  refine .number fun interfacesOffset hinterfaces => .number fun sourceFile _ =>
    Row.takes_optionalReference fun sourceFile => ?_
  refine .number fun annotationsOffset _ => .number fun dataOffset hdata =>
    .number fun staticValuesOffset _ => ?_
  refine .excursion (reads_typeListAt _ _ _).stays
    (fails_typeListAt_elsewhere fun hne _ => .interfaces hinterfaces hne) fun interfaces _ => ?_
  refine .excursion (stays_readData _ _ _) ?_ fun data _ => ?_
  · exact Fails.ite (fun _ => fails_pure none) fun hne =>
      ((fails_raises _).within _ fun _ => .members hdata hne).bind fun _ => fails_pure _
  · exact .check ((reads_length.bind fun length => (reads_forM_warn id _).bind fun _ =>
      reads_pure _).stays) (fails_length.bind fun length => (fails_forM_warn id _).bind fun _ =>
        fails_pure _) fun item _ => .done item _

end ClassItem

end Dalvik
