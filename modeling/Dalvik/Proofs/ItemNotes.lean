import Dalvik.Proofs.ClassReads
import Dalvik.Proofs.Notes

/-!
# What items and pools note

Of the steps that read items only four note anything: those for strings, types, prototypes and
classes, each after everything else about the item has been read. The pool of the classes also notes
the definitions that come too late. Reading strings fails for lack of bytes only; the other items
may also refer to something that is not there.
-/

namespace Dalvik

variable {input : Bytes}

open Decode

/-- A failure of an item that may refer to other items. -/
abbrev Failure.OfReferences : Failure → Prop :=
  Failure.LacksBytesOr [.indexOutOfRange]

/-- A fault that is about an index is one that an item may have. -/
theorem Failure.ofReferences_of_index {fault : Fault} (h : fault.kind = .indexOutOfRange) :
    Failure.OfReferences { fault } :=
  .inr (List.mem_singleton.mpr h)

/-! ## References -/

namespace Decode

theorem silent_checkReference (source : Referrer) (target : Table) (size index : Nat) :
    (checkReference source target size index).Silent input Failure.OfReferences := by
  apply Silent.ite
  · exact fun _ => silent_pure ()
  · exact fun _ => notes_fail (Failure.ofReferences_of_index rfl)

theorem silent_optionalReference (source : Referrer) (target : Table) (size index : Nat) :
    (optionalReference source target size index).Silent input Failure.OfReferences := by
  apply Silent.ite
  · exact fun _ => silent_pure none
  · exact fun _ => (silent_checkReference source target size index).bind fun _ => silent_pure _

theorem silent_typeListEntry (types start entry : Nat) :
    (typeListEntry types start entry).Silent input Failure.OfReferences :=
  (silent_natural 2).bind fun index => (silent_checkReference _ _ types index).bind fun _ =>
    silent_pure index

theorem silent_typeList (types : Nat) :
    (typeList types).Silent input Failure.OfReferences := by
  refine silent_position.bind fun start => (silent_natural 4).bind fun size =>
    silent_remaining.bind fun left => ?_
  apply Silent.ite
  · exact fun _ => notes_fail (.inl rfl)
  · exact fun _ => (silent_tabulate (silent_typeListEntry types start) size).bind fun _ =>
      silent_pure _

theorem silent_typeListAt (types offset : Nat) (context : Context) :
    (typeListAt types offset context).Silent input Failure.OfReferences := by
  apply Silent.ite
  · exact fun _ => silent_pure []
  · exact fun _ => ((silent_typeList types).atOffset offset).within_kind context

end Decode

/-! ## Strings and types -/

/-- What is odd about a string, which is one thing at most. -/
def StringItem.anomalies (item : StringItem) (index : Nat) : List Anomaly :=
  (item.anomaly? index).toList

theorem StringItem.silent_read {others : List Fault.Kind} :
    StringItem.read.Silent input (Failure.LacksBytesOr others) :=
  silent_uleb128.bind fun _ => silent_untilNul.bind fun _ => silent_pure _

theorem StringItem.notes_readAt (index : Nat) :
    (StringItem.readAt index).Notes input (Failure.LacksBytesOr Table.strings.otherKinds)
      fun item anomalies => anomalies = item.anomalies index := by
  apply (silent_natural 4).bind_notes
  intro offset
  apply silent_length.bind_notes
  intro length
  apply Notes.ite
  · exact fun _ => (notes_fail (.inl rfl)).within_kind _
  · intro _
    apply ((silent_read.atOffset offset).within_kind _).bind_notes
    intro item
    refine (notes_warnFirst (item.anomaly? index) item).imp (fun _ => id) ?_
    rintro _ _ ⟨rfl, rfl⟩
    rfl

/-- What is odd about a type, which is one thing at most. -/
def TypeItem.anomalies (item : TypeItem) (index : Nat) : List Anomaly :=
  if item.isMalformed then [.malformedType index item.descriptor.text] else []

theorem TypeItem.notes_readAt (strings : Pool.Strings) (arrayLimit index : Nat) :
    (TypeItem.readAt strings arrayLimit index).Notes input Failure.OfReferences
      fun item anomalies => anomalies = item.anomalies index := by
  apply ((silent_natural 4).within_kind _).bind_notes
  intro stringIndex
  cases strings.items[stringIndex]? with
  | none => exact notes_fail (Failure.ofReferences_of_index rfl)
  | some string =>
      refine (notes_warnIf _ _ _).imp (fun _ => id) ?_
      rintro _ _ ⟨rfl, rfl⟩
      rfl

/-! ## Prototypes, fields and methods -/

namespace ProtoItem

/-- What is odd about a prototype: a short form that is not what the types give. -/
def anomalies (item : ProtoItem) (strings : Pool.Strings) (types : Pool.Types) (index : Nat) :
    List Anomaly :=
  match item.anomaly? strings types index with
  | .ok anomaly? => anomaly?.toList
  | .error _ => []

theorem Stored.silent_read : Stored.read.Silent input Failure.OfReferences :=
  (silent_natural 4).bind fun _ => (silent_natural 4).bind fun _ => (silent_natural 4).bind fun _ =>
    silent_pure _

theorem silent_ofStored (strings : Pool.Strings) (types : Pool.Types) (index : Nat)
    (stored : Stored) : (ofStored strings types index stored).Silent input Failure.OfReferences :=
  (silent_checkReference _ _ _ _).bind fun _ => (silent_checkReference _ _ _ _).bind fun _ =>
    (silent_typeListAt _ _ _).bind fun _ => silent_pure _

theorem notes_readAt (strings : Pool.Strings) (types : Pool.Types) (index : Nat) :
    (ProtoItem.readAt strings types index).Notes input Failure.OfReferences
      fun item anomalies => anomalies = item.anomalies strings types index := by
  apply Stored.silent_read.bind_notes
  intro stored
  refine (((silent_ofStored strings types index stored).and_reads
    (reads_ofStored strings types index stored)).bind_of_noted fun item _ hitem =>
      (notes_liftExcept ?_).bind fun anomaly? =>
        notes_warnFirst anomaly? item).imp (fun _ => id) ?_
  · -- The short form is looked up only for references that can be followed.
    obtain ⟨-, _, hshorty, hreturn, hs, hr, -, hparameters⟩ := hitem
    obtain ⟨anomaly?, hanomaly⟩ :=
      exists_anomaly? (hs ▸ hshorty) (hr ▸ hreturn) hparameters.lt index
    intro failure hfailure
    rw [hanomaly] at hfailure
    cases hfailure
  · rintro _ _ ⟨item, _, _, ⟨rfl, -⟩, ⟨_, _, _, ⟨hok, rfl⟩, ⟨rfl, rfl⟩, rfl⟩, rfl⟩
    rw [ProtoItem.anomalies, hok]
    rfl

end ProtoItem

theorem FieldItem.silent_read : FieldItem.read.Silent input Failure.OfReferences :=
  (silent_natural 2).bind fun _ => (silent_natural 2).bind fun _ => (silent_natural 4).bind fun _ =>
    silent_pure _

theorem FieldItem.silent_check (strings : Pool.Strings) (types : Pool.Types) (index : Nat)
    (item : FieldItem) : (item.check strings types index).Silent input Failure.OfReferences :=
  (silent_checkReference _ _ _ _).bind fun _ => (silent_checkReference _ _ _ _).bind fun _ =>
    silent_checkReference _ _ _ _

theorem FieldItem.silent_readAt (strings : Pool.Strings) (types : Pool.Types) (index : Nat) :
    (FieldItem.readAt strings types index).Silent input Failure.OfReferences :=
  silent_read.bind fun item => (item.silent_check strings types index).bind fun _ =>
    silent_pure item

theorem MethodItem.silent_read : MethodItem.read.Silent input Failure.OfReferences :=
  (silent_natural 2).bind fun _ => (silent_natural 2).bind fun _ => (silent_natural 4).bind fun _ =>
    silent_pure _

theorem MethodItem.silent_check (strings : Pool.Strings) (types : Pool.Types)
    (protos : Pool.Protos) (index : Nat) (item : MethodItem) :
    (item.check strings types protos index).Silent input Failure.OfReferences :=
  (silent_checkReference _ _ _ _).bind fun _ => (silent_checkReference _ _ _ _).bind fun _ =>
    silent_checkReference _ _ _ _

theorem MethodItem.silent_readAt (strings : Pool.Strings) (types : Pool.Types)
    (protos : Pool.Protos) (index : Nat) :
    (MethodItem.readAt strings types protos index).Silent input Failure.OfReferences :=
  silent_read.bind fun item => (item.silent_check strings types protos index).bind fun _ =>
    silent_pure item

/-! ## Classes -/

namespace ClassData

theorem silent_indexAfter (list : MemberList) (size last difference : Nat) :
    (indexAfter list size last difference).Silent input Failure.OfReferences := by
  apply Silent.ite
  · exact fun _ => notes_fail (Failure.ofReferences_of_index rfl)
  · intro _
    apply Silent.ite
    · exact fun _ => notes_fail (Failure.ofReferences_of_index rfl)
    · exact fun _ => silent_pure _

theorem silent_readMembers {α : Type} {entry : Nat → Decode α}
    (h : ∀ index, (entry index).Silent input Failure.OfReferences) (list : MemberList)
    (size count last : Nat) (done : Array α) :
    (readMembers list size entry count last done).Silent input Failure.OfReferences := by
  induction count generalizing last done with
  | zero => exact silent_pure done
  | succ count ih =>
      exact silent_uleb128.bind fun difference =>
        (silent_indexAfter list size last difference).bind fun index =>
          (h index).bind fun member => ih index (done.push member)

theorem silent_readFlags : readFlags.Silent input Failure.OfReferences :=
  silent_uleb128.bind fun _ => silent_pure _

theorem silent_readField (field : Nat) : (readField field).Silent input Failure.OfReferences :=
  silent_readFlags.bind fun _ => silent_pure _

theorem silent_readMethod (list : MemberList) (method : Nat) :
    (readMethod list method).Silent input Failure.OfReferences := by
  refine silent_readFlags.bind fun flags => silent_uleb128.bind fun codeOffset =>
    silent_length.bind fun length => ?_
  apply Silent.ite
  · exact fun _ => notes_fail (.inl rfl)
  · exact fun _ => silent_pure _

theorem silent_readFields (list : MemberList) (size count : Nat) :
    (readFields list size count).Silent input Failure.OfReferences :=
  (silent_readMembers silent_readField list size count 0 #[]).bind fun _ => silent_pure _

theorem silent_readMethods (list : MemberList) (size count : Nat) :
    (readMethods list size count).Silent input Failure.OfReferences :=
  (silent_readMembers (silent_readMethod list) list size count 0 #[]).bind fun _ => silent_pure _

theorem silent_read (fields methods : Nat) :
    (ClassData.read fields methods).Silent input Failure.OfReferences :=
  silent_uleb128.bind fun _ => silent_uleb128.bind fun _ => silent_uleb128.bind fun _ =>
    silent_uleb128.bind fun _ => (silent_readFields _ fields _).bind fun _ =>
      (silent_readFields _ fields _).bind fun _ => (silent_readMethods _ methods _).bind fun _ =>
        (silent_readMethods _ methods _).bind fun _ => silent_pure _

end ClassData

namespace ClassItem

theorem silent_readData (pools : Pools) (index offset : Nat) :
    (readData pools index offset).Silent input Failure.OfReferences := by
  apply Silent.ite
  · exact fun _ => silent_pure none
  · exact fun _ => (((ClassData.silent_read _ _).atOffset offset).within_kind _).bind fun _ =>
      silent_pure _

theorem Stored.silent_read : Stored.read.Silent input Failure.OfReferences :=
  (silent_natural 4).bind fun _ => silent_word.bind fun _ => (silent_natural 4).bind fun _ =>
    (silent_natural 4).bind fun _ => (silent_natural 4).bind fun _ =>
      (silent_natural 4).bind fun _ => (silent_natural 4).bind fun _ =>
        (silent_natural 4).bind fun _ => silent_pure _

theorem silent_ofStored (pools : Pools) (index : Nat) (stored : Stored) :
    (ofStored pools index stored).Silent input Failure.OfReferences :=
  (silent_checkReference _ _ _ _).bind fun _ => (silent_optionalReference _ _ _ _).bind fun _ =>
    (silent_optionalReference _ _ _ _).bind fun _ => (silent_typeListAt _ _ _).bind fun _ =>
      (silent_readData pools index _).bind fun _ => silent_pure _

theorem notes_readAt (pools : Pools) (index : Nat) :
    (ClassItem.readAt pools index).Notes input Failure.OfReferences
      fun item anomalies => anomalies = item.anomalies index input.size := by
  apply Stored.silent_read.bind_notes
  intro stored
  apply (silent_ofStored pools index stored).bind_notes
  intro item
  refine (notes_length.bind fun length => (notes_forM_warn id (item.anomalies index length)).bind
    fun _ => notes_pure item).imp (fun _ => id) ?_
  rintro _ _ ⟨_, _, _, ⟨rfl, rfl⟩, ⟨_, _, _, rfl, ⟨rfl, rfl⟩, rfl⟩, rfl⟩
  simp

end ClassItem

/-! ## Pools -/

namespace Pool

/-- What is odd about the strings, in their order. -/
def Strings.anomalies (pool : Pool.Strings) : List Anomaly :=
  pool.items.toList.zipIdx.flatMap fun (item, index) => item.anomalies index

/-- What is odd about the types, in their order. -/
def Types.anomalies (pool : Pool.Types) : List Anomaly :=
  pool.items.toList.zipIdx.flatMap fun (item, index) => item.anomalies index

/-- What is odd about the prototypes, in their order. -/
def Protos.anomalies (pool : Pool.Protos) (strings : Pool.Strings) (types : Pool.Types) :
    List Anomaly :=
  pool.items.toList.zipIdx.flatMap fun (item, index) => item.anomalies strings types index

/-- What is odd about the classes in an input of `length` bytes, in their order, and after that the
definitions of classes that have been defined before. -/
def Classes.anomalies (pool : Pool.Classes) (length : Nat) : List Anomaly :=
  (pool.items.toList.zipIdx.flatMap fun (item, index) => item.anomalies index length) ++
    pool.redefinitions.map .redefined

theorem mem_flatMap_zipIdx {α β : Type} {items : Array α} {f : α × Nat → List β} {b : β} :
    b ∈ items.toList.zipIdx.flatMap f ↔ ∃ index item, items[index]? = some item ∧
      b ∈ f (item, index) := by
  simp only [List.mem_flatMap, Prod.exists, List.mem_zipIdx_iff_getElem?, Array.getElem?_toList]
  exact exists_comm

theorem Strings.notes_read (count offset : Nat) :
    (Pool.Strings.read count offset).Notes input (Failure.OfPool · .strings)
      fun pool anomalies => anomalies = pool.anomalies := by
  refine ((notes_table .strings StringItem.notes_readAt count offset).bind fun items =>
    (silent_record rfl).bind_notes fun _ => notes_pure (ofItems items)).imp (fun _ => id) ?_
  rintro _ _ ⟨items, _, _, rfl, ⟨rfl, rfl⟩, rfl⟩
  exact List.append_nil _

theorem Types.notes_read (strings : Pool.Strings) (arrayLimit count offset : Nat) :
    (Pool.Types.read strings arrayLimit count offset).Notes input (Failure.OfPool · .types)
      fun pool anomalies => anomalies = pool.anomalies := by
  refine ((notes_table .types (TypeItem.notes_readAt strings arrayLimit) count offset).bind
    fun items => (silent_record rfl).bind_notes fun _ =>
      notes_pure (ofItems strings items)).imp (fun _ => id) ?_
  rintro _ _ ⟨items, _, _, rfl, ⟨rfl, rfl⟩, rfl⟩
  exact List.append_nil _

theorem References.notes_read {α : Type} (table : Table) {item : Nat → Decode α}
    {anomalies : α → Nat → List Anomaly}
    (h : ∀ index, (item index).Notes input (Failure.LacksBytesOr table.otherKinds)
      fun value list => list = anomalies value index) (count offset : Nat) :
    (Pool.References.read table count offset item).Notes input (Failure.OfPool · table)
      fun pool list =>
        list = pool.items.toList.zipIdx.flatMap fun (item, index) => anomalies item index := by
  refine ((notes_table table h count offset).bind fun items =>
    (silent_record rfl).bind_notes fun _ =>
      notes_pure { table := some table, items : Pool.References α }).imp (fun _ => id) ?_
  rintro _ _ ⟨items, _, _, rfl, ⟨rfl, rfl⟩, rfl⟩
  exact List.append_nil _

theorem Protos.notes_read (strings : Pool.Strings) (types : Pool.Types) (count offset : Nat) :
    (Pool.Protos.read strings types count offset).Notes input (Failure.OfPool · .protos)
      fun pool anomalies => anomalies = pool.anomalies strings types :=
  References.notes_read .protos (ProtoItem.notes_readAt strings types) count offset

theorem References.silent_read {α : Type} (table : Table) {item : Nat → Decode α}
    (h : ∀ index, (item index).Silent input (Failure.LacksBytesOr table.otherKinds))
    (count offset : Nat) :
    (Pool.References.read table count offset item).Silent input (Failure.OfPool · table) :=
  (notes_read table h count offset).imp (fun _ => id) (by simp)

theorem Fields.silent_read (strings : Pool.Strings) (types : Pool.Types) (count offset : Nat) :
    (Pool.Fields.read strings types count offset).Silent input (Failure.OfPool · .fields) :=
  References.silent_read .fields (FieldItem.silent_readAt strings types) count offset

theorem Methods.silent_read (strings : Pool.Strings) (types : Pool.Types) (protos : Pool.Protos)
    (count offset : Nat) :
    (Pool.Methods.read strings types protos count offset).Silent input
      (Failure.OfPool · .methods) :=
  References.silent_read .methods (MethodItem.silent_readAt strings types protos) count offset

theorem Classes.notes_read (pools : ClassItem.Pools) (count offset : Nat) :
    (Pool.Classes.read pools count offset).Notes input (Failure.OfPool · .classes)
      fun pool anomalies => anomalies = pool.anomalies input.size := by
  refine ((notes_table .classes (ClassItem.notes_readAt pools) count offset).bind
    fun items => (notes_forM_warn .redefined (ofItems items).redefinitions).bind fun _ =>
      (silent_record rfl).bind_notes fun _ => notes_pure (ofItems items)).imp (fun _ => id) ?_
  rintro _ _ ⟨items, _, _, rfl, ⟨_, _, _, rfl, ⟨rfl, rfl⟩, rfl⟩, rfl⟩
  rw [List.append_nil]
  rfl

end Pool

end Dalvik
