import Dalvik.Pool.Classes
import Dalvik.Proofs.Extension

/-!
# Items and pools on a longer input

Every item of a pool is made of steps that bytes after the input do not change. Where a step asks
for the length of the input, more bytes are never less than it needs.
-/

namespace Dalvik

open Decode

variable {input more : Bytes}

/-! ## References -/

namespace Decode

theorem lasts_checkReference (source : Referrer) (target : Table) (size index : Nat) :
    (checkReference source target size index).Lasts input more := by
  apply Lasts.ite
  · exact fun _ => lasts_pure ()
  · exact fun _ => lasts_fail _

theorem lasts_optionalReference (source : Referrer) (target : Table) (size index : Nat) :
    (optionalReference source target size index).Lasts input more := by
  apply Lasts.ite
  · exact fun _ => lasts_pure none
  · exact fun _ => (lasts_checkReference source target size index).bind fun _ => lasts_pure _

theorem lasts_typeListEntry (types start entry : Nat) :
    (typeListEntry types start entry).Lasts input more :=
  lasts_u16.bind fun index => (lasts_checkReference _ _ types index).bind fun _ => lasts_pure index

theorem lasts_typeList (types : Nat) : (typeList types).Lasts input more := by
  apply lasts_position.bind
  intro start
  apply lasts_u32.bind
  intro size
  apply persists_remaining.bind
  intro left leftLong hle
  apply Persists.guard
  · exact persists_of_truncated fun _ => ⟨_, rfl, rfl⟩
  · omega
  · exact fun _ => (lasts_tabulate (lasts_typeListEntry types start) size).bind fun _ =>
      lasts_pure _

theorem lasts_typeListAt (types offset : Nat) (context : Context) :
    (typeListAt types offset context).Lasts input more := by
  apply Lasts.ite
  · exact fun _ => lasts_pure []
  · exact fun _ => ((lasts_typeList types).atOffset offset).within context

/-- A warning on the way does not change the value. -/
theorem lasts_warnFirst {α : Type} (anomaly? : Option Anomaly) (value : α) :
    Lasts (match anomaly? with
      | some anomaly => do
        Reporting.warn anomaly
        pure value
      | none => pure value : Decode α) input more := by
  cases anomaly? with
  | none => exact lasts_pure value
  | some anomaly => exact (lasts_warn anomaly).bind fun _ => lasts_pure value

end Decode

/-! ## Strings and types -/

theorem StringItem.lasts_read : StringItem.read.Lasts input more :=
  lasts_uleb128.bind fun _ => lasts_untilNul.bind fun _ => lasts_pure _

theorem StringItem.lasts_readAt (index : Nat) : (StringItem.readAt index).Lasts input more := by
  apply lasts_u32.bind
  intro offset
  apply persists_length.bind
  intro length lengthLong hle
  apply Persists.guard
  · exact persists_of_truncated fun _ => ⟨_, rfl, rfl⟩
  · omega
  · exact fun _ => Lasts.bind ((lasts_read.atOffset offset).within _) fun item =>
      lasts_warnFirst (item.anomaly? index) item

theorem TypeItem.lasts_readAt (strings : Pool.Strings) (arrayLimit index : Nat) :
    (TypeItem.readAt strings arrayLimit index).Lasts input more := by
  apply Lasts.bind
  · exact lasts_u32.within _
  intro stringIndex
  cases strings.items[stringIndex]? with
  | none => exact lasts_fail _
  | some string =>
      apply Lasts.ite
      · exact fun _ => (lasts_warn _).bind fun _ => lasts_pure _
      · exact fun _ => lasts_pure _

/-! ## Prototypes, fields and methods -/

theorem ProtoItem.Stored.lasts_read : Stored.read.Lasts input more :=
  lasts_u32.bind fun _ => lasts_u32.bind fun _ => lasts_u32.bind fun _ => lasts_pure _

theorem ProtoItem.lasts_ofStored (strings : Pool.Strings) (types : Pool.Types) (index : Nat)
    (stored : Stored) : (ofStored strings types index stored).Lasts input more :=
  (lasts_checkReference _ _ _ _).bind fun _ => (lasts_checkReference _ _ _ _).bind fun _ =>
    (lasts_typeListAt _ _ _).bind fun _ => lasts_pure _

theorem ProtoItem.lasts_readAt (strings : Pool.Strings) (types : Pool.Types) (index : Nat) :
    (ProtoItem.readAt strings types index).Lasts input more := by
  apply Stored.lasts_read.bind
  intro stored
  apply (lasts_ofStored strings types index stored).bind
  intro item
  apply (lasts_liftExcept _).bind
  intro anomaly?
  exact lasts_warnFirst anomaly? item

theorem FieldItem.lasts_read : FieldItem.read.Lasts input more :=
  lasts_u16.bind fun _ => lasts_u16.bind fun _ => lasts_u32.bind fun _ => lasts_pure _

theorem FieldItem.lasts_check (strings : Pool.Strings) (types : Pool.Types) (index : Nat)
    (item : FieldItem) : (item.check strings types index).Lasts input more :=
  (lasts_checkReference _ _ _ _).bind fun _ => (lasts_checkReference _ _ _ _).bind fun _ =>
    lasts_checkReference _ _ _ _

theorem FieldItem.lasts_readAt (strings : Pool.Strings) (types : Pool.Types) (index : Nat) :
    (FieldItem.readAt strings types index).Lasts input more :=
  lasts_read.bind fun item => (item.lasts_check strings types index).bind fun _ => lasts_pure item

theorem MethodItem.lasts_read : MethodItem.read.Lasts input more :=
  lasts_u16.bind fun _ => lasts_u16.bind fun _ => lasts_u32.bind fun _ => lasts_pure _

theorem MethodItem.lasts_check (strings : Pool.Strings) (types : Pool.Types) (protos : Pool.Protos)
    (index : Nat) (item : MethodItem) : (item.check strings types protos index).Lasts input more :=
  (lasts_checkReference _ _ _ _).bind fun _ => (lasts_checkReference _ _ _ _).bind fun _ =>
    lasts_checkReference _ _ _ _

theorem MethodItem.lasts_readAt (strings : Pool.Strings) (types : Pool.Types) (protos : Pool.Protos)
    (index : Nat) : (MethodItem.readAt strings types protos index).Lasts input more :=
  lasts_read.bind fun item => (item.lasts_check strings types protos index).bind fun _ =>
    lasts_pure item

/-! ## Classes -/

namespace ClassData

theorem lasts_indexAfter (list : MemberList) (size last difference : Nat) :
    (indexAfter list size last difference).Lasts input more := by
  apply Lasts.ite
  · exact fun _ => lasts_fail _
  · intro _
    apply Lasts.ite
    · exact fun _ => lasts_fail _
    · exact fun _ => lasts_pure _

theorem lasts_readMembers {α : Type} {entry : Nat → Decode α}
    (h : ∀ index, (entry index).Lasts input more) (list : MemberList)
    (size count last : Nat) (done : Array α) :
    (readMembers list size entry count last done).Lasts input more := by
  induction count generalizing last done with
  | zero => exact lasts_pure done
  | succ count ih =>
      apply lasts_uleb128.bind
      intro difference
      apply (lasts_indexAfter list size last difference).bind
      intro index
      exact (h index).bind fun member => ih index (done.push member)

theorem lasts_readFlags : readFlags.Lasts input more :=
  lasts_uleb128.bind fun _ => lasts_pure _

theorem lasts_readField (field : Nat) : (readField field).Lasts input more :=
  lasts_readFlags.bind fun _ => lasts_pure _

/-- Code that starts within the input starts within a longer one. -/
theorem lasts_readMethod (list : MemberList) (method : Nat) :
    (readMethod list method).Lasts input more := by
  apply lasts_readFlags.bind
  intro flags
  apply lasts_uleb128.bind
  intro codeOffset
  apply persists_length.bind
  intro length lengthLong hle
  apply Persists.guard
  · exact persists_of_truncated fun _ => ⟨_, rfl, rfl⟩
  · omega
  · exact fun _ => lasts_pure _

theorem lasts_readFields (list : MemberList) (size count : Nat) :
    (readFields list size count).Lasts input more :=
  (lasts_readMembers lasts_readField list size count 0 #[]).bind fun _ => lasts_pure _

theorem lasts_readMethods (list : MemberList) (size count : Nat) :
    (readMethods list size count).Lasts input more :=
  (lasts_readMembers (lasts_readMethod list) list size count 0 #[]).bind fun _ => lasts_pure _

theorem lasts_read (fields methods : Nat) : (ClassData.read fields methods).Lasts input more :=
  lasts_uleb128.bind fun _ => lasts_uleb128.bind fun _ => lasts_uleb128.bind fun _ =>
    lasts_uleb128.bind fun _ => (lasts_readFields _ _ _).bind fun _ =>
      (lasts_readFields _ _ _).bind fun _ => (lasts_readMethods _ _ _).bind fun _ =>
        (lasts_readMethods _ _ _).bind fun _ => lasts_pure _

end ClassData

namespace ClassItem

theorem lasts_readData (pools : Pools) (index offset : Nat) :
    (readData pools index offset).Lasts input more := by
  apply Lasts.ite
  · exact fun _ => lasts_pure none
  · exact fun _ => Lasts.bind (((ClassData.lasts_read _ _).atOffset offset).within _) fun _ =>
      lasts_pure _

theorem Stored.lasts_read : Stored.read.Lasts input more :=
  lasts_u32.bind fun _ => lasts_word.bind fun _ => lasts_u32.bind fun _ => lasts_u32.bind fun _ =>
    lasts_u32.bind fun _ => lasts_u32.bind fun _ => lasts_u32.bind fun _ => lasts_u32.bind fun _ =>
      lasts_pure _

theorem lasts_ofStored (pools : Pools) (index : Nat) (stored : Stored) :
    (ofStored pools index stored).Lasts input more :=
  (lasts_checkReference _ _ _ _).bind fun _ => (lasts_optionalReference _ _ _ _).bind fun _ =>
    (lasts_optionalReference _ _ _ _).bind fun _ => (lasts_typeListAt _ _ _).bind fun _ =>
      (lasts_readData pools index _).bind fun _ => lasts_pure _

/-- What is odd about a definition may depend on the length of the input, but that is only noted. -/
theorem lasts_readAt (pools : Pools) (index : Nat) :
    (ClassItem.readAt pools index).Lasts input more := by
  apply Stored.lasts_read.bind
  intro stored
  apply (lasts_ofStored pools index stored).bind
  intro item
  apply persists_length.bind
  intro length lengthLong _
  apply Persists.bind
  · exact persists_of_notes (reads_forM_warn id (item.anomalies index length))
      (reads_forM_warn id (item.anomalies index lengthLong))
  · exact fun _ _ _ => lasts_pure item

end ClassItem

/-! ## Pools -/

namespace Pool

theorem Strings.lasts_read (count offset : Nat) : (Strings.read count offset).Lasts input more :=
  (lasts_table StringItem.lasts_readAt _ _ _).bind fun _ => (lasts_record _).bind fun _ =>
    lasts_pure _

theorem Types.lasts_read (strings : Pool.Strings) (arrayLimit count offset : Nat) :
    (Types.read strings arrayLimit count offset).Lasts input more :=
  (lasts_table (TypeItem.lasts_readAt strings arrayLimit) _ _ _).bind fun _ =>
    (lasts_record _).bind fun _ => lasts_pure _

theorem References.lasts_read {α : Type} {item : Nat → Decode α}
    (h : ∀ index, (item index).Lasts input more) (table : Table) (count offset : Nat) :
    (References.read table count offset item).Lasts input more :=
  (lasts_table h table count offset).bind fun _ => (lasts_record _).bind fun _ => lasts_pure _

theorem Classes.lasts_read (pools : ClassItem.Pools) (count offset : Nat) :
    (Classes.read pools count offset).Lasts input more := by
  apply (lasts_table (ClassItem.lasts_readAt pools) _ _ _).bind
  intro items
  apply Lasts.bind
  · exact persists_of_notes (reads_forM_warn Anomaly.redefined _)
      (reads_forM_warn Anomaly.redefined _)
  · exact fun _ => (lasts_record _).bind fun _ => lasts_pure _

end Pool

end Dalvik
