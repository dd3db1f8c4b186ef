import Dalvik.Proofs.Cursor
import Dalvik.Proofs.Lookup
import Dalvik.Proofs.Stored

/-!
# Reading the items of tables

A step that reads an item ends with just the items that are stored at the cursor, and takes as many
bytes as an item of its table has. What an item places elsewhere moves the cursor nowhere.
-/

namespace Dalvik

open Decode

variable {input : Bytes}

/-! ## References -/

namespace Decode

theorem reads_checkReference (source : Referrer) (target : Table) (size index : Nat) :
    (checkReference source target size index).Reads input 0 fun _ _ => index < size := by
  refine (Reads.ite (fun _ => reads_pure ()) fun _ => reads_fail _ 0).congr rfl fun pos value => ?_
  simp

theorem reads_optionalReference (source : Referrer) (target : Table) (size index : Nat) :
    (optionalReference source target size index).Reads input 0 fun _ value =>
      reference? index = value ∧ ∀ i ∈ value, i < size := by
  refine (Reads.ite (fun _ => reads_pure none) fun _ =>
    (reads_checkReference source target size index).bind fun _ =>
      reads_pure (some index)).congr rfl fun pos value => ?_
  unfold reference?
  split
  · grind
  · grind

theorem reads_typeListEntry (types start entry : Nat) :
    (typeListEntry types start entry).Reads input 2 fun pos value =>
      input.u16At? pos = some value ∧ value < types := by
  refine (reads_u16.bind fun index => (reads_checkReference _ _ types index).bind fun _ =>
    reads_pure index).congr rfl fun pos value => ?_
  grind

theorem yields_typeList (types : Nat) :
    (typeList types).Yields input fun pos list next =>
      next = pos + 4 + 2 * list.length ∧ input.HoldsTypes types pos list := by
  refine (Yields.bind reads_position fun start => Yields.bind reads_u32 fun size =>
    Yields.bind reads_remaining fun left => Yields.ite (fun _ => yields_fail _) fun _ =>
      (reads_tabulate (reads_typeListEntry types start) size).bind fun items =>
        reads_pure items.toList).congr fun pos list next => ?_
  constructor
  · rintro ⟨_, _, ⟨rfl, rfl⟩, size, _, ⟨rfl, hsize⟩, _, _, ⟨rfl, rfl⟩, hrest⟩
    split at hrest
    next => exact hrest.elim
    next hfits =>
      obtain ⟨rfl, items, ⟨rfl, hitems⟩, rfl⟩ := hrest
      refine ⟨by simp; omega, ⟨by simpa using hsize, fun index h => ?_, fun type htype => ?_⟩⟩
      · rw [Nat.mul_comm]
        exact (hitems index (by simpa using h)).1
      · obtain ⟨index, h, rfl⟩ := List.getElem_of_mem htype
        exact (hitems index (by simpa using h)).2
  · rintro ⟨rfl, hlength, hentry, hlt⟩
    refine ⟨pos, pos, ⟨rfl, rfl⟩, list.length, pos + 4, ⟨rfl, hlength⟩, _, pos + 4, ⟨rfl, rfl⟩, ?_⟩
    have hfits := Bytes.exists_u32At?_iff.mp ⟨_, hlength⟩
    -- The last entry is within the input, or there is none and the length is all that there is.
    have hlast : pos + 4 + 2 * list.length ≤ input.size := by
      cases hzero : list.length with
      | zero => omega
      | succ last =>
          have hentryLast := Bytes.exists_u16At?_iff.mp ⟨_, hentry last (by omega)⟩
          omega
    rw [if_neg (by omega)]
    refine ⟨by omega, list.toArray, ⟨by simp, fun index h => ?_⟩, by simp⟩
    have hindex : index < list.length := by simpa using h
    rw [List.getElem_toArray, Nat.mul_comm]
    exact ⟨hentry index hindex, hlt _ (List.getElem_mem hindex)⟩

theorem reads_typeListAt (types offset : Nat) (context : Context) :
    (typeListAt types offset context).Reads input 0 fun _ list =>
      input.HoldsTypesOrNone types offset list := by
  refine (Reads.ite (fun _ => reads_pure []) fun _ =>
    (Yields.atOffset (yields_typeList types) offset).within context).congr rfl fun pos list => ?_
  unfold Bytes.HoldsTypesOrNone
  split
  · rfl
  · constructor
    · rintro ⟨-, stop, -, hlist⟩
      exact hlist
    · intro hlist
      have hfits := Bytes.exists_u32At?_iff.mp ⟨_, hlist.length⟩
      exact ⟨by omega, _, rfl, hlist⟩

end Decode

/-! ## Strings and types -/

theorem StringItem.yields_read :
    StringItem.read.Yields input fun pos item next =>
      ∃ unitCount middle bytes, input.uleb128At? pos = some (unitCount, middle) ∧
        input.untilNul middle = some bytes ∧ item = StringItem.ofBytes unitCount bytes ∧
        next = middle + bytes.length + 1 := by
  refine (Yields.bind yields_uleb128 fun unitCount => Yields.bind yields_untilNul fun bytes =>
    yields_pure (StringItem.ofBytes unitCount bytes)).congr fun pos item next => ?_
  constructor
  · rintro ⟨unitCount, middle, hcount, bytes, _, ⟨rfl, hbytes⟩, rfl, rfl⟩
    exact ⟨unitCount, middle, bytes, hcount, hbytes, rfl, rfl⟩
  · rintro ⟨unitCount, middle, bytes, hcount, hbytes, rfl, rfl⟩
    exact ⟨unitCount, middle, hcount, bytes, _, ⟨rfl, hbytes⟩, rfl, rfl⟩

theorem StringItem.reads_atOffset (offset : Nat) :
    (atOffset offset StringItem.read).Reads input 0 fun _ item =>
      offset ≤ input.size ∧ item.DataAt input offset := by
  refine (Yields.atOffset StringItem.yields_read offset).congr rfl fun pos item => ?_
  refine and_congr_right fun _ => ?_
  constructor
  · rintro ⟨_, unitCount, middle, bytes, hcount, hbytes, rfl, rfl⟩
    exact ⟨unitCount, middle, bytes, hcount, hbytes, rfl⟩
  · rintro ⟨unitCount, middle, bytes, hcount, hbytes, rfl⟩
    exact ⟨_, unitCount, middle, bytes, hcount, hbytes, rfl, rfl⟩

/-- A warning on the way takes no bytes and changes no value. -/
theorem reads_warnFirst {α : Type} (anomaly? : Option Anomaly) (value : α) :
    Reads (match anomaly? with
      | some anomaly => do
        Reporting.warn anomaly
        pure value
      | none => pure value : Decode α) input 0 fun _ found => found = value := by
  cases anomaly? with
  | none => exact reads_pure value
  | some anomaly =>
      exact ((reads_warn anomaly).bind fun _ => reads_pure value).congr rfl fun _ _ => by simp

theorem StringItem.reads_readAt (index : Nat) :
    (StringItem.readAt index).Reads input Table.strings.itemSize fun pos item =>
      item.StoredAt input pos := by
  refine (reads_u32.bind fun offset => reads_length.bind fun length => Reads.ite
    (fun _ => (reads_fail _ 0).within _) fun _ =>
      ((StringItem.reads_atOffset offset).within _).bind fun item =>
        reads_warnFirst (item.anomaly? index) item).congr rfl fun pos item => ?_
  constructor
  · rintro ⟨offset, hoffset, _, rfl, hrest⟩
    split at hrest
    next => exact hrest.elim
    next hlt =>
      obtain ⟨_, ⟨-, hdata⟩, rfl⟩ := hrest
      exact ⟨offset, hoffset, Nat.lt_of_not_le hlt, hdata⟩
  · rintro ⟨offset, hoffset, hlt, hdata⟩
    refine ⟨offset, hoffset, _, rfl, ?_⟩
    rw [if_neg (Nat.not_le_of_lt hlt)]
    exact ⟨item, ⟨Nat.le_of_lt hlt, hdata⟩, rfl⟩

theorem reads_warnIf {α : Type} (c : Prop) [Decidable c] (anomaly : Anomaly) (value : α) :
    Reads (if c then do
        Reporting.warn anomaly
        pure value
      else pure value : Decode α) input 0 fun _ found => found = value := by
  split
  · exact reads_warnFirst (some anomaly) value
  · exact reads_pure value

theorem TypeItem.reads_readAt (strings : Pool.Strings) (arrayLimit index : Nat) :
    (TypeItem.readAt strings arrayLimit index).Reads input Table.types.itemSize fun pos item =>
      item.StoredAt input strings arrayLimit index pos := by
  refine ((reads_u32.within _).bind fun stringIndex =>
    (?_ : Reads _ input 0 fun _ item => item.index = index ∧ item.stringIndex = stringIndex ∧
      ∃ string, strings.items[stringIndex]? = some string ∧
        item.descriptor = Descriptor.ofText string.text arrayLimit)).congr rfl fun pos item => ?_
  · cases hstring : strings.items[stringIndex]? with
    | none => exact (reads_fail _ 0).congr rfl fun _ _ => by simp
    | some string =>
        refine (reads_warnIf _ _ _).congr rfl fun _ item => ?_
        constructor
        · rintro rfl
          exact ⟨rfl, rfl, string, rfl, rfl⟩
        · rintro ⟨rfl, rfl, _, ⟨⟩, hdescriptor⟩
          rw [← hdescriptor]
  · constructor
    · rintro ⟨_, hstring, rfl, rfl, hdescriptor⟩
      exact ⟨rfl, hstring, hdescriptor⟩
    · rintro ⟨rfl, hstring, hdescriptor⟩
      exact ⟨_, hstring, rfl, rfl, hdescriptor⟩

/-! ## Prototypes, fields and methods -/

theorem FieldItem.reads_read :
    FieldItem.read.Reads input 8 fun pos item =>
      input.u16At? pos = some item.classType ∧ input.u16At? (pos + 2) = some item.type ∧
        input.u32At? (pos + 4) = some item.name := by
  refine (reads_u16.bind fun classType => reads_u16.bind fun type => reads_u32.bind fun name =>
    reads_pure (FieldItem.mk classType type name)).congr rfl fun pos item => ?_
  constructor
  · rintro ⟨classType, hclass, type, htype, name, hname, rfl⟩
    exact ⟨hclass, htype, hname⟩
  · rintro ⟨hclass, htype, hname⟩
    exact ⟨_, hclass, _, htype, _, hname, rfl⟩

theorem FieldItem.reads_check (strings : Pool.Strings) (types : Pool.Types) (index : Nat)
    (item : FieldItem) :
    (item.check strings types index).Reads input 0 fun _ _ =>
      item.classType < types.size ∧ item.type < types.size ∧ item.name < strings.size := by
  refine ((reads_checkReference _ _ _ _).bind fun _ => (reads_checkReference _ _ _ _).bind fun _ =>
    reads_checkReference _ _ _ _).congr rfl fun pos value => ?_
  simp

theorem FieldItem.reads_readAt (strings : Pool.Strings) (types : Pool.Types) (index : Nat) :
    (FieldItem.readAt strings types index).Reads input Table.fields.itemSize fun pos item =>
      item.StoredAt input strings.size types.size pos := by
  refine (FieldItem.reads_read.bind fun item => (item.reads_check strings types index).bind fun _ =>
    reads_pure item).congr rfl fun pos item => ?_
  constructor
  · rintro ⟨_, ⟨hclass, htype, hname⟩, _, ⟨hclassLt, htypeLt, hnameLt⟩, rfl⟩
    exact ⟨hclass, hclassLt, htype, htypeLt, hname, hnameLt⟩
  · rintro ⟨hclass, hclassLt, htype, htypeLt, hname, hnameLt⟩
    exact ⟨item, ⟨hclass, htype, hname⟩, (), ⟨hclassLt, htypeLt, hnameLt⟩, rfl⟩

theorem MethodItem.reads_read :
    MethodItem.read.Reads input 8 fun pos item =>
      input.u16At? pos = some item.classType ∧ input.u16At? (pos + 2) = some item.proto ∧
        input.u32At? (pos + 4) = some item.name := by
  refine (reads_u16.bind fun classType => reads_u16.bind fun proto => reads_u32.bind fun name =>
    reads_pure (MethodItem.mk classType proto name)).congr rfl fun pos item => ?_
  constructor
  · rintro ⟨classType, hclass, proto, hproto, name, hname, rfl⟩
    exact ⟨hclass, hproto, hname⟩
  · rintro ⟨hclass, hproto, hname⟩
    exact ⟨_, hclass, _, hproto, _, hname, rfl⟩

theorem MethodItem.reads_check (strings : Pool.Strings) (types : Pool.Types)
    (protos : Pool.Protos) (index : Nat) (item : MethodItem) :
    (item.check strings types protos index).Reads input 0 fun _ _ =>
      item.classType < types.size ∧ item.proto < protos.size ∧ item.name < strings.size := by
  refine ((reads_checkReference _ _ _ _).bind fun _ => (reads_checkReference _ _ _ _).bind fun _ =>
    reads_checkReference _ _ _ _).congr rfl fun pos value => ?_
  simp

theorem MethodItem.reads_readAt (strings : Pool.Strings) (types : Pool.Types)
    (protos : Pool.Protos) (index : Nat) :
    (MethodItem.readAt strings types protos index).Reads input Table.methods.itemSize
      fun pos item => item.StoredAt input strings.size types.size protos.size pos := by
  refine (MethodItem.reads_read.bind fun item =>
    (item.reads_check strings types protos index).bind fun _ =>
      reads_pure item).congr rfl fun pos item => ?_
  constructor
  · rintro ⟨_, ⟨hclass, hproto, hname⟩, _, ⟨hclassLt, hprotoLt, hnameLt⟩, rfl⟩
    exact ⟨hclass, hclassLt, hproto, hprotoLt, hname, hnameLt⟩
  · rintro ⟨hclass, hclassLt, hproto, hprotoLt, hname, hnameLt⟩
    exact ⟨item, ⟨hclass, hproto, hname⟩, (), ⟨hclassLt, hprotoLt, hnameLt⟩, rfl⟩

theorem ProtoItem.Stored.reads_read :
    Stored.read.Reads input 12 fun pos stored =>
      input.u32At? pos = some stored.shorty ∧ input.u32At? (pos + 4) = some stored.returnType ∧
        input.u32At? (pos + 8) = some stored.parametersOffset := by
  refine (reads_u32.bind fun shorty => reads_u32.bind fun returnType =>
    reads_u32.bind fun offset => reads_pure (Stored.mk shorty returnType offset)).congr rfl
      fun pos stored => ?_
  constructor
  · rintro ⟨shorty, hshorty, returnType, hreturn, offset, hoffset, rfl⟩
    exact ⟨hshorty, hreturn, hoffset⟩
  · rintro ⟨hshorty, hreturn, hoffset⟩
    exact ⟨_, hshorty, _, hreturn, _, hoffset, rfl⟩

theorem ProtoItem.reads_ofStored (strings : Pool.Strings) (types : Pool.Types) (index : Nat)
    (stored : Stored) :
    (ofStored strings types index stored).Reads input 0 fun _ item =>
      stored.shorty < strings.size ∧ stored.returnType < types.size ∧
        stored.shorty = item.shorty ∧ stored.returnType = item.returnType ∧
        stored.parametersOffset = item.parametersOffset ∧
        input.HoldsTypesOrNone types.size item.parametersOffset item.parameters := by
  refine ((reads_checkReference _ _ _ _).bind fun _ => (reads_checkReference _ _ _ _).bind fun _ =>
    (reads_typeListAt types.size stored.parametersOffset _).bind fun parameters =>
      reads_pure (ProtoItem.mk stored.shorty stored.returnType stored.parametersOffset
        parameters)).congr rfl fun pos item => ?_
  constructor
  · rintro ⟨_, hshorty, _, hreturn, parameters, hparameters, rfl⟩
    exact ⟨hshorty, hreturn, rfl, rfl, rfl, hparameters⟩
  · rintro ⟨hshorty, hreturn, hs, hr, ho, hparameters⟩
    refine ⟨(), hshorty, (), hreturn, item.parameters, ?_, ?_⟩
    · rw [ho]
      exact hparameters
    · rw [hs, hr, ho]

/-- The types of a list at an offset are there to be followed. -/
theorem Bytes.HoldsTypesOrNone.lt {types offset : Nat} {list : List Nat}
    (h : input.HoldsTypesOrNone types offset list) : ∀ type ∈ list, type < types := by
  unfold HoldsTypesOrNone at h
  split at h
  · simp [h]
  · exact h.entry_lt

theorem ProtoItem.reads_readAt (strings : Pool.Strings) (types : Pool.Types) (index : Nat) :
    (ProtoItem.readAt strings types index).Reads input Table.protos.itemSize fun pos item =>
      item.StoredAt input strings.size types.size pos := by
  refine (Stored.reads_read.bind fun stored => (reads_ofStored strings types index stored).bind
    fun item => (reads_liftExcept (item.anomaly? strings types index)).bind fun anomaly? =>
      reads_warnFirst anomaly? item).congr rfl fun pos item => ?_
  constructor
  · rintro ⟨stored, ⟨hshorty, hreturn, hoffset⟩, _, ⟨hshortyLt, hreturnLt, hs, hr, ho, hparameters⟩,
      _, -, rfl⟩
    rw [hs] at hshorty hshortyLt
    rw [hr] at hreturn hreturnLt
    rw [ho] at hoffset
    exact ⟨hshorty, hshortyLt, hreturn, hreturnLt, hoffset, hparameters⟩
  · rintro ⟨hshorty, hshortyLt, hreturn, hreturnLt, hoffset, hparameters⟩
    -- Whatever the shorty is compared with is there to be looked up.
    obtain ⟨anomaly?, hanomaly⟩ :=
      exists_anomaly? hshortyLt hreturnLt hparameters.lt index
    exact ⟨⟨item.shorty, item.returnType, item.parametersOffset⟩, ⟨hshorty, hreturn, hoffset⟩, item,
      ⟨hshortyLt, hreturnLt, rfl, rfl, rfl, hparameters⟩, anomaly?, hanomaly, rfl⟩

end Dalvik
