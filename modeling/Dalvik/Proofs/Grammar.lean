import Dalvik.Proofs.ClassReads
import Dalvik.Proofs.HeaderReads

/-!
# The grammar

Which inputs are dex files, said of the bytes alone. What the parts of a file mean is left out; that
a part is there says only that some item is stored there.
-/

namespace Dalvik

/-! ## Parts of a file -/

namespace Bytes

/-- The number of items that an input declares for a table. -/
def tableCount (input : Bytes) (table : Table) : Nat :=
  (input.u32At? table.headerPos).getD 0

/-- The offset that an input declares for a table. -/
def tableOffset (input : Bytes) (table : Table) : Nat :=
  (input.u32At? (table.headerPos + 4)).getD 0

/-- A header with three digits for the version, of a little-endian file. -/
structure HasHeader (input : Bytes) : Prop where
  fits : 0x70 ≤ input.size
  magic : ∃ digits : List UInt8, digits.length = 3 ∧
    (∀ digit ∈ digits, 0x30 ≤ digit ∧ digit ≤ 0x39) ∧
    input.HasAt 0 (Header.magicText ++ digits ++ [0])
  endianTag : input.u32At? 0x28 = some 0x12345678

/-- An item that places a number and, somewhere after it, a NUL. -/
def HasString (input : Bytes) (pos : Nat) : Prop :=
  ∃ offset, input.u32At? pos = some offset ∧ offset < input.size ∧
    ∃ unitCount next stop, input.uleb128At? offset = some (unitCount, next) ∧ next ≤ stop ∧
      input[stop]? = some 0

/-- An index below a bound. -/
def HasIndex (input : Bytes) (bound pos : Nat) : Prop :=
  ∃ index, input.u32At? pos = some index ∧ index < bound

/-- An index in half a word, below a bound. -/
def HasShortIndex (input : Bytes) (bound pos : Nat) : Prop :=
  ∃ index, input.u16At? pos = some index ∧ index < bound

/-- An index that is below a bound or stands for none. -/
def HasIndexOrNone (input : Bytes) (bound pos : Nat) : Prop :=
  ∃ index, input.u32At? pos = some index ∧ (index = 0xffffffff ∨ index < bound)

/-- A complete list of indices of types. -/
def HasTypeList (input : Bytes) (types offset : Nat) : Prop :=
  ∃ size, input.u32At? offset = some size ∧ offset + 4 + 2 * size ≤ input.size ∧
    ∀ entry < size, input.HasShortIndex types (offset + 4 + 2 * entry)

/-- Members of a class: for each the difference of its index from the last and then `details`, from
one offset to another. All indices are below `size`. -/
def HasMembers (input : Bytes) (size : Nat) (details : Nat → Nat → Prop) :
    (count last pos stop : Nat) → Prop
  | 0, _, pos, stop => stop = pos
  | count + 1, last, pos, stop =>
    ∃ difference middle next, input.uleb128At? pos = some (difference, middle) ∧
      last + difference < size ∧ details middle next ∧
      input.HasMembers size details count (last + difference) next stop

/-- What follows the index of a field. -/
def HasFieldDetails (input : Bytes) (pos stop : Nat) : Prop :=
  ∃ flags, input.uleb128At? pos = some (flags, stop)

/-- What follows the index of a method: flags, then an offset within the input. -/
def HasMethodDetails (input : Bytes) (pos stop : Nat) : Prop :=
  ∃ flags middle codeOffset, input.uleb128At? pos = some (flags, middle) ∧
    input.uleb128At? middle = some (codeOffset, stop) ∧ codeOffset < input.size

/-- Four counts, then as many members of each kind. -/
def HasClassData (input : Bytes) (fields methods offset : Nat) : Prop :=
  ∃ statics instances directs virtuals, ∃ first second third fourth stop,
    input.HoldsNumbers offset [statics, instances, directs, virtuals] first ∧
      input.HasMembers fields input.HasFieldDetails statics 0 first second ∧
      input.HasMembers fields input.HasFieldDetails instances 0 second third ∧
      input.HasMembers methods input.HasMethodDetails directs 0 third fourth ∧
      input.HasMembers methods input.HasMethodDetails virtuals 0 fourth stop

structure HasProto (input : Bytes) (strings types pos : Nat) : Prop where
  shorty : input.HasIndex strings pos
  returnType : input.HasIndex types (pos + 4)
  parameters : ∃ offset, input.u32At? (pos + 8) = some offset ∧
    (offset ≠ 0 → input.HasTypeList types offset)

structure HasField (input : Bytes) (strings types pos : Nat) : Prop where
  classType : input.HasShortIndex types pos
  type : input.HasShortIndex types (pos + 2)
  name : input.HasIndex strings (pos + 4)

structure HasMethod (input : Bytes) (strings types protos pos : Nat) : Prop where
  classType : input.HasShortIndex types pos
  proto : input.HasShortIndex protos (pos + 2)
  name : input.HasIndex strings (pos + 4)

structure HasClass (input : Bytes) (sizes : ClassItem.Sizes) (pos : Nat) : Prop where
  fits : pos + 32 ≤ input.size
  type : input.HasIndex sizes.types pos
  superclass : input.HasIndexOrNone sizes.types (pos + 8)
  interfaces : ∃ offset, input.u32At? (pos + 12) = some offset ∧
    (offset ≠ 0 → input.HasTypeList sizes.types offset)
  sourceFile : input.HasIndexOrNone sizes.strings (pos + 16)
  data : ∃ offset, input.u32At? (pos + 24) = some offset ∧
    (offset ≠ 0 → input.HasClassData sizes.fields sizes.methods offset)

/-- The sizes that an input declares for the tables a class refers to. -/
def sizes (input : Bytes) : ClassItem.Sizes where
  strings := input.tableCount .strings
  types := input.tableCount .types
  fields := input.tableCount .fields
  methods := input.tableCount .methods

/-- A table within the input, with all its items there. -/
structure HasTable (input : Bytes) (table : Table) (hasItem : Nat → Prop) : Prop where
  fits : input.tableOffset table + input.tableCount table * table.itemSize ≤ input.size
  item : ∀ index < input.tableCount table,
    hasItem (input.tableOffset table + index * table.itemSize)

/-- A dex file: a header and six tables. -/
structure IsDex (input : Bytes) : Prop where
  header : input.HasHeader
  strings : input.HasTable .strings input.HasString
  types : input.HasTable .types (input.HasIndex (input.tableCount .strings))
  protos : input.HasTable .protos
    (input.HasProto (input.tableCount .strings) (input.tableCount .types))
  fields : input.HasTable .fields
    (input.HasField (input.tableCount .strings) (input.tableCount .types))
  methods : input.HasTable .methods
    (input.HasMethod (input.tableCount .strings) (input.tableCount .types)
      (input.tableCount .protos))
  classes : input.HasTable .classes (input.HasClass input.sizes)

end Bytes

/-! ## What is there is stored -/

variable {input : Bytes}

theorem exists_list_iff {α : Type} {p : Nat → α → Prop} {count : Nat} :
    (∃ list : List α, list.length = count ∧
      ∀ index (h : index < list.length), p index list[index]) ↔
      ∀ index < count, ∃ a, p index a := by
  constructor
  · rintro ⟨list, rfl, hlist⟩ index hindex
    exact ⟨_, hlist index hindex⟩
  · intro h
    refine ⟨List.ofFn fun index : Fin count => (h index index.isLt).choose, by simp, ?_⟩
    intro index hindex
    rw [List.getElem_ofFn]
    exact (h index (by simpa using hindex)).choose_spec

theorem StringItem.exists_storedAt_iff {pos : Nat} :
    (∃ item : StringItem, item.StoredAt input pos) ↔ input.HasString pos := by
  constructor
  · rintro ⟨_, offset, hoffset, hlt, unitCount, next, bytes, hcount, hbytes, rfl⟩
    obtain ⟨stop, hle, hstop⟩ := Bytes.exists_untilNul_iff.mp ⟨bytes, hbytes⟩
    exact ⟨offset, hoffset, hlt, unitCount, next, stop, hcount, hle, hstop⟩
  · rintro ⟨offset, hoffset, hlt, unitCount, next, stop, hcount, hle, hstop⟩
    obtain ⟨bytes, hbytes⟩ := Bytes.exists_untilNul_iff.mpr ⟨stop, hle, hstop⟩
    exact ⟨_, offset, hoffset, hlt, unitCount, next, bytes, hcount, hbytes, rfl⟩

theorem TypeItem.exists_storedAt_iff {strings : Pool.Strings} (arrayLimit index : Nat) {pos : Nat} :
    (∃ item : TypeItem, item.StoredAt input strings arrayLimit index pos) ↔
      input.HasIndex strings.size pos := by
  constructor
  · rintro ⟨item, -, hindex, string, hstring, -⟩
    exact ⟨_, hindex, (Array.getElem?_eq_some_iff.mp hstring).1⟩
  · rintro ⟨stringIndex, hindex, hlt⟩
    exact ⟨⟨index, stringIndex, _⟩, rfl, hindex, _, Array.getElem?_eq_getElem hlt, rfl⟩

namespace Bytes

/-- A list that holds types ends within the input. -/
theorem HoldsTypes.end_le {types offset : Nat} {list : List Nat}
    (h : input.HoldsTypes types offset list) : offset + 4 + 2 * list.length ≤ input.size := by
  have hlength := exists_u32At?_iff.mp ⟨_, h.length⟩
  by_cases hlist : list.length = 0
  · omega
  · have hlast := exists_u16At?_iff.mp ⟨_, h.entry (list.length - 1) (by omega)⟩
    omega

theorem exists_holdsTypes_iff {types offset : Nat} :
    (∃ list, input.HoldsTypes types offset list) ↔ input.HasTypeList types offset := by
  constructor
  · rintro ⟨list, h⟩
    refine ⟨list.length, h.length, h.end_le, fun entry hentry => ?_⟩
    exact ⟨_, h.entry entry hentry, h.entry_lt _ (List.getElem_mem hentry)⟩
  · rintro ⟨size, hsize, -, hentries⟩
    obtain ⟨list, rfl, hlist⟩ := exists_list_iff.mpr hentries
    refine ⟨list, hsize, fun entry hentry => (hlist entry hentry).1, fun type hmem => ?_⟩
    obtain ⟨entry, hentry, rfl⟩ := List.mem_iff_getElem.mp hmem
    exact (hlist entry hentry).2

theorem exists_holdsTypesOrNone_iff {types offset : Nat} :
    (∃ list, input.HoldsTypesOrNone types offset list) ↔
      (offset ≠ 0 → input.HasTypeList types offset) := by
  unfold HoldsTypesOrNone
  split
  next hzero => simp [hzero]
  next hne => simp [hne, exists_holdsTypes_iff]

end Bytes

theorem ProtoItem.exists_storedAt_iff {strings types pos : Nat} :
    (∃ item : ProtoItem, item.StoredAt input strings types pos) ↔
      input.HasProto strings types pos := by
  constructor
  · rintro ⟨item, h⟩
    exact ⟨⟨_, h.shorty, h.shorty_lt⟩, ⟨_, h.returnType, h.returnType_lt⟩, _, h.parametersOffset,
      Bytes.exists_holdsTypesOrNone_iff.mp ⟨_, h.parameters⟩⟩
  · rintro ⟨⟨shorty, hshorty⟩, ⟨returnType, hreturn⟩, offset, hoffset, hlist⟩
    obtain ⟨parameters, hparameters⟩ := Bytes.exists_holdsTypesOrNone_iff.mpr hlist
    exact ⟨⟨shorty, returnType, offset, parameters⟩, hshorty.1, hshorty.2, hreturn.1, hreturn.2,
      hoffset, hparameters⟩

theorem FieldItem.exists_storedAt_iff {strings types pos : Nat} :
    (∃ item : FieldItem, item.StoredAt input strings types pos) ↔
      input.HasField strings types pos := by
  constructor
  · rintro ⟨item, h⟩
    exact ⟨⟨_, h.classType, h.classType_lt⟩, ⟨_, h.type, h.type_lt⟩, _, h.name, h.name_lt⟩
  · rintro ⟨⟨classType, hclass⟩, ⟨type, htype⟩, name, hname⟩
    exact ⟨⟨classType, type, name⟩, hclass.1, hclass.2, htype.1, htype.2, hname.1, hname.2⟩

theorem MethodItem.exists_storedAt_iff {strings types protos pos : Nat} :
    (∃ item : MethodItem, item.StoredAt input strings types protos pos) ↔
      input.HasMethod strings types protos pos := by
  constructor
  · rintro ⟨item, h⟩
    exact ⟨⟨_, h.classType, h.classType_lt⟩, ⟨_, h.proto, h.proto_lt⟩, _, h.name, h.name_lt⟩
  · rintro ⟨⟨classType, hclass⟩, ⟨proto, hproto⟩, name, hname⟩
    exact ⟨⟨classType, proto, name⟩, hclass.1, hclass.2, hproto.1, hproto.2, hname.1, hname.2⟩

/-! ## Class data -/

namespace ClassData

/-- Some list of members is stored just when the input has members. -/
theorem exists_membersAt_iff {α : Type} {index : α → Nat} {details : α → List Nat}
    {good : α → Prop} {detailsAt : Nat → Nat → Prop}
    (hdetails : ∀ i pos stop, detailsAt pos stop ↔
      ∃ member, index member = i ∧ good member ∧ input.HoldsNumbers pos (details member) stop)
    {size count last pos stop : Nat} :
    (∃ list : List α, list.length = count ∧
      MembersAt input index details good size last pos list stop) ↔
      input.HasMembers size detailsAt count last pos stop := by
  induction count generalizing last pos with
  | zero =>
      constructor
      · rintro ⟨list, hlength, hlist⟩
        obtain rfl := List.length_eq_zero_iff.mp hlength
        exact membersAt_nil.mp hlist
      · intro hstop
        exact ⟨[], rfl, membersAt_nil.mpr hstop⟩
  | succ count ih =>
      constructor
      · rintro ⟨list, hlength, hlist⟩
        cases list with
        | nil => simp at hlength
        | cons member list =>
            obtain ⟨difference, middle, next, hdifference, hlt, hmember, hlist⟩ :=
              membersAt_cons.mp hlist
            exact ⟨difference, middle, next, hdifference, hlt,
              (hdetails _ _ _).mpr ⟨member, hmember⟩,
              ih.mp ⟨list, by simpa using hlength, hlist⟩⟩
      · rintro ⟨difference, middle, next, hdifference, hlt, hmember, hmembers⟩
        obtain ⟨member, hmember⟩ := (hdetails (last + difference) _ _).mp hmember
        obtain ⟨list, hlength, hlist⟩ := ih.mpr hmembers
        exact ⟨member :: list, by simp [hlength],
          membersAt_cons.mpr ⟨difference, middle, next, hdifference, hlt, hmember, hlist⟩⟩

theorem hasFieldDetails_iff (field pos stop : Nat) :
    input.HasFieldDetails pos stop ↔ ∃ member : DefinedField,
      member.field = field ∧ True ∧ input.HoldsNumbers pos member.details stop := by
  constructor
  · rintro ⟨flags, hflags⟩
    refine ⟨⟨field, ⟨UInt32.ofNat flags⟩⟩, rfl, trivial, Bytes.holdsNumbers_singleton.mpr ?_⟩
    rw [hflags, UInt32.toNat_ofNat', Nat.mod_eq_of_lt (Bytes.uleb128At?_lt hflags)]
  · rintro ⟨member, rfl, -, hdetails⟩
    exact ⟨_, Bytes.holdsNumbers_singleton.mp hdetails⟩

theorem hasMethodDetails_iff (method pos stop : Nat) :
    input.HasMethodDetails pos stop ↔ ∃ member : DefinedMethod,
      member.method = method ∧ member.codeOffset < input.size ∧
        input.HoldsNumbers pos member.details stop := by
  constructor
  · rintro ⟨flags, middle, codeOffset, hflags, hcode, hlt⟩
    refine ⟨⟨method, ⟨UInt32.ofNat flags⟩, codeOffset⟩, rfl, hlt, middle, ?_, stop, hcode, rfl⟩
    rw [hflags, UInt32.toNat_ofNat', Nat.mod_eq_of_lt (Bytes.uleb128At?_lt hflags)]
  · rintro ⟨member, rfl, hlt, middle, hflags, _, hcode, rfl⟩
    exact ⟨_, middle, _, hflags, hcode, hlt⟩

theorem exists_fields_iff {fields count pos stop : Nat} :
    (∃ list, list.length = count ∧ FieldsInRange fields list ∧
      input.HoldsNumbers pos (fieldNumbers list) stop) ↔
      input.HasMembers fields input.HasFieldDetails count 0 pos stop := by
  rw [← exists_membersAt_iff hasFieldDetails_iff]
  simp only [membersAt_fields]

theorem exists_methods_iff {methods count pos stop : Nat} :
    (∃ list, list.length = count ∧ MethodsInRange methods input.size list ∧
      input.HoldsNumbers pos (methodNumbers list) stop) ↔
      input.HasMembers methods input.HasMethodDetails count 0 pos stop := by
  rw [← exists_membersAt_iff hasMethodDetails_iff]
  simp only [membersAt_methods]

theorem exists_storedAt_iff {fields methods offset : Nat} :
    (∃ (data : ClassData) (stop : Nat), data.StoredAt input fields methods offset stop) ↔
      input.HasClassData fields methods offset := by
  constructor
  · rintro ⟨data, stop, hnumbers, hstatic, hinstance, hdirect, hvirtual⟩
    simp only [numbers, Bytes.holdsNumbers_append] at hnumbers
    obtain ⟨fourth, ⟨third, ⟨second, ⟨first, hcounts, hstatics⟩, hinstances⟩, hdirects⟩,
      hvirtuals⟩ := hnumbers
    exact ⟨_, _, _, _, first, second, third, fourth, stop, hcounts,
      exists_fields_iff.mp ⟨_, rfl, hstatic, hstatics⟩,
      exists_fields_iff.mp ⟨_, rfl, hinstance, hinstances⟩,
      exists_methods_iff.mp ⟨_, rfl, hdirect, hdirects⟩,
      exists_methods_iff.mp ⟨_, rfl, hvirtual, hvirtuals⟩⟩
  · rintro ⟨_, _, _, _, first, second, third, fourth, stop, hcounts, hstatics, hinstances, hdirects,
      hvirtuals⟩
    obtain ⟨statics, rfl, hstatic, hstatics⟩ := exists_fields_iff.mpr hstatics
    obtain ⟨instances, rfl, hinstance, hinstances⟩ := exists_fields_iff.mpr hinstances
    obtain ⟨directs, rfl, hdirect, hdirects⟩ := exists_methods_iff.mpr hdirects
    obtain ⟨virtuals, rfl, hvirtual, hvirtuals⟩ := exists_methods_iff.mpr hvirtuals
    refine ⟨⟨statics, instances, directs, virtuals⟩, stop, ?_, hstatic, hinstance, hdirect,
      hvirtual⟩
    simp only [numbers, Bytes.holdsNumbers_append]
    exact ⟨fourth, ⟨third, ⟨second, ⟨first, hcounts, hstatics⟩, hinstances⟩, hdirects⟩, hvirtuals⟩

theorem exists_storedOrNone_iff {fields methods offset : Nat} :
    (∃ data?, StoredOrNone input fields methods offset data?) ↔
      (offset ≠ 0 → input.HasClassData fields methods offset) := by
  unfold StoredOrNone
  split
  next hzero => simp [hzero]
  next hne =>
    rw [← exists_storedAt_iff]
    constructor
    · rintro ⟨_, data, stop, rfl, hdata⟩ -
      exact ⟨data, stop, hdata⟩
    · intro h
      obtain ⟨data, stop, hdata⟩ := h hne
      exact ⟨some data, data, stop, rfl, hdata⟩

end ClassData

theorem hasIndexOrNone_iff {bound pos : Nat} :
    input.HasIndexOrNone bound pos ↔ ∃ reference : Option Nat,
      (input.u32At? pos).map reference? = some reference ∧ ∀ index ∈ reference, index < bound := by
  constructor
  · rintro ⟨index, hindex, hbound⟩
    refine ⟨reference? index, by rw [hindex, Option.map_some], fun found hfound => ?_⟩
    unfold reference? at hfound
    split at hfound
    next => simp at hfound
    next hne =>
      obtain rfl : index = found := by simpa using hfound
      exact hbound.resolve_left hne
  · rintro ⟨reference, hreference, hbound⟩
    obtain ⟨index, hindex, rfl⟩ := Option.map_eq_some_iff.mp hreference
    refine ⟨index, hindex, ?_⟩
    by_cases hnone : index = noIndex
    · exact Or.inl hnone
    · exact Or.inr (hbound index (by simp [reference?, hnone]))

theorem ClassItem.exists_storedAt_iff {sizes : ClassItem.Sizes} {pos : Nat} :
    (∃ item : ClassItem, item.StoredAt input sizes pos) ↔ input.HasClass sizes pos := by
  constructor
  · rintro ⟨item, h⟩
    obtain ⟨interfacesOffset, hinterfaces, hlist⟩ := h.interfaces
    obtain ⟨dataOffset, hdata, hdata?⟩ := h.data
    have hfits := Bytes.exists_u32At?_iff.mp ⟨_, h.staticValuesOffset⟩
    exact ⟨by omega, ⟨_, h.type, h.type_lt⟩,
      hasIndexOrNone_iff.mpr ⟨_, h.superclass, h.superclass_lt⟩,
      ⟨_, hinterfaces, Bytes.exists_holdsTypesOrNone_iff.mp ⟨_, hlist⟩⟩,
      hasIndexOrNone_iff.mpr ⟨_, h.sourceFile, h.sourceFile_lt⟩,
      ⟨_, hdata, ClassData.exists_storedOrNone_iff.mp ⟨_, hdata?⟩⟩⟩
  · rintro ⟨hfits, ⟨type, htype, htypeLt⟩, hsuper, ⟨interfacesOffset, hinterfaces, hlist⟩, hsource,
      ⟨dataOffset, hdata, hclassData⟩⟩
    obtain ⟨superclass, hsuper, hsuperLt⟩ := hasIndexOrNone_iff.mp hsuper
    obtain ⟨source, hsource, hsourceLt⟩ := hasIndexOrNone_iff.mp hsource
    obtain ⟨interfaces, hlist⟩ := Bytes.exists_holdsTypesOrNone_iff.mpr hlist
    obtain ⟨data?, hdata?⟩ := ClassData.exists_storedOrNone_iff.mpr hclassData
    -- These words may be anything.
    obtain ⟨flags, hflags⟩ := Bytes.exists_u32At?_iff.mpr (by omega : pos + 4 + 4 ≤ input.size)
    obtain ⟨annotations, hannotations⟩ :=
      Bytes.exists_u32At?_iff.mpr (by omega : pos + 20 + 4 ≤ input.size)
    obtain ⟨staticValues, hvalues⟩ :=
      Bytes.exists_u32At?_iff.mpr (by omega : pos + 28 + 4 ≤ input.size)
    refine ⟨⟨type, ⟨UInt32.ofNat flags⟩, superclass, interfaces, source, annotations, data?,
      staticValues⟩, htype, htypeLt, ?_, hsuper, hsuperLt, ⟨_, hinterfaces, hlist⟩, hsource,
      hsourceLt, hannotations, ⟨_, hdata, hdata?⟩, hvalues⟩
    rw [hflags, UInt32.toNat_ofNat', Nat.mod_eq_of_lt (Bytes.u32At?_lt hflags)]

end Dalvik
