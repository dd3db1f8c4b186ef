import Dalvik.Proofs.ContentsStored
import Dalvik.Proofs.HeaderChecks

/-!
# The parts of a written file

The header and the tables of a written file are without gaps, and everything that the tables place
is after them. A load accepts the header, and finds each table where the header has it.
-/

namespace Dalvik

namespace Contents

variable {contents : Contents}

/-! ## Where the parts are -/

@[simp]
theorem length_protoItems : contents.protoItems.length = contents.protos.length := by
  simp [protoItems, parametersOffsets]

@[simp]
theorem length_classRows : contents.classRows.length = contents.classes.length := by
  simp [classRows, interfacesOffsets, classDataOffsets]

theorem length_protoBytes (item : ProtoItem) : (protoBytes item).length = 12 := by
  simp [protoBytes, length_toLittleEndian]

theorem length_fieldBytes (item : FieldItem) : (fieldBytes item).length = 8 := by
  simp [fieldBytes, length_toLittleEndian]

theorem length_methodBytes (item : MethodItem) : (methodBytes item).length = 8 := by
  simp [methodBytes, length_toLittleEndian]

theorem length_classBytes (row : Class × Nat × Nat) : (classBytes row).length = 32 := by
  simp [classBytes, length_toLittleEndian]

theorem size_fileBytes (header : Header) : (contents.fileBytes header).size = contents.size := by
  simp [fileBytes, size]

theorem length_stringRows :
    (contents.stringOffsets.flatMap (toLittleEndian 4)).length = contents.tableSize .strings := by
  rw [length_flatMap_of_width (length_toLittleEndian 4), stringOffsets, Placing.length_offsets]
  rfl

theorem length_typeRows :
    (contents.types.flatMap (toLittleEndian 4)).length = contents.tableSize .types :=
  length_flatMap_of_width (length_toLittleEndian 4) _

theorem length_protoRows :
    (contents.protoItems.flatMap protoBytes).length = contents.tableSize .protos := by
  rw [length_flatMap_of_width length_protoBytes, length_protoItems]
  rfl

theorem length_fieldRows :
    (contents.fields.flatMap fieldBytes).length = contents.tableSize .fields :=
  length_flatMap_of_width length_fieldBytes _

theorem length_methodRows :
    (contents.methods.flatMap methodBytes).length = contents.tableSize .methods :=
  length_flatMap_of_width length_methodBytes _

theorem length_classRows_bytes :
    (contents.classRows.flatMap classBytes).length = contents.tableSize .classes := by
  rw [length_flatMap_of_width length_classBytes, length_classRows]
  rfl

theorem headerLength_add_length_tables :
    headerLength + contents.tables.length = contents.dataStart := by
  simp only [tables, List.length_append, length_stringRows, length_typeRows, length_protoRows,
    length_fieldRows, length_methodRows, length_classRows_bytes, dataStart, tableStart,
    Nat.add_assoc]

theorem dataStart_add_length_data :
    contents.dataStart + contents.data.length = contents.size := by
  rw [size, body, List.length_append, ← headerLength_add_length_tables, Nat.add_assoc]

theorem tableStart_add_tableSize_le (table : Table) :
    contents.tableStart table + contents.tableSize table ≤ contents.size := by
  rw [← dataStart_add_length_data]
  cases table <;> simp only [dataStart, tableStart] <;> omega

/-- The parts of the file in their places. -/
structure PartsAt (input : Bytes) (contents : Contents) : Prop where
  header : input.HasAt 0 contents.header.encode
  strings : input.HasAt (contents.tableStart .strings)
    (contents.stringOffsets.flatMap (toLittleEndian 4))
  types : input.HasAt (contents.tableStart .types) (contents.types.flatMap (toLittleEndian 4))
  protos : input.HasAt (contents.tableStart .protos) (contents.protoItems.flatMap protoBytes)
  fields : input.HasAt (contents.tableStart .fields) (contents.fields.flatMap fieldBytes)
  methods : input.HasAt (contents.tableStart .methods) (contents.methods.flatMap methodBytes)
  classes : input.HasAt (contents.tableStart .classes) (contents.classRows.flatMap classBytes)
  stringData : input.HasAt contents.dataStart contents.stringData
  parametersData : input.HasAt contents.parametersStart contents.parametersData
  interfacesData : input.HasAt contents.interfacesStart contents.interfacesData
  classData : input.HasAt contents.classDataStart contents.classData

theorem partsAt_encode (contents : Contents) : contents.PartsAt contents.encode := by
  have hwhole : contents.encode.HasAt 0
      (contents.header.encode ++ (contents.tables ++ contents.data)) := by
    rw [Bytes.HasAt, Bytes.suffix, encode, fileBytes, List.toList_toArray]
    exact List.prefix_refl _
  obtain ⟨hheader, hbody⟩ := Bytes.hasAt_append.mp hwhole
  rw [Header.length_encode, Nat.zero_add] at hbody
  obtain ⟨htables, hdata⟩ := Bytes.hasAt_append.mp hbody
  rw [headerLength_add_length_tables] at hdata
  simp only [tables, Bytes.hasAt_append, length_stringRows, length_typeRows, length_protoRows,
    length_fieldRows, length_methodRows] at htables
  obtain ⟨hstrings, htypes, hprotos, hfields, hmethods, hclasses⟩ := htables
  simp only [data, Bytes.hasAt_append] at hdata
  obtain ⟨hstringData, hparameters, hinterfaces, hclassData⟩ := hdata
  exact ⟨hheader, hstrings, htypes, hprotos, hfields, hmethods, hclasses, hstringData, hparameters,
    hinterfaces, hclassData⟩

/-! ## The header -/

/-- The bytes of a header from the size of the file on. -/
def afterSignature (header : Header) : List UInt8 :=
  Header.wordBytes header.fileSize ++ (Header.wordBytes header.headerSize ++
    (Header.wordBytes header.endianTag ++ (Header.placementBytes header.link ++
      (Header.wordBytes header.mapOffset ++ (Header.placementBytes header.stringIds ++
        (Header.placementBytes header.typeIds ++ (Header.placementBytes header.protoIds ++
          (Header.placementBytes header.fieldIds ++ (Header.placementBytes header.methodIds ++
            (Header.placementBytes header.classDefs ++ Header.placementBytes header.data))))))))))

theorem toList_fileBytes (header : Header) :
    (contents.fileBytes header).toList =
      (header.magic.toList ++ Header.wordBytes header.checksum) ++
        (header.signature.toList ++ (afterSignature header ++ contents.body)) := by
  simp [fileBytes, Header.encode, afterSignature, List.append_assoc]

/-- What the checksum covers does not depend on it. -/
theorem checksum_headerWith (checksum other : UInt32) (signature : Vector UInt8 20) :
    Adler32.checksum
        ((contents.fileBytes (contents.headerWith checksum signature)).toList.drop 12) =
      Adler32.checksum
        ((contents.fileBytes (contents.headerWith other signature)).toList.drop 12) := by
  rw [toList_fileBytes, toList_fileBytes, List.drop_left' (by simp), List.drop_left' (by simp)]
  rfl

/-- What the signature covers depends neither on it nor on the checksum. -/
theorem signature_headerWith (checksum otherChecksum : UInt32)
    (signature otherSignature : Vector UInt8 20) :
    Sha1.digest ((contents.fileBytes (contents.headerWith checksum signature)).toList.drop 32) =
      Sha1.digest
        ((contents.fileBytes (contents.headerWith otherChecksum otherSignature)).toList.drop
          32) := by
  rw [toList_fileBytes, toList_fileBytes, ← List.append_assoc, List.drop_left' (by simp),
    ← List.append_assoc (_ ++ Header.wordBytes _), List.drop_left' (by simp)]
  rfl

theorem size_encode : contents.encode.size = contents.size :=
  size_fileBytes _

theorem placement_header (table : Table) :
    contents.header.placement table =
      placement (contents.count table) (contents.tableStart table) := by
  cases table <;> rfl

theorem toNat_size_placement {size : Nat} (h : size < 2 ^ 32) (offset : Nat) :
    (placement size offset).size.toNat = size := by
  rw [placement, UInt32.toNat_ofNat', Nat.mod_eq_of_lt h]

theorem toNat_offset_placement {offset : Nat} (h : offset < 2 ^ 32) (size : Nat) :
    (placement size offset).offset.toNat = if size = 0 then 0 else offset := by
  rw [placement, UInt32.toNat_ofNat']
  split
  · rfl
  · exact Nat.mod_eq_of_lt h

theorem count_le_size (table : Table) : contents.count table ≤ contents.size := by
  have hend := contents.tableStart_add_tableSize_le table
  rw [tableSize] at hend
  cases table <;> simp only [Table.itemSize] at hend <;> omega

theorem headerLength_le_tableStart (table : Table) :
    headerLength ≤ contents.tableStart table := by
  cases table <;> simp only [tableStart] <;> omega

theorem storedIn_header : contents.header.StoredIn contents.encode where
  bytes := contents.partsAt_encode.header
  magic := (by decide : Header.isMagic magic.toList)
  endianTag := rfl

theorem parametersStart_pos : 0 < contents.parametersStart := by
  have hstart : headerLength ≤ contents.tableStart .classes := headerLength_le_tableStart .classes
  rw [headerLength] at hstart
  rw [parametersStart, dataStart]
  omega

theorem interfacesStart_pos : 0 < contents.interfacesStart :=
  Nat.add_pos_left parametersStart_pos _

theorem classDataStart_pos : 0 < contents.classDataStart :=
  Nat.add_pos_left interfacesStart_pos _

section Size

variable (hsize : contents.size < 2 ^ 32)

include hsize

theorem count_header (table : Table) : contents.header.count table = contents.count table := by
  rw [Header.count, placement_header]
  exact toNat_size_placement (Nat.lt_of_le_of_lt (count_le_size table) hsize) _

theorem offset_header (table : Table) :
    contents.header.offset table =
      if contents.count table = 0 then 0 else contents.tableStart table := by
  have hend := contents.tableStart_add_tableSize_le table
  rw [Header.offset, placement_header]
  exact toNat_offset_placement (by omega) _

theorem describesInput_header (options : Options) :
    contents.header.DescribesInput contents.encode options where
  headerSize := rfl
  fileSize := by
    rw [size_encode]
    exact Nat.mod_eq_of_lt hsize
  checksum _ := checksum_headerWith _ _ _
  signature _ := by
    rw [encode, header, signature_headerWith contents.checksum 0 contents.signature]
    rfl

/-- A section that the header places ends within the file or is empty. -/
theorem admits_header (options : Options) {block : Section} (hblock : block ∈ Layout.order) :
    contents.header.Admits contents.encode.size options block := by
  rw [Header.Admits, size_encode]
  cases block with
  | header => exact absurd hblock (by decide)
  | table table =>
      have hend := contents.tableStart_add_tableSize_le table
      rw [tableSize] at hend
      simp only [Header.span, count_header hsize, offset_header hsize]
      split
      next hzero => simp [hzero]
      next hne => exact Or.inr (Or.inl hend)
  | data =>
      have hend := contents.dataStart_add_length_data
      have hdataSize : contents.header.data.size.toNat = contents.data.length :=
        toNat_size_placement (by omega) _
      have hdataOffset : contents.header.data.offset.toNat = _ :=
        toNat_offset_placement (by omega) contents.data.length
      simp only [Header.span, hdataSize, hdataOffset]
      split
      next hzero => simp [hzero]
      next hne => exact Or.inr (Or.inl (Nat.le_of_eq hend))
  | link => exact Or.inl rfl

/-- A table holds the items that stand where it starts. -/
theorem holds_header {α : Type} {table : Table} {itemAt : Nat → Nat → α → Prop} {items : List α}
    (hlength : items.length = contents.count table)
    (hitem : ∀ index item, items[index]? = some item →
      itemAt index (contents.tableStart table + index * table.itemSize) item) :
    table.Holds contents.encode (contents.header.count table) (contents.header.offset table) itemAt
      items.toArray := by
  have hend := contents.tableStart_add_tableSize_le table
  rw [tableSize] at hend
  rw [count_header hsize, offset_header hsize]
  split
  next hzero =>
    refine ⟨by simp [hzero], by simpa using hlength, fun index h => ?_⟩
    rw [List.size_toArray] at h
    omega
  next hne =>
    refine ⟨?_, by simpa using hlength, fun index h => hitem index _ (by simp)⟩
    rw [size_encode]
    exact hend

end Size

/-! ## What the rows place -/

/-- A prototype is written with the offset of its parameters. -/
theorem exists_parameters {index : Nat} {item : ProtoItem}
    (hitem : contents.protoItems[index]? = some item) :
    ∃ proto start, contents.protos[index]? = some proto ∧ 0 < start ∧
      contents.encode.HasAt start (typeListBytes start proto.parameters) ∧
      item = ⟨proto.shorty, proto.returnType, typeListOffset start proto.parameters,
        proto.parameters⟩ := by
  obtain ⟨proto, offset, hproto, hoffset, rfl⟩ := List.getElem?_zipWith_eq_some.mp hitem
  have hlist : (contents.protos.map Proto.parameters)[index]? = some proto.parameters := by
    simp [hproto]
  obtain ⟨start, hle, hbytes, hplaced⟩ :=
    contents.partsAt_encode.parametersData.placed typeListOffset hlist
  have hpos : 0 < start := Nat.lt_of_lt_of_le parametersStart_pos hle
  obtain rfl : offset = typeListOffset start proto.parameters :=
    Option.some.inj (hoffset.symm.trans hplaced)
  exact ⟨proto, start, hproto, hpos, hbytes, rfl⟩

/-- A class is written with the offsets of its interfaces and of its class data. -/
theorem exists_classRow {index : Nat} {entry : Class}
    (hentry : contents.classes[index]? = some entry) :
    ∃ listStart dataStart, 0 < listStart ∧ 0 < dataStart ∧
      contents.encode.HasAt listStart (typeListBytes listStart entry.interfaces) ∧
      contents.encode.HasAt dataStart (classDataBytes dataStart entry.data) ∧
      contents.classRows[index]? = some (entry, typeListOffset listStart entry.interfaces,
        classDataOffset dataStart entry.data) := by
  have hinterfaces : (contents.classes.map Class.interfaces)[index]? = some entry.interfaces := by
    simp [hentry]
  have hdata : (contents.classes.map Class.data)[index]? = some entry.data := by simp [hentry]
  obtain ⟨listStart, hlistStart, hlist, hlistOffset⟩ :=
    contents.partsAt_encode.interfacesData.placed typeListOffset hinterfaces
  obtain ⟨dataStart, hdataStart, hdata, hdataOffset⟩ :=
    contents.partsAt_encode.classData.placed classDataOffset hdata
  refine ⟨listStart, dataStart, Nat.lt_of_lt_of_le interfacesStart_pos hlistStart,
    Nat.lt_of_lt_of_le classDataStart_pos hdataStart, hlist, hdata, ?_⟩
  simp only [classRows, List.getElem?_zip_eq_some]
  exact ⟨hentry, hlistOffset, hdataOffset⟩

/-- The offset of parameters is zero just when there are none. -/
theorem parametersOffset_eq_zero_iff {item : ProtoItem} (hitem : item ∈ contents.protoItems) :
    item.parametersOffset = 0 ↔ item.parameters = [] := by
  obtain ⟨index, hindex⟩ := List.mem_iff_getElem?.mp hitem
  obtain ⟨proto, start, -, hpos, -, rfl⟩ := exists_parameters hindex
  have halign := le_align start
  simp only [typeListOffset]
  split
  next hnil => simp [hnil]
  next hne =>
    simp only [hne, iff_false]
    omega

end Contents

end Dalvik
