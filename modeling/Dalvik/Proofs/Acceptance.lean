import Dalvik.Proofs.Grammar
import Dalvik.Proofs.RoundTrip

/-!
# Which inputs are accepted

A load that is not strict accepts exactly the dex files. Each part of the grammar is put together
with the part of an image that is stored there.
-/

namespace Dalvik

variable {input : Bytes} {options : Options}

/-! ## The header -/

namespace Bytes

theorem exists_wordBytes_iff {pos : Nat} :
    (∃ word : UInt32, input.HasAt pos (Header.wordBytes word)) ↔ pos + 4 ≤ input.size := by
  rw [← exists_u32At?_iff]
  constructor
  · rintro ⟨word, hword⟩
    exact ⟨_, Header.u32At?_eq_some_toNat_iff.mpr hword⟩
  · rintro ⟨value, hvalue⟩
    refine ⟨UInt32.ofNat value, Header.u32At?_eq_some_toNat_iff.mp ?_⟩
    rw [hvalue, UInt32.toNat_ofNat', Nat.mod_eq_of_lt (u32At?_lt hvalue)]

theorem exists_placementBytes {pos : Nat} (h : pos + 8 ≤ input.size) :
    ∃ placement : Placement, input.HasAt pos (Header.placementBytes placement) := by
  obtain ⟨size, hsize⟩ := exists_wordBytes_iff.mpr (by omega : pos + 4 ≤ input.size)
  obtain ⟨offset, hoffset⟩ := exists_wordBytes_iff.mpr (by omega : pos + 4 + 4 ≤ input.size)
  refine ⟨⟨size, offset⟩, hasAt_append.mpr ⟨hsize, ?_⟩⟩
  rw [Header.length_wordBytes]
  exact hoffset

theorem exists_vector {pos count : Nat} (h : pos + count ≤ input.size) :
    ∃ block : Vector UInt8 count, input.HasAt pos block.toList := by
  have hlength : ((input.suffix pos).take count).length = count := by
    rw [List.length_take, length_suffix]
    omega
  exact ⟨⟨((input.suffix pos).take count).toArray, by simpa using hlength⟩,
    by simpa [HasAt] using List.take_prefix _ _⟩

/-- Two texts of one length at one offset are the same. -/
theorem HasAt.eq {pos : Nat} {first second : List UInt8} (hfirst : input.HasAt pos first)
    (hsecond : input.HasAt pos second) (hlength : first.length = second.length) :
    first = second :=
  (List.prefix_of_prefix_length_le hfirst hsecond (Nat.le_of_eq hlength)).eq_of_length hlength

end Bytes

namespace Header

/-- Every `0x70` bytes are those of a header. -/
theorem exists_encode (h : headerLength ≤ input.size) :
    ∃ header : Header, input.HasAt 0 header.encode := by
  rw [headerLength] at h
  obtain ⟨magic, hmagic⟩ := Bytes.exists_vector (by omega : 0 + 8 ≤ input.size)
  obtain ⟨checksum, hchecksum⟩ := Bytes.exists_wordBytes_iff.mpr (by omega : 8 + 4 ≤ input.size)
  obtain ⟨signature, hsignature⟩ := Bytes.exists_vector (by omega : 12 + 20 ≤ input.size)
  obtain ⟨fileSize, hfileSize⟩ := Bytes.exists_wordBytes_iff.mpr (by omega : 32 + 4 ≤ input.size)
  obtain ⟨headerSize, hheaderSize⟩ :=
    Bytes.exists_wordBytes_iff.mpr (by omega : 36 + 4 ≤ input.size)
  obtain ⟨endianTag, hendian⟩ := Bytes.exists_wordBytes_iff.mpr (by omega : 40 + 4 ≤ input.size)
  obtain ⟨link, hlink⟩ := Bytes.exists_placementBytes (by omega : 44 + 8 ≤ input.size)
  obtain ⟨mapOffset, hmap⟩ := Bytes.exists_wordBytes_iff.mpr (by omega : 52 + 4 ≤ input.size)
  obtain ⟨strings, hstrings⟩ := Bytes.exists_placementBytes (by omega : 56 + 8 ≤ input.size)
  obtain ⟨types, htypes⟩ := Bytes.exists_placementBytes (by omega : 64 + 8 ≤ input.size)
  obtain ⟨protos, hprotos⟩ := Bytes.exists_placementBytes (by omega : 72 + 8 ≤ input.size)
  obtain ⟨fields, hfields⟩ := Bytes.exists_placementBytes (by omega : 80 + 8 ≤ input.size)
  obtain ⟨methods, hmethods⟩ := Bytes.exists_placementBytes (by omega : 88 + 8 ≤ input.size)
  obtain ⟨classes, hclasses⟩ := Bytes.exists_placementBytes (by omega : 96 + 8 ≤ input.size)
  obtain ⟨data, hdata⟩ := Bytes.exists_placementBytes (by omega : 104 + 8 ≤ input.size)
  refine ⟨⟨magic, checksum, signature, fileSize, headerSize, endianTag, link, mapOffset, strings,
    types, protos, fields, methods, classes, data⟩, ?_⟩
  simp only [encode, Bytes.hasAt_append, List.length_append, length_wordBytes,
    length_placementBytes, Vector.length_toList]
  exact ⟨⟨⟨⟨⟨⟨⟨⟨⟨⟨⟨⟨⟨⟨hmagic, hchecksum⟩, hsignature⟩, hfileSize⟩, hheaderSize⟩, hendian⟩,
    hlink⟩, hmap⟩, hstrings⟩, htypes⟩, hprotos⟩, hfields⟩, hmethods⟩, hclasses⟩, hdata⟩

theorem isMagic_iff {magic : List UInt8} (hlength : magic.length = 8) :
    isMagic magic ↔ ∃ digits : List UInt8, digits.length = 3 ∧
      (∀ digit ∈ digits, 0x30 ≤ digit ∧ digit ≤ 0x39) ∧ magic = magicText ++ digits ++ [0] := by
  simp only [isMagic, Bool.and_eq_true, beq_iff_eq, List.all_eq_true, isDigit, decide_eq_true_eq]
  constructor
  · rintro ⟨⟨htext, hdigits⟩, hnul⟩
    refine ⟨(magic.drop 4).take 3, by simp [hlength], hdigits, ?_⟩
    rw [← htext, ← hnul, List.append_assoc, show magic.drop 7 = (magic.drop 4).drop 3 by simp,
      List.take_append_drop, List.take_append_drop]
  · rintro ⟨digits, hthree, hdigits, rfl⟩
    have htext : magicText.length = 4 := rfl
    rw [List.append_assoc, List.take_left' htext, List.drop_left' htext, List.take_left' hthree,
      ← List.append_assoc, List.drop_left' (by simp [htext, hthree])]
    exact ⟨⟨rfl, hdigits⟩, rfl⟩

theorem exists_storedIn_iff : (∃ header : Header, header.StoredIn input) ↔ input.HasHeader := by
  constructor
  · rintro ⟨header, hbytes, hmagic, hendian⟩
    have hfields := fieldsAt_of_hasAt_encode hbytes
    have hlength := hbytes.length_le
    rw [length_encode, Bytes.length_suffix] at hlength
    obtain ⟨digits, hthree, hdigits, heq⟩ := (isMagic_iff (by simp)).mp hmagic
    refine ⟨hlength, ⟨digits, hthree, hdigits, heq ▸ hfields.magic⟩, ?_⟩
    rw [hfields.endianTag, hendian]
    rfl
  · rintro ⟨hfits, ⟨digits, hthree, hdigits, hmagic⟩, hendian⟩
    obtain ⟨header, hbytes⟩ := exists_encode hfits
    have hfields := fieldsAt_of_hasAt_encode hbytes
    refine ⟨header, hbytes, (isMagic_iff (by simp)).mpr ⟨digits, hthree, hdigits, ?_⟩, ?_⟩
    · exact hfields.magic.eq hmagic (by simp [magicText, hthree])
    · rw [hfields.endianTag] at hendian
      exact UInt32.toNat_inj.mp (Option.some.inj hendian)

namespace StoredIn

variable {header : Header}

theorem tableCount_eq (h : header.StoredIn input) (table : Table) :
    input.tableCount table = header.count table := by
  rw [Bytes.tableCount, (fieldsAt_of_hasAt_encode h.bytes).count, Option.getD_some]

theorem tableOffset_eq (h : header.StoredIn input) (table : Table) :
    input.tableOffset table = header.offset table := by
  rw [Bytes.tableOffset, (fieldsAt_of_hasAt_encode h.bytes).offset, Option.getD_some]

/-- A load that is not strict admits every header whose tables fit. -/
theorem admits (h : header.StoredIn input) (hstrict : options.strict = false)
    (hfits : ∀ table : Table,
      input.tableOffset table + input.tableCount table * table.itemSize ≤ input.size)
    (block : Section) : header.Admits input.size options block := by
  cases block with
  | table table =>
      have htable := hfits table
      rw [h.tableOffset_eq, h.tableCount_eq] at htable
      exact Or.inr (Or.inl htable)
  | header | data | link => exact Or.inr (Or.inr ⟨hstrict, fun _ => Section.noConfusion⟩)

end StoredIn

end Header

/-! ## The pools -/

section Pools

variable {α : Type} {header : Header}

/-- The items of a table are stored where the header places it just when they are there. -/
theorem Header.StoredIn.exists_holds_iff (h : header.StoredIn input) {table : Table}
    {itemAt : Nat → Nat → α → Prop} {hasItem : Nat → Prop}
    (hitem : ∀ index pos, (∃ item, itemAt index pos item) ↔ hasItem pos) :
    (∃ items, table.Holds input (header.count table) (header.offset table) itemAt items) ↔
      input.HasTable table hasItem := by
  constructor
  · rintro ⟨items, hfits, hsize, hitems⟩
    refine ⟨?_, fun index hindex => ?_⟩
    · rw [h.tableOffset_eq, h.tableCount_eq]
      exact hfits
    · rw [h.tableCount_eq, ← hsize] at hindex
      rw [h.tableOffset_eq]
      exact (hitem index _).mp ⟨_, hitems index hindex⟩
  · rintro ⟨hfits, hitems⟩
    simp only [h.tableOffset_eq, h.tableCount_eq] at hfits hitems
    obtain ⟨list, hlength, hlist⟩ := exists_list_iff.mpr fun index hindex =>
      (hitem index _).mpr (hitems index hindex)
    exact ⟨list.toArray, hfits, by simpa using hlength, by simpa using hlist⟩

theorem Pool.Strings.exists_storedIn_iff (h : header.StoredIn input) :
    (∃ pool : Pool.Strings, pool.StoredIn input header) ↔
      input.HasTable .strings input.HasString := by
  refine Iff.trans ?_ (h.exists_holds_iff fun _ _ => StringItem.exists_storedAt_iff)
  constructor
  · rintro ⟨pool, -, hitems⟩
    exact ⟨_, hitems⟩
  · rintro ⟨items, hitems⟩
    exact ⟨ofItems items, rfl, hitems⟩

theorem Pool.Types.exists_storedIn_iff (h : header.StoredIn input) (strings : Pool.Strings)
    (arrayLimit : Nat) :
    (∃ pool : Pool.Types, pool.StoredIn input header strings arrayLimit) ↔
      input.HasTable .types (input.HasIndex strings.size) := by
  refine Iff.trans ?_ (h.exists_holds_iff fun index _ =>
    TypeItem.exists_storedAt_iff arrayLimit index)
  constructor
  · rintro ⟨pool, -, hitems⟩
    exact ⟨_, hitems⟩
  · rintro ⟨items, hitems⟩
    exact ⟨ofItems strings items, rfl, hitems⟩

theorem Pool.References.exists_storedIn_iff (h : header.StoredIn input) {table : Table}
    {storedAt : Nat → α → Prop} {hasItem : Nat → Prop}
    (hitem : ∀ pos, (∃ item, storedAt pos item) ↔ hasItem pos) :
    (∃ pool : Pool.References α, pool.StoredIn input header table storedAt) ↔
      input.HasTable table hasItem := by
  refine Iff.trans ?_ (h.exists_holds_iff fun _ => hitem)
  constructor
  · rintro ⟨pool, -, hitems⟩
    exact ⟨_, hitems⟩
  · rintro ⟨items, hitems⟩
    exact ⟨⟨some table, items⟩, rfl, hitems⟩

theorem Pool.Classes.exists_storedIn_iff (h : header.StoredIn input) (sizes : ClassItem.Sizes) :
    (∃ pool : Pool.Classes, pool.StoredIn input header sizes) ↔
      input.HasTable .classes (input.HasClass sizes) := by
  refine Iff.trans ?_ (h.exists_holds_iff fun _ _ => ClassItem.exists_storedAt_iff)
  constructor
  · rintro ⟨pool, -, hitems⟩
    exact ⟨_, hitems⟩
  · rintro ⟨items, hitems⟩
    exact ⟨ofItems items, rfl, hitems⟩

end Pools

/-! ## The whole file -/

/-- A pool has as many items as the input declares for its table. -/
theorem Table.Holds.tableCount_eq {α : Type} {header : Header} {table : Table}
    {itemAt : Nat → Nat → α → Prop} {items : Array α}
    (hitems : table.Holds input (header.count table) (header.offset table) itemAt items)
    (h : header.StoredIn input) : items.size = input.tableCount table :=
  hitems.size.trans (h.tableCount_eq table).symm

theorem Image.StoredIn.isDex {image : Image} (h : image.StoredIn input options) : input.IsDex := by
  have hstrings : image.strings.size = _ := h.strings.holds.tableCount_eq h.header
  have htypes : image.types.size = _ := h.types.holds.tableCount_eq h.header
  have hprotos : image.protos.size = _ := h.protos.holds.tableCount_eq h.header
  have hfields : image.fields.size = _ := h.fields.holds.tableCount_eq h.header
  have hmethods : image.methods.size = _ := h.methods.holds.tableCount_eq h.header
  have hsizes : image.sizes = input.sizes := by
    rw [Image.sizes, hstrings, htypes, hfields, hmethods]
    rfl
  refine ⟨Header.exists_storedIn_iff.mp ⟨_, h.header⟩, ?_, ?_, ?_, ?_, ?_, ?_⟩
  · exact (Pool.Strings.exists_storedIn_iff h.header).mp ⟨_, h.strings⟩
  · rw [← hstrings]
    exact (Pool.Types.exists_storedIn_iff h.header _ _).mp ⟨_, h.types⟩
  · rw [← hstrings, ← htypes]
    exact (Pool.References.exists_storedIn_iff h.header fun _ =>
      ProtoItem.exists_storedAt_iff).mp ⟨_, h.protos⟩
  · rw [← hstrings, ← htypes]
    exact (Pool.References.exists_storedIn_iff h.header fun _ =>
      FieldItem.exists_storedAt_iff).mp ⟨_, h.fields⟩
  · rw [← hstrings, ← htypes, ← hprotos]
    exact (Pool.References.exists_storedIn_iff h.header fun _ =>
      MethodItem.exists_storedAt_iff).mp ⟨_, h.methods⟩
  · rw [← hsizes]
    exact (Pool.Classes.exists_storedIn_iff h.header _).mp ⟨_, h.classes⟩

namespace Bytes.IsDex

theorem fits (h : input.IsDex) (table : Table) :
    input.tableOffset table + input.tableCount table * table.itemSize ≤ input.size := by
  cases table with
  | strings => exact h.strings.fits
  | types => exact h.types.fits
  | protos => exact h.protos.fits
  | fields => exact h.fields.fits
  | methods => exact h.methods.fits
  | classes => exact h.classes.fits

/-- An image is stored in every dex file that is not too long, for a load that is not strict. -/
theorem exists_storedIn (h : input.IsDex) (hstrict : options.strict = false)
    (hsize : input.size ≤ options.inputLimit) : ∃ image : Image, image.StoredIn input options := by
  obtain ⟨header, hheader⟩ := Header.exists_storedIn_iff.mpr h.header
  -- Each pool is found after those that it refers to, with the sizes of those in place of the
  -- counts that the input declares.
  obtain ⟨strings, hstrings⟩ := (Pool.Strings.exists_storedIn_iff hheader).mpr h.strings
  have hstringCount : strings.size = _ := hstrings.holds.tableCount_eq hheader
  obtain ⟨types, htypes⟩ :=
    (Pool.Types.exists_storedIn_iff hheader strings options.arrayLimit).mpr (hstringCount ▸ h.types)
  have htypeCount : types.size = _ := htypes.holds.tableCount_eq hheader
  obtain ⟨protos, hprotos⟩ := (Pool.References.exists_storedIn_iff hheader fun _ =>
    ProtoItem.exists_storedAt_iff).mpr h.protos
  rw [← hstringCount, ← htypeCount] at hprotos
  have hprotoCount : protos.size = _ := hprotos.holds.tableCount_eq hheader
  obtain ⟨fields, hfields⟩ := (Pool.References.exists_storedIn_iff hheader fun _ =>
    FieldItem.exists_storedAt_iff).mpr h.fields
  rw [← hstringCount, ← htypeCount] at hfields
  have hfieldCount : fields.size = _ := hfields.holds.tableCount_eq hheader
  obtain ⟨methods, hmethods⟩ := (Pool.References.exists_storedIn_iff hheader fun _ =>
    MethodItem.exists_storedAt_iff).mpr h.methods
  rw [← hstringCount, ← htypeCount, ← hprotoCount] at hmethods
  have hmethodCount : methods.size = _ := hmethods.holds.tableCount_eq hheader
  obtain ⟨classes, hclasses⟩ := (Pool.Classes.exists_storedIn_iff hheader _).mpr h.classes
  rw [sizes, ← hstringCount, ← htypeCount, ← hfieldCount, ← hmethodCount] at hclasses
  exact ⟨⟨input, header, Layout.placed header input.size, strings, types, protos, fields, methods,
    classes, {}⟩, rfl, hsize, hheader, fun h => by simp [hstrict] at h,
    fun block _ => hheader.admits hstrict h.fits block, rfl, hstrings, htypes, hprotos, hfields,
    hmethods, hclasses⟩

end Bytes.IsDex

/-- A load that is not strict succeeds just for the dex files that are not too long. -/
theorem Image.exists_read_iff_isDex (hstrict : options.strict = false) :
    (∃ image, Image.read input options = .ok image) ↔
      input.size ≤ options.inputLimit ∧ input.IsDex := by
  rw [Image.exists_read_iff]
  constructor
  · rintro ⟨image, h⟩
    exact ⟨h.size_le, h.isDex⟩
  · rintro ⟨hsize, h⟩
    exact h.exists_storedIn hstrict hsize

theorem Contents.isDex_encode_sample :
    ({} : Options).strict = false ∧ sample.encode.IsDex := by
  obtain ⟨journal, hread⟩ := Image.read_eq_ok_iff _ |>.mpr
    (storedIn_sample (by decide : 285 ≤ ({} : Options).inputLimit))
  exact ⟨rfl, ((Image.exists_read_iff_isDex rfl).mp ⟨_, hread⟩).2⟩

end Dalvik
