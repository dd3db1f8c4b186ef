import Dalvik.Proofs.ContentsParts
import Dalvik.Proofs.ImageReads

/-!
# Round trip of files

A file that is written for some contents is read as an image of those contents, under strict checks
as well as without them.
-/

namespace Dalvik

namespace Contents

/-- Whether all indices are in range and fit the width they are written in, and all code starts
within `length` bytes. -/
structure InRange (contents : Contents) (length : Nat) : Prop where
  types : ∀ string ∈ contents.types, string < contents.strings.length
  protos : ∀ proto ∈ contents.protos, proto.shorty < contents.strings.length ∧
    proto.returnType < contents.types.length ∧
    ∀ type ∈ proto.parameters, type < contents.types.length ∧ type < 2 ^ 16
  fields : ∀ field ∈ contents.fields,
    (field.classType < contents.types.length ∧ field.classType < 2 ^ 16) ∧
    (field.type < contents.types.length ∧ field.type < 2 ^ 16) ∧
    field.name < contents.strings.length
  methods : ∀ method ∈ contents.methods,
    (method.classType < contents.types.length ∧ method.classType < 2 ^ 16) ∧
    (method.proto < contents.protos.length ∧ method.proto < 2 ^ 16) ∧
    method.name < contents.strings.length
  classType : ∀ item ∈ contents.classes, item.type < contents.types.length
  superclass : ∀ item ∈ contents.classes, ∀ type ∈ item.superclass, type < contents.types.length
  interfaces : ∀ item ∈ contents.classes, ∀ type ∈ item.interfaces,
    type < contents.types.length ∧ type < 2 ^ 16
  sourceFile : ∀ item ∈ contents.classes, ∀ string ∈ item.sourceFile,
    string < contents.strings.length
  classData : ∀ item ∈ contents.classes, ∀ data ∈ item.data,
    data.InRange contents.fields.length contents.methods.length length

variable {contents : Contents}

/-! ## The pools -/

/-- A class as the file has it. -/
def Class.item (item : Class) : ClassItem where
  type := item.type
  flags := item.flags
  superclass := item.superclass
  interfaces := item.interfaces
  sourceFile := item.sourceFile
  annotationsOffset := item.annotationsOffset.toNat
  data := item.data
  staticValuesOffset := item.staticValuesOffset.toNat

/-- The item that a text is read as. -/
def stringItem (text : String) : StringItem :=
  ⟨Text.ModifiedUtf8.unitCount text.toList, text, false⟩

def typeItem (contents : Contents) (arrayLimit index stringIndex : Nat) : TypeItem :=
  ⟨index, stringIndex,
    Descriptor.ofText ((contents.strings[stringIndex]?).getD "") arrayLimit⟩

def stringPool (contents : Contents) : Pool.Strings :=
  .ofItems (contents.strings.map stringItem).toArray

def typePool (contents : Contents) (arrayLimit : Nat) : Pool.Types :=
  .ofItems contents.stringPool (contents.types.mapIdx (contents.typeItem arrayLimit)).toArray

def protoPool (contents : Contents) : Pool.Protos :=
  ⟨some .protos, contents.protoItems.toArray⟩

def fieldPool (contents : Contents) : Pool.Fields :=
  ⟨some .fields, contents.fields.toArray⟩

def methodPool (contents : Contents) : Pool.Methods :=
  ⟨some .methods, contents.methods.toArray⟩

def classPool (contents : Contents) : Pool.Classes :=
  .ofItems (contents.classes.map Class.item).toArray

/-- The image of the file, with nothing noted. -/
def image (contents : Contents) (options : Options) : Image where
  input := contents.encode
  header := contents.header
  layout := Layout.placed contents.header contents.encode.size
  strings := contents.stringPool
  types := contents.typePool options.arrayLimit
  protos := contents.protoPool
  fields := contents.fieldPool
  methods := contents.methodPool
  classes := contents.classPool
  journal := {}

@[simp]
theorem size_stringPool : contents.stringPool.size = contents.strings.length := by
  simp [stringPool, Pool.Strings.ofItems, Pool.Strings.size]

@[simp]
theorem size_typePool (arrayLimit : Nat) :
    (contents.typePool arrayLimit).size = contents.types.length := by
  simp [typePool, Pool.Types.ofItems, Pool.Types.size]

@[simp]
theorem size_protoPool : contents.protoPool.size = contents.protos.length := by
  simp [protoPool, Pool.References.size]

@[simp]
theorem size_fieldPool : contents.fieldPool.size = contents.fields.length := by
  simp [fieldPool, Pool.References.size]

@[simp]
theorem size_methodPool : contents.methodPool.size = contents.methods.length := by
  simp [methodPool, Pool.References.size]

section Pools

variable (hsize : contents.size < 2 ^ 32)

include hsize

theorem storedIn_stringPool :
    contents.stringPool.StoredIn contents.encode contents.header := by
  have hencode : contents.encode.size < 2 ^ 32 := size_encode ▸ hsize
  refine ⟨rfl, holds_header hsize (List.length_map _) fun index item hitem => ?_⟩
  obtain ⟨text, htext, rfl⟩ : ∃ text, contents.strings[index]? = some text ∧
      stringItem text = item := by
    simpa using hitem
  obtain ⟨start, -, hbytes, hoffset⟩ :=
    contents.partsAt_encode.stringData.placed (fun pos _ => pos) htext
  have hword := contents.partsAt_encode.strings.row (length_toLittleEndian 4) hoffset
  have hstart := lt_size_of_hasAt hbytes
  have hunits := unitCount_le_size hbytes
  exact storedAt_of_hasAt (hword.u32At? (by omega)) hbytes (by omega)

/-- An index below the length of a list of strings or types fits a word. -/
theorem lt_of_lt_count (table : Table) {index : Nat} (h : index < contents.count table) :
    index < 2 ^ 32 :=
  Nat.lt_trans (Nat.lt_of_lt_of_le h (count_le_size table)) hsize

variable (h : contents.InRange contents.size)

include h

theorem storedIn_typePool (arrayLimit : Nat) :
    (contents.typePool arrayLimit).StoredIn contents.encode contents.header contents.stringPool
      arrayLimit := by
  refine ⟨rfl, holds_header hsize List.length_mapIdx fun index item hitem => ?_⟩
  obtain ⟨string, hstring, rfl⟩ : ∃ string, contents.types[index]? = some string ∧
      contents.typeItem arrayLimit index string = item := by
    simpa using hitem
  have hlt := h.types _ (List.mem_of_getElem? hstring)
  have hword := contents.partsAt_encode.types.row (length_toLittleEndian 4) hstring
  refine ⟨rfl, hword.u32At? (lt_of_lt_count hsize .strings hlt),
    stringItem contents.strings[string], ?_, ?_⟩
  · simp [stringPool, Pool.Strings.ofItems, typeItem, hlt]
  · simp [typeItem, stringItem, hlt]

theorem storedIn_protoPool :
    contents.protoPool.StoredIn contents.encode contents.header .protos fun pos item =>
      item.StoredAt contents.encode contents.strings.length contents.types.length pos := by
  have hencode : contents.encode.size < 2 ^ 32 := size_encode ▸ hsize
  refine ⟨rfl, holds_header hsize length_protoItems fun index item hitem => ?_⟩
  have hrow := contents.partsAt_encode.protos.row length_protoBytes hitem
  obtain ⟨proto, start, hproto, hstart, hbytes, rfl⟩ := exists_parameters hitem
  obtain ⟨hshorty, hreturn, hparameters⟩ := h.protos proto (List.mem_of_getElem? hproto)
  have hoffsetLe := typeListOffset_le hbytes
  simp only [protoBytes, Bytes.hasAt_append, length_toLittleEndian] at hrow
  obtain ⟨hshortyRow, hreturnRow, hoffsetRow⟩ := hrow
  exact ⟨hshortyRow.u32At? (lt_of_lt_count hsize .strings hshorty), hshorty,
    hreturnRow.u32At? (lt_of_lt_count hsize .types hreturn), hreturn,
    hoffsetRow.u32At? (by omega),
    holdsTypesOrNone_of_hasAt hbytes hstart hencode hparameters⟩

theorem storedIn_fieldPool :
    contents.fieldPool.StoredIn contents.encode contents.header .fields fun pos item =>
      item.StoredAt contents.encode contents.strings.length contents.types.length pos := by
  refine ⟨rfl, holds_header hsize rfl fun index item hitem => ?_⟩
  have hrow := contents.partsAt_encode.fields.row length_fieldBytes hitem
  obtain ⟨hclass, htype, hname⟩ := h.fields item (List.mem_of_getElem? hitem)
  simp only [fieldBytes, Bytes.hasAt_append, length_toLittleEndian] at hrow
  obtain ⟨hclassRow, htypeRow, hnameRow⟩ := hrow
  exact ⟨hclassRow.u16At? hclass.2, hclass.1, htypeRow.u16At? htype.2, htype.1,
    hnameRow.u32At? (lt_of_lt_count hsize .strings hname), hname⟩

theorem storedIn_methodPool :
    contents.methodPool.StoredIn contents.encode contents.header .methods fun pos item =>
      item.StoredAt contents.encode contents.strings.length contents.types.length
        contents.protos.length pos := by
  refine ⟨rfl, holds_header hsize rfl fun index item hitem => ?_⟩
  have hrow := contents.partsAt_encode.methods.row length_methodBytes hitem
  obtain ⟨hclass, hproto, hname⟩ := h.methods item (List.mem_of_getElem? hitem)
  simp only [methodBytes, Bytes.hasAt_append, length_toLittleEndian] at hrow
  obtain ⟨hclassRow, hprotoRow, hnameRow⟩ := hrow
  exact ⟨hclassRow.u16At? hclass.2, hclass.1, hprotoRow.u16At? hproto.2, hproto.1,
    hnameRow.u32At? (lt_of_lt_count hsize .strings hname), hname⟩

omit h in
/-- The words of a class that name another item or none. -/
theorem reference?_getD (table : Table) {reference : Option Nat}
    (hreference : ∀ index ∈ reference, index < contents.count table) {pos : Nat}
    (hrow : contents.encode.HasAt pos (toLittleEndian 4 (reference.getD noIndex))) :
    (contents.encode.u32At? pos).map reference? = some reference := by
  cases reference with
  | none =>
      rw [hrow.u32At? (by decide)]
      rfl
  | some index =>
      have hlt := hreference index rfl
      have hcount := contents.count_le_size table
      have hne : index ≠ noIndex := by
        rw [noIndex]
        omega
      rw [hrow.u32At? (lt_of_lt_count hsize table hlt), Option.map_some, Option.getD_some,
        reference?, if_neg hne]

theorem storedIn_classPool :
    contents.classPool.StoredIn contents.encode contents.header
      ⟨contents.strings.length, contents.types.length, contents.fields.length,
        contents.methods.length⟩ := by
  have hencode : contents.encode.size < 2 ^ 32 := size_encode ▸ hsize
  refine ⟨rfl, holds_header hsize (List.length_map _) fun index item hitem => ?_⟩
  obtain ⟨entry, hentry, rfl⟩ : ∃ entry, contents.classes[index]? = some entry ∧
      entry.item = item := by
    simpa using hitem
  have hmem := List.mem_of_getElem? hentry
  obtain ⟨listStart, dataStart, hlistPos, hdataPos, hlist, hdata, hclassRow⟩ :=
    exists_classRow hentry
  have hlistLe := typeListOffset_le hlist
  have hdataLe := classDataOffset_le hdata
  have hrow := contents.partsAt_encode.classes.row length_classBytes hclassRow
  simp only [classBytes, Bytes.hasAt_append, length_toLittleEndian] at hrow
  obtain ⟨htype, hflags, hsuper, hlistWord, hsource, hannotations, hdataWord, hvalues⟩ := hrow
  have htypeLt := h.classType entry hmem
  have hsuperLt := h.superclass entry hmem
  have hsourceLt := h.sourceFile entry hmem
  have hfields : contents.fields.length ≤ 2 ^ 32 :=
    Nat.le_trans (count_le_size .fields) (Nat.le_of_lt hsize)
  have hmethods : contents.methods.length ≤ 2 ^ 32 :=
    Nat.le_trans (count_le_size .methods) (Nat.le_of_lt hsize)
  refine ⟨htype.u32At? (lt_of_lt_count hsize .types htypeLt), htypeLt,
    hflags.u32At? (UInt32.toNat_lt _), reference?_getD hsize .types hsuperLt hsuper,
    hsuperLt, ⟨_, hlistWord.u32At? (by omega),
      holdsTypesOrNone_of_hasAt hlist hlistPos hencode (h.interfaces entry hmem)⟩,
    reference?_getD hsize .strings hsourceLt hsource, hsourceLt,
    hannotations.u32At? (UInt32.toNat_lt _), ⟨_, hdataWord.u32At? (by omega), ?_⟩,
    hvalues.u32At? (UInt32.toNat_lt _)⟩
  refine storedOrNone_of_hasAt hdata hdataPos hencode hfields hmethods ?_
  rw [size_encode]
  exact h.classData entry hmem

theorem storedIn_image {options : Options} (hlimit : contents.size ≤ options.inputLimit) :
    (contents.image options).StoredIn contents.encode options where
  input_eq := rfl
  size_le := size_encode ▸ hlimit
  header := storedIn_header
  described _ := describesInput_header hsize options
  admitted _ hblock := admits_header hsize options hblock
  layout := rfl
  strings := storedIn_stringPool hsize
  types := storedIn_typePool hsize h options.arrayLimit
  protos := by
    simpa [image] using storedIn_protoPool hsize h
  fields := by
    simpa [image] using storedIn_fieldPool hsize h
  methods := by
    simpa [image] using storedIn_methodPool hsize h
  classes := by
    simpa [image, Image.sizes] using storedIn_classPool hsize h

end Pools

/-- An image that says what some contents say. -/
structure DescribedBy (contents : Contents) (image : Image) : Prop where
  counts : ∀ table, image.header.count table = contents.count table
  strings : image.strings.items.toList = contents.strings.map stringItem
  types : image.types.items.toList.map TypeItem.stringIndex = contents.types
  protos : image.protos.items.toList = contents.protoItems
  parametersOffset : ∀ item ∈ image.protos.items.toList,
    item.parametersOffset = 0 ↔ item.parameters = []
  fields : image.fields.items.toList = contents.fields
  methods : image.methods.items.toList = contents.methods
  classes : image.classes.items.toList = contents.classes.map Class.item

theorem describedBy_image (hsize : contents.size < 2 ^ 32) (options : Options) :
    contents.DescribedBy (contents.image options) where
  counts := count_header hsize
  strings := rfl
  types := by
    rw [image, typePool, Pool.Types.ofItems, List.toList_toArray]
    refine List.ext_getElem? fun index => ?_
    simp only [List.getElem?_map, List.getElem?_mapIdx, Option.map_map]
    exact Option.map_id'
  protos := rfl
  parametersOffset _ := parametersOffset_eq_zero_iff
  fields := rfl
  methods := rfl
  classes := rfl

/-- Contents with something in every table. -/
def sample : Contents where
  strings := ["I", "V", "LA;", "VI", "a\x00", "😀"]
  types := [0, 1, 2]
  protos := [⟨3, 1, [0]⟩, ⟨1, 1, []⟩]
  fields := [⟨2, 0, 4⟩]
  methods := [⟨2, 0, 5⟩, ⟨2, 1, 4⟩]
  classes := [{
    type := 2, flags := ⟨1⟩, superclass := some 0, interfaces := [2], sourceFile := some 5
    data := some {
      staticFields := [⟨0, ⟨9⟩⟩]
      directMethods := [⟨0, ⟨0x10001⟩, 200⟩, ⟨1, ⟨1⟩, 0⟩] } }]

theorem size_sample : sample.size = 285 := by
  decide +kernel

theorem inRange_sample : sample.InRange sample.size := by
  rw [size_sample]
  constructor <;> decide

theorem storedIn_sample {options : Options} (hlimit : 285 ≤ options.inputLimit) :
    (sample.image options).StoredIn sample.encode options := by
  rw [← size_sample] at hlimit
  exact storedIn_image (by rw [size_sample]; decide) inRange_sample hlimit

/-- The file that is written for contents in range is read as an image of them, whatever the options
check. -/
theorem read_encode {options : Options} (h : contents.InRange contents.encode.size)
    (hsize : contents.encode.size < 2 ^ 32) (hlimit : contents.encode.size ≤ options.inputLimit) :
    ∃ image, Image.read contents.encode options = .ok image ∧ contents.DescribedBy image := by
  rw [size_encode] at h hsize hlimit
  obtain ⟨journal, hread⟩ :=
    (contents.image options).read_eq_ok_iff.mpr (storedIn_image hsize h hlimit)
  obtain ⟨hcounts, hstrings, htypes, hprotos, hparameters, hfields, hmethods, hclasses⟩ :=
    describedBy_image hsize options
  exact ⟨_, hread, hcounts, hstrings, htypes, hprotos, hparameters, hfields, hmethods, hclasses⟩

theorem read_encode_sample :
    sample.InRange sample.encode.size ∧ sample.encode.size < 2 ^ 32 ∧
      sample.encode.size ≤ Options.strictChecks.inputLimit ∧
      ∃ image, Image.read sample.encode .strictChecks = .ok image ∧ sample.DescribedBy image := by
  have hrange : sample.InRange sample.encode.size := size_encode ▸ inRange_sample
  have hsize : sample.encode.size < 2 ^ 32 := by
    rw [size_encode, size_sample]
    decide
  have hlimit : sample.encode.size ≤ Options.strictChecks.inputLimit := by
    rw [size_encode, size_sample]
    decide
  exact ⟨hrange, hsize, hlimit, read_encode hrange hsize hlimit⟩

end Contents

end Dalvik
