import Dalvik.Proofs.RoundTrip

/-!
# Referential integrity

Every index in an image that was read refers to an item of the pool it names, so that a lookup fails
only for an index that is not there.
-/

namespace Dalvik

/-- How many items the pool of a table has. -/
def Image.poolSize (image : Image) : Table → Nat
  | .strings => image.strings.size
  | .types => image.types.size
  | .protos => image.protos.size
  | .fields => image.fields.size
  | .methods => image.methods.size
  | .classes => image.classes.size

/-- Everything that an entry of class data refers to is there, in an input of `length` bytes. -/
structure ClassData.Closed (image : Image) (length : Nat) (data : ClassData) : Prop where
  field_lt : ∀ field ∈ data.fields, field.field < image.fields.size
  method_lt : ∀ method ∈ data.methods, method.method < image.methods.size
  codeOffset_lt : ∀ method ∈ data.methods, method.codeOffset < length

/-- Everything that a class definition refers to is there. -/
structure ClassItem.Closed (image : Image) (length : Nat) (item : ClassItem) : Prop where
  type_lt : item.type < image.types.size
  superclass_lt : ∀ type ∈ item.superclass, type < image.types.size
  interfaces_lt : ∀ type ∈ item.interfaces, type < image.types.size
  sourceFile_lt : ∀ string ∈ item.sourceFile, string < image.strings.size
  data : ∀ data ∈ item.data, data.Closed image length

/-- Everything that an index in an image refers to is there, and each type knows its position. -/
structure Image.Closed (image : Image) (length : Nat) : Prop where
  typeItems : ∀ position (item : TypeItem), image.types.items[position]? = some item →
    item.index = position ∧ item.stringIndex < image.strings.size ∧
      image.typeAt item.index = .ok item.descriptor
  protoItems : ∀ item ∈ image.protos.items, item.shorty < image.strings.size ∧
    item.returnType < image.types.size ∧ ∀ type ∈ item.parameters, type < image.types.size
  fieldItems : ∀ item ∈ image.fields.items, item.classType < image.types.size ∧
    item.type < image.types.size ∧ item.name < image.strings.size
  methodItems : ∀ item ∈ image.methods.items, item.classType < image.types.size ∧
    item.proto < image.protos.size ∧ item.name < image.strings.size
  classItems : ∀ item ∈ image.classes.items, item.Closed image length

/-- A lookup that succeeds for the indices below a size, and for no others. -/
def FindsBelow {α : Type} (lookup : Nat → Except Failure α) (size : Nat) : Prop :=
  ∀ index, (∃ a, lookup index = .ok a) ↔ index < size

/-! ## From what is stored -/

variable {input : Bytes} {options : Options} {image : Image}

theorem Table.Holds.of_mem {α : Type} {table : Table} {count offset : Nat}
    {itemAt : Nat → Nat → α → Prop} {items : Array α}
    (h : table.Holds input count offset itemAt items) {item : α} (hmem : item ∈ items) :
    ∃ index pos, itemAt index pos item := by
  obtain ⟨index, hindex, rfl⟩ := Array.mem_iff_getElem.mp hmem
  exact ⟨index, _, h.item index hindex⟩

theorem ClassData.InRange.closed {data : ClassData}
    (h : data.InRange image.fields.size image.methods.size input.size) :
    data.Closed image input.size where
  field_lt field hmem := (List.mem_append.mp hmem).elim (h.staticFields.field_lt field)
    (h.instanceFields.field_lt field)
  method_lt method hmem := (List.mem_append.mp hmem).elim (h.directMethods.method_lt method)
    (h.virtualMethods.method_lt method)
  codeOffset_lt method hmem := (List.mem_append.mp hmem).elim
    (h.directMethods.codeOffset_lt method) (h.virtualMethods.codeOffset_lt method)

theorem ClassItem.StoredAt.closed {pos : Nat} {item : ClassItem}
    (h : item.StoredAt input image.sizes pos) : item.Closed image input.size where
  type_lt := h.type_lt
  superclass_lt := h.superclass_lt
  interfaces_lt := by
    obtain ⟨offset, -, hinterfaces⟩ := h.interfaces
    exact hinterfaces.lt
  sourceFile_lt := h.sourceFile_lt
  data data hdata := by
    obtain ⟨offset, -, hstored⟩ := h.data
    unfold ClassData.StoredOrNone at hstored
    split at hstored
    · simp [hstored] at hdata
    · obtain ⟨found, stop, hfound, hnumbers⟩ := hstored
      obtain rfl : found = data := by simpa [hfound] using hdata
      exact hnumbers.inRange.closed

theorem Image.StoredIn.closed (h : image.StoredIn input options) : image.Closed input.size where
  typeItems position item hitem := by
    obtain ⟨hposition, rfl⟩ := Array.getElem?_eq_some_iff.mp hitem
    have hstored := h.types.holds.item position hposition
    obtain ⟨string, hstring, -⟩ := hstored.descriptor
    refine ⟨hstored.index_eq, (Array.getElem?_eq_some_iff.mp hstring).1, ?_⟩
    rw [hstored.index_eq, Image.typeAt, Pool.Types.descriptor, Pool.Types.get,
      itemAt_eq_ok_iff.mpr hitem]
    rfl
  protoItems item hmem := by
    obtain ⟨_, _, hstored⟩ := h.protos.holds.of_mem hmem
    exact ⟨hstored.shorty_lt, hstored.returnType_lt, hstored.parameters.lt⟩
  fieldItems item hmem := by
    obtain ⟨_, _, hstored⟩ := h.fields.holds.of_mem hmem
    exact ⟨hstored.classType_lt, hstored.type_lt, hstored.name_lt⟩
  methodItems item hmem := by
    obtain ⟨_, _, hstored⟩ := h.methods.holds.of_mem hmem
    exact ⟨hstored.classType_lt, hstored.proto_lt, hstored.name_lt⟩
  classItems item hmem := by
    obtain ⟨_, _, hstored⟩ := h.classes.holds.of_mem hmem
    exact hstored.closed

theorem Image.StoredIn.poolSize_eq (h : image.StoredIn input options) (table : Table) :
    image.poolSize table = image.header.count table := by
  cases table with
  | strings => exact h.strings.holds.size
  | types => exact h.types.holds.size
  | protos => exact h.protos.holds.size
  | fields => exact h.fields.holds.size
  | methods => exact h.methods.holds.size
  | classes => exact h.classes.holds.size

/-! ## Lookups in a closed image -/

namespace Image.Closed

variable {length : Nat}

/-- What follows a first lookup that finds something below a size finds something too. -/
theorem findsBelow_bind {α β : Type} {lookup : Nat → Except Failure α}
    {next : α → Except Failure β} {size : Nat} (hlookup : FindsBelow lookup size)
    (hnext : ∀ index a, lookup index = .ok a → ∃ b, next a = .ok b) :
    FindsBelow (fun index => lookup index >>= next) size := by
  intro index
  rw [exists_bind_eq_ok_iff, ← hlookup index]
  constructor
  · rintro ⟨a, ha, -⟩
    exact ⟨a, ha⟩
  · rintro ⟨a, ha⟩
    exact ⟨a, ha, hnext index a ha⟩

theorem findsBelow_get {α : Type} (pool : Pool.References α) : FindsBelow pool.get pool.size :=
  fun _ => exists_itemAt_iff

theorem findsBelow_protoText (h : image.Closed length) :
    FindsBelow image.protoText image.protos.size := by
  refine findsBelow_bind (findsBelow_get image.protos) fun index item hitem => ?_
  obtain ⟨-, hreturn, hparameters⟩ :=
    h.protoItems item (Array.mem_of_getElem? (Pool.References.get_eq_ok_iff.mp hitem))
  exact ProtoItem.exists_descriptor_iff.mpr ⟨hparameters, hreturn⟩

theorem findsBelow_fieldText (h : image.Closed length) :
    FindsBelow image.fieldText image.fields.size := by
  refine findsBelow_bind (findsBelow_get image.fields) fun index item hitem => ?_
  obtain ⟨hclass, htype, hname⟩ :=
    h.fieldItems item (Array.mem_of_getElem? (Pool.References.get_eq_ok_iff.mp hitem))
  obtain ⟨classType, hclassType⟩ := Pool.Types.exists_descriptor_iff.mpr hclass
  obtain ⟨name, hname⟩ := Pool.Strings.exists_text_iff.mpr hname
  obtain ⟨type, htype⟩ := Pool.Types.exists_descriptor_iff.mpr htype
  simp only [exists_bind_eq_ok_iff]
  exact ⟨classType, hclassType, name, hname, type, htype, _, rfl⟩

theorem findsBelow_methodText (h : image.Closed length) :
    FindsBelow image.methodText image.methods.size := by
  refine findsBelow_bind (findsBelow_get image.methods) fun index item hitem => ?_
  obtain ⟨hclass, hproto, hname⟩ :=
    h.methodItems item (Array.mem_of_getElem? (Pool.References.get_eq_ok_iff.mp hitem))
  obtain ⟨classType, hclassType⟩ := Pool.Types.exists_descriptor_iff.mpr hclass
  obtain ⟨name, hname⟩ := Pool.Strings.exists_text_iff.mpr hname
  obtain ⟨proto, hproto⟩ := (h.findsBelow_protoText item.proto).mpr hproto
  simp only [exists_bind_eq_ok_iff]
  exact ⟨classType, hclassType, name, hname, proto, hproto, _, rfl⟩

end Image.Closed

/-- The lookups of an image by index find something just for the indices of the pool they are
about. -/
structure Image.Answers (image : Image) : Prop where
  stringAt : FindsBelow image.stringAt image.strings.size
  typeAt : FindsBelow image.typeAt image.types.size
  protoText : FindsBelow image.protoText image.protos.size
  fieldText : FindsBelow image.fieldText image.fields.size
  methodText : FindsBelow image.methodText image.methods.size

theorem Image.Closed.answers {length : Nat} (h : image.Closed length) : image.Answers where
  stringAt _ := Pool.Strings.exists_text_iff
  typeAt _ := Pool.Types.exists_descriptor_iff
  protoText := h.findsBelow_protoText
  fieldText := h.findsBelow_fieldText
  methodText := h.findsBelow_methodText

/-- An image that was read is closed, answers every lookup that it can, and has as many items in
each pool as its header declares. -/
theorem Image.referential_integrity (hread : Image.read input options = .ok image) :
    image.Closed input.size ∧ image.Answers ∧
      ∀ table, image.poolSize table = image.header.count table := by
  have hstored := image.read_eq_ok_iff.mp ⟨image.journal, hread⟩
  exact ⟨hstored.closed, hstored.closed.answers, hstored.poolSize_eq⟩

theorem Contents.referential_integrity_sample :
    ∃ image, Image.read sample.encode .strictChecks = .ok image ∧
      image.Closed sample.encode.size ∧ image.Answers ∧
      ∀ table, image.poolSize table = image.header.count table := by
  obtain ⟨journal, hread⟩ := Image.read_eq_ok_iff _ |>.mpr
    (storedIn_sample (by decide : 285 ≤ Options.strictChecks.inputLimit))
  exact ⟨_, hread, Image.referential_integrity hread⟩

end Dalvik
