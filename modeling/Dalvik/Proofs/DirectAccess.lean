import Dalvik.Proofs.RoundTrip

/-!
# Direct access

Each item of a table can be read alone, from the offset at which it stands and from the offsets that
are stored in it. A load moves one cursor through all tables and to everything they place; what it
ends with is what each direct read gives.
-/

namespace Dalvik

/-! ## Direct reads -/

namespace Bytes

/-- So many 16-bit numbers, one after another. -/
def u16sAt? (input : Bytes) : (count pos : Nat) → Option (List Nat)
  | 0, _ => some []
  | count + 1, pos => do
    let first ← input.u16At? pos
    let rest ← input.u16sAt? count (pos + 2)
    return first :: rest

/-- The list of types at an offset, where the offset zero stands for an empty one. -/
def typeListAt? (input : Bytes) (offset : Nat) : Option (List Nat) :=
  if offset = 0 then some []
  else do
    let size ← input.u32At? offset
    input.u16sAt? size (offset + 4)

/-- Members one after another, and the offset after them. An index is the sum of the differences up
to it, and `member` reads what follows it. -/
def membersAt? {α : Type} (input : Bytes) (member : (index pos : Nat) → Option (α × Nat)) :
    (count last pos : Nat) → Option (List α × Nat)
  | 0, _, pos => some ([], pos)
  | count + 1, last, pos => do
    let (difference, next) ← input.uleb128At? pos
    let (first, next) ← member (last + difference) next
    let (rest, stop) ← input.membersAt? member count (last + difference) next
    return (first :: rest, stop)

def definedFieldAt? (input : Bytes) (field pos : Nat) : Option (DefinedField × Nat) := do
  let (flags, stop) ← input.uleb128At? pos
  return (⟨field, ⟨UInt32.ofNat flags⟩⟩, stop)

def definedMethodAt? (input : Bytes) (method pos : Nat) : Option (DefinedMethod × Nat) := do
  let (flags, next) ← input.uleb128At? pos
  let (codeOffset, stop) ← input.uleb128At? next
  return (⟨method, ⟨UInt32.ofNat flags⟩, codeOffset⟩, stop)

/-- The class data at an offset, where the offset zero stands for none. -/
def classDataAt? (input : Bytes) (offset : Nat) : Option (Option ClassData) :=
  if offset = 0 then some none
  else do
    let (statics, pos) ← input.uleb128At? offset
    let (instances, pos) ← input.uleb128At? pos
    let (directs, pos) ← input.uleb128At? pos
    let (virtuals, pos) ← input.uleb128At? pos
    let (staticFields, pos) ← input.membersAt? input.definedFieldAt? statics 0 pos
    let (instanceFields, pos) ← input.membersAt? input.definedFieldAt? instances 0 pos
    let (directMethods, pos) ← input.membersAt? input.definedMethodAt? directs 0 pos
    let (virtualMethods, _) ← input.membersAt? input.definedMethodAt? virtuals 0 pos
    return some ⟨staticFields, instanceFields, directMethods, virtualMethods⟩

/-- The string whose data the word at an offset places. -/
def stringItemAt? (input : Bytes) (pos : Nat) : Option StringItem := do
  let offset ← input.u32At? pos
  let (unitCount, next) ← input.uleb128At? offset
  let bytes ← input.untilNul next
  return StringItem.ofBytes unitCount bytes

/-- The type that the word at an offset names, out of some strings. -/
def typeItemAt? (input : Bytes) (strings : Array StringItem) (arrayLimit index pos : Nat) :
    Option TypeItem := do
  let stringIndex ← input.u32At? pos
  let string ← strings[stringIndex]?
  return ⟨index, stringIndex, Descriptor.ofText string.text arrayLimit⟩

def protoItemAt? (input : Bytes) (pos : Nat) : Option ProtoItem := do
  let shorty ← input.u32At? pos
  let returnType ← input.u32At? (pos + 4)
  let offset ← input.u32At? (pos + 8)
  let parameters ← input.typeListAt? offset
  return ⟨shorty, returnType, offset, parameters⟩

def fieldItemAt? (input : Bytes) (pos : Nat) : Option FieldItem := do
  let classType ← input.u16At? pos
  let type ← input.u16At? (pos + 2)
  let name ← input.u32At? (pos + 4)
  return ⟨classType, type, name⟩

def methodItemAt? (input : Bytes) (pos : Nat) : Option MethodItem := do
  let classType ← input.u16At? pos
  let proto ← input.u16At? (pos + 2)
  let name ← input.u32At? (pos + 4)
  return ⟨classType, proto, name⟩

def classItemAt? (input : Bytes) (pos : Nat) : Option ClassItem := do
  let type ← input.u32At? pos
  let flags ← input.u32At? (pos + 4)
  let superclass ← input.u32At? (pos + 8)
  let interfacesOffset ← input.u32At? (pos + 12)
  let sourceFile ← input.u32At? (pos + 16)
  let annotationsOffset ← input.u32At? (pos + 20)
  let dataOffset ← input.u32At? (pos + 24)
  let staticValuesOffset ← input.u32At? (pos + 28)
  let interfaces ← input.typeListAt? interfacesOffset
  let data ← input.classDataAt? dataOffset
  return ⟨type, ⟨UInt32.ofNat flags⟩, reference? superclass, interfaces, reference? sourceFile,
    annotationsOffset, data, staticValuesOffset⟩

end Bytes

/-! ## What is stored is read directly -/

variable {input : Bytes}

namespace Bytes

theorem u16sAt?_eq_some {list : List Nat} {pos : Nat}
    (h : ∀ index (hindex : index < list.length),
      input.u16At? (pos + 2 * index) = some list[index]) :
    input.u16sAt? list.length pos = some list := by
  induction list generalizing pos with
  | nil => rfl
  | cons first list ih =>
      have hfirst : input.u16At? pos = some first := h 0 (by simp)
      have hrest : input.u16sAt? list.length (pos + 2) = some list := ih fun index hindex => by
        have hnext := h (index + 1) (by simpa using hindex)
        rwa [Nat.mul_succ, Nat.add_comm (2 * index), ← Nat.add_assoc] at hnext
      simp [u16sAt?, hfirst, hrest]

theorem HoldsTypesOrNone.typeListAt? {types offset : Nat} {list : List Nat}
    (h : input.HoldsTypesOrNone types offset list) : input.typeListAt? offset = some list := by
  unfold HoldsTypesOrNone at h
  unfold Bytes.typeListAt?
  split at h
  next hzero => simp [hzero, h]
  next hne => simp [hne, h.length, u16sAt?_eq_some h.entry]

end Bytes

namespace ClassData

theorem MembersAt.membersAt? {α : Type} {index : α → Nat} {details : α → List Nat} {good : α → Prop}
    {member : (index pos : Nat) → Option (α × Nat)}
    (hmember : ∀ a pos stop, input.HoldsNumbers pos (details a) stop →
      member (index a) pos = some (a, stop))
    {size last pos stop : Nat} {list : List α}
    (h : MembersAt input index details good size last pos list stop) :
    input.membersAt? member list.length last pos = some (list, stop) := by
  induction list generalizing last pos with
  | nil =>
      obtain rfl := membersAt_nil.mp h
      rfl
  | cons a list ih =>
      obtain ⟨difference, middle, next, hdifference, -, ⟨hindex, -, hdetails⟩, hlist⟩ :=
        membersAt_cons.mp h
      have hfirst := hmember a middle next hdetails
      rw [hindex] at hfirst
      simp [Bytes.membersAt?, hdifference, hfirst, ih hlist]

theorem definedFieldAt?_eq_some (field : DefinedField) (pos stop : Nat)
    (h : input.HoldsNumbers pos field.details stop) :
    input.definedFieldAt? field.field pos = some (field, stop) := by
  have hflags := Bytes.holdsNumbers_singleton.mp h
  simp [Bytes.definedFieldAt?, hflags]

theorem definedMethodAt?_eq_some (method : DefinedMethod) (pos stop : Nat)
    (h : input.HoldsNumbers pos method.details stop) :
    input.definedMethodAt? method.method pos = some (method, stop) := by
  obtain ⟨middle, hflags, _, hcode, rfl⟩ := h
  simp [Bytes.definedMethodAt?, hflags, hcode]

theorem StoredOrNone.classDataAt? {fields methods offset : Nat} {data? : Option ClassData}
    (h : StoredOrNone input fields methods offset data?) :
    input.classDataAt? offset = some data? := by
  unfold StoredOrNone at h
  unfold Bytes.classDataAt?
  split at h
  next hzero => simp [hzero, h]
  next hne =>
    obtain ⟨data, stop, rfl, hnumbers, hstatic, hinstance, hdirect, hvirtual⟩ := h
    simp only [numbers, Bytes.holdsNumbers_append] at hnumbers
    obtain ⟨_, ⟨_, ⟨_, ⟨_, ⟨_, hstatics, _, hinstances, _, hdirects, _, hvirtuals, rfl⟩,
      hstaticNumbers⟩, hinstanceNumbers⟩, hdirectNumbers⟩, hvirtualNumbers⟩ := hnumbers
    have hfirst := (membersAt_fields.mpr ⟨hstatic, hstaticNumbers⟩).membersAt?
      definedFieldAt?_eq_some
    have hsecond := (membersAt_fields.mpr ⟨hinstance, hinstanceNumbers⟩).membersAt?
      definedFieldAt?_eq_some
    have hthird := (membersAt_methods.mpr ⟨hdirect, hdirectNumbers⟩).membersAt?
      definedMethodAt?_eq_some
    have hfourth := (membersAt_methods.mpr ⟨hvirtual, hvirtualNumbers⟩).membersAt?
      definedMethodAt?_eq_some
    simp [hne, hstatics, hinstances, hdirects, hvirtuals, hfirst, hsecond, hthird, hfourth]

end ClassData

theorem StringItem.StoredAt.stringItemAt? {pos : Nat} {item : StringItem}
    (h : item.StoredAt input pos) : input.stringItemAt? pos = some item := by
  obtain ⟨offset, hoffset, -, unitCount, next, bytes, hcount, hbytes, rfl⟩ := h
  simp [Bytes.stringItemAt?, hoffset, hcount, hbytes]

theorem TypeItem.StoredAt.typeItemAt? {strings : Pool.Strings} {arrayLimit index pos : Nat}
    {item : TypeItem} (h : item.StoredAt input strings arrayLimit index pos) :
    input.typeItemAt? strings.items arrayLimit index pos = some item := by
  obtain ⟨rfl, hindex, string, hstring, hdescriptor⟩ := h
  simp [Bytes.typeItemAt?, hindex, hstring, ← hdescriptor]

theorem ProtoItem.StoredAt.protoItemAt? {strings types pos : Nat} {item : ProtoItem}
    (h : item.StoredAt input strings types pos) : input.protoItemAt? pos = some item := by
  simp [Bytes.protoItemAt?, h.shorty, h.returnType, h.parametersOffset, h.parameters.typeListAt?]

theorem FieldItem.StoredAt.fieldItemAt? {strings types pos : Nat} {item : FieldItem}
    (h : item.StoredAt input strings types pos) : input.fieldItemAt? pos = some item := by
  simp [Bytes.fieldItemAt?, h.classType, h.type, h.name]

theorem MethodItem.StoredAt.methodItemAt? {strings types protos pos : Nat} {item : MethodItem}
    (h : item.StoredAt input strings types protos pos) : input.methodItemAt? pos = some item := by
  simp [Bytes.methodItemAt?, h.classType, h.proto, h.name]

theorem ClassItem.StoredAt.classItemAt? {sizes : ClassItem.Sizes} {pos : Nat} {item : ClassItem}
    (h : item.StoredAt input sizes pos) : input.classItemAt? pos = some item := by
  obtain ⟨interfacesOffset, hinterfaces, hlist⟩ := h.interfaces
  obtain ⟨dataOffset, hdata, hdata?⟩ := h.data
  obtain ⟨superclass, hsuper, hsuperEq⟩ := Option.map_eq_some_iff.mp h.superclass
  obtain ⟨source, hsource, hsourceEq⟩ := Option.map_eq_some_iff.mp h.sourceFile
  simp [Bytes.classItemAt?, h.type, h.flags, hsuper, hsuperEq, hinterfaces, hsource, hsourceEq,
    h.annotationsOffset, hdata, h.staticValuesOffset, hlist.typeListAt?, hdata?.classDataAt?]

/-! ## Pools by direct access -/

theorem Table.Holds.getElem?_eq {α : Type} {table : Table} {count offset : Nat}
    {itemAt : Nat → Nat → α → Prop} {items : Array α} {direct : Nat → Nat → Option α}
    (h : table.Holds input count offset itemAt items)
    (hdirect : ∀ index pos item, itemAt index pos item → direct index pos = some item)
    (index : Nat) (hindex : index < items.size) :
    items[index]? = direct index (offset + index * table.itemSize) := by
  rw [Array.getElem?_eq_getElem hindex, hdirect index _ _ (h.item index hindex)]

/-- Every item of an image is the one that a direct read gives, at its place in the table that the
header has the offset of. -/
structure Image.ReadDirectly (image : Image) (input : Bytes) (options : Options) : Prop where
  offset : ∀ table : Table,
    input.u32At? (table.headerPos + 4) = some (image.header.offset table)
  strings : ∀ index < image.strings.size, image.strings.items[index]? =
    input.stringItemAt? (image.header.offset .strings + index * 4)
  types : ∀ index < image.types.size, image.types.items[index]? =
    input.typeItemAt? image.strings.items options.arrayLimit index
      (image.header.offset .types + index * 4)
  protos : ∀ index < image.protos.size, image.protos.items[index]? =
    input.protoItemAt? (image.header.offset .protos + index * 12)
  fields : ∀ index < image.fields.size, image.fields.items[index]? =
    input.fieldItemAt? (image.header.offset .fields + index * 8)
  methods : ∀ index < image.methods.size, image.methods.items[index]? =
    input.methodItemAt? (image.header.offset .methods + index * 8)
  classes : ∀ index < image.classes.size, image.classes.items[index]? =
    input.classItemAt? (image.header.offset .classes + index * 32)

/-- What a load ends with is what direct reads give. -/
theorem Image.readDirectly_of_read {options : Options} {image : Image}
    (hread : Image.read input options = .ok image) : image.ReadDirectly input options := by
  have h := image.read_eq_ok_iff.mp ⟨image.journal, hread⟩
  exact ⟨(Header.fieldsAt_of_hasAt_encode h.header.bytes).offset,
    h.strings.holds.getElem?_eq fun _ _ _ hitem => hitem.stringItemAt?,
    h.types.holds.getElem?_eq fun _ _ _ hitem => hitem.typeItemAt?,
    h.protos.holds.getElem?_eq fun _ _ _ hitem => hitem.protoItemAt?,
    h.fields.holds.getElem?_eq fun _ _ _ hitem => hitem.fieldItemAt?,
    h.methods.holds.getElem?_eq fun _ _ _ hitem => hitem.methodItemAt?,
    h.classes.holds.getElem?_eq fun _ _ _ hitem => hitem.classItemAt?⟩

theorem Contents.readDirectly_sample :
    ∃ image, Image.read sample.encode .strictChecks = .ok image ∧
      image.ReadDirectly sample.encode .strictChecks := by
  obtain ⟨journal, hread⟩ := Image.read_eq_ok_iff _ |>.mpr
    (storedIn_sample (by decide : 285 ≤ Options.strictChecks.inputLimit))
  exact ⟨_, hread, Image.readDirectly_of_read hread⟩

end Dalvik
