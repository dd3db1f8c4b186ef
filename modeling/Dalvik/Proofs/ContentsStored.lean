import Dalvik.Proofs.ClassReads
import Dalvik.Proofs.Contents
import Dalvik.Proofs.ModifiedUtf8

/-!
# What is written is stored

Each part of a written file stands where the parts before it end, and each item is stored where the
tables say.
-/

namespace Dalvik

variable {input : Bytes}

/-! ## Items in a row -/

section Rows

variable {α : Type}

theorem length_flatMap_of_width {row : α → List UInt8} {width : Nat}
    (hwidth : ∀ a, (row a).length = width) (list : List α) :
    (list.flatMap row).length = list.length * width := by
  induction list with
  | nil => simp
  | cons a list ih => rw [List.flatMap_cons, List.length_append, hwidth, ih, List.length_cons,
      Nat.succ_mul, Nat.add_comm]

/-- Rows of one width stand at multiples of it. -/
theorem Bytes.HasAt.row {row : α → List UInt8} {width : Nat} (hwidth : ∀ a, (row a).length = width)
    {list : List α} {pos index : Nat} {a : α} (h : input.HasAt pos (list.flatMap row))
    (hindex : list[index]? = some a) : input.HasAt (pos + index * width) (row a) := by
  induction list generalizing pos index with
  | nil => simp at hindex
  | cons first list ih =>
      rw [List.flatMap_cons, hasAt_append, hwidth] at h
      cases index with
      | zero =>
          cases hindex
          simpa using h.1
      | succ index =>
          have hrest := ih h.2 hindex
          rwa [Nat.add_assoc, Nat.add_comm width, ← Nat.succ_mul] at hrest

/-- Each of the items placed in a row has its bytes somewhere, and its offset tells where. -/
theorem Bytes.HasAt.placed {write : Nat → α → List UInt8} (offset : Nat → α → Nat) {list : List α}
    {pos index : Nat} {a : α} (h : input.HasAt pos (Placing.bytes write pos list))
    (hindex : list[index]? = some a) :
    ∃ start, pos ≤ start ∧ input.HasAt start (write start a) ∧
      (Placing.offsets write offset pos list)[index]? = some (offset start a) := by
  induction list generalizing pos index with
  | nil => simp at hindex
  | cons first list ih =>
      rw [Placing.bytes, hasAt_append] at h
      cases index with
      | zero =>
          cases hindex
          exact ⟨pos, Nat.le_refl pos, h.1, rfl⟩
      | succ index =>
          obtain ⟨start, hle, hbytes, hoffset⟩ := ih h.2 hindex
          exact ⟨start, by omega, hbytes, hoffset⟩

end Rows

/-! ## Numbers -/

namespace Bytes.HasAt

variable {pos n : Nat}

theorem u16At? (h : input.HasAt pos (toLittleEndian 2 n)) (hn : n < 2 ^ 16) :
    input.u16At? pos = some n :=
  (numberAt?_eq_some_iff_hasAt (by decide) hn).mpr h

theorem u32At? (h : input.HasAt pos (toLittleEndian 4 n)) (hn : n < 2 ^ 32) :
    input.u32At? pos = some n :=
  (numberAt?_eq_some_iff_hasAt (by decide) hn).mpr h

/-- Numbers in their shortest forms, one after another. -/
theorem holdsNumbers {numbers : List Nat} (h : input.HasAt pos (numbers.flatMap Uleb128.encode))
    (hnumbers : ∀ number ∈ numbers, number < 2 ^ 32) :
    input.HoldsNumbers pos numbers (pos + (numbers.flatMap Uleb128.encode).length) := by
  induction numbers generalizing pos with
  | nil => rfl
  | cons number numbers ih =>
      obtain ⟨hnumber, hrest⟩ := List.forall_mem_cons.mp hnumbers
      rw [List.flatMap_cons, hasAt_append] at h
      refine ⟨_, h.1.uleb128At? hnumber, ?_⟩
      rw [List.flatMap_cons, List.length_append, ← Nat.add_assoc]
      exact ih h.2 hrest

end Bytes.HasAt

/-! ## Data -/

namespace Contents

/-- String data has at least a byte for each of its units. -/
theorem unitCount_le_size {pos : Nat} {text : String} (h : input.HasAt pos (stringBytes pos text)) :
    Text.ModifiedUtf8.unitCount text.toList ≤ input.size := by
  have hend := h.end_le (by simp [stringBytes])
  have hunits := Text.ModifiedUtf8.unitCount_le_length text.toList
  simp only [stringBytes, List.length_append] at hend
  omega

/-- A text is stored as the item that it gives. -/
theorem dataAt_of_hasAt {pos : Nat} {text : String} (h : input.HasAt pos (stringBytes pos text))
    (hunits : Text.ModifiedUtf8.unitCount text.toList < 2 ^ 32) :
    StringItem.DataAt input pos ⟨Text.ModifiedUtf8.unitCount text.toList, text, false⟩ := by
  obtain ⟨hcount, htext⟩ := Bytes.hasAt_append.mp h
  refine ⟨_, _, _, hcount.uleb128At? hunits,
    Bytes.untilNul_eq_some_iff.mpr ⟨Text.ModifiedUtf8.zero_notMem_encode _, htext⟩, ?_⟩
  rw [StringItem.ofBytes, Text.ModifiedUtf8.decode_encode]
  simp

theorem lt_size_of_hasAt {pos : Nat} {text : String} (h : input.HasAt pos (stringBytes pos text)) :
    pos < input.size := by
  have hne : stringBytes pos text ≠ [] := by simp [stringBytes]
  have hend := h.end_le hne
  have hpos := List.length_pos_iff.mpr hne
  omega

/-- An item of the string table is stored where the offset of the data of a text is. -/
theorem storedAt_of_hasAt {pos start : Nat} {text : String} (hstart : input.u32At? pos = some start)
    (h : input.HasAt start (stringBytes start text))
    (hunits : Text.ModifiedUtf8.unitCount text.toList < 2 ^ 32) :
    StringItem.StoredAt input pos ⟨Text.ModifiedUtf8.unitCount text.toList, text, false⟩ :=
  ⟨start, hstart, lt_size_of_hasAt h, dataAt_of_hasAt h hunits⟩

theorem le_align (pos : Nat) : pos ≤ align pos := by
  rw [align]
  omega

/-- A type list that is not empty stands at the next multiple of four. -/
theorem hasAt_align {pos : Nat} {list : List Nat} (h : input.HasAt pos (typeListBytes pos list))
    (hne : list ≠ []) : input.HasAt (align pos) (toLittleEndian 4 list.length) ∧
      input.HasAt (align pos + 4) (list.flatMap (toLittleEndian 2)) := by
  rw [typeListBytes, if_neg hne, Bytes.hasAt_append, List.length_replicate,
    Nat.add_sub_cancel' (le_align pos), Bytes.hasAt_append, length_toLittleEndian] at h
  exact h.2

theorem typeListOffset_le {pos : Nat} {list : List Nat}
    (h : input.HasAt pos (typeListBytes pos list)) : typeListOffset pos list ≤ input.size := by
  rw [typeListOffset]
  split
  next => exact Nat.zero_le _
  next hne =>
    have hend := (hasAt_align h hne).1.end_le (by simp [toLittleEndian])
    omega

/-- A type list is stored where its offset says, or it is empty and its offset zero. -/
theorem holdsTypesOrNone_of_hasAt {pos types : Nat} {list : List Nat}
    (h : input.HasAt pos (typeListBytes pos list)) (hpos : 0 < pos) (hsize : input.size < 2 ^ 32)
    (hlist : ∀ type ∈ list, type < types ∧ type < 2 ^ 16) :
    input.HoldsTypesOrNone types (typeListOffset pos list) list := by
  by_cases hnil : list = []
  · simp [Bytes.HoldsTypesOrNone, typeListOffset, hnil]
  · have halign := le_align pos
    obtain ⟨hlength, hentries⟩ := hasAt_align h hnil
    have hend := hentries.end_le (by cases list <;> simp_all [toLittleEndian])
    rw [length_flatMap_of_width (length_toLittleEndian 2)] at hend
    rw [typeListOffset, if_neg hnil, Bytes.HoldsTypesOrNone, if_neg (by omega)]
    refine ⟨hlength.u32At? (by omega), fun index hindex => ?_, fun type hmem => (hlist type hmem).1⟩
    rw [Nat.mul_comm]
    exact (hentries.row (length_toLittleEndian 2) (List.getElem?_eq_getElem hindex)).u16At?
      (hlist _ (List.getElem_mem hindex)).2

end Contents

/-! ## Class data -/

theorem Uleb128.encodeGroups_ne_nil (more value : Nat) : encodeGroups more value ≠ [] := by
  cases more with
  | zero => simp [encodeGroups]
  | succ more =>
      rw [encodeGroups]
      split
      · simp
      · simp

/-- Each number takes at least one byte. -/
theorem length_le_length_flatMap_encode (numbers : List Nat) :
    numbers.length ≤ (numbers.flatMap Uleb128.encode).length := by
  induction numbers with
  | nil => exact Nat.le_refl 0
  | cons number numbers ih =>
      have hpos := List.length_pos_iff.mpr (Uleb128.encodeGroups_ne_nil 4 number)
      rw [List.flatMap_cons, List.length_append, List.length_cons, Uleb128.encode]
      omega

namespace ClassData

section MemberNumbers

variable {α : Type} {index : α → Nat} {details : α → List Nat} {list : List α}

theorem memberNumbers_lt {bound : Nat} (hindex : ∀ member ∈ list, index member < bound)
    (hdetails : ∀ member ∈ list, ∀ number ∈ details member, number < bound) (last : Nat) :
    ∀ number ∈ memberNumbers index details last list, number < bound := by
  induction list generalizing last with
  | nil => simp [memberNumbers]
  | cons member list ih =>
      obtain ⟨hlt, hindex⟩ := List.forall_mem_cons.mp hindex
      obtain ⟨hmember, hdetails⟩ := List.forall_mem_cons.mp hdetails
      intro number hnumber
      rw [memberNumbers, List.cons_append, List.mem_cons, List.mem_append] at hnumber
      rcases hnumber with rfl | hnumber | hnumber
      · omega
      · exact hmember number hnumber
      · exact ih hindex hdetails _ number hnumber

/-- Each member takes its difference and its details. -/
theorem length_memberNumbers (index : α → Nat) (details : α → List Nat) {width : Nat}
    (hwidth : ∀ member, (details member).length = width) (last : Nat) (list : List α) :
    (memberNumbers index details last list).length = (width + 1) * list.length := by
  induction list generalizing last with
  | nil => rfl
  | cons member list ih =>
      rw [memberNumbers, List.length_append, List.length_cons, hwidth, ih, List.length_cons,
        Nat.mul_succ, Nat.add_comm]

end MemberNumbers

theorem FieldsInRange.numbers_lt {fields : Nat} {list : List DefinedField}
    (h : FieldsInRange fields list) (hfields : fields ≤ 2 ^ 32) :
    ∀ number ∈ fieldNumbers list, number < 2 ^ 32 := by
  refine memberNumbers_lt (fun member hmem => ?_) (fun member _ number hnumber => ?_) 0
  · exact Nat.lt_of_lt_of_le (h.field_lt member hmem) hfields
  · rw [List.mem_singleton.mp hnumber]
    exact UInt32.toNat_lt _

theorem MethodsInRange.numbers_lt {methods length : Nat} {list : List DefinedMethod}
    (h : MethodsInRange methods length list) (hmethods : methods ≤ 2 ^ 32)
    (hlength : length ≤ 2 ^ 32) : ∀ number ∈ methodNumbers list, number < 2 ^ 32 := by
  refine memberNumbers_lt (fun member hmem => ?_) (fun member hmem number hnumber => ?_) 0
  · exact Nat.lt_of_lt_of_le (h.method_lt member hmem) hmethods
  · simp only [DefinedMethod.details, List.mem_cons, List.not_mem_nil, or_false] at hnumber
    rcases hnumber with rfl | rfl
    · exact UInt32.toNat_lt _
    · exact Nat.lt_of_lt_of_le (h.codeOffset_lt member hmem) hlength

/-- The sizes of the four lists, which come before the lists. -/
def sizes (data : ClassData) : List Nat :=
  [data.staticFields.length, data.instanceFields.length, data.directMethods.length,
    data.virtualMethods.length]

/-- Four sizes, two numbers for each field and three for each method. -/
theorem length_numbers (data : ClassData) :
    data.numbers.length = 4 + 2 * data.fields.length + 3 * data.methods.length := by
  have hfields : ∀ list, (fieldNumbers list).length = 2 * list.length :=
    length_memberNumbers DefinedField.field DefinedField.details (fun _ => rfl) 0
  have hmethods : ∀ list, (methodNumbers list).length = 3 * list.length :=
    length_memberNumbers DefinedMethod.method DefinedMethod.details (fun _ => rfl) 0
  simp only [numbers, fields, methods, List.length_append, hfields, hmethods]
  simp only [List.length_cons, List.length_nil]
  omega

/-- The sizes of the four lists are at most the number of numbers. -/
theorem le_length_numbers {data : ClassData} {size : Nat} (h : size ∈ data.sizes) :
    size ≤ data.numbers.length := by
  rw [length_numbers, fields, methods, List.length_append, List.length_append]
  simp only [sizes, List.mem_cons, List.not_mem_nil, or_false] at h
  omega

theorem InRange.numbers_lt {fields methods length : Nat} {data : ClassData}
    (h : data.InRange fields methods length) (hfields : fields ≤ 2 ^ 32)
    (hmethods : methods ≤ 2 ^ 32) (hlength : length ≤ 2 ^ 32)
    (hsizes : ∀ size ∈ data.sizes, size < 2 ^ 32) : ∀ number ∈ data.numbers, number < 2 ^ 32 := by
  intro number hnumber
  simp only [numbers, List.mem_append] at hnumber
  rcases hnumber with (((hsize | hmem) | hmem) | hmem) | hmem
  · exact hsizes number hsize
  · exact h.staticFields.numbers_lt hfields number hmem
  · exact h.instanceFields.numbers_lt hfields number hmem
  · exact h.directMethods.numbers_lt hmethods hlength number hmem
  · exact h.virtualMethods.numbers_lt hmethods hlength number hmem

end ClassData

theorem Contents.classDataBytes_ne_nil (pos : Nat) (data : ClassData) :
    classDataBytes pos (some data) ≠ [] := by
  have hlength := length_le_length_flatMap_encode data.numbers
  rw [ne_eq, ← List.length_eq_zero_iff]
  simp only [classDataBytes, ClassData.numbers, List.length_append, List.length_cons] at hlength ⊢
  omega

theorem Contents.classDataOffset_le {pos : Nat} {data? : Option ClassData}
    (h : input.HasAt pos (classDataBytes pos data?)) : classDataOffset pos data? ≤ input.size := by
  cases data? with
  | none => exact Nat.zero_le _
  | some data =>
      have hend := h.end_le (classDataBytes_ne_nil pos data)
      rw [classDataOffset]
      omega

/-- Class data is stored where its offset says, or there is none and its offset is zero. -/
theorem Contents.storedOrNone_of_hasAt {pos fields methods : Nat} {data? : Option ClassData}
    (h : input.HasAt pos (classDataBytes pos data?)) (hpos : 0 < pos) (hsize : input.size < 2 ^ 32)
    (hfields : fields ≤ 2 ^ 32) (hmethods : methods ≤ 2 ^ 32)
    (hdata : ∀ data ∈ data?, data.InRange fields methods input.size) :
    ClassData.StoredOrNone input fields methods (classDataOffset pos data?) data? := by
  cases data? with
  | none => simp [ClassData.StoredOrNone, classDataOffset]
  | some data =>
      have hrange := hdata data rfl
      have hlength := length_le_length_flatMap_encode data.numbers
      have hend := h.end_le (classDataBytes_ne_nil pos data)
      rw [classDataBytes] at hend h
      rw [classDataOffset, ClassData.StoredOrNone, if_neg (by omega)]
      have hnumbers := hrange.numbers_lt hfields hmethods (by omega) fun size hmem =>
        Nat.lt_of_le_of_lt (ClassData.le_length_numbers hmem) (by omega)
      exact ⟨data, _, rfl, h.holdsNumbers hnumbers, hrange⟩

end Dalvik
