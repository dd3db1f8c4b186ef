import Dalvik.Proofs.ContentsStored
import Mathlib.Algebra.GroupWithZero.Nat

/-!
# Delta coding of class data

Class data is read back from the numbers it is written as. Whatever it is read from, each index is
the sum of the differences read before it in the same list, and the item is at least as long as its
entries ask for, so that no size in it can call for more entries than the input has bytes.
-/

namespace Dalvik

variable {input : Bytes}

/-! ## Lengths -/

namespace Bytes.HoldsNumbers

variable {pos stop : Nat} {numbers : List Nat}

/-- Each number takes at least one byte. -/
theorem add_length_le (h : input.HoldsNumbers pos numbers stop) :
    pos + numbers.length ≤ stop := by
  induction numbers generalizing pos with
  | nil => exact Nat.le_of_eq h.symm
  | cons number numbers ih =>
      obtain ⟨next, hnumber, hrest⟩ := h
      have hnext := uleb128At?_next hnumber
      have hle := ih hrest
      rw [List.length_cons]
      omega

/-- Every number that is read fits 32 bits. -/
theorem lt (h : input.HoldsNumbers pos numbers stop) : ∀ number ∈ numbers, number < 2 ^ 32 := by
  induction numbers generalizing pos with
  | nil => simp
  | cons number numbers ih =>
      obtain ⟨next, hnumber, hrest⟩ := h
      exact List.forall_mem_cons.mpr ⟨uleb128At?_lt hnumber, ih hrest⟩

theorem stop_le_size (h : input.HoldsNumbers pos numbers stop) (hpos : pos ≤ input.size) :
    stop ≤ input.size := by
  induction numbers generalizing pos with
  | nil => exact h ▸ hpos
  | cons number numbers ih =>
      obtain ⟨next, hnumber, hrest⟩ := h
      exact ih hrest (uleb128At?_next hnumber).2

end Bytes.HoldsNumbers

namespace ClassData

variable {α : Type} {index : α → Nat} {details : α → List Nat}

/-! ## Running sums -/

/-- The numbers that a list of members is read from, when the differences before the members are
given. -/
def entryNumbers (details : α → List Nat) (differences : List Nat) (list : List α) : List Nat :=
  (differences.zip list).flatMap fun (difference, member) => difference :: details member

/-- Members that are read from one offset to another, the index of each being the sum of all
differences read so far. -/
def SummedAt (input : Bytes) (index : α → Nat) (details : α → List Nat) (pos : Nat) (list : List α)
    (stop : Nat) : Prop :=
  ∃ differences : List Nat, differences.length = list.length ∧
    input.HoldsNumbers pos (entryNumbers details differences list) stop ∧
    ∀ position (h : position < list.length),
      index list[position] = (differences.take (position + 1)).sum

/-- In the order of their indices, members are stored as differences that add up to the indices. -/
theorem exists_differences (details : α → List Nat) {last : Nat} {list : List α}
    (h : (last :: list.map index).Pairwise (· ≤ ·)) :
    ∃ differences : List Nat, differences.length = list.length ∧
      memberNumbers index details last list = entryNumbers details differences list ∧
      ∀ position (h : position < list.length),
        index list[position] = last + (differences.take (position + 1)).sum := by
  induction list generalizing last with
  | nil => exact ⟨[], rfl, rfl, fun position h => absurd h (Nat.not_lt_zero position)⟩
  | cons member list ih =>
      obtain ⟨hle, hsorted⟩ := List.pairwise_cons.mp h
      have hfirst : last ≤ index member := hle _ List.mem_cons_self
      obtain ⟨differences, hlength, hnumbers, hsum⟩ := ih hsorted
      refine ⟨(index member - last) :: differences, by simp [hlength], ?_, ?_⟩
      · rw [memberNumbers, hnumbers]
        rfl
      · intro position hposition
        cases position with
        | zero => simpa using (Nat.add_sub_cancel' hfirst).symm
        | succ position =>
            have hrest := hsum position (by simpa using hposition)
            rw [List.getElem_cons_succ, hrest, List.take_succ_cons, List.sum_cons]
            omega

theorem summedAt_of_memberNumbers {pos stop : Nat} {list : List α}
    (hsorted : (list.map index).Pairwise (· ≤ ·))
    (hnumbers : input.HoldsNumbers pos (memberNumbers index details 0 list) stop) :
    SummedAt input index details pos list stop := by
  obtain ⟨differences, hlength, heq, hsum⟩ := exists_differences details
    (List.pairwise_cons.mpr ⟨fun i _ => Nat.zero_le i, hsorted⟩)
  refine ⟨differences, hlength, heq ▸ hnumbers, fun position hposition => ?_⟩
  rw [hsum position hposition, Nat.zero_add]

/-! ## Pools of any size -/

/-- An index has to fit 32 bits, so a pool that is larger than that is as good as one that is
not. -/
theorem indexAfter_min (list : MemberList) (size last difference : Nat) :
    indexAfter list (min size (2 ^ 32)) last difference = indexAfter list size last difference := by
  simp only [indexAfter]
  by_cases hfits : 0x100000000 ≤ last + difference
  · rw [if_pos hfits, if_pos hfits]
  · rw [if_neg hfits, if_neg hfits]
    by_cases hsize : size ≤ last + difference
    · rw [Nat.min_eq_left (by omega)]
    · rw [if_neg (by omega), if_neg hsize]

theorem readMembers_min (list : MemberList) (size : Nat) (entry : Nat → Decode α)
    (count last : Nat) (done : Array α) :
    readMembers list (min size (2 ^ 32)) entry count last done =
      readMembers list size entry count last done := by
  induction count generalizing last done with
  | zero => rfl
  | succ count ih => simp only [readMembers, indexAfter_min, ih]

theorem read_min (fields methods : Nat) :
    read (min fields (2 ^ 32)) (min methods (2 ^ 32)) = read fields methods := by
  simp only [read, readFields, readMethods, readMembers_min]

/-! ## Reading and writing -/

/-- The bytes of class data: its numbers one after another, each in its shortest form. -/
def encode (data : ClassData) : List UInt8 :=
  data.numbers.flatMap Uleb128.encode

/-- Whether the sizes, the indices and the offsets of class data are 32-bit numbers. -/
structure FitsWords (data : ClassData) : Prop where
  size_lt : ∀ size ∈ data.sizes, size < 2 ^ 32
  field_lt : ∀ member ∈ data.fields, member.field < 2 ^ 32
  method_lt : ∀ member ∈ data.methods, member.method < 2 ^ 32
  codeOffset_lt : ∀ member ∈ data.methods, member.codeOffset < 2 ^ 32

/-- Class data that is read from one offset to another: four sizes, then so many members of each
list, with indices that are sums of differences, in order and in range. It is not shorter than one
byte for each number that its members take. -/
structure ReadFrom (input : Bytes) (fields methods pos : Nat) (data : ClassData) (stop : Nat) :
    Prop where
  lists : ∃ statics instances directs virtuals, input.HoldsNumbers pos data.sizes statics ∧
    SummedAt input DefinedField.field DefinedField.details statics data.staticFields instances ∧
    SummedAt input DefinedField.field DefinedField.details instances data.instanceFields directs ∧
    SummedAt input DefinedMethod.method DefinedMethod.details directs data.directMethods virtuals ∧
    SummedAt input DefinedMethod.method DefinedMethod.details virtuals data.virtualMethods stop
  inRange : data.InRange fields methods input.size
  fitsWords : data.FitsWords
  consumed : pos + 4 + 2 * data.fields.length + 3 * data.methods.length ≤ stop
  stop_le : stop ≤ input.size

section InRange

variable {data : ClassData} {fields methods length : Nat}

theorem InRange.imp {fieldsOther methodsOther lengthOther : Nat}
    (h : data.InRange fields methods length)
    (hfield : ∀ member ∈ data.fields, member.field < fields → member.field < fieldsOther)
    (hmethod : ∀ member ∈ data.methods, member.method < methods → member.method < methodsOther)
    (hcode : ∀ member ∈ data.methods, member.codeOffset < length →
      member.codeOffset < lengthOther) :
    data.InRange fieldsOther methodsOther lengthOther := by
  have hfields : ∀ list ⊆ data.fields, FieldsInRange fields list →
      FieldsInRange fieldsOther list :=
    fun _ hsub hlist => ⟨hlist.sorted, fun m hm => hfield m (hsub hm) (hlist.field_lt m hm)⟩
  have hmethods : ∀ list ⊆ data.methods, MethodsInRange methods length list →
      MethodsInRange methodsOther lengthOther list :=
    fun _ hsub hlist => ⟨hlist.sorted, fun m hm => hmethod m (hsub hm) (hlist.method_lt m hm),
      fun m hm => hcode m (hsub hm) (hlist.codeOffset_lt m hm)⟩
  exact ⟨hfields _ (List.subset_append_left _ _) h.staticFields,
    hfields _ (List.subset_append_right _ _) h.instanceFields,
    hmethods _ (List.subset_append_left _ _) h.directMethods,
    hmethods _ (List.subset_append_right _ _) h.virtualMethods⟩

/-- What is in range and consists of 32-bit numbers is in range of pools of that size. -/
theorem InRange.capped (h : data.InRange fields methods length) (hfits : data.FitsWords) :
    data.InRange (min fields (2 ^ 32)) (min methods (2 ^ 32)) (min length (2 ^ 32)) :=
  h.imp (fun member hmem hlt => Nat.lt_min.mpr ⟨hlt, hfits.field_lt member hmem⟩)
    (fun member hmem hlt => Nat.lt_min.mpr ⟨hlt, hfits.method_lt member hmem⟩)
    (fun member hmem hlt => Nat.lt_min.mpr ⟨hlt, hfits.codeOffset_lt member hmem⟩)

end InRange

variable {data : ClassData} {fields methods pos stop : Nat}

/-- Class data in its shortest form is stored as what it says. -/
theorem storedAt_of_hasAt (h : input.HasAt pos data.encode)
    (hrange : data.InRange fields methods input.size) (hfits : data.FitsWords) :
    data.StoredAt input (min fields (2 ^ 32)) (min methods (2 ^ 32)) pos
      (pos + data.encode.length) := by
  have hcapped := hrange.capped hfits
  constructor
  · exact h.holdsNumbers (hcapped.numbers_lt (Nat.min_le_right _ _) (Nat.min_le_right _ _)
      (Nat.min_le_right _ _) hfits.size_lt)
  · exact hcapped.imp (fun _ _ => id) (fun _ _ => id) fun _ _ hlt => (Nat.lt_min.mp hlt).1

theorem mem_memberNumbers {last number : Nat} {list : List α} {member : α} (hmem : member ∈ list)
    (hnumber : number ∈ details member) : number ∈ memberNumbers index details last list := by
  induction list generalizing last with
  | nil => cases hmem
  | cons first list ih =>
      rw [memberNumbers, List.mem_append]
      rcases List.mem_cons.mp hmem with rfl | hmem
      · exact .inl (List.mem_cons_of_mem _ hnumber)
      · exact .inr (ih hmem)

theorem sizes_subset_numbers (data : ClassData) : data.sizes ⊆ data.numbers := by
  intro size hmem
  simp only [numbers, List.mem_append]
  exact .inl (.inl (.inl (.inl hmem)))

/-- The offset of a method's code is one of the numbers. -/
theorem codeOffset_mem_numbers {member : DefinedMethod} (h : member ∈ data.methods) :
    member.codeOffset ∈ data.numbers := by
  have hdetails : member.codeOffset ∈ member.details := by simp [DefinedMethod.details]
  rw [numbers, List.mem_append, List.mem_append]
  rcases List.mem_append.mp h with hdirect | hvirtual
  · exact .inl (.inr (mem_memberNumbers hdirect hdetails))
  · exact .inr (mem_memberNumbers hvirtual hdetails)

theorem StoredAt.fitsWords
    (h : data.StoredAt input (min fields (2 ^ 32)) (min methods (2 ^ 32)) pos stop) :
    data.FitsWords where
  size_lt size hmem := h.numbers.lt size (sizes_subset_numbers data hmem)
  field_lt member hmem := by
    rcases List.mem_append.mp hmem with hmem | hmem
    · exact (Nat.lt_min.mp (h.inRange.staticFields.field_lt member hmem)).2
    · exact (Nat.lt_min.mp (h.inRange.instanceFields.field_lt member hmem)).2
  method_lt member hmem := by
    rcases List.mem_append.mp hmem with hmem | hmem
    · exact (Nat.lt_min.mp (h.inRange.directMethods.method_lt member hmem)).2
    · exact (Nat.lt_min.mp (h.inRange.virtualMethods.method_lt member hmem)).2
  codeOffset_lt member hmem := h.numbers.lt _ (codeOffset_mem_numbers hmem)

theorem StoredAt.readFrom
    (h : data.StoredAt input (min fields (2 ^ 32)) (min methods (2 ^ 32)) pos stop) :
    data.ReadFrom input fields methods pos stop := by
  have hrange := h.inRange
  have hnumbers := h.numbers
  have hlength := hnumbers.add_length_le
  rw [length_numbers] at hlength
  -- There is a first number, so the item begins within the input.
  obtain ⟨next, hfirst, -⟩ := id hnumbers
  have hpos := Bytes.uleb128At?_next hfirst
  have hstop := hnumbers.stop_le_size (by omega)
  simp only [ClassData.numbers, Bytes.holdsNumbers_append] at hnumbers
  obtain ⟨virtuals, ⟨directs, ⟨instances, ⟨statics, hsizes, hstatic⟩, hinstance⟩, hdirect⟩,
    hvirtual⟩ := hnumbers
  refine ⟨⟨statics, instances, directs, virtuals, hsizes,
    summedAt_of_memberNumbers hrange.staticFields.sorted hstatic,
    summedAt_of_memberNumbers hrange.instanceFields.sorted hinstance,
    summedAt_of_memberNumbers hrange.directMethods.sorted hdirect,
    summedAt_of_memberNumbers hrange.virtualMethods.sorted hvirtual⟩,
    hrange.imp (fun _ _ hlt => (Nat.lt_min.mp hlt).1) (fun _ _ hlt => (Nat.lt_min.mp hlt).1)
      (fun _ _ => id), h.fitsWords, by omega, hstop⟩

/-- Class data of any size of pools is read as what it is stored as. -/
theorem yields_read_capped (fields methods : Nat) :
    (read fields methods).Yields input fun pos data next =>
      data.StoredAt input (min fields (2 ^ 32)) (min methods (2 ^ 32)) pos next :=
  read_min fields methods ▸ yields_read (Nat.min_le_right _ _) (Nat.min_le_right _ _)

/-- Class data in range is read back from its bytes, wherever they stand, with the cursor just past
them. Whatever is read from anywhere has indices that are the sums of the differences that stand
there, in order and in range, and is no longer than the bytes that it takes. -/
theorem read_inverts_encode (input : Bytes) (fields methods : Nat) (scan : Scan) :
    (∀ data : ClassData, data.InRange fields methods input.size → data.FitsWords →
      input.HasAt scan.pos data.encode →
      ∃ journal, Decode.run (read fields methods) input scan =
        (.ok data, ⟨scan.pos + data.encode.length, journal⟩)) ∧
    ∀ (data : ClassData) (after : Scan),
      Decode.run (read fields methods) input scan = (.ok data, after) →
      data.ReadFrom input fields methods scan.pos after.pos := by
  have hyields : (read fields methods).Yields input _ := yields_read_capped fields methods
  constructor
  · intro data hrange hfits hat
    exact (hyields scan data _).mpr (storedAt_of_hasAt hat hrange hfits)
  · intro data after hrun
    exact ((hyields scan data after.pos).mp ⟨after.journal, hrun⟩).readFrom

/-- Class data with an index that is repeated and differences of more than one byte. -/
def deltaSample : ClassData where
  staticFields := [⟨1, ⟨1⟩⟩, ⟨1, ⟨0xffffffff⟩⟩, ⟨299, ⟨0⟩⟩]
  instanceFields := [⟨0, ⟨2⟩⟩]
  directMethods := [⟨65535, ⟨0x10001⟩, 3⟩, ⟨65535, ⟨1⟩, 0⟩]

def deltaSampleInput : Bytes :=
  (0xff :: deltaSample.encode ++ [0x80]).toArray

theorem read_inverts_encode_deltaSample :
    deltaSample.InRange 300 65536 deltaSampleInput.size ∧ deltaSample.FitsWords ∧
      deltaSampleInput.HasAt 1 deltaSample.encode ∧
      ∃ journal, Decode.run (read 300 65536) deltaSampleInput { pos := 1 } =
          (.ok deltaSample, ⟨28, journal⟩) ∧
        deltaSample.ReadFrom deltaSampleInput 300 65536 1 28 := by
  have hrange : deltaSample.InRange 300 65536 deltaSampleInput.size := by decide +kernel
  have hfits : deltaSample.FitsWords := by constructor <;> decide
  have hat : deltaSampleInput.HasAt 1 deltaSample.encode := ⟨[0x80], rfl⟩
  obtain ⟨hread, hback⟩ := read_inverts_encode deltaSampleInput 300 65536 { pos := 1 }
  obtain ⟨journal, hrun⟩ := hread deltaSample hrange hfits hat
  have hlength : deltaSample.encode.length = 27 := by decide +kernel
  rw [hlength] at hrun
  exact ⟨hrange, hfits, hat, journal, hrun, hback _ _ hrun⟩

end ClassData

end Dalvik
