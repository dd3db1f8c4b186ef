import Dalvik.Decode.Cursor
import Dalvik.Proofs.Numbers

/-!
# Random access

What stands at an offset of an input, said without a cursor. Numbers, variable-length numbers and
NUL-terminated bytes are given as functions of the input and the offset, so that the same place
always reads the same.
-/

namespace Dalvik

namespace Bytes

variable {input : Bytes}

/-- The bytes from an offset on. -/
def suffix (input : Bytes) (offset : Nat) : List UInt8 :=
  input.toList.drop offset

/-- Whether the bytes from an offset on begin with `content`. -/
def HasAt (input : Bytes) (offset : Nat) (content : List UInt8) : Prop :=
  content <+: input.suffix offset

/-- The little-endian number of `width` bytes at an offset, if the input has all of them. -/
def numberAt? (input : Bytes) (width offset : Nat) : Option Nat :=
  if offset + width ≤ input.size then some (ofLittleEndian ((input.suffix offset).take width))
  else none

/-- The 16-bit number at an offset. -/
def u16At? (input : Bytes) (offset : Nat) : Option Nat :=
  input.numberAt? 2 offset

/-- The 32-bit number at an offset. -/
def u32At? (input : Bytes) (offset : Nat) : Option Nat :=
  input.numberAt? 4 offset

/-- The variable-length number at an offset, and the offset after it. -/
def uleb128At? (input : Bytes) (offset : Nat) : Option (Nat × Nat) :=
  (Uleb128.decode (input.suffix offset)).map fun (value, used) => (value, offset + used)

/-! ## Suffixes -/

@[simp]
theorem length_suffix (input : Bytes) (offset : Nat) :
    (input.suffix offset).length = input.size - offset := by
  simp [suffix]

theorem suffix_add (input : Bytes) (offset count : Nat) :
    input.suffix (offset + count) = (input.suffix offset).drop count := by
  simp [suffix, List.drop_drop]

theorem toList_extract_eq_take_suffix (input : Bytes) (offset count : Nat) :
    (input.extract offset (offset + count)).toList = (input.suffix offset).take count := by
  simp [suffix]

theorem getElem?_eq_head?_suffix (input : Bytes) (offset : Nat) :
    input[offset]? = (input.suffix offset).head? := by
  simp [suffix]

theorem hasAt_append {offset : Nat} {first second : List UInt8} :
    input.HasAt offset (first ++ second) ↔
      input.HasAt offset first ∧ input.HasAt (offset + first.length) second := by
  rw [HasAt, HasAt, HasAt, suffix_add]
  constructor
  · rintro ⟨rest, hrest⟩
    rw [← hrest, List.append_assoc]
    exact ⟨List.prefix_append _ _, by simp⟩
  · rintro ⟨⟨rest, hrest⟩, hsecond⟩
    rw [← hrest, List.drop_left] at hsecond
    rw [← hrest]
    exact (List.prefix_append_right_inj first).mpr hsecond

theorem HasAt.end_le {offset : Nat} {content : List UInt8} (h : input.HasAt offset content)
    (hne : content ≠ []) : offset + content.length ≤ input.size := by
  have hlength := h.length_le
  have hpos := List.length_pos_iff.mpr hne
  rw [length_suffix] at hlength
  omega

/-- What stands at an offset stands before the rest of the input. -/
theorem HasAt.suffix_eq {offset : Nat} {content : List UInt8} (h : input.HasAt offset content) :
    input.suffix offset = content ++ input.suffix (offset + content.length) := by
  obtain ⟨rest, hrest⟩ := h
  rw [suffix_add, ← hrest, List.drop_left]

/-! ## Numbers -/

theorem numberAt?_eq_some_iff {width offset value : Nat} :
    input.numberAt? width offset = some value ↔
      offset + width ≤ input.size ∧
        ofLittleEndian ((input.suffix offset).take width) = value := by
  simp [numberAt?]

/-- A number is there whenever the input has its bytes. -/
theorem exists_numberAt?_iff {width offset : Nat} :
    (∃ value, input.numberAt? width offset = some value) ↔ offset + width ≤ input.size := by
  simp [numberAt?_eq_some_iff]

theorem numberAt?_lt {width offset value : Nat} (h : input.numberAt? width offset = some value) :
    value < 256 ^ width := by
  obtain ⟨hfits, rfl⟩ := numberAt?_eq_some_iff.mp h
  refine Nat.lt_of_lt_of_le (ofLittleEndian_lt _) (Nat.pow_le_pow_right (by decide) ?_)
  rw [List.length_take]
  omega

/-- A number is at an offset just when its digits are. -/
theorem numberAt?_eq_some_iff_hasAt {width offset value : Nat} (hwidth : 0 < width)
    (hvalue : value < 256 ^ width) :
    input.numberAt? width offset = some value ↔
      input.HasAt offset (toLittleEndian width value) := by
  rw [numberAt?_eq_some_iff]
  constructor
  · rintro ⟨hfits, rfl⟩
    have hlength : ((input.suffix offset).take width).length = width := by
      rw [List.length_take, length_suffix]
      omega
    have hdigits := toLittleEndian_ofLittleEndian ((input.suffix offset).take width)
    rw [hlength] at hdigits
    rw [hdigits]
    exact List.take_prefix _ _
  · intro h
    have hlength := length_toLittleEndian width value
    have hfits := h.end_le (List.length_pos_iff.mp (by omega))
    rw [hlength] at hfits
    refine ⟨hfits, ?_⟩
    rw [h.suffix_eq, List.take_left' hlength, ofLittleEndian_toLittleEndian hvalue]

theorem u32At?_lt {offset value : Nat} (h : input.u32At? offset = some value) :
    value < 2 ^ 32 :=
  numberAt?_lt h

theorem exists_u16At?_iff {offset : Nat} :
    (∃ value, input.u16At? offset = some value) ↔ offset + 2 ≤ input.size :=
  exists_numberAt?_iff

theorem exists_u32At?_iff {offset : Nat} :
    (∃ value, input.u32At? offset = some value) ↔ offset + 4 ≤ input.size :=
  exists_numberAt?_iff

/-! ## Variable-length numbers -/

theorem uleb128At?_lt {offset value next : Nat}
    (h : input.uleb128At? offset = some (value, next)) : value < 2 ^ 32 := by
  obtain ⟨⟨value, used⟩, hdecode, heq⟩ := Option.map_eq_some_iff.mp h
  obtain ⟨rfl, -⟩ := Prod.mk.inj heq
  exact Uleb128.decode_lt hdecode

/-- A number takes at least one byte, and the input has all that it takes. -/
theorem uleb128At?_next {offset value next : Nat}
    (h : input.uleb128At? offset = some (value, next)) : offset < next ∧ next ≤ input.size := by
  obtain ⟨⟨value, used⟩, hdecode, heq⟩ := Option.map_eq_some_iff.mp h
  obtain ⟨-, rfl⟩ := Prod.mk.inj heq
  have hused := Uleb128.decode_used hdecode
  rw [length_suffix] at hused
  omega

/-- The shortest form of a number is read as that number. -/
theorem HasAt.uleb128At? {offset value : Nat} (hvalue : value < 2 ^ 32)
    (h : input.HasAt offset (Uleb128.encode value)) :
    input.uleb128At? offset = some (value, offset + (Uleb128.encode value).length) := by
  rw [Bytes.uleb128At?, h.suffix_eq, Uleb128.decode_encode_append hvalue, Option.map_some]

/-! ## Bytes before a NUL -/

theorem scanNul_eq_some_iff {fuel pos : Nat} (hfuel : input.size - pos ≤ fuel)
    {text : List UInt8} :
    scanNul input fuel pos = some text ↔ 0 ∉ text ∧ input.HasAt pos (text ++ [0]) := by
  induction fuel generalizing pos text with
  | zero =>
      have hnil : input.suffix pos = [] := by
        apply List.length_eq_zero_iff.mp
        rw [length_suffix]
        omega
      simp [scanNul, HasAt, hnil]
  | succ fuel ih =>
      have htail : input.suffix (pos + 1) = (input.suffix pos).tail := by
        rw [suffix_add, List.drop_one]
      rw [scanNul, getElem?_eq_head?_suffix]
      cases hsuffix : input.suffix pos with
      | nil => simp [HasAt, hsuffix]
      | cons byte bytes =>
          rw [hsuffix, List.tail_cons] at htail
          have hih : ∀ text, scanNul input fuel (pos + 1) = some text ↔
              0 ∉ text ∧ input.HasAt (pos + 1) (text ++ [0]) := fun _ => ih (by omega)
          simp only [HasAt, htail] at hih
          simp only [List.head?_cons, HasAt, hsuffix]
          split
          next hzero =>
            subst hzero
            cases text with
            | nil => simp [List.cons_prefix_cons]
            | cons first text =>
                simp only [Option.some.injEq, List.cons_append, List.cons_prefix_cons,
                  List.mem_cons, not_or]
                grind
          next hzero =>
            rw [Option.map_eq_some_iff]
            cases text with
            | nil => simp [List.cons_prefix_cons, Ne.symm hzero]
            | cons first text =>
                simp only [hih, List.cons.injEq, List.cons_append, List.cons_prefix_cons,
                  List.mem_cons, not_or]
                grind

/-- The bytes before the next NUL are those that hold no NUL and have one after them. -/
theorem untilNul_eq_some_iff {pos : Nat} {text : List UInt8} :
    input.untilNul pos = some text ↔ 0 ∉ text ∧ input.HasAt pos (text ++ [0]) :=
  scanNul_eq_some_iff (Nat.le_refl _)

/-- There are bytes before the next NUL just when there is a NUL. -/
theorem exists_untilNul_iff {pos : Nat} :
    (∃ text, input.untilNul pos = some text) ↔ ∃ stop, pos ≤ stop ∧ input[stop]? = some 0 := by
  simp only [untilNul_eq_some_iff]
  constructor
  · rintro ⟨text, -, hat⟩
    refine ⟨pos + text.length, by omega, ?_⟩
    rw [getElem?_eq_head?_suffix, (hasAt_append.mp hat).2.suffix_eq]
    rfl
  · rintro ⟨stop, hle, hstop⟩
    have hmem : 0 ∈ input.suffix pos := by
      apply List.mem_of_getElem? (i := stop - pos)
      rw [suffix, List.getElem?_drop, Nat.add_sub_cancel' hle, Array.getElem?_toList, hstop]
    obtain ⟨text, rest, hsuffix, hfirst⟩ := List.eq_append_cons_of_mem hmem
    refine ⟨text, hfirst, rest, ?_⟩
    rw [hsuffix, List.append_assoc]
    rfl

end Bytes

end Dalvik
