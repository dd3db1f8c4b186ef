import Dalvik.Proofs.Acceptance
import Dalvik.Proofs.Independence

/-!
# The header as a code

Reading a header undoes writing it, and writing it gives back the bytes that it was read from. How
the reading ends is settled by the first `0x70` bytes, or by the length of an input that has fewer.
-/

namespace Dalvik

namespace Header

open Decode

variable {input other : Bytes} {header : Header} {scan : Scan}

/-- What is asked of a header by itself: three digits between the fixed text and the NUL of its
magic, and the tag of a little-endian file. -/
structure IsMarked (header : Header) : Prop where
  magic : ∃ digits : List UInt8, digits.length = 3 ∧
    (∀ digit ∈ digits, 0x30 ≤ digit ∧ digit ≤ 0x39) ∧
    header.magic.toList = magicText ++ digits ++ [0]
  endianTag : header.endianTag = 0x12345678

theorem isMarked_iff :
    header.IsMarked ↔ isMagic header.magic.toList ∧ header.endianTag = littleEndianTag := by
  rw [isMagic_iff (by simp)]
  exact ⟨fun h => ⟨h.magic, h.endianTag⟩, fun h => ⟨h.1, h.2⟩⟩

/-! ## The bytes of a header -/

/-- The bytes of a header begin an input just when they are its first `0x70`. -/
theorem hasAt_encode_iff_take :
    input.HasAt 0 header.encode ↔ input.toList.take headerLength = header.encode := by
  rw [Bytes.HasAt, Bytes.suffix, List.drop_zero, List.prefix_iff_eq_take, length_encode, eq_comm]

theorem storedIn_encode_append (h : header.IsMarked) (tail : List UInt8) :
    header.StoredIn (header.encode ++ tail).toArray := by
  obtain ⟨hmagic, hendian⟩ := isMarked_iff.mp h
  have hbytes : Bytes.HasAt (header.encode ++ tail).toArray 0 header.encode :=
    hasAt_encode_iff_take.mpr (List.take_left' header.length_encode)
  exact ⟨hbytes, hmagic, hendian⟩

/-- An input that is too short for a header is all beginning. -/
theorem eq_of_take_eq (h : other.toList.take headerLength = input.toList.take headerLength)
    (hlt : input.size < headerLength) : other = input := by
  have hlength := congrArg List.length h
  simp only [List.length_take, Array.length_toList] at hlength
  rw [List.take_of_length_le (by rw [Array.length_toList]; omega),
    List.take_of_length_le (by rw [Array.length_toList]; omega)] at h
  exact Array.toList_inj.mp h

/-! ## How the reading ends -/

theorem run_read_of_lt (h : input.size < headerLength) :
    (run Header.read input scan).1 = .error { fault := .headerTooShort input.size } := by
  rw [Header.read, run_bind_of_ok (run_length input scan), if_pos h, run_fail]

/-- A header whose bytes begin the input is what the reading ends with, unless something is wrong
with it by itself. -/
theorem run_read_of_hasAt (h : input.HasAt 0 header.encode) :
    (run Header.read input scan).1 =
      header.refusal?.elim (.ok header) fun fault => .error { fault } := by
  have hlength := h.length_le
  rw [length_encode, Bytes.length_suffix] at hlength
  obtain ⟨journal, hfields⟩ := ((reads_readFields.atOffset 0) scan header scan.pos).mpr
    ⟨rfl, Nat.zero_le _, h⟩
  rw [Header.read, run_bind_of_ok (run_length input scan), if_neg (by omega),
    run_bind_of_ok hfields, run_bind, run_check]
  cases header.refusal? <;> rfl

/-- Of an input that is long enough, the header decides whether it is one of a dex file. -/
theorem hasHeader_iff_of_hasAt (h : input.HasAt 0 header.encode) :
    input.HasHeader ↔ header.refusal? = none := by
  rw [← exists_storedIn_iff, refusal?_eq_none_iff]
  constructor
  · rintro ⟨found, hfound⟩
    obtain rfl : found = header := reads_readFields.eq_of_spec 0 hfound.bytes h
    exact ⟨hfound.magic, hfound.endianTag⟩
  · rintro ⟨hmagic, hendian⟩
    exact ⟨header, h, hmagic, hendian⟩

/-- The three ways in which the reading can end, with what the input is like in each. -/
theorem read_cases (input : Bytes) (scan : Scan) :
    (input.size < headerLength ∧
      ∃ failure, (run Header.read input scan).1 = .error failure ∧ failure.kind = .truncated) ∨
    ((headerLength ≤ input.size ∧ ¬input.HasHeader) ∧
      ∃ failure, (run Header.read input scan).1 = .error failure ∧
        failure.kind = .invalidHeader) ∨
    (input.HasHeader ∧ ∃ header, (run Header.read input scan).1 = .ok header) := by
  by_cases hlt : input.size < headerLength
  · exact .inl ⟨hlt, _, run_read_of_lt hlt, rfl⟩
  · have hle : headerLength ≤ input.size := Nat.le_of_not_lt hlt
    obtain ⟨header, hheader⟩ := exists_encode hle
    rw [hasHeader_iff_of_hasAt hheader, run_read_of_hasAt hheader]
    cases hrefusal : header.refusal? with
    | none => exact .inr (.inr ⟨rfl, header, rfl⟩)
    | some fault =>
        refine .inr (.inl ⟨⟨hle, Option.some_ne_none fault⟩, _, rfl, ?_⟩)
        exact kind_of_refusal?_eq_some hrefusal

theorem exists_truncated_iff :
    (∃ failure, (run Header.read input scan).1 = .error failure ∧ failure.kind = .truncated) ↔
      input.size < headerLength := by
  obtain ⟨hlt, hfailure⟩ | ⟨⟨hle, -⟩, failure, hrun, hkind⟩ | ⟨hheader, header, hrun⟩ :=
    read_cases input scan
  · exact iff_of_true hfailure hlt
  · exact iff_of_false (by simp [hrun, hkind]) (Nat.not_lt.mpr hle)
  · exact iff_of_false (by simp [hrun]) (Nat.not_lt.mpr hheader.fits)

theorem exists_invalidHeader_iff :
    (∃ failure, (run Header.read input scan).1 = .error failure ∧
        failure.kind = .invalidHeader) ↔
      headerLength ≤ input.size ∧ ¬input.HasHeader := by
  obtain ⟨hlt, failure, hrun, hkind⟩ | ⟨hinput, hfailure⟩ | ⟨hheader, header, hrun⟩ :=
    read_cases input scan
  · exact iff_of_false (by simp [hrun, hkind]) fun h => Nat.not_lt.mpr h.1 hlt
  · exact iff_of_true hfailure hinput
  · exact iff_of_false (by simp [hrun]) fun h => h.2 hheader

/-- A file that can be read has one header, and what is read is that. -/
theorem exists_read_eq_ok (h : input.HasHeader) :
    ∃ header, (run Header.read input scan).1 = .ok header ∧
      input.toList.take headerLength = header.encode := by
  obtain ⟨header, hheader⟩ := exists_storedIn_iff.mpr h
  exact ⟨header, reads_read.result_eq_ok_iff.mpr hheader,
    hasAt_encode_iff_take.mp hheader.bytes⟩

/-- What follows the header does not matter for the reading of it. -/
theorem run_read_congr (h : other.toList.take headerLength = input.toList.take headerLength)
    (next : Scan) : (run Header.read other next).1 = (run Header.read input scan).1 := by
  by_cases hle : headerLength ≤ input.size
  · obtain ⟨header, hheader⟩ := exists_encode hle
    have hother : other.HasAt 0 header.encode := by
      rw [hasAt_encode_iff_take] at hheader ⊢
      exact h.trans hheader
    rw [run_read_of_hasAt hother, run_read_of_hasAt hheader]
  · rw [eq_of_take_eq h (Nat.lt_of_not_le hle)]
    exact settled_read.independent.result next scan

/-- Reading is decided by the length of the input and by the magic and the endian tag in it. What is
read is what, written, gives the first `0x70` bytes; and every header with the right magic and tag
is read back, whatever follows it. -/
theorem read_exact_and_invertible (input : Bytes) (scan : Scan) :
    ((∃ failure, (run Header.read input scan).1 = .error failure ∧ failure.kind = .truncated) ↔
      input.size < 0x70) ∧
    ((∃ failure, (run Header.read input scan).1 = .error failure ∧
        failure.kind = .invalidHeader) ↔
      0x70 ≤ input.size ∧ ¬input.HasHeader) ∧
    (input.HasHeader → ∃ header, (run Header.read input scan).1 = .ok header ∧
      input.toList.take 0x70 = header.encode) ∧
    (∀ header tail, header.IsMarked →
      (run Header.read (header.encode ++ tail).toArray scan).1 = .ok header) ∧
    ∀ other : Bytes, other.toList.take 0x70 = input.toList.take 0x70 → ∀ next,
      (run Header.read other next).1 = (run Header.read input scan).1 := by
  refine ⟨exists_truncated_iff, exists_invalidHeader_iff, exists_read_eq_ok, ?_,
    fun other hother next => run_read_congr hother next⟩
  intro header tail hmarked
  exact reads_read.result_eq_ok_iff.mpr (storedIn_encode_append hmarked tail)

/-- A header with no two fields alike, so that none can be taken for another. -/
def motley : Header where
  magic := #v[0x64, 0x65, 0x78, 0x0a, 0x30, 0x34, 0x39, 0]
  checksum := 0x83828180
  signature := #v[0x90, 0x91, 0x92, 0x93, 0x94, 0x95, 0x96, 0x97, 0x98, 0x99,
    0xa0, 0xa1, 0xa2, 0xa3, 0xa4, 0xa5, 0xa6, 0xa7, 0xa8, 0xa9]
  fileSize := 0x03020100
  headerSize := 0x07060504
  endianTag := 0x12345678
  link := ⟨0x13121110, 0x17161514⟩
  mapOffset := 0x23222120
  stringIds := ⟨0x33323130, 0x37363534⟩
  typeIds := ⟨0x43424140, 0x47464544⟩
  protoIds := ⟨0x53525150, 0x57565554⟩
  fieldIds := ⟨0x63626160, 0x67666564⟩
  methodIds := ⟨0x73727170, 0x77767574⟩
  classDefs := ⟨0xb3b2b1b0, 0xb7b6b5b4⟩
  data := ⟨0xfffefdfc, 0xfbfaf9f8⟩

theorem isMarked_motley : motley.IsMarked where
  magic := ⟨[0x30, 0x34, 0x39], rfl, by decide +kernel, rfl⟩
  endianTag := rfl

theorem read_exact_and_invertible_motley :
    let input : Bytes := (motley.encode ++ [0xff]).toArray
    let bare : Bytes := (motley.encode ++ []).toArray
    motley.IsMarked ∧ input.HasHeader ∧ bare.toList.take 0x70 = input.toList.take 0x70 ∧
      (run Header.read input {}).1 = .ok motley ∧
      (∃ header, (run Header.read input {}).1 = .ok header ∧
        input.toList.take 0x70 = header.encode) ∧
      (run Header.read bare { pos := 3 }).1 = (run Header.read input {}).1 := by
  intro input bare
  have hinput := storedIn_encode_append isMarked_motley [0xff]
  have hbare := storedIn_encode_append isMarked_motley []
  have hheader : input.HasHeader := exists_storedIn_iff.mp ⟨motley, hinput⟩
  have htake : bare.toList.take 0x70 = input.toList.take 0x70 :=
    (hasAt_encode_iff_take.mp hbare.bytes).trans (hasAt_encode_iff_take.mp hinput.bytes).symm
  obtain ⟨-, -, hread, hinverse, hcongr⟩ := read_exact_and_invertible input {}
  exact ⟨isMarked_motley, hheader, htake, hinverse motley [0xff] isMarked_motley, hread hheader,
    hcongr bare htake { pos := 3 }⟩

end Header

end Dalvik
