import Dalvik.Layout
import Dalvik.Proofs.Cursor

/-!
# Reading the header

A header is read just when its bytes begin the input and it belongs to a file that can be read, and
it is accepted just when it places every table within the input and, in strict loads, says nothing
false of the rest.
-/

namespace Dalvik

variable {input : Bytes}

/-- Where the header has the size of a table, the offset of the table being the word after that. -/
def Table.headerPos : Table → Nat
  | .strings => 0x38
  | .types => 0x40
  | .protos => 0x48
  | .fields => 0x50
  | .methods => 0x58
  | .classes => 0x60

/-! ## The bytes of a header -/

namespace Header

open Decode

@[simp]
theorem length_wordBytes (word : UInt32) : (wordBytes word).length = 4 :=
  length_toLittleEndian 4 _

@[simp]
theorem length_placementBytes (placement : Placement) : (placementBytes placement).length = 8 := by
  simp [placementBytes]

@[simp]
theorem length_encode (header : Header) : header.encode.length = headerLength := by
  simp [encode, headerLength]

theorem u32At?_eq_some_toNat_iff {pos : Nat} {word : UInt32} :
    input.u32At? pos = some word.toNat ↔ input.HasAt pos (wordBytes word) :=
  Bytes.numberAt?_eq_some_iff_hasAt (by decide) (by have := word.toNat_lt; omega)

theorem reads_word : word.Reads input 4 fun pos value => input.HasAt pos (wordBytes value) :=
  Decode.reads_word.congr rfl fun _ _ => u32At?_eq_some_toNat_iff

theorem reads_readPlacement :
    readPlacement.Reads input 8 fun pos value => input.HasAt pos (placementBytes value) := by
  refine (reads_word.bind fun size => reads_word.bind fun offset =>
    reads_pure (Placement.mk size offset)).congr rfl fun pos value => ?_
  simp only [placementBytes, Bytes.hasAt_append, length_wordBytes]
  constructor
  · rintro ⟨size, hsize, offset, hoffset, rfl⟩
    exact ⟨hsize, hoffset⟩
  · rintro ⟨hsize, hoffset⟩
    exact ⟨_, hsize, _, hoffset, rfl⟩

theorem reads_readFields :
    readFields.Reads input headerLength fun pos header => input.HasAt pos header.encode := by
  refine ((reads_block (by decide)).bind fun magic => reads_word.bind fun checksum =>
    (reads_block (by decide)).bind fun signature => reads_word.bind fun fileSize =>
    reads_word.bind fun headerSize => reads_word.bind fun endianTag =>
    reads_readPlacement.bind fun link => reads_word.bind fun mapOffset =>
    reads_readPlacement.bind fun stringIds => reads_readPlacement.bind fun typeIds =>
    reads_readPlacement.bind fun protoIds => reads_readPlacement.bind fun fieldIds =>
    reads_readPlacement.bind fun methodIds => reads_readPlacement.bind fun classDefs =>
    reads_readPlacement.bind fun data => reads_pure (Header.mk magic checksum signature fileSize
      headerSize endianTag link mapOffset stringIds typeIds protoIds fieldIds methodIds classDefs
      data)).congr rfl fun pos header => ?_
  simp only [encode, Bytes.hasAt_append, List.length_append, length_wordBytes,
    length_placementBytes, Vector.length_toList]
  constructor
  · rintro ⟨_, hmagic, _, hchecksum, _, hsignature, _, hfileSize, _, hheaderSize, _, hendian, _,
      hlink, _, hmap, _, hstrings, _, htypes, _, hprotos, _, hfields, _, hmethods, _, hclasses, _,
      hdata, rfl⟩
    exact ⟨⟨⟨⟨⟨⟨⟨⟨⟨⟨⟨⟨⟨⟨hmagic, hchecksum⟩, hsignature⟩, hfileSize⟩, hheaderSize⟩, hendian⟩,
      hlink⟩, hmap⟩, hstrings⟩, htypes⟩, hprotos⟩, hfields⟩, hmethods⟩, hclasses⟩, hdata⟩
  · rintro ⟨⟨⟨⟨⟨⟨⟨⟨⟨⟨⟨⟨⟨⟨hmagic, hchecksum⟩, hsignature⟩, hfileSize⟩, hheaderSize⟩, hendian⟩,
      hlink⟩, hmap⟩, hstrings⟩, htypes⟩, hprotos⟩, hfields⟩, hmethods⟩, hclasses⟩, hdata⟩
    exact ⟨_, hmagic, _, hchecksum, _, hsignature, _, hfileSize, _, hheaderSize, _, hendian, _,
      hlink, _, hmap, _, hstrings, _, htypes, _, hprotos, _, hfields, _, hmethods, _, hclasses, _,
      hdata, rfl⟩

/-- What the bytes of a header say where. -/
structure FieldsAt (input : Bytes) (header : Header) : Prop where
  magic : input.HasAt 0 header.magic.toList
  endianTag : input.u32At? 0x28 = some header.endianTag.toNat
  count : ∀ table : Table, input.u32At? table.headerPos = some (header.count table)
  offset : ∀ table : Table, input.u32At? (table.headerPos + 4) = some (header.offset table)

theorem fieldsAt_of_hasAt_encode {header : Header} (h : input.HasAt 0 header.encode) :
    header.FieldsAt input := by
  simp only [encode, placementBytes, Bytes.hasAt_append, List.length_append, length_wordBytes,
    Vector.length_toList, ← u32At?_eq_some_toNat_iff] at h
  obtain ⟨⟨⟨⟨⟨⟨⟨⟨⟨⟨⟨⟨⟨⟨hmagic, -⟩, -⟩, -⟩, -⟩, hendian⟩, -⟩, -⟩, hstrings⟩, htypes⟩, hprotos⟩,
    hfields⟩, hmethods⟩, hclasses⟩, -⟩ := h
  refine ⟨hmagic, hendian, fun table => ?_, fun table => ?_⟩
  · cases table with
    | strings => exact hstrings.1
    | types => exact htypes.1
    | protos => exact hprotos.1
    | fields => exact hfields.1
    | methods => exact hmethods.1
    | classes => exact hclasses.1
  · cases table with
    | strings => exact hstrings.2
    | types => exact htypes.2
    | protos => exact hprotos.2
    | fields => exact hfields.2
    | methods => exact hmethods.2
    | classes => exact hclasses.2

/-- The header that begins an input, of a file that can be read. -/
structure StoredIn (input : Bytes) (header : Header) : Prop where
  bytes : input.HasAt 0 header.encode
  magic : isMagic header.magic.toList
  endianTag : header.endianTag = littleEndianTag

/-- What is wrong with a header by itself. -/
def refusal? (header : Header) : Option Fault :=
  if !isMagic header.magic.toList then some (.badMagic header.magic.toList)
  else if header.endianTag = littleEndianTag then none
  else if header.endianTag = bigEndianTag then some .bigEndian
  else some (.badEndianTag header.endianTag)

theorem refusal?_eq_none_iff {header : Header} : header.refusal? = none ↔
    isMagic header.magic.toList ∧ header.endianTag = littleEndianTag := by
  rw [refusal?]
  grind

theorem kind_of_refusal?_eq_some {header : Header} {fault : Fault}
    (h : header.refusal? = some fault) : fault.kind = .invalidHeader := by
  rw [refusal?] at h
  grind [Fault.kind]

/-- The check of a header ends as the header says, wherever it is made. -/
theorem run_check (header : Header) (input : Bytes) (scan : Scan) :
    run header.check input scan =
      (header.refusal?.elim (.ok ()) fun fault => .error { fault }, scan) := by
  rw [check, refusal?]
  split
  · rfl
  split
  · rfl
  split
  · rfl
  · rfl

theorem reads_check (header : Header) :
    header.check.Reads input 0 fun _ _ =>
      isMagic header.magic.toList ∧ header.endianTag = littleEndianTag := by
  simp only [← refusal?_eq_none_iff]
  apply yields_of_run
  · rintro scan _ _ ⟨rfl, hnone⟩
    rw [run_check, hnone]
    rfl
  · intro scan _ after hrun
    rw [run_check] at hrun
    cases hrefusal : header.refusal? with
    | none =>
        rw [hrefusal] at hrun
        cases hrun
        exact ⟨rfl, rfl⟩
    | some fault =>
        rw [hrefusal] at hrun
        cases hrun

theorem reads_read : Header.read.Reads input 0 fun _ header => header.StoredIn input := by
  refine (reads_length.bind fun length => Reads.ite (fun _ => reads_fail _ 0) fun _ =>
    (reads_readFields.atOffset 0).bind fun header => (reads_check header).bind fun _ =>
      reads_pure header).congr rfl fun pos header => ?_
  constructor
  · rintro ⟨_, rfl, hrest⟩
    split at hrest
    next => exact hrest.elim
    next =>
      obtain ⟨_, ⟨-, hbytes⟩, _, ⟨hmagic, hendian⟩, rfl⟩ := hrest
      exact ⟨hbytes, hmagic, hendian⟩
  · rintro ⟨hbytes, hmagic, hendian⟩
    have hlength := hbytes.length_le
    rw [length_encode, Bytes.length_suffix] at hlength
    refine ⟨_, rfl, ?_⟩
    rw [if_neg (by omega)]
    exact ⟨header, ⟨Nat.zero_le _, hbytes⟩, (), ⟨hmagic, hendian⟩, rfl⟩

end Header

end Dalvik
