import Dalvik.Proofs.ItemNotes
import Dalvik.Proofs.RoundTrip
import Dalvik.Proofs.TextForms

/-!
# The texts of strings

Strings that are written in modified UTF-8 are read as their texts, wherever their data stands. Of
other bytes, only those that are plain UTF-8 are read without loss; a warning tells of the rest.
-/

namespace Dalvik

open Text.ModifiedUtf8 Decode

variable {input : Bytes}

/-! ## The bytes of string data -/

namespace StringItem

/-- String data at an offset: a declared length, then bytes without NUL and a NUL. -/
def BytesAt (input : Bytes) (offset declared : Nat) (bytes : List UInt8) : Prop :=
  0 ∉ bytes ∧ ∃ next, input.uleb128At? offset = some (declared, next) ∧
    input.HasAt next (bytes ++ [0])

variable {offset declared : Nat} {bytes : List UInt8} {item : StringItem}

theorem BytesAt.dataAt_iff (h : BytesAt input offset declared bytes) :
    item.DataAt input offset ↔ item = ofBytes declared bytes := by
  obtain ⟨hzero, next, hcount, hat⟩ := h
  have huntil := Bytes.untilNul_eq_some_iff.mpr ⟨hzero, hat⟩
  constructor
  · rintro ⟨_, _, _, hcount', huntil', rfl⟩
    cases hcount.symm.trans hcount'
    cases huntil.symm.trans huntil'
    rfl
  · rintro rfl
    exact ⟨declared, next, bytes, hcount, huntil, rfl⟩

theorem lossy_ofBytes_iff (hzero : 0 ∉ bytes) :
    (ofBytes declared bytes).lossy = false ↔ IsWellFormed bytes ∨ IsSupplementary bytes := by
  rw [← exists_decode_iff hzero, ofBytes]
  cases decode bytes with
  | none => simp
  | some text => simp

/-- A text gives back its bytes in modified UTF-8 just where they were that. -/
theorem encode_ofBytes_iff :
    encode (ofBytes declared bytes).text.toList = bytes ↔ IsWellFormed bytes := by
  refine ⟨fun heq => isWellFormed_iff.mpr ⟨_, heq⟩, fun hformed => ?_⟩
  obtain ⟨text, rfl⟩ := isWellFormed_iff.mp hformed
  rw [ofBytes, decode_encode, String.toList_ofList]

/-- Reading string data ends with the item that its bytes give. -/
theorem BytesAt.run_read (h : BytesAt input offset declared bytes) (journal : Journal) :
    ∃ after, run StringItem.read input ⟨offset, journal⟩ =
      (.ok (ofBytes declared bytes), after) := by
  obtain ⟨hzero, next, hcount, hat⟩ := h
  have huntil := Bytes.untilNul_eq_some_iff.mpr ⟨hzero, hat⟩
  obtain ⟨journal, hrun⟩ := (StringItem.yields_read ⟨offset, journal⟩ _ _).mpr
    ⟨declared, next, bytes, hcount, huntil, rfl, rfl⟩
  exact ⟨_, hrun⟩

end StringItem

namespace Pool.Strings

variable {pool : Pool.Strings}

theorem lossyString_mem_anomalies_iff {index : Nat} :
    .lossyString index ∈ pool.anomalies ↔
      ∃ item, pool.items[index]? = some item ∧ item.lossy = true := by
  rw [anomalies, mem_flatMap_zipIdx]
  simp only [StringItem.anomalies, StringItem.anomaly?, Option.mem_toList]
  grind

/-! ## Texts that are written -/

/-- A table of strings at an offset that places the data of some texts, in any order. -/
structure HoldsTexts (input : Bytes) (offset : Nat) (texts : List String) : Prop where
  fits : offset + texts.length * 4 ≤ input.size
  placed : ∀ index (h : index < texts.length), ∃ start,
    input.u32At? (offset + index * 4) = some start ∧
      input.HasAt start (Contents.stringBytes start texts[index])

/-- The texts are stored as the items that they give. -/
theorem HoldsTexts.holds {offset : Nat} {texts : List String} (h : HoldsTexts input offset texts)
    (hunits : ∀ text ∈ texts, unitCount text.toList < 2 ^ 32) :
    Table.strings.Holds input texts.length offset (fun _ pos item => item.StoredAt input pos)
      (texts.map Contents.stringItem).toArray := by
  refine ⟨h.fits, by simp, fun index hindex => ?_⟩
  have hlt : index < texts.length := by simpa using hindex
  obtain ⟨start, hstart, hat⟩ := h.placed index hlt
  have hstored := Contents.storedAt_of_hasAt hstart hat (hunits _ (List.getElem_mem hlt))
  rw [List.getElem_toArray, List.getElem_map]
  exact hstored

/-- There is nothing odd about an item that a text gives. -/
theorem anomalies_stringItems (texts : List String) :
    (ofItems (texts.map Contents.stringItem).toArray).anomalies = [] := by
  rw [List.eq_nil_iff_forall_not_mem]
  intro anomaly hmem
  obtain ⟨index, item, hitem, hanomaly⟩ := mem_flatMap_zipIdx.mp hmem
  obtain ⟨text, -, rfl⟩ : ∃ text, texts[index]? = some text ∧ Contents.stringItem text = item := by
    simpa [ofItems] using hitem
  simp [StringItem.anomalies, StringItem.anomaly?, Contents.stringItem] at hanomaly

/-- Texts are read back with their lengths from wherever their data stands, and nothing is noted. -/
theorem read_holdsTexts {offset : Nat} {texts : List String} (h : HoldsTexts input offset texts)
    (hcount : texts.length < 2 ^ 32)
    (hunits : ∀ text ∈ texts, unitCount text.toList < 2 ^ 32) (scan : Scan) :
    ∃ pool after, run (read texts.length offset) input scan = (.ok pool, after) ∧
      pool.items.toList = texts.map (fun text => ⟨unitCount text.toList, text, false⟩) ∧
      after.pos = scan.pos ∧ after.journal.diagnostics = scan.journal.diagnostics := by
  have hholds := h.holds hunits
  obtain ⟨journal, hrun⟩ := (reads_read_of_lt hcount offset scan
    (ofItems (texts.map Contents.stringItem).toArray) _).mpr ⟨rfl, rfl, hholds⟩
  obtain ⟨_, rfl, hdiagnostics⟩ := (notes_read texts.length offset).diagnostics_of_run hrun
  rw [anomalies_stringItems, List.map_nil, List.append_nil] at hdiagnostics
  exact ⟨_, _, hrun, rfl, rfl, hdiagnostics⟩

/-- Two strings whose data stands in the other order: a NUL in the first, a character above `U+FFFF`
in the second. -/
def scatteredInput : Bytes :=
  #[16, 0, 0, 0, 8, 0, 0, 0, 2, 0xed, 0xa0, 0xbd, 0xed, 0xb8, 0x80, 0, 2, 0x61, 0xc0, 0x80, 0]

theorem read_scatteredInput :
    HoldsTexts scatteredInput 0 ["a\x00", "😀"] ∧
      ∃ pool after, run (read 2 0) scatteredInput {} = (.ok pool, after) ∧
        pool.items.toList = [⟨2, "a\x00", false⟩, ⟨2, "😀", false⟩] ∧
        after.pos = 0 ∧ after.journal.diagnostics = [] := by
  have hfirst : scatteredInput.HasAt 16 (Contents.stringBytes 16 "a\x00") :=
    List.isPrefixOf_iff_prefix.mp (by decide +kernel)
  have hsecond : scatteredInput.HasAt 8 (Contents.stringBytes 8 "😀") :=
    List.isPrefixOf_iff_prefix.mp (by decide +kernel)
  have hholds : HoldsTexts scatteredInput 0 ["a\x00", "😀"] := by
    refine ⟨by decide, fun index h => ?_⟩
    match index, h with
    | 0, _ => exact ⟨16, by decide, hfirst⟩
    | 1, _ => exact ⟨8, by decide, hsecond⟩
  exact ⟨hholds, read_holdsTexts hholds (by decide) (by decide +kernel) {}⟩

end Pool.Strings

/-! ## What is lossy -/

/-- String data is read without loss just where its bytes are modified UTF-8, or plain UTF-8 with a
character above `U+FFFF`; only in the first case does the text give back the bytes. The pool warns
of each string whose bytes are neither. -/
theorem StringItem.lossy_iff {start declared : Nat} {bytes : List UInt8}
    (h : BytesAt input start declared bytes) :
    (∀ journal, ∃ item after, run StringItem.read input ⟨start, journal⟩ = (.ok item, after) ∧
      (item.lossy = false ↔ IsWellFormed bytes ∨ IsSupplementary bytes) ∧
      (encode item.text.toList = bytes ↔ IsWellFormed bytes)) ∧
    ∀ (scan after : Scan) (count offset : UInt32) (pool : Pool.Strings),
      run (Pool.Strings.read count.toNat offset.toNat) input scan = (.ok pool, after) →
      ∃ anomalies : List Anomaly, after.journal.diagnostics =
          scan.journal.diagnostics ++ anomalies.map Anomaly.warning ∧
        ∀ index < pool.size, input.u32At? (offset.toNat + index * 4) = some start →
          (.lossyString index ∈ anomalies ↔ ¬IsWellFormed bytes ∧ ¬IsSupplementary bytes) := by
  constructor
  · intro journal
    obtain ⟨after, hrun⟩ := h.run_read journal
    exact ⟨_, after, hrun, lossy_ofBytes_iff h.1, encode_ofBytes_iff⟩
  · intro scan after count offset pool hrun
    obtain ⟨_, rfl, hdiagnostics⟩ :=
      (Pool.Strings.notes_read count.toNat offset.toNat).diagnostics_of_run hrun
    refine ⟨_, hdiagnostics, fun index hindex hstart => ?_⟩
    obtain ⟨-, -, hholds⟩ := (Pool.Strings.reads_read_of_lt count.toNat_lt offset.toNat scan pool
      after.pos).mp ⟨after.journal, hrun⟩
    obtain ⟨start', hstart', -, hdata⟩ := hholds.item index hindex
    cases hstart.symm.trans hstart'
    rw [Pool.Strings.lossyString_mem_anomalies_iff, ← not_or, ← lossy_ofBytes_iff h.1,
      ← h.dataAt_iff.mp hdata]
    simp [Array.getElem?_eq_getElem hindex]

/-- Two strings: a character of four bytes alone, and one after a NUL of two bytes. -/
def fourBytesInput : Bytes :=
  #[8, 0, 0, 0, 14, 0, 0, 0, 2, 0xf0, 0x9f, 0x98, 0x80, 0,
    3, 0xc0, 0x80, 0xf0, 0x9f, 0x98, 0x80, 0]

theorem run_fourBytesInput :
    ∃ pool after, run (Pool.Strings.read 2 0) fourBytesInput {} = (.ok pool, after) ∧
      pool.items = #[⟨2, "😀", false⟩, ⟨3, "\ufffd\ufffd😀", true⟩] ∧
      after.journal.diagnostics = [Anomaly.warning (.lossyString 1)] := by
  have hrun := Pool.Strings.run_read_eq (by decide) (by decide +kernel :
    (run (Pool.Strings.read 2 0) fourBytesInput {}).1.map Pool.Strings.items =
      .ok #[⟨2, "😀", false⟩, ⟨3, "\ufffd\ufffd😀", true⟩])
  exact ⟨_, _, hrun, rfl, by decide +kernel⟩

/-- Four bytes are not modified UTF-8, and are read without loss and without a warning. -/
theorem StringItem.lossless_fourBytes :
    BytesAt fourBytesInput 8 2 [0xf0, 0x9f, 0x98, 0x80] ∧
      ¬IsWellFormed [0xf0, 0x9f, 0x98, 0x80] ∧
      ∃ pool after, run (Pool.Strings.read 2 0) fourBytesInput {} = (.ok pool, after) ∧
        fourBytesInput.u32At? 0 = some 8 ∧ pool.items[0]? = some ⟨2, "😀", false⟩ ∧
        Anomaly.warning (.lossyString 0) ∉ after.journal.diagnostics := by
  obtain ⟨pool, after, hrun, hitems, hdiagnostics⟩ := run_fourBytesInput
  have hbytes : BytesAt fourBytesInput 8 2 [0xf0, 0x9f, 0x98, 0x80] :=
    ⟨by decide, 9, by decide, ⟨_, rfl⟩⟩
  refine ⟨hbytes, fun hformed => ?_, pool, after, hrun, by decide, ?_, ?_⟩
  · exact absurd (hformed.lt 0xf0 List.mem_cons_self) (by decide)
  · rw [hitems]
    rfl
  · rw [hdiagnostics]
    decide

/-- Where the two encodings are mixed, a warning is given. -/
theorem StringItem.lossy_mixedBytes :
    BytesAt fourBytesInput 14 3 [0xc0, 0x80, 0xf0, 0x9f, 0x98, 0x80] ∧
      ∃ pool after, run (Pool.Strings.read 2 0) fourBytesInput {} = (.ok pool, after) ∧
        1 < pool.size ∧ fourBytesInput.u32At? 4 = some 14 ∧
        ∃ anomalies : List Anomaly, after.journal.diagnostics = anomalies.map Anomaly.warning ∧
          .lossyString 1 ∈ anomalies := by
  have hbytes : BytesAt fourBytesInput 14 3 [0xc0, 0x80, 0xf0, 0x9f, 0x98, 0x80] :=
    ⟨by decide, 15, by decide, ⟨_, rfl⟩⟩
  have hstart : fourBytesInput.u32At? 4 = some 14 := by decide
  have hneither : ¬(IsWellFormed [0xc0, 0x80, 0xf0, 0x9f, 0x98, 0x80] ∨
      IsSupplementary [0xc0, 0x80, 0xf0, 0x9f, 0x98, 0x80]) := by
    rw [← exists_decode_iff hbytes.1]
    have hdecode : decode [0xc0, 0x80, 0xf0, 0x9f, 0x98, 0x80] = none := by decide
    simp [hdecode]
  obtain ⟨pool, after, hrun, hitems, -⟩ := run_fourBytesInput
  have hsize : 1 < pool.size := by
    rw [Pool.Strings.size, hitems]
    decide
  obtain ⟨anomalies, hdiagnostics, hlossy⟩ := (StringItem.lossy_iff hbytes).2 {} after 2 0 pool hrun
  exact ⟨hbytes, pool, after, hrun, hsize, hstart, anomalies, hdiagnostics,
    (hlossy 1 hsize hstart).mpr (not_or.mp hneither)⟩

end Dalvik
