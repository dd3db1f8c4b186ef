import Dalvik.Proofs.Comparison
import Dalvik.Proofs.DescriptorGrammar
import Dalvik.Proofs.Diagnostics
import Dalvik.Proofs.TypeTexts

/-!
# The limit on array levels

Two loads that differ only in the limit on array levels fail alike, or end with images that say the
same. The limit decides no more than how deep descriptors are taken apart, and by that what is noted
about types and prototypes.
-/

namespace Dalvik

open Decode

variable {input : Bytes} {options : Options}

/-- The options with another limit on array levels. -/
def Options.allowing (options : Options) (arrayLimit : Nat) : Options :=
  { options with arrayLimit }

/-! ## Descriptors -/

namespace Descriptor

/-- Where two limits make a difference, the text goes beyond one of them. -/
theorem lt_nesting_of_ofText_ne {text : String} {first second : Nat}
    (h : ofText text first ≠ ofText text second) :
    min (min first maxArrayLevels) (min second maxArrayLevels) < nesting text.toList := by
  rw [nesting_eq_levels]
  by_contra hle
  refine h ?_
  simp only [ofText]
  rw [if_neg (by omega), if_neg (by omega)]

/-- A text that goes beyond the limit is kept whole. -/
theorem ofText_of_lt {text : String} {limit : Nat}
    (h : min limit maxArrayLevels < nesting text.toList) : ofText text limit = unknown text := by
  rw [nesting_eq_levels] at h
  simp only [ofText]
  exact if_pos h

end Descriptor

/-! ## Types -/

/-- Two items for one type, whose descriptor was read with one limit and with another. -/
structure TypeItem.Alike (strings : Pool.Strings) (first second : Nat) (item other : TypeItem) :
    Prop where
  index_eq : item.index = other.index
  stringIndex_eq : item.stringIndex = other.stringIndex
  text : strings.text item.stringIndex = .ok item.descriptor.text
  text_other : strings.text other.stringIndex = .ok other.descriptor.text
  lt_nesting : item.descriptor ≠ other.descriptor →
    min (min first maxArrayLevels) (min second maxArrayLevels) <
      Descriptor.nesting item.descriptor.text.toList
  unknown : min first maxArrayLevels < Descriptor.nesting item.descriptor.text.toList →
    item.descriptor = .unknown item.descriptor.text
  unknown_other : min second maxArrayLevels < Descriptor.nesting other.descriptor.text.toList →
    other.descriptor = .unknown other.descriptor.text

theorem TypeItem.alike_ofText {strings : Pool.Strings} {stringIndex : Nat} {string : StringItem}
    (h : strings.items[stringIndex]? = some string) (index first second : Nat) :
    Alike strings first second ⟨index, stringIndex, .ofText string.text first⟩
      ⟨index, stringIndex, .ofText string.text second⟩ := by
  have htext : strings.text stringIndex = .ok string.text := by
    rw [Pool.Strings.text, Pool.Strings.get, itemAt_eq_ok_iff.mpr h]
    rfl
  constructor <;> simp only [Descriptor.text_ofText]
  · exact htext
  · exact htext
  · exact Descriptor.lt_nesting_of_ofText_ne
  · exact Descriptor.ofText_of_lt
  · exact Descriptor.ofText_of_lt

/-- The text of the one is that of the other, as both are the text of the same string. -/
theorem TypeItem.Alike.text_eq {strings : Pool.Strings} {first second : Nat} {item other : TypeItem}
    (h : item.Alike strings first second other) : item.descriptor.text = other.descriptor.text := by
  have htext := h.text
  rw [h.stringIndex_eq, h.text_other] at htext
  exact (Except.ok.inj htext).symm

theorem TypeItem.agree_readAt (strings : Pool.Strings) (first second index : Nat) :
    (readAt strings first index).Agree (readAt strings second index) input
      (TypeItem.Alike strings first second) := by
  have hword : Silent (within (.item .types index) u32) input (Failure.LacksBytesOr []) :=
    (silent_natural 4).within_kind _
  refine (Notes.agree_eq hword).bind ?_
  rintro stringIndex _ rfl
  cases hstring : strings.items[stringIndex]? with
  | none => exact agree_fail _
  | some string =>
      exact agree_of_reads (reads_warnIf _ _ _) (reads_warnIf _ _ _) (alike_ofText hstring _ _ _)

/-- Two pools of the same types, read with two limits. -/
structure Pool.Types.Alike (strings : Pool.Strings) (first second : Nat)
    (pool other : Pool.Types) : Prop where
  items : List.Forall₂ (TypeItem.Alike strings first second) pool.items.toList other.items.toList
  byDescriptor : pool.byDescriptor = other.byDescriptor

theorem map_eq_map_of_forall₂ {α β γ : Type} {f : α → γ} {g : β → γ} {list : List α}
    {others : List β} (h : List.Forall₂ (fun a b => f a = g b) list others) :
    list.map f = others.map g := by
  rwa [← List.forall₂_eq_eq_eq, List.forall₂_map_left_iff, List.forall₂_map_right_iff]

namespace Pool.Types.Alike

variable {strings : Pool.Strings} {first second : Nat} {pool other : Pool.Types}

theorem size_eq (h : pool.Alike strings first second other) : pool.size = other.size :=
  h.items.length_eq

theorem texts_eq (h : pool.Alike strings first second other) : pool.texts = other.texts :=
  map_eq_map_of_forall₂ (h.items.imp fun _ _ => TypeItem.Alike.text_eq)

end Pool.Types.Alike

theorem Pool.Types.agree_read (strings : Pool.Strings) (first second count offset : Nat) :
    (Pool.Types.read strings first count offset).Agree (Pool.Types.read strings second count offset)
      input (Pool.Types.Alike strings first second) := by
  refine (agree_table (TypeItem.agree_readAt strings first second) .types count offset).bind
    fun items others hitems => (agree_record _ _).bind fun _ _ _ => agree_pure ⟨hitems, ?_⟩
  refine congrArg FirstIndex.ofList (map_eq_map_of_forall₂ (hitems.imp ?_))
  intro item other h
  rw [h.stringIndex_eq]

/-! ## What refers to types -/

section

variable {types other : Pool.Types}

theorem ProtoItem.ofStored_congr (h : types.size = other.size) (strings : Pool.Strings)
    (index : Nat) (stored : Stored) :
    ofStored strings types index stored = ofStored strings other index stored := by
  simp only [ofStored, h]

/-- The comparison with the short form changes nothing if everything it looks up is there. -/
theorem ProtoItem.reads_noteAnomaly {item : ProtoItem} {strings : Pool.Strings} {index : Nat}
    (h : ∃ anomaly?, item.anomaly? strings types index = .ok anomaly?) :
    Reads (do
      match ← (item.anomaly? strings types index : Except Failure _) with
      | some anomaly => Reporting.warn anomaly
      | none => pure ()
      return item : Decode ProtoItem) input 0 fun _ found => found = item := by
  refine ((reads_liftExcept (item.anomaly? strings types index)).bind fun anomaly? =>
    reads_warnFirst anomaly? item).congr rfl fun pos found => ?_
  constructor
  · rintro ⟨_, -, rfl⟩
    rfl
  · rintro rfl
    exact h.imp fun _ hanomaly => ⟨hanomaly, rfl⟩

theorem ProtoItem.agree_readAt (h : types.size = other.size) (strings : Pool.Strings)
    (index : Nat) :
    (readAt strings types index).Agree (readAt strings other index) input (· = ·) := by
  refine (Notes.agree_eq Stored.silent_read).bind ?_
  rintro stored _ rfl
  rw [← ofStored_congr h]
  refine ((silent_ofStored strings types index stored).and_reads
    (reads_ofStored strings types index stored)).agree.bind ?_
  rintro item _ ⟨rfl, _, -, _, hshorty, hreturn, hs, hr, -, hparameters⟩
  have hlookup : ∀ pool : Pool.Types, types.size = pool.size →
      ∃ anomaly?, item.anomaly? strings pool index = .ok anomaly? := fun pool hsize =>
    exists_anomaly? (hs ▸ hshorty) (hsize ▸ hr ▸ hreturn) (hsize ▸ hparameters.lt) index
  exact agree_of_reads (reads_noteAnomaly (hlookup types rfl)) (reads_noteAnomaly (hlookup other h))
    rfl

theorem Pool.Protos.agree_read (h : types.size = other.size) (strings : Pool.Strings)
    (count offset : Nat) :
    (Pool.Protos.read strings types count offset).Agree
      (Pool.Protos.read strings other count offset) input (· = ·) := by
  refine (agree_table (ProtoItem.agree_readAt h strings) .protos count offset).bind
    fun items others hitems => (agree_record _ _).bind fun _ _ _ => agree_pure ?_
  rw [List.forall₂_eq_eq_eq, Array.toList_inj] at hitems
  rw [hitems]

/-- What checks references to types looks at the number of types only. -/
theorem FieldItem.readAt_congr (h : types.size = other.size) (strings : Pool.Strings) :
    readAt strings types = readAt strings other := by
  funext index
  simp only [readAt, check, h]

theorem MethodItem.readAt_congr (h : types.size = other.size) (strings : Pool.Strings)
    (protos : Pool.Protos) : readAt strings types protos = readAt strings other protos := by
  funext index
  simp only [readAt, check, h]

theorem ClassItem.readAt_congr (h : types.size = other.size) (strings : Pool.Strings)
    (fields : Pool.Fields) (methods : Pool.Methods) :
    readAt ⟨strings, types, fields, methods⟩ = readAt ⟨strings, other, fields, methods⟩ := by
  funext index
  simp only [readAt, ofStored, readData, h]

theorem Pool.Fields.agree_read (h : types.size = other.size) (strings : Pool.Strings)
    (count offset : Nat) :
    (Pool.Fields.read strings types count offset).Agree
      (Pool.Fields.read strings other count offset) input (· = ·) := by
  rw [Pool.Fields.read, Pool.Fields.read, FieldItem.readAt_congr h]
  exact Notes.agree_eq (silent_read strings other count offset)

theorem Pool.Methods.agree_read (h : types.size = other.size) (strings : Pool.Strings)
    (protos : Pool.Protos) (count offset : Nat) :
    (Pool.Methods.read strings types protos count offset).Agree
      (Pool.Methods.read strings other protos count offset) input (· = ·) := by
  rw [Pool.Methods.read, Pool.Methods.read, MethodItem.readAt_congr h]
  exact Notes.agree_eq (silent_read strings other protos count offset)

theorem Pool.Classes.agree_read (h : types.size = other.size) (strings : Pool.Strings)
    (fields : Pool.Fields) (methods : Pool.Methods) (count offset : Nat) :
    (Pool.Classes.read ⟨strings, types, fields, methods⟩ count offset).Agree
      (Pool.Classes.read ⟨strings, other, fields, methods⟩ count offset) input (· = ·) := by
  rw [Pool.Classes.read, Pool.Classes.read, ClassItem.readAt_congr h]
  exact Notes.agree_eq (notes_read ⟨strings, other, fields, methods⟩ count offset)

end

/-! ## Loads -/

/-- Two images of one input, read with two limits on array levels. -/
structure Image.SameFile (first second : Nat) (image other : Image) : Prop where
  header_eq : image.header = other.header
  layout_eq : image.layout = other.layout
  strings_eq : image.strings = other.strings
  types : image.types.Alike image.strings first second other.types
  protos_eq : image.protos = other.protos
  fields_eq : image.fields = other.fields
  methods_eq : image.methods = other.methods
  classes_eq : image.classes = other.classes

namespace Load

theorem agree_checkSize (options : Options) (first second : Nat) :
    (checkSize (options.allowing first)).Agree (checkSize (options.allowing second)) input
      fun _ _ => True := by
  intro progress other hkey
  by_cases hle : input.size ≤ options.inputLimit
  · rw [run_checkSize_of_le (by exact hle), run_checkSize_of_le (by exact hle)]
    exact .value trivial hkey
  · have hlt : options.inputLimit < input.size := Nat.lt_of_not_le hle
    rw [run_checkSize_of_lt (by exact hlt), run_checkSize_of_lt (by exact hlt)]
    exact .failure hkey

theorem agree_finish {related : Image → Image → Prop} {event eventOther : Progress → Event}
    (found foundOther : Image) (h : ∀ journal journalOther,
      related { found with journal } { foundOther with journal := journalOther }) :
    Agree (do
      let noted ← progress
      Reporting.record (event noted)
      let last ← progress
      return { found with journal := last.scan.journal }) (do
      let noted ← progress
      Reporting.record (eventOther noted)
      let last ← progress
      return { foundOther with journal := last.scan.journal }) input related := fun _ _ hkey =>
  .value (h _ _) hkey

theorem agree_checkAgainst (header : Header) (options : Options) (first second : Nat) :
    Agree (liftM (header.checkAgainst input (options.allowing first)))
      (liftM (header.checkAgainst input (options.allowing second))) input (· = ·) := by
  have hsame : header.checkAgainst input (options.allowing second) =
      header.checkAgainst input (options.allowing first) := rfl
  rw [hsame]
  exact agree_liftNotes (notes_liftReporting
    (header.notes_checkAgainst input (options.allowing first)))

theorem agree_ofHeader (header : Header) (length : Nat) (options : Options) (first second : Nat) :
    Agree (liftM (Layout.ofHeader header length (options.allowing first)))
      (liftM (Layout.ofHeader header length (options.allowing second))) input (· = ·) := by
  have hsame : Layout.ofHeader header length (options.allowing second) =
      Layout.ofHeader header length (options.allowing first) := rfl
  rw [hsame]
  exact agree_liftNotes (notes_liftReporting
    (Layout.notes_ofHeader header length (options.allowing first)))

/-- Until the types have been read the two loads are one, and from then on only the number of types
matters. -/
theorem agree_image (options : Options) (first second : Nat) :
    (image (options.allowing first)).Agree (image (options.allowing second)) input
      (Image.SameFile first second) := by
  refine Agree.bind (agree_checkSize options first second) fun _ _ _ => ?_
  refine Agree.bind agree_read ?_
  rintro _ _ ⟨rfl, rfl⟩
  have hheader : Header.read.Silent input (Failure.OfHeader · options) := Header.silent_read
  refine Agree.bind (agree_liftNotes hheader) ?_
  rintro header _ rfl
  refine Agree.bind (agree_checkAgainst header options first second) fun _ _ _ => ?_
  refine Agree.bind (agree_ofHeader header _ options first second) ?_
  rintro layout _ rfl
  refine Agree.bind (agree_complete _) fun _ _ _ => ?_
  refine Agree.bind (agree_liftNotes (Pool.Strings.notes_read _ _)) ?_
  rintro strings _ rfl
  refine Agree.bind (agree_complete _) fun _ _ _ => ?_
  refine Agree.bind (agree_liftDecode (Pool.Types.agree_read strings first second _ _)) ?_
  rintro types other htypes
  have hsize := htypes.size_eq
  refine Agree.bind (agree_complete _) fun _ _ _ => ?_
  refine Agree.bind (agree_liftDecode (Pool.Protos.agree_read hsize strings _ _)) ?_
  rintro protos _ rfl
  refine Agree.bind (agree_complete _) fun _ _ _ => ?_
  refine Agree.bind (agree_liftDecode (Pool.Fields.agree_read hsize strings _ _)) ?_
  rintro fields _ rfl
  refine Agree.bind (agree_complete _) fun _ _ _ => ?_
  refine Agree.bind (agree_liftDecode (Pool.Methods.agree_read hsize strings protos _ _)) ?_
  rintro methods _ rfl
  refine Agree.bind (agree_complete _) fun _ _ _ => ?_
  refine Agree.bind (agree_liftDecode (Pool.Classes.agree_read hsize strings fields methods _ _)) ?_
  rintro classes _ rfl
  refine Agree.bind (agree_complete _) fun _ _ _ => ?_
  exact agree_finish ⟨_, header, layout, strings, types, protos, fields, methods, classes, {}⟩
    ⟨_, header, layout, strings, other, protos, fields, methods, classes, {}⟩ fun _ _ =>
      ⟨rfl, rfl, rfl, htypes, rfl, rfl, rfl, rfl⟩

end Load

namespace Image

variable {image other : Image} {first second : Nat}

theorem SameFile.sameAnswers (h : image.SameFile first second other) : image.SameAnswers other :=
  Image.sameAnswers h.strings_eq h.types.texts_eq h.types.byDescriptor h.protos_eq h.fields_eq
    h.methods_eq h.classes_eq

/-- The diagnostics about anything but types and prototypes. -/
def otherDiagnostics (image : Image) : List Diagnostic :=
  image.diagnostics.filter fun diagnostic => diagnostic.part ∉ ["types", "protos"]

theorem otherDiagnostics_eq (hread : Image.read input options = .ok image) :
    image.otherDiagnostics = (image.header.anomalies input options).map Anomaly.warning ++
      (image.stringAnomalies.map Anomaly.warning ++ image.classAnomalies.map Anomaly.warning) :=
  (filter_diagnostics hread fun part => part ∉ ["types", "protos"]).trans (by simp)

theorem SameFile.otherDiagnostics_eq (h : image.SameFile first second other)
    (hread : Image.read input (options.allowing first) = .ok image)
    (hreadOther : Image.read input (options.allowing second) = .ok other) :
    image.otherDiagnostics = other.otherDiagnostics := by
  have hinput : image.input = other.input :=
    (image.read_eq_ok_iff.mp ⟨_, hread⟩).input_eq.trans
      (other.read_eq_ok_iff.mp ⟨_, hreadOther⟩).input_eq.symm
  have hheader : image.header.anomalies input (options.allowing first) =
      other.header.anomalies input (options.allowing second) := by
    rw [h.header_eq]
    rfl
  have hstrings : image.stringAnomalies = other.stringAnomalies := by
    rw [stringAnomalies, stringAnomalies, h.strings_eq]
  have hclasses : image.classAnomalies = other.classAnomalies := by
    rw [classAnomalies, classAnomalies, h.classes_eq, hinput]
  rw [Image.otherDiagnostics_eq hread, Image.otherDiagnostics_eq hreadOther, hheader, hstrings,
    hclasses]

/-- With two limits on array levels, an input is refused for the same reason or gives two images of
the same file. These answer alike and tell of the same, but for types and prototypes. -/
theorem read_allowing (input : Bytes) (options : Options) (first second : Nat) :
    (∃ failure, Image.read input (options.allowing first) = .error failure ∧
      Image.read input (options.allowing second) = .error failure) ∨
    ∃ image other, Image.read input (options.allowing first) = .ok image ∧
      Image.read input (options.allowing second) = .ok other ∧
      image.SameFile first second other ∧ image.SameAnswers other ∧
      image.otherDiagnostics = other.otherDiagnostics := by
  rcases (Load.agree_image options first second {} {} rfl).results with
    ⟨failure, hfirst, hsecond⟩ | ⟨image, other, hfirst, hsecond, hsame⟩
  · exact .inl ⟨failure, hfirst, hsecond⟩
  · exact .inr ⟨image, other, hfirst, hsecond, hsame, hsame.sameAnswers,
      hsame.otherDiagnostics_eq hfirst hsecond⟩

end Image

namespace Contents

/-- An array of arrays. -/
def nested : Contents where
  strings := ["[[I"]
  types := [0]

theorem storedIn_nested (arrayLimit : Nat) :
    (nested.image (({} : Options).allowing arrayLimit)).StoredIn nested.encode
      (({} : Options).allowing arrayLimit) := by
  have hsize : nested.size = 125 := by decide +kernel
  refine storedIn_image ?_ ?_ ?_
  · rw [hsize]
    decide
  · rw [hsize]
    constructor <;> decide
  · rw [hsize]
    change 125 ≤ ({} : Options).inputLimit
    decide

/-- A limit below the two levels keeps the text whole, and nothing else changes. -/
theorem read_allowing_nested :
    ∃ image other, Image.read nested.encode (({} : Options).allowing 1) = .ok image ∧
      Image.read nested.encode (({} : Options).allowing 2) = .ok other ∧
      image.typeAt 0 = .ok (.unknown "[[I") ∧
      other.typeAt 0 = .ok (.array (.array (.primitive .int))) ∧ image.SameAnswers other := by
  obtain ⟨journal, hread⟩ := (Image.read_eq_ok_iff _).mpr (storedIn_nested 1)
  obtain ⟨journalOther, hreadOther⟩ := (Image.read_eq_ok_iff _).mpr (storedIn_nested 2)
  rcases Image.read_allowing nested.encode {} 1 2 with
    ⟨failure, hfailure, -⟩ | ⟨image, other, hfirst, hsecond, -, hanswers, -⟩
  · rw [hread] at hfailure
    cases hfailure
  · have himage := Except.ok.inj (hfirst.symm.trans hread)
    have hother := Except.ok.inj (hsecond.symm.trans hreadOther)
    refine ⟨image, other, hfirst, hsecond, ?_, ?_, hanswers⟩
    · rw [himage]
      rfl
    · rw [hother]
      rfl

end Contents

end Dalvik
