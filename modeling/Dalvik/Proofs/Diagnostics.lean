import Dalvik.Proofs.ClassLookup
import Dalvik.Proofs.Course
import Mathlib.Data.List.Basic

/-!
# The diagnostics of an image

An image that was read tells of everything that is odd about it, once and in order: the header
first, then the strings, the types, the prototypes and the classes. Apart from the header, what it
tells of can be seen from the image alone.
-/

namespace Dalvik

variable {input : Bytes} {options : Options} {image : Image}

/-! ## What an image shows -/

/-- Whether a string had to be repaired, or has another length than it declares. -/
def StringItem.isOdd (item : StringItem) : Bool :=
  item.lossy || item.unitCount != Text.ModifiedUtf8.unitCount item.text.toList

/-- The stored short form of a prototype and the one that its types give, if they differ. -/
def ProtoItem.disagreement? (item : ProtoItem) (strings : Pool.Strings) (types : Pool.Types) :
    Option (String × String) :=
  match item.shortyOfTypes types, strings.text item.shorty with
  | .ok (some expected), .ok stored => if stored = expected then none else some (stored, expected)
  | _, _ => none

/-- What may be odd about a class of an input of `length` bytes: its annotations or its static
values lie outside the input, or it is its own superclass. -/
def ClassItem.signs (item : ClassItem) (index length : Nat) : List (Bool × Anomaly) :=
  [(length ≤ item.annotationsOffset, .annotationsOutside index item.annotationsOffset),
    (length ≤ item.staticValuesOffset, .staticValuesOutside index item.staticValuesOffset),
    (item.superclass == some item.type, .ownSuperclass index)]

namespace Image

/-- One anomaly for each string that is odd. -/
def stringAnomalies (image : Image) : List Anomaly :=
  (image.strings.items.toList.zipIdx.filter fun (item, _) => item.isOdd).map fun (item, index) =>
    if item.lossy then .lossyString index
    else .unitCount index item.unitCount (Text.ModifiedUtf8.unitCount item.text.toList)

/-- One anomaly for each type whose innermost element is unknown. -/
def typeAnomalies (image : Image) : List Anomaly :=
  (image.types.items.toList.zipIdx.filter fun (item, _) => item.descriptor.leaf.isUnknown).map
    fun (item, index) => .malformedType index item.descriptor.text

/-- One anomaly for each prototype whose types give another short form than the stored one. -/
def protoAnomalies (image : Image) : List Anomaly :=
  image.protos.items.toList.zipIdx.filterMap fun (item, index) =>
    (item.disagreement? image.strings image.types).map fun (stored, expected) =>
      .shorty index stored expected

/-- One anomaly for each sign that a class shows, class by class, and then one for each class that
is defined again. -/
def classAnomalies (image : Image) : List Anomaly :=
  let items := image.classes.items.toList
  (items.zipIdx.flatMap fun (item, index) =>
    ((item.signs index image.input.size).filter Prod.fst).map Prod.snd) ++
    (items.zipIdx.filter fun (item, index) => item.type ∈ (items.take index).map ClassItem.type).map
      fun (item, _) => .redefined item.type

@[simp]
theorem stringAnomalies_with_journal (image : Image) (journal : Journal) :
    ({ image with journal } : Image).stringAnomalies = image.stringAnomalies := rfl

@[simp]
theorem typeAnomalies_with_journal (image : Image) (journal : Journal) :
    ({ image with journal } : Image).typeAnomalies = image.typeAnomalies := rfl

@[simp]
theorem protoAnomalies_with_journal (image : Image) (journal : Journal) :
    ({ image with journal } : Image).protoAnomalies = image.protoAnomalies := rfl

@[simp]
theorem classAnomalies_with_journal (image : Image) (journal : Journal) :
    ({ image with journal } : Image).classAnomalies = image.classAnomalies := rfl

end Image

/-! ## Against what is noted -/

/-- At most one thing for each element, put as a condition. -/
theorem flatMap_ite_singleton {α β : Type} (p : α → Bool) (f : α → β) (list : List α) :
    (list.flatMap fun a => if p a then [f a] else []) = (list.filter p).map f := by
  induction list with
  | nil => rfl
  | cons a list ih =>
      rw [List.flatMap_cons, List.filter_cons, ih]
      cases p a <;> rfl

theorem StringItem.anomalies_eq (item : StringItem) (index : Nat) :
    item.anomalies index = if item.isOdd then
      [if item.lossy then .lossyString index
        else .unitCount index item.unitCount (Text.ModifiedUtf8.unitCount item.text.toList)]
      else [] := by
  unfold anomalies anomaly? isOdd
  cases item.lossy <;> grind

theorem ProtoItem.anomalies_eq (item : ProtoItem) (strings : Pool.Strings) (types : Pool.Types)
    (index : Nat) :
    item.anomalies strings types index = ((item.disagreement? strings types).map
      fun (stored, expected) => Anomaly.shorty index stored expected).toList := by
  unfold anomalies anomaly? disagreement?
  cases item.shortyOfTypes types with
  | error failure => rfl
  | ok expected? =>
      cases expected? with
      | none => rfl
      | some expected =>
          cases strings.text item.shorty with
          | error failure => rfl
          | ok stored =>
              by_cases hsame : stored = expected <;>
                simp [hsame, bind, Except.bind, pure, Except.pure]

theorem ClassItem.anomalies_eq (item : ClassItem) (index length : Nat) :
    item.anomalies index length = ((item.signs index length).filter Prod.fst).map Prod.snd := by
  unfold anomalies signs
  by_cases hannotations : length ≤ item.annotationsOffset <;>
    by_cases hvalues : length ≤ item.staticValuesOffset <;>
      by_cases hsuper : item.superclass = some item.type <;>
        simp [hannotations, hvalues, hsuper]

/-- An element does not stand at its first position just when it also stands before. -/
theorem idxOf?_ne_some_iff {κ : Type} [BEq κ] [LawfulBEq κ] {keys : List κ} {key : κ} {index : Nat}
    (h : keys[index]? = some key) : keys.idxOf? key ≠ some index ↔ key ∈ keys.take index := by
  obtain ⟨hindex, hkey⟩ := List.getElem?_eq_some_iff.mp h
  rw [List.idxOf?, ne_eq, List.findIdx?_eq_some_iff_getElem, List.mem_take_iff_getElem]
  simp only [beq_iff_eq, not_exists, not_and, Classical.not_forall, Classical.not_not]
  constructor
  · intro hnot
    obtain ⟨earlier, hlt, heq⟩ := hnot hindex hkey
    exact ⟨earlier, by omega, heq⟩
  · rintro ⟨earlier, hlt, heq⟩ _ _
    exact ⟨earlier, by omega, heq⟩

/-- A class is defined again just when its type is that of an earlier definition. -/
theorem Pool.Classes.redefinitions_ofItems (items : Array ClassItem) :
    (ofItems items).redefinitions = (items.toList.zipIdx.filter fun (item, index) =>
      item.type ∈ (items.toList.take index).map ClassItem.type).map fun (item, _) => item.type := by
  unfold redefinitions
  refine congrArg (List.map _) (List.filter_congr ?_)
  rintro ⟨item, index⟩ hmem
  have hitem : items.toList[index]? = some item := List.mk_mem_zipIdx_iff_getElem?.mp hmem
  have hkey : (items.toList.map ClassItem.type)[index]? = some item.type := by
    rw [List.getElem?_map, hitem]
    rfl
  have hfirst : (ofItems items).byType[item.type]? =
      (items.toList.map ClassItem.type).idxOf? item.type := FirstIndex.getElem?_ofList _ _
  change ((ofItems items).byType[item.type]? != some index) = decide _
  rw [hfirst, Bool.eq_iff_iff, bne_iff_ne, idxOf?_ne_some_iff hkey, decide_eq_true_iff,
    List.map_take]

namespace Image

theorem anomalies_strings (image : Image) : image.strings.anomalies = image.stringAnomalies := by
  unfold Pool.Strings.anomalies stringAnomalies
  simp only [StringItem.anomalies_eq]
  exact flatMap_ite_singleton _ _ _

theorem anomalies_types (image : Image) : image.types.anomalies = image.typeAnomalies := by
  unfold Pool.Types.anomalies typeAnomalies
  simp only [TypeItem.anomalies, TypeItem.isMalformed]
  exact flatMap_ite_singleton _ _ _

theorem anomalies_protos (image : Image) :
    image.protos.anomalies image.strings image.types = image.protoAnomalies := by
  unfold Pool.Protos.anomalies protoAnomalies
  simp only [ProtoItem.anomalies_eq]
  exact (List.filterMap_eq_flatMap_toList _ _).symm

theorem StoredIn.anomalies_classes (h : image.StoredIn input options) :
    image.classes.anomalies image.input.size = image.classAnomalies := by
  rw [Pool.Classes.anomalies, classAnomalies, h.classes.pool_eq,
    Pool.Classes.redefinitions_ofItems, List.map_map]
  simp only [ClassItem.anomalies_eq]
  rfl

end Image

/-! ## Parts -/

theorem ClassItem.part_signs {item : ClassItem} {index length : Nat} {sign : Bool × Anomaly}
    (h : sign ∈ item.signs index length) : sign.2.part = "class_defs" := by
  simp only [signs, List.mem_cons, List.not_mem_nil, or_false] at h
  rcases h with rfl | rfl | rfl <;> rfl

namespace Image

theorem part_stringAnomalies {anomaly : Anomaly} (h : anomaly ∈ image.stringAnomalies) :
    anomaly.part = "strings" := by
  obtain ⟨⟨item, index⟩, -, rfl⟩ := List.mem_map.mp h
  cases hlossy : item.lossy <;> simp [hlossy, Anomaly.part]

theorem part_typeAnomalies {anomaly : Anomaly} (h : anomaly ∈ image.typeAnomalies) :
    anomaly.part = "types" := by
  obtain ⟨⟨item, index⟩, -, rfl⟩ := List.mem_map.mp h
  rfl

theorem part_protoAnomalies {anomaly : Anomaly} (h : anomaly ∈ image.protoAnomalies) :
    anomaly.part = "protos" := by
  obtain ⟨⟨item, index⟩, -, hsome⟩ := List.mem_filterMap.mp h
  obtain ⟨⟨stored, expected⟩, -, rfl⟩ := Option.map_eq_some_iff.mp hsome
  rfl

theorem part_classAnomalies {anomaly : Anomaly} (h : anomaly ∈ image.classAnomalies) :
    anomaly.part = "class_defs" := by
  rcases List.mem_append.mp h with hitem | hagain
  · obtain ⟨⟨item, index⟩, -, hanomaly⟩ := List.mem_flatMap.mp hitem
    obtain ⟨sign, hsign, rfl⟩ := List.mem_map.mp hanomaly
    exact ClassItem.part_signs (List.mem_of_mem_filter hsign)
  · obtain ⟨⟨item, index⟩, -, rfl⟩ := List.mem_map.mp hagain
    rfl

end Image

/-- Of warnings that are all about one part, a condition on the part keeps all or none. -/
theorem filter_part_warnings {anomalies : List Anomaly} {part : String}
    (h : ∀ anomaly ∈ anomalies, anomaly.part = part) (p : String → Bool) :
    ((anomalies.map Anomaly.warning).filter fun diagnostic => p diagnostic.part) =
      if p part then anomalies.map Anomaly.warning else [] := by
  have hpart : ∀ diagnostic ∈ anomalies.map Anomaly.warning, diagnostic.part = part := by
    intro diagnostic hmem
    obtain ⟨anomaly, hanomaly, rfl⟩ := List.mem_map.mp hmem
    exact h anomaly hanomaly
  split
  next hp =>
    refine List.filter_eq_self.mpr fun diagnostic hmem => ?_
    rw [hpart diagnostic hmem, hp]
  next hp =>
    refine List.filter_eq_nil_iff.mpr fun diagnostic hmem => ?_
    rw [hpart diagnostic hmem]
    exact hp

namespace Image

theorem diagnostics_of_read (hread : Image.read input options = .ok image) :
    image.diagnostics = (image.header.anomalies input options ++ (image.stringAnomalies ++
      (image.typeAnomalies ++ (image.protoAnomalies ++ image.classAnomalies)))).map
        Anomaly.warning := by
  have hstored := image.read_eq_ok_iff.mp ⟨image.journal, hread⟩
  obtain ⟨hjournal, -, hdiagnostics, -⟩ := Loader.of_run_ok (Loader.run_of_read hread)
  rw [diagnostics, hjournal, hdiagnostics, anomalies, hstored.anomalies_classes, anomalies_strings,
    anomalies_types, anomalies_protos, hstored.input_eq]
  simp only [List.append_assoc]

/-- The diagnostics about some parts are those of each of the parts, in the order of the parts. -/
theorem filter_diagnostics (hread : Image.read input options = .ok image) (p : String → Bool) :
    (image.diagnostics.filter fun diagnostic => p diagnostic.part) =
      (if p "header" then (image.header.anomalies input options).map Anomaly.warning else []) ++
      ((if p "strings" then image.stringAnomalies.map Anomaly.warning else []) ++
      ((if p "types" then image.typeAnomalies.map Anomaly.warning else []) ++
      ((if p "protos" then image.protoAnomalies.map Anomaly.warning else []) ++
      (if p "class_defs" then image.classAnomalies.map Anomaly.warning else [])))) := by
  rw [diagnostics_of_read hread]
  simp only [List.map_append, List.filter_append]
  rw [filter_part_warnings (fun _ => Header.part_anomalies),
    filter_part_warnings (fun _ => part_stringAnomalies),
    filter_part_warnings (fun _ => part_typeAnomalies),
    filter_part_warnings (fun _ => part_protoAnomalies),
    filter_part_warnings (fun _ => part_classAnomalies)]

/-- An image that was read tells of what is odd about its header, and then of all that its strings,
types, prototypes and classes show to be odd, in this order and of nothing else. -/
theorem diagnostics_eq (hread : Image.read input options = .ok image) :
    (∀ diagnostic ∈ image.diagnostics, diagnostic.severity = .warning) ∧
    image.diagnostics =
      ["header", "strings", "types", "protos", "class_defs"].flatMap image.journal.about ∧
    image.journal.about "header" =
      (image.header.anomalies input options).map Anomaly.warning ∧
    image.journal.about "strings" = image.stringAnomalies.map Anomaly.warning ∧
    image.journal.about "types" = image.typeAnomalies.map Anomaly.warning ∧
    image.journal.about "protos" = image.protoAnomalies.map Anomaly.warning ∧
    image.journal.about "class_defs" = image.classAnomalies.map Anomaly.warning := by
  have hall := diagnostics_of_read hread
  have habout := fun part => filter_diagnostics hread (· == part)
  refine ⟨?_, ?_, (habout _).trans ?_, (habout _).trans ?_, (habout _).trans ?_,
    (habout _).trans ?_, (habout _).trans ?_⟩
  · intro diagnostic hmem
    rw [hall] at hmem
    obtain ⟨anomaly, -, rfl⟩ := List.mem_map.mp hmem
    rfl
  · have heach : ∀ part, image.journal.about part = _ := habout
    simp [heach, hall]
  · simp
  · simp
  · simp
  · simp
  · simp

end Image

namespace Contents

/-- A type that spells none, a prototype without return type in its short form, and a class that is
its own superclass and is defined again. The annotations of the class start just where the file
ends, its static values beyond. In the second definition both are at the last byte. -/
def careless : Contents where
  strings := ["A", "LX;", "V"]
  types := [1, 2, 0]
  protos := [{ shorty := 0, returnType := 1, parameters := [] }]
  classes := [{
      type := 0, flags := ⟨1⟩, superclass := some 0
      annotationsOffset := 223, staticValuesOffset := 0x1000 },
    { type := 0, flags := ⟨1⟩, annotationsOffset := 222, staticValuesOffset := 222 }]

theorem storedIn_careless : (careless.image {}).StoredIn careless.encode {} := by
  have hsize : careless.size = 223 := by decide +kernel
  refine storedIn_image ?_ ?_ ?_
  · rw [hsize]
    decide
  · rw [hsize]
    constructor <;> decide
  · rw [hsize]
    decide

theorem diagnostics_careless :
    ∃ image, Image.read careless.encode {} = .ok image ∧
      image.journal.about "strings" = [] ∧
      image.journal.about "types" = [Anomaly.warning (.malformedType 2 "A")] ∧
      image.journal.about "protos" = [Anomaly.warning (.shorty 0 "A" "V")] ∧
      image.journal.about "class_defs" =
        [Anomaly.annotationsOutside 0 223, .staticValuesOutside 0 0x1000, .ownSuperclass 0,
          .redefined 0].map Anomaly.warning := by
  obtain ⟨journal, hread⟩ := (Image.read_eq_ok_iff _).mpr storedIn_careless
  obtain ⟨-, -, -, hstrings, htypes, hprotos, hclasses⟩ := Image.diagnostics_eq hread
  have hshown : (careless.image {}).stringAnomalies = [] ∧
      (careless.image {}).typeAnomalies = [.malformedType 2 "A"] ∧
      (careless.image {}).protoAnomalies = [.shorty 0 "A" "V"] ∧
      (careless.image {}).classAnomalies =
        [.annotationsOutside 0 223, .staticValuesOutside 0 0x1000, .ownSuperclass 0,
          .redefined 0] := by
    decide +kernel
  obtain ⟨hnoString, htype, hproto, hclass⟩ := hshown
  refine ⟨_, hread, ?_, ?_, ?_, ?_⟩
  · rw [hstrings, Image.stringAnomalies_with_journal, hnoString, List.map_nil]
  · rw [htypes, Image.typeAnomalies_with_journal, htype, List.map_singleton]
  · rw [hprotos, Image.protoAnomalies_with_journal, hproto, List.map_singleton]
  · rw [hclasses, Image.classAnomalies_with_journal, hclass]

end Contents

end Dalvik
