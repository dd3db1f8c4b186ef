import Dalvik.Proofs.RoundTrip
import Dalvik.Proofs.SideIndexes

/-!
# Looking up a class by its descriptor

The lookup follows two indexes, from the descriptor to the first type that is written so and from
that type to its first definition. Several types may be written alike, and then a class that is
defined for a later one of them only is not found.
-/

namespace Dalvik

variable {input : Bytes} {options : Options} {image : Image}

namespace Image

/-- How the type at an index is written. -/
def typeText? (image : Image) (index : Nat) : Option String :=
  image.types.items[index]?.map fun item => item.descriptor.text

/-- The definitions of classes that are written as `descriptor`, in file order. -/
def definitionsOf (image : Image) (descriptor : String) : List ClassItem :=
  image.classes.items.toList.filter fun item => image.typeText? item.type == some descriptor

@[simp]
theorem classNamed?_with_journal (image : Image) (journal : Journal) (descriptor : String) :
    ({ image with journal } : Image).classNamed? descriptor = image.classNamed? descriptor := rfl

@[simp]
theorem typeText?_with_journal (image : Image) (journal : Journal) (index : Nat) :
    ({ image with journal } : Image).typeText? index = image.typeText? index := rfl

@[simp]
theorem definitionsOf_with_journal (image : Image) (journal : Journal) (descriptor : String) :
    ({ image with journal } : Image).definitionsOf descriptor =
      image.definitionsOf descriptor := rfl

theorem getElem?_texts (image : Image) (index : Nat) :
    image.types.texts[index]? = image.typeText? index := by
  rw [Pool.Types.texts, List.getElem?_map, Array.getElem?_toList]
  rfl

/-- The type that is found for a descriptor is the first that is written so. -/
theorem StoredIn.find?_eq_some_iff (h : image.StoredIn input options) {descriptor : String}
    {index : Nat} :
    image.types.find? descriptor = some index ↔
      image.typeText? index = some descriptor ∧
        ∀ earlier < index, image.typeText? earlier ≠ some descriptor := by
  rw [h.types.find?_eq, List.idxOf?, List.findIdx?_eq_some_iff_getElem]
  simp only [← getElem?_texts, List.getElem?_eq_some_iff, beq_iff_eq, ne_eq, not_exists]
  constructor
  · rintro ⟨hindex, heq, hearlier⟩
    exact ⟨⟨hindex, heq⟩, fun earlier hlt _ => hearlier earlier hlt⟩
  · rintro ⟨⟨hindex, heq⟩, hearlier⟩
    exact ⟨hindex, heq, fun earlier hlt => hearlier earlier hlt _⟩

/-- Of the definitions of a class, the first is found whose type is the first that is written so. -/
theorem StoredIn.classNamed?_eq (h : image.StoredIn input options) (descriptor : String) :
    image.classNamed? descriptor = (image.definitionsOf descriptor).find? fun item =>
      ∀ earlier < item.type, image.typeText? earlier ≠ some descriptor := by
  have hfirst : ∀ item : ClassItem, (image.typeText? item.type == some descriptor) = true ∧
      decide (∀ earlier < item.type, image.typeText? earlier ≠ some descriptor) = true ↔
      image.types.find? descriptor = some item.type := fun item => by
    rw [beq_iff_eq, decide_eq_true_iff, h.find?_eq_some_iff]
  rw [definitionsOf, List.find?_filter]
  simp only [hfirst]
  rw [classNamed?]
  cases hfound : image.types.find? descriptor with
  | none =>
      rw [Option.bind_none]
      exact (List.find?_eq_none.mpr (by simp)).symm
  | some type =>
      rw [Option.bind_some, h.classes.ofType?_eq]
      congr 1
      funext item
      rw [Bool.eq_iff_iff, beq_iff_eq, decide_eq_true_iff, Option.some.injEq]
      exact eq_comm

end Image

/-- A search finds the head of a list just when the head is what is searched for. -/
theorem find?_eq_head?_iff {α : Type} {p : α → Bool} {list : List α} :
    list.find? p = list.head? ↔ ∀ a ∈ list.head?, p a := by
  cases list with
  | nil => simp
  | cons a list =>
      cases hp : p a with
      | true => simp [hp]
      | false =>
          have hne : list.find? p ≠ some a := fun h => by
            simp [List.find?_some h] at hp
          simp [hp, hne]

/-- Where no two types are written alike, the first definition of a class is what is found. -/
theorem Image.StoredIn.classNamed?_of_nodup (h : image.StoredIn input options)
    (hnodup : image.types.texts.Nodup) (descriptor : String) :
    image.classNamed? descriptor = (image.definitionsOf descriptor).head? := by
  rw [h.classNamed?_eq, find?_eq_head?_iff]
  intro item hitem
  have hmem := List.mem_of_head? hitem
  rw [definitionsOf, List.mem_filter, beq_iff_eq] at hmem
  rw [decide_eq_true_iff]
  intro earlier hlt hfound
  have heq : image.types.texts[earlier]? = image.types.texts[item.type]? := by
    rw [getElem?_texts, getElem?_texts, hfound, hmem.2]
  rw [← getElem?_texts] at hfound
  obtain ⟨hearlier, -⟩ := List.getElem?_eq_some_iff.mp hfound
  have := (List.getElem?_inj hearlier hnodup).mp heq
  omega

/-- The lookup of a class finds the first definition for the first type that is written as the
descriptor. That is the first definition of the class if, and only if, no earlier type is written as
the type of that definition is. -/
theorem Image.classNamed?_eq_head?_iff (hread : Image.read input options = .ok image)
    (descriptor : String) :
    image.classNamed? descriptor = ((image.definitionsOf descriptor).find? fun item =>
        ∀ earlier < item.type, image.typeText? earlier ≠ some descriptor) ∧
      (image.classNamed? descriptor = (image.definitionsOf descriptor).head? ↔
        ∀ item ∈ (image.definitionsOf descriptor).head?, ∀ earlier < item.type,
          image.typeText? earlier ≠ some descriptor) := by
  have hstored := image.read_eq_ok_iff.mp ⟨image.journal, hread⟩
  have hlookup := hstored.classNamed?_eq descriptor
  refine ⟨hlookup, ?_⟩
  rw [hlookup, find?_eq_head?_iff]
  simp only [decide_eq_true_iff]

namespace Contents

/-- Two types that are written alike, and a class for the second of them. -/
def aliased : Contents where
  strings := ["LA;"]
  types := [0, 0]
  classes := [{ type := 1, flags := ⟨1⟩ }]

theorem storedIn_aliased : (aliased.image {}).StoredIn aliased.encode {} := by
  have hsize : aliased.size = 161 := by decide +kernel
  refine storedIn_image ?_ ?_ ?_
  · rw [hsize]
    decide
  · rw [hsize]
    constructor <;> decide
  · rw [hsize]
    decide

/-- A class that is defined in the file, but for the later of two types that are written alike, is
not found. -/
theorem classNamed?_aliased :
    ∃ image, Image.read aliased.encode {} = .ok image ∧ image.classNamed? "LA;" = none ∧
      (image.definitionsOf "LA;").head? = some (Class.item { type := 1, flags := ⟨1⟩ }) := by
  have hnone : (aliased.image {}).classNamed? "LA;" = none := by decide +kernel
  have hhead : ((aliased.image {}).definitionsOf "LA;").head? =
      some (Class.item { type := 1, flags := ⟨1⟩ }) := by decide +kernel
  obtain ⟨journal, hread⟩ := (Image.read_eq_ok_iff _).mpr storedIn_aliased
  refine ⟨_, hread, ?_, ?_⟩
  · rw [Image.classNamed?_with_journal, hnone]
  · rw [Image.definitionsOf_with_journal, hhead]

/-- In the sample, whose types are all written in their own way, the class is found. -/
theorem classNamed?_sample :
    ∃ image, Image.read sample.encode {} = .ok image ∧
      image.classNamed? "LA;" = (image.definitionsOf "LA;").head? := by
  have hfirst : ∀ item ∈ ((sample.image {}).definitionsOf "LA;").head?,
      ∀ earlier < item.type, (sample.image {}).typeText? earlier ≠ some "LA;" := by
    decide +kernel
  have hlimit : 285 ≤ ({} : Options).inputLimit := by decide
  obtain ⟨journal, hread⟩ := (Image.read_eq_ok_iff _).mpr (storedIn_sample hlimit)
  refine ⟨_, hread, (Image.classNamed?_eq_head?_iff hread "LA;").2.mpr ?_⟩
  simpa only [Image.definitionsOf_with_journal, Image.typeText?_with_journal] using hfirst

end Contents

end Dalvik
