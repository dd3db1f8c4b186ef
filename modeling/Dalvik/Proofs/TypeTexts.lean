import Dalvik.Proofs.Lookup

/-!
# Answers about types

Prototypes, fields and methods are written with the texts of types and with nothing else of them, so
two type pools with the same texts give the same answers.
-/

namespace Dalvik

section Except

variable {ε α β γ : Type}

/-- Results that are looked up one by one and then changed may be changed as they are looked up. -/
theorem map_mapM_except (f : α → Except ε β) (g : β → γ) (list : List α) :
    (list.mapM f).map (List.map g) = list.mapM fun a => (f a).map g := by
  induction list with
  | nil => rfl
  | cons a list ih =>
      rw [List.mapM_cons, List.mapM_cons, ← ih]
      cases f a with
      | error failure => rfl
      | ok b => cases list.mapM f <;> rfl

end Except

namespace Pool.Types

/-- How the type at an index is written. -/
def textAt (pool : Pool.Types) (index : Nat) : Except Failure String :=
  (pool.descriptor index).map Descriptor.text

theorem textAt_eq (pool : Pool.Types) (index : Nat) :
    pool.textAt index =
      itemAt Table.types.itemName Table.types.plural pool.texts.toArray index := by
  have hitem : pool.texts.toArray[index]? =
      pool.items[index]?.map fun item => item.descriptor.text := by
    simp [texts]
  have hsize : pool.texts.toArray.size = pool.items.size := by simp [texts]
  unfold textAt descriptor get itemAt
  rw [hitem, hsize]
  cases pool.items[index]? <;> rfl

theorem textAt_congr {pool other : Pool.Types} (h : pool.texts = other.texts) :
    pool.textAt = other.textAt := by
  funext index
  rw [textAt_eq, textAt_eq, h]

end Pool.Types

theorem ProtoItem.descriptor_eq (item : ProtoItem) (types : Pool.Types) :
    item.descriptor types = (do
      let parameters ← item.parameters.mapM types.textAt
      let returnType ← types.textAt item.returnType
      return "(" ++ String.join parameters ++ ")" ++ returnType) := by
  have hparameters : item.parameters.mapM types.textAt =
      (item.parameters.mapM types.descriptor).map (List.map Descriptor.text) :=
    (map_mapM_except types.descriptor Descriptor.text item.parameters).symm
  rw [hparameters, descriptor, Pool.Types.textAt]
  cases item.parameters.mapM types.descriptor with
  | error failure => rfl
  | ok parameters => cases types.descriptor item.returnType <;> rfl

namespace Image

theorem fieldText_eq (image : Image) (index : Nat) :
    image.fieldText index = (do
      let field ← image.fields.get index
      let classType ← image.types.textAt field.classType
      let name ← image.strings.text field.name
      let type ← image.types.textAt field.type
      return s!"{classType}->{name}:{type}") := by
  unfold fieldText Pool.Types.textAt
  cases image.fields.get index with
  | error failure => rfl
  | ok field =>
      cases hclass : image.types.descriptor field.classType with
      | error failure => simp [bind, Except.bind, Except.map, hclass]
      | ok classType =>
          cases hname : image.strings.text field.name <;>
            cases htype : image.types.descriptor field.type <;>
            simp [bind, Except.bind, Except.map, hclass, hname, htype]

theorem methodText_eq (image : Image) (index : Nat) :
    image.methodText index = (do
      let method ← image.methods.get index
      let classType ← image.types.textAt method.classType
      let name ← image.strings.text method.name
      let proto ← image.protoText method.proto
      return s!"{classType}->{name}{proto}") := by
  unfold methodText Pool.Types.textAt
  cases image.methods.get index with
  | error failure => rfl
  | ok method =>
      cases hclass : image.types.descriptor method.classType <;>
        simp [bind, Except.bind, Except.map, hclass]

/-- Two images that answer alike whatever they are asked for by a text, whatever is written with the
texts of types, and with their listings. -/
structure SameAnswers (image other : Image) : Prop where
  find? : ∀ descriptor, image.types.find? descriptor = other.types.find? descriptor
  classNamed? : ∀ descriptor, image.classNamed? descriptor = other.classNamed? descriptor
  protoText : ∀ index, image.protoText index = other.protoText index
  fieldText : ∀ index, image.fieldText index = other.fieldText index
  methodText : ∀ index, image.methodText index = other.methodText index
  listing : image.listing = other.listing
  markup : image.markup = other.markup

/-- Of the types, only the texts and the index from texts to types matter for answers. -/
theorem sameAnswers {image other : Image} (hstrings : image.strings = other.strings)
    (htexts : image.types.texts = other.types.texts)
    (hindex : image.types.byDescriptor = other.types.byDescriptor)
    (hprotos : image.protos = other.protos) (hfields : image.fields = other.fields)
    (hmethods : image.methods = other.methods) (hclasses : image.classes = other.classes) :
    image.SameAnswers other := by
  have hfind : ∀ descriptor, image.types.find? descriptor = other.types.find? descriptor := by
    intro descriptor
    rw [Pool.Types.find?, Pool.Types.find?, hindex]
  have htextAt := Pool.Types.textAt_congr htexts
  have hproto : ∀ index, image.protoText index = other.protoText index := by
    intro index
    unfold protoText
    simp only [ProtoItem.descriptor_eq, hprotos, htextAt]
  refine ⟨hfind, fun descriptor => ?_, hproto, fun index => ?_, fun index => ?_, ?_, ?_⟩
  · rw [classNamed?, classNamed?, hfind, hclasses]
  · rw [fieldText_eq, fieldText_eq, hfields, hstrings, htextAt]
  · rw [methodText_eq, methodText_eq, hmethods, hstrings, htextAt, funext hproto]
  · rw [listing, listing, hstrings, Pool.Types.listing, Pool.Types.listing, htexts]
  · rw [markup, markup, hstrings, Pool.Types.markup, Pool.Types.markup, htexts]

end Image

end Dalvik
