import Dalvik.Image

/-!
# Lookups

A lookup in a pool finds something just when the index is below the size of the pool, and a text
that is put together from lookups exists just when all of them find something.
-/

namespace Dalvik

section Except

variable {ε α β : Type}

theorem exists_bind_eq_ok_iff {first : Except ε α} {next : α → Except ε β} :
    (∃ b, first >>= next = .ok b) ↔ ∃ a, first = .ok a ∧ ∃ b, next a = .ok b := by
  cases first with
  | error failure => simp [bind, Except.bind]
  | ok a => simp [bind, Except.bind]

theorem exists_map_eq_ok_iff {result : Except ε α} {f : α → β} :
    (∃ b, result.map f = .ok b) ↔ ∃ a, result = .ok a := by
  cases result <;> simp [Except.map]

theorem exists_mapM_eq_ok_iff {f : α → Except ε β} {list : List α} :
    (∃ results, list.mapM f = .ok results) ↔ ∀ a ∈ list, ∃ b, f a = .ok b := by
  induction list with
  | nil => simp [pure, Except.pure]
  | cons a list ih =>
      rw [List.mapM_cons, exists_bind_eq_ok_iff, List.forall_mem_cons, ← ih]
      constructor
      · rintro ⟨b, hb, results, hresults⟩
        obtain ⟨rest, hrest, -⟩ := exists_bind_eq_ok_iff.mp ⟨results, hresults⟩
        exact ⟨⟨b, hb⟩, rest, hrest⟩
      · rintro ⟨⟨b, hb⟩, rest, hrest⟩
        exact ⟨b, hb, exists_bind_eq_ok_iff.mpr ⟨rest, hrest, b :: rest, rfl⟩⟩

end Except

theorem itemAt_eq_ok_iff {α : Type} {label plural : String} {items : Array α} {index : Nat}
    {item : α} : itemAt label plural items index = .ok item ↔ items[index]? = some item := by
  unfold itemAt
  cases items[index]? <;> simp

theorem exists_itemAt_iff {α : Type} {label plural : String} {items : Array α} {index : Nat} :
    (∃ item, itemAt label plural items index = .ok item) ↔ index < items.size := by
  simp only [itemAt_eq_ok_iff, Array.getElem?_eq_some_iff]
  exact ⟨fun ⟨_, h, _⟩ => h, fun h => ⟨_, h, rfl⟩⟩

theorem Pool.Strings.exists_text_iff {pool : Pool.Strings} {index : Nat} :
    (∃ text, pool.text index = .ok text) ↔ index < pool.size :=
  exists_map_eq_ok_iff.trans exists_itemAt_iff

theorem Pool.Types.exists_descriptor_iff {pool : Pool.Types} {index : Nat} :
    (∃ descriptor, pool.descriptor index = .ok descriptor) ↔ index < pool.size :=
  exists_map_eq_ok_iff.trans exists_itemAt_iff

theorem Pool.References.get_eq_ok_iff {α : Type} {pool : Pool.References α} {index : Nat}
    {item : α} : pool.get index = .ok item ↔ pool.items[index]? = some item :=
  itemAt_eq_ok_iff

theorem ProtoItem.exists_descriptor_iff {item : ProtoItem} {types : Pool.Types} :
    (∃ text, item.descriptor types = .ok text) ↔
      (∀ type ∈ item.parameters, type < types.size) ∧ item.returnType < types.size := by
  unfold ProtoItem.descriptor
  rw [exists_bind_eq_ok_iff]
  simp only [exists_bind_eq_ok_iff]
  simp only [← Pool.Types.exists_descriptor_iff, ← exists_mapM_eq_ok_iff]
  constructor
  · rintro ⟨parameters, hparameters, returnType, hreturn, -⟩
    exact ⟨⟨parameters, hparameters⟩, returnType, hreturn⟩
  · rintro ⟨⟨parameters, hparameters⟩, returnType, hreturn⟩
    exact ⟨parameters, hparameters, returnType, hreturn, _, rfl⟩

/-- The short form of types that are there can be spelled, or is known not to exist. -/
theorem ProtoItem.exists_letters {types : Pool.Types} {indices : List Nat}
    (h : ∀ type ∈ indices, type < types.size) :
    ∃ spelled, ProtoItem.letters types indices = .ok spelled := by
  induction indices with
  | nil => exact ⟨_, rfl⟩
  | cons index indices ih =>
      obtain ⟨hindex, hindices⟩ := List.forall_mem_cons.mp h
      obtain ⟨descriptor, hdescriptor⟩ := Pool.Types.exists_descriptor_iff.mpr hindex
      obtain ⟨spelled, hspelled⟩ := ih hindices
      rw [ProtoItem.letters]
      refine exists_bind_eq_ok_iff.mpr ⟨descriptor, hdescriptor, ?_⟩
      split
      · exact ⟨none, rfl⟩
      · exact exists_bind_eq_ok_iff.mpr ⟨spelled, hspelled, _, rfl⟩

/-- A prototype whose references can be followed is compared with its short form without failure. -/
theorem ProtoItem.exists_anomaly? {item : ProtoItem} {strings : Pool.Strings} {types : Pool.Types}
    (hshorty : item.shorty < strings.size) (hreturn : item.returnType < types.size)
    (hparameters : ∀ type ∈ item.parameters, type < types.size) (index : Nat) :
    ∃ anomaly?, item.anomaly? strings types index = .ok anomaly? := by
  obtain ⟨spelled, hspelled⟩ := exists_letters (List.forall_mem_cons.mpr ⟨hreturn, hparameters⟩)
  obtain ⟨stored, hstored⟩ := Pool.Strings.exists_text_iff.mpr hshorty
  refine exists_bind_eq_ok_iff.mpr ⟨spelled.map String.ofList, ?_, ?_⟩
  · rw [ProtoItem.shortyOfTypes, hspelled]
    rfl
  · cases spelled with
    | none => exact ⟨none, rfl⟩
    | some letters => exact exists_bind_eq_ok_iff.mpr ⟨stored, hstored, _, rfl⟩

end Dalvik
