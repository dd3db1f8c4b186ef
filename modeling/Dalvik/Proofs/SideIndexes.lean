import Dalvik.Proofs.ImageReads
import Mathlib.Control.Monad.Basic
import Std.Data.TreeMap

/-!
# Side indexes

The index that a pool keeps of its items answers as a search through the items from the front
would: with the first position of a key. This holds of every pool that can be read, whatever the
pools before it and however deep arrays may be nested.
-/

namespace Dalvik

namespace FirstIndex

variable {κ : Type} [Ord κ] [Std.TransOrd κ] [Std.LawfulEqOrd κ] [BEq κ] [LawfulBEq κ]

/-- Keys that are there already stay where they are, and the others follow in their order. -/
theorem getElem?_extend (keys : List κ) (position : Nat) (index : FirstIndex κ) (key : κ) :
    (extend keys position index)[key]? =
      index[key]?.or ((keys.idxOf? key).map (· + position)) := by
  induction keys generalizing position index with
  | nil => simp [extend]
  | cons first keys ih =>
      rw [extend, ih, Std.TreeMap.getElem?_insertIfNew, List.idxOf?_cons]
      by_cases heq : first = key
      · subst heq
        cases hfound : index[first]? with
        | none =>
            have hnew : first ∉ index := by
              rw [Std.TreeMap.mem_iff_isSome_getElem?, hfound]
              decide
            simp [hnew]
        | some found =>
            have hold : first ∈ index := by
              rw [Std.TreeMap.mem_iff_isSome_getElem?, hfound]
              rfl
            simp [hold]
      · have hshift : ∀ i, i + (position + 1) = i + 1 + position := fun i => by omega
        simp [heq, hshift, Function.comp_def]

/-- The index of a list has the first position of each key. -/
theorem getElem?_ofList (keys : List κ) (key : κ) : (ofList keys)[key]? = keys.idxOf? key := by
  rw [ofList, getElem?_extend]
  simp

end FirstIndex

/-- What stands at the first position of a key is the first element with that key. -/
theorem bind_idxOf?_map {α κ : Type} [BEq κ] (key : α → κ) (list : List α) (wanted : κ) :
    ((list.map key).idxOf? wanted).bind (list[·]?) = list.find? fun a => key a == wanted := by
  induction list with
  | nil => rfl
  | cons a list ih =>
      rw [List.map_cons, List.idxOf?_cons, List.find?_cons]
      cases key a == wanted with
      | true => rfl
      | false =>
          rw [← ih]
          simp only [Bool.false_eq_true, if_false, Option.bind_map]
          rfl

/-! ## First positions -/

/-- An answer that is the first index with a property, or none if no index has it. -/
def IsFirst (p : Nat → Prop) : Option Nat → Prop
  | some index => p index ∧ ∀ earlier < index, ¬p earlier
  | none => ∀ index, ¬p index

namespace IsFirst

variable {p q : Nat → Prop} {answer other : Option Nat}

theorem congr (h : IsFirst p answer) (hiff : ∀ index, p index ↔ q index) : IsFirst q answer := by
  obtain rfl : p = q := funext fun index => propext (hiff index)
  exact h

/-- A property has one first index at most. -/
theorem unique (h : IsFirst p answer) (hother : IsFirst p other) : answer = other := by
  cases answer with
  | none =>
      cases other with
      | none => rfl
      | some second => exact absurd hother.1 (h second)
  | some first =>
      cases other with
      | none => exact absurd h.1 (hother first)
      | some second =>
          have hle : first ≤ second := Nat.le_of_not_lt fun hlt => h.2 second hlt hother.1
          have hge : second ≤ first := Nat.le_of_not_lt fun hlt => hother.2 first hlt h.1
          rw [Nat.le_antisymm hle hge]

end IsFirst

theorem isFirst_idxOf? {κ : Type} [BEq κ] [LawfulBEq κ] (list : List κ) (key : κ) :
    IsFirst (fun index => list[index]? = some key) (list.idxOf? key) := by
  cases hfound : list.idxOf? key with
  | none =>
      intro index hindex
      exact List.idxOf?_eq_none_iff.mp hfound (List.mem_of_getElem? hindex)
  | some index =>
      rw [List.idxOf?, List.findIdx?_eq_some_iff_getElem] at hfound
      obtain ⟨hindex, hkey, hearlier⟩ := hfound
      refine ⟨List.getElem?_eq_some_iff.mpr ⟨hindex, eq_of_beq hkey⟩, fun earlier hlt hother => ?_⟩
      obtain ⟨_, heq⟩ := List.getElem?_eq_some_iff.mp hother
      exact hearlier earlier hlt (beq_iff_eq.mpr heq)

/-- What a lookup by index shows of an item is what stands at that index. -/
theorem map_itemAt_eq_ok_iff {α β : Type} {label plural : String} {items : Array α} {index : Nat}
    {f : α → β} {b : β} :
    (itemAt label plural items index).map f = .ok b ↔ (items.toList.map f)[index]? = some b := by
  rw [itemAt, List.getElem?_map, Array.getElem?_toList]
  cases items[index]? <;> simp [Except.map]

theorem toOption_itemAt {α : Type} {label plural : String} {items : Array α} {index : Nat} :
    (itemAt label plural items index).toOption = items[index]? := by
  rw [itemAt]
  cases items[index]? <;> rfl

variable {input : Bytes} {header : Header}

/-! ## Pools and their indexes -/

open Decode

theorem Pool.Strings.find?_ofItems (items : Array StringItem) (text : String) :
    (ofItems items).find? text = (ofItems items).texts.idxOf? text :=
  FirstIndex.getElem?_ofList _ _

/-- A type is found by the text of its descriptor, although the index was made of the texts of
strings. -/
theorem Pool.Types.find?_eq_idxOf? {strings : Pool.Strings} {arrayLimit count offset : Nat}
    {pool : Pool.Types} (hpool : pool = ofItems strings pool.items)
    (hholds : Table.types.Holds input count offset
      (fun index pos item => item.StoredAt input strings arrayLimit index pos) pool.items)
    (descriptor : String) : pool.find? descriptor = pool.texts.idxOf? descriptor := by
  have htexts : (pool.items.toList.map fun item =>
      (strings.items[item.stringIndex]?.map StringItem.text).getD "") = pool.texts := by
    refine List.map_congr_left ?_
    intro item hitem
    obtain ⟨index, hindex, rfl⟩ := List.mem_iff_getElem.mp hitem
    obtain ⟨string, hstring, hdescriptor⟩ := (hholds.item index (by simpa using hindex)).descriptor
    rw [Array.getElem_toList, hstring, hdescriptor, Descriptor.text_ofText]
    rfl
  rw [find?, hpool, ofItems, htexts]
  exact FirstIndex.getElem?_ofList _ _

theorem Pool.Types.StoredIn.find?_eq {strings : Pool.Strings} {arrayLimit : Nat}
    {pool : Pool.Types} (h : pool.StoredIn input header strings arrayLimit) (descriptor : String) :
    pool.find? descriptor = pool.texts.idxOf? descriptor :=
  find?_eq_idxOf? h.pool_eq h.holds descriptor

theorem Pool.Classes.ofType?_ofItems (items : Array ClassItem) (type : Nat) :
    (ofItems items).ofType? type =
      ((items.toList.map ClassItem.type).idxOf? type).bind fun index => items[index]? := by
  rw [ofType?, ofItems, FirstIndex.getElem?_ofList]

theorem Pool.Classes.StoredIn.ofType?_eq {sizes : ClassItem.Sizes} {pool : Pool.Classes}
    (h : pool.StoredIn input header sizes) (type : Nat) :
    pool.ofType? type = pool.items.toList.find? fun item => item.type == type := by
  rw [← bind_idxOf?_map ClassItem.type, h.pool_eq, ofType?_ofItems]
  simp [ofItems]

/-- A pool of classes is given by its items. -/
theorem Pool.Classes.eq_ofItems_of_run {pools : ClassItem.Pools} {count offset : Nat}
    {scan after : Scan} {pool : Pool.Classes}
    (h : run (Pool.Classes.read pools count offset) input scan = (.ok pool, after)) :
    pool = ofItems pool.items := by
  obtain ⟨items, _, -, hrest⟩ := ok_of_run_bind h
  obtain ⟨_, _, -, hrest⟩ := ok_of_run_bind hrest
  obtain ⟨_, _, -, hpure⟩ := ok_of_run_bind hrest
  cases hpure
  rfl

/-- The indexes of the strings, the types and the classes that are read answer with the first index
at which a lookup shows what is asked for. -/
theorem Pool.indexes_find_first (input : Bytes) (scan : Scan) (count offset : UInt32) :
    (∀ pool after,
      run (Pool.Strings.read count.toNat offset.toNat) input scan = (.ok pool, after) →
      ∀ text, IsFirst (fun index => pool.text index = .ok text) (pool.find? text)) ∧
    (∀ strings arrayLimit pool after,
      run (Pool.Types.read strings arrayLimit count.toNat offset.toNat) input scan =
        (.ok pool, after) →
      ∀ text, IsFirst (fun index => (pool.descriptor index).map Descriptor.text = .ok text)
        (pool.find? text)) ∧
    ∀ pools pool after,
      run (Pool.Classes.read pools count.toNat offset.toNat) input scan = (.ok pool, after) →
      ∀ type, ∃ first, IsFirst (fun index => (pool.get index).map ClassItem.type = .ok type) first ∧
        pool.ofType? type = first.bind fun index => (pool.get index).toOption := by
  refine ⟨fun pool after hrun text => ?_, fun strings arrayLimit pool after hrun text => ?_,
    fun pools pool after hrun type => ?_⟩
  · obtain ⟨-, hpool, -⟩ := (Pool.Strings.reads_read_of_lt count.toNat_lt offset.toNat scan pool
      after.pos).mp ⟨after.journal, hrun⟩
    rw [hpool, Pool.Strings.find?_ofItems]
    exact (isFirst_idxOf? _ text).congr fun index => map_itemAt_eq_ok_iff.symm
  · obtain ⟨-, hpool, hholds⟩ := (Pool.Types.reads_read_of_lt strings arrayLimit count.toNat_lt
      offset.toNat scan pool after.pos).mp ⟨after.journal, hrun⟩
    rw [Pool.Types.find?_eq_idxOf? hpool hholds]
    refine (isFirst_idxOf? _ text).congr fun index => ?_
    have hshown : (pool.descriptor index).map Descriptor.text =
        (pool.get index).map fun item => item.descriptor.text := by
      rw [Pool.Types.descriptor]
      cases pool.get index <;> rfl
    rw [hshown]
    exact map_itemAt_eq_ok_iff.symm
  · have hpool := Pool.Classes.eq_ofItems_of_run hrun
    refine ⟨_, (isFirst_idxOf? (pool.items.toList.map ClassItem.type) type).congr fun index =>
      map_itemAt_eq_ok_iff.symm, ?_⟩
    simp only [Pool.Classes.get, toOption_itemAt]
    rw [hpool]
    exact Pool.Classes.ofType?_ofItems pool.items type

/-- Three strings, three types and two classes: the last two strings are alike, the last two types
are written alike, and the classes are defined for one type. -/
def repeatedInput : Bytes :=
  #[88, 0, 0, 0, 91, 0, 0, 0, 91, 0, 0, 0,
    0, 0, 0, 0, 2, 0, 0, 0, 1, 0, 0, 0,
    2, 0, 0, 0, 1, 0, 0, 0, 255, 255, 255, 255, 0, 0, 0, 0,
    255, 255, 255, 255, 0, 0, 0, 0, 0, 0, 0, 0, 0, 0, 0, 0,
    2, 0, 0, 0, 2, 0, 0, 0, 255, 255, 255, 255, 0, 0, 0, 0,
    255, 255, 255, 255, 0, 0, 0, 0, 0, 0, 0, 0, 0, 0, 0, 0,
    1, 0x42, 0, 3, 0x4c, 0x41, 0x3b, 0]

def repeatedStrings : Pool.Strings :=
  .ofItems #[⟨1, "B", false⟩, ⟨3, "LA;", false⟩, ⟨3, "LA;", false⟩]

def repeatedTypes : Pool.Types :=
  .ofItems repeatedStrings
    #[⟨0, 0, .primitive .byte⟩, ⟨1, 2, .classRef "LA;"⟩, ⟨2, 1, .classRef "LA;"⟩]

/-- The definition of a public class for the third type. -/
def repeatedClass : ClassItem where
  type := 2
  flags := ⟨1⟩
  superclass := none
  interfaces := []
  sourceFile := none
  annotationsOffset := 0
  data := none
  staticValuesOffset := 0

/-- Of what is there twice the first is found, also for the types, whose strings stand in the other
order. -/
theorem Pool.indexes_find_first_repeated :
    ∃ stringsAfter typesAfter classes classesAfter,
      run (Pool.Strings.read 3 0) repeatedInput {} = (.ok repeatedStrings, stringsAfter) ∧
      run (Pool.Types.read repeatedStrings 255 3 12) repeatedInput {} =
        (.ok repeatedTypes, typesAfter) ∧
      run (Pool.Classes.read ⟨repeatedStrings, repeatedTypes, {}, {}⟩ 2 24) repeatedInput {} =
        (.ok classes, classesAfter) ∧
      repeatedStrings.find? "LA;" = some 1 ∧ repeatedTypes.find? "LA;" = some 1 ∧
      classes.ofType? 2 = some repeatedClass := by
  have hstrings := Pool.Strings.run_read_eq (by decide) (by decide +kernel :
    (run (Pool.Strings.read 3 0) repeatedInput {}).1.map Pool.Strings.items =
      .ok #[⟨1, "B", false⟩, ⟨3, "LA;", false⟩, ⟨3, "LA;", false⟩])
  have htypes : run (Pool.Types.read repeatedStrings 255 3 12) repeatedInput {} =
      (.ok repeatedTypes, _) := rfl
  obtain ⟨classes, hclasses, hitems⟩ := exists_run_of_map (by decide +kernel :
    (run (Pool.Classes.read ⟨repeatedStrings, repeatedTypes, {}, {}⟩ 2 24) repeatedInput {}).1.map
      Pool.Classes.items = .ok #[repeatedClass, { repeatedClass with flags := ⟨2⟩ }])
  have hfirstClass : (classes.get 0).map ClassItem.type = .ok 2 :=
    map_itemAt_eq_ok_iff.mpr (by rw [hitems]; rfl)
  refine ⟨_, _, classes, _, hstrings, htypes, hclasses, ?_, ?_, ?_⟩
  · exact ((Pool.indexes_find_first repeatedInput {} 3 0).1 _ _ hstrings "LA;").unique
      (by decide +kernel : _ ∧ ∀ earlier < 1, _)
  · exact ((Pool.indexes_find_first repeatedInput {} 3 12).2.1 _ _ _ _ htypes "LA;").unique
      (by decide +kernel : _ ∧ ∀ earlier < 1, _)
  · obtain ⟨first, hfirst, heq⟩ :=
      (Pool.indexes_find_first repeatedInput {} 2 24).2.2 _ _ _ hclasses 2
    have hzero : IsFirst (fun index => (classes.get index).map ClassItem.type = .ok 2) (some 0) :=
      ⟨hfirstClass, by simp⟩
    rw [heq, hfirst.unique hzero, Option.bind_some, Pool.Classes.get, toOption_itemAt, hitems]
    rfl

end Dalvik
