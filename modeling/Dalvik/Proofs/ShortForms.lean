import Dalvik.Proofs.Diagnostics

/-!
# Short forms

The short form that the types of a prototype give has a letter for each type, the return type first.
There is none as soon as one of the types spells nothing; an array has a letter all the same,
whatever its elements are.
-/

namespace Dalvik

open Decode

/-- All elements have a result just when the results make a list. -/
theorem exists_map_eq_map_some_iff {α β : Type} {f : α → Option β} {list : List α} :
    (∃ results : List β, list.map f = results.map some) ↔ ∀ a ∈ list, f a ≠ none := by
  induction list with
  | nil => simp
  | cons a list ih =>
      rw [List.forall_mem_cons, ← ih, Option.ne_none_iff_exists']
      constructor
      · rintro ⟨results, hresults⟩
        obtain ⟨b, results, rfl, hb, hrest⟩ := List.map_eq_cons_iff.mp hresults.symm
        exact ⟨⟨b, hb.symm⟩, results, hrest.symm⟩
      · rintro ⟨⟨b, hb⟩, results, hrest⟩
        exact ⟨b :: results, by rw [List.map_cons, List.map_cons, hb, hrest]⟩

variable {input : Bytes} {scan after : Scan} {strings : Pool.Strings} {types : Pool.Types}

namespace Pool.Types

/-- Whether there is a type at an index whose innermost element spells nothing. -/
def IsMalformed (types : Pool.Types) (type : Nat) : Prop :=
  ∃ item, types.items[type]? = some item ∧ item.isMalformed

/-- Whether there is a type at an index that is an array. -/
def IsArray (types : Pool.Types) (type : Nat) : Prop :=
  ∃ item, types.items[type]? = some item ∧ item.descriptor.isArray

/-- The letter for the type at an index. -/
def letter? (types : Pool.Types) (type : Nat) : Option Char :=
  (types.descriptor type).toOption.bind Descriptor.shorty?

theorem IsMalformed.lt {type : Nat} (h : types.IsMalformed type) : type < types.size := by
  obtain ⟨item, hitem, -⟩ := h
  exact (Array.getElem?_eq_some_iff.mp hitem).1

theorem malformedType_mem_anomalies_iff {type : Nat} :
    (∃ text, .malformedType type text ∈ types.anomalies) ↔ types.IsMalformed type := by
  simp only [anomalies, mem_flatMap_zipIdx, TypeItem.anomalies, List.mem_ite_nil_right,
    List.mem_singleton, Anomaly.malformedType.injEq]
  constructor
  · rintro ⟨_, _, item, hitem, hmalformed, rfl, -⟩
    exact ⟨item, hitem, hmalformed⟩
  · rintro ⟨item, hitem, hmalformed⟩
    exact ⟨_, type, item, hitem, hmalformed, rfl, rfl⟩

theorem letter?_eq_none_iff {type : Nat} (h : type < types.size) :
    types.letter? type = none ↔ types.IsMalformed type ∧ ¬types.IsArray type := by
  have hitem : types.items[type]? = some types.items[type] := Array.getElem?_eq_getElem h
  have hdescriptor : types.descriptor type = .ok types.items[type].descriptor := by
    rw [descriptor, get, itemAt_eq_ok_iff.mpr hitem]
    rfl
  rw [letter?, hdescriptor]
  simp only [Except.toOption, IsMalformed, IsArray, hitem, Option.bind_some, Option.some.injEq,
    exists_eq_left', TypeItem.isMalformed]
  cases types.items[type].descriptor <;> simp [Descriptor.shorty?, Descriptor.leaf,
    Descriptor.isUnknown, Descriptor.isArray]

end Pool.Types

namespace ProtoItem

/-- The types of a prototype, the return type first. -/
def mentioned (item : ProtoItem) : List Nat :=
  item.returnType :: item.parameters

/-- Whether a prototype mentions a malformed type that is not an array. -/
def MentionsUnspelled (item : ProtoItem) (types : Pool.Types) : Prop :=
  ∃ type ∈ item.mentioned, types.IsMalformed type ∧ ¬types.IsArray type

theorem letters_eq_some_iff {indices : List Nat} {spelled : List Char} :
    letters types indices = .ok (some spelled) ↔
      indices.map types.letter? = spelled.map some := by
  induction indices generalizing spelled with
  | nil => cases spelled <;> simp [letters]
  | cons index indices ih =>
      rw [letters, List.map_cons, Pool.Types.letter?]
      cases hdescriptor : types.descriptor index with
      | error failure => cases spelled <;> simp [bind, Except.bind, Except.toOption]
      | ok descriptor =>
          simp only [bind, Except.bind, Except.toOption, Option.bind_some]
          cases descriptor.shorty? with
          | none => cases spelled <;> simp [pure, Except.pure]
          | some letter =>
              cases spelled with
              | nil => cases letters types indices <;> simp [pure, Except.pure]
              | cons first spelled =>
                  rw [List.map_cons, List.cons.injEq, ← ih]
                  cases letters types indices with
                  | error failure => simp
                  | ok rest? => cases rest? <;> simp [pure, Except.pure]

theorem shortyOfTypes_eq (item : ProtoItem) (types : Pool.Types) :
    item.shortyOfTypes types =
      (letters types item.mentioned).map (Option.map String.ofList) := by
  unfold shortyOfTypes
  cases h : letters types item.mentioned <;> rw [mentioned] at h <;> rw [h] <;> rfl

theorem shortyOfTypes_eq_some_iff {item : ProtoItem} {text : String} :
    item.shortyOfTypes types = .ok (some text) ↔
      item.mentioned.map types.letter? = text.toList.map some := by
  rw [← letters_eq_some_iff, shortyOfTypes_eq]
  cases letters types item.mentioned with
  | error failure => simp [Except.map]
  | ok spelled =>
      cases spelled with
      | none => simp [Except.map]
      | some spelled =>
          simp only [Except.map, Option.map_some, Except.ok.injEq, Option.some.injEq]
          constructor
          · rintro rfl
            exact String.toList_ofList.symm
          · rintro rfl
            exact String.ofList_toList

/-- A prototype whose references can be followed has a short form, unless it mentions a type that
spells nothing and is not an array. -/
theorem exists_shortyOfTypes {item : ProtoItem} (h : ∀ type ∈ item.mentioned, type < types.size) :
    ∃ spelled, item.shortyOfTypes types = .ok spelled ∧
      (spelled = none ↔ item.MentionsUnspelled types) := by
  obtain ⟨spelled, hspelled⟩ := exists_letters h
  refine ⟨spelled.map String.ofList, by rw [shortyOfTypes_eq, hspelled]; rfl, ?_⟩
  calc spelled.map String.ofList = none
    _ ↔ ¬∃ found, letters types item.mentioned = .ok (some found) := by
      rw [hspelled]
      cases spelled <;> simp
    _ ↔ ¬∀ type ∈ item.mentioned, types.letter? type ≠ none := by
      simp only [letters_eq_some_iff, exists_map_eq_map_some_iff]
    _ ↔ ∃ type ∈ item.mentioned, types.letter? type = none := by
      simp
    _ ↔ item.MentionsUnspelled types :=
      exists_congr fun type => and_congr_right fun hmem =>
        Pool.Types.letter?_eq_none_iff (h type hmem)

/-- No disagreement is found where there is no short form to compare with. -/
theorem disagreement?_eq_none {item : ProtoItem} (h : item.MentionsUnspelled types) :
    item.disagreement? strings types = none := by
  obtain ⟨type, hmem, hmalformed, harray⟩ := h
  have hnone := (Pool.Types.letter?_eq_none_iff hmalformed.lt).mpr ⟨hmalformed, harray⟩
  unfold disagreement?
  cases hspelled : item.shortyOfTypes types with
  | error failure => rfl
  | ok spelled =>
      cases spelled with
      | none => rfl
      | some expected =>
          have hletters := shortyOfTypes_eq_some_iff.mp hspelled
          exact absurd hnone (exists_map_eq_map_some_iff.mp ⟨_, hletters⟩ type hmem)

end ProtoItem

theorem Pool.Protos.shorty_mem_anomalies_iff {protos : Pool.Protos} {index : Nat}
    {stored expected : String} :
    .shorty index stored expected ∈ protos.anomalies strings types ↔
      ∃ item, protos.items[index]? = some item ∧
        item.disagreement? strings types = some (stored, expected) := by
  simp only [anomalies, mem_flatMap_zipIdx, ProtoItem.anomalies_eq, Option.mem_toList,
    Option.map_eq_some_iff]
  constructor
  · rintro ⟨_, item, hitem, ⟨_, _⟩, hdisagree, ⟨⟩⟩
    exact ⟨item, hitem, hdisagree⟩
  · rintro ⟨item, hitem, hdisagree⟩
    exact ⟨index, item, hitem, (stored, expected), hdisagree, rfl⟩

/-- The types that are warned of are those whose innermost element spells nothing. Of these, only
the ones that are not arrays leave a prototype without a short form; any other prototype has one
letter for each type in order. No disagreement is noted for a prototype without a short form. -/
theorem ProtoItem.shortForm_iff {arrayLimit count offset : Nat}
    (hrun : run (Pool.Types.read strings arrayLimit count offset) input scan = (.ok types, after)) :
    (∃ anomalies : List Anomaly,
      after.journal.diagnostics = scan.journal.diagnostics ++ anomalies.map Anomaly.warning ∧
      ∀ type, (∃ text, .malformedType type text ∈ anomalies) ↔ types.IsMalformed type) ∧
    (∀ item : ProtoItem, (∀ type ∈ item.mentioned, type < types.size) →
      ∃ spelled, item.shortyOfTypes types = .ok spelled ∧
        (spelled = none ↔ item.MentionsUnspelled types) ∧
        ∀ text, spelled = some text ↔
          item.mentioned.map types.letter? = text.toList.map some) ∧
    ∀ (input : Bytes) (strings : Pool.Strings) (scan after : Scan) (count offset : Nat)
      (protos : Pool.Protos),
      run (Pool.Protos.read strings types count offset) input scan = (.ok protos, after) →
      ∃ anomalies : List Anomaly,
        after.journal.diagnostics = scan.journal.diagnostics ++ anomalies.map Anomaly.warning ∧
        ∀ index item, protos.items[index]? = some item → item.MentionsUnspelled types →
          ∀ stored expected, .shorty index stored expected ∉ anomalies := by
  refine ⟨?_, fun item hitem => ?_, ?_⟩
  · obtain ⟨_, rfl, hdiagnostics⟩ :=
      (Pool.Types.notes_read strings arrayLimit count offset).diagnostics_of_run hrun
    exact ⟨_, hdiagnostics, fun type => Pool.Types.malformedType_mem_anomalies_iff⟩
  · obtain ⟨spelled, hspelled, hnone⟩ := exists_shortyOfTypes hitem
    refine ⟨spelled, hspelled, hnone, fun text => ?_⟩
    rw [← shortyOfTypes_eq_some_iff, hspelled, Except.ok.injEq]
  · intro input strings scan after count offset protos hprotos
    obtain ⟨_, rfl, hdiagnostics⟩ :=
      (Pool.Protos.notes_read strings types count offset).diagnostics_of_run hprotos
    refine ⟨_, hdiagnostics, fun index item hitem hmentioned stored expected hmem => ?_⟩
    obtain ⟨_, hitem', hdisagree⟩ := Pool.Protos.shorty_mem_anomalies_iff.mp hmem
    cases hitem.symm.trans hitem'
    rw [disagreement?_eq_none hmentioned] at hdisagree
    cases hdisagree

/-- Three strings, three types and two prototypes: one that returns an array whose elements spell
nothing, and one with a parameter that spells nothing. -/
def unspelledInput : Bytes :=
  #[54, 0, 0, 0, 58, 0, 0, 0, 61, 0, 0, 0,
    0, 0, 0, 0, 1, 0, 0, 0, 2, 0, 0, 0,
    2, 0, 0, 0, 0, 0, 0, 0, 0, 0, 0, 0,
    2, 0, 0, 0, 2, 0, 0, 0, 48, 0, 0, 0,
    1, 0, 0, 0, 1, 0,
    2, 0x5b, 0x58, 0, 1, 0x58, 0, 1, 0x56, 0]

def unspelledStrings : Pool.Strings :=
  .ofItems #[⟨2, "[X", false⟩, ⟨1, "X", false⟩, ⟨1, "V", false⟩]

def unspelledTypes : Pool.Types :=
  .ofItems unspelledStrings
    #[⟨0, 0, .array (.unknown "X")⟩, ⟨1, 1, .unknown "X"⟩, ⟨2, 2, .primitive .void⟩]

theorem run_unspelledInput :
    (∃ after, run (Pool.Strings.read 3 0) unspelledInput {} = (.ok unspelledStrings, after)) ∧
      (∃ after, run (Pool.Types.read unspelledStrings 255 3 12) unspelledInput {} =
          (.ok unspelledTypes, after) ∧
        after.journal.diagnostics =
          [Anomaly.warning (.malformedType 0 "[X"), Anomaly.warning (.malformedType 1 "X")]) ∧
      ∃ protos after,
        run (Pool.Protos.read unspelledStrings unspelledTypes 2 24) unspelledInput {} =
          (.ok protos, after) ∧
        protos.items = #[⟨2, 0, 0, []⟩, ⟨2, 2, 48, [1]⟩] ∧
        after.journal.diagnostics = [Anomaly.warning (.shorty 0 "V" "L")] := by
  have hstrings := Pool.Strings.run_read_eq (by decide) (by decide +kernel :
    (run (Pool.Strings.read 3 0) unspelledInput {}).1.map Pool.Strings.items =
      .ok #[⟨2, "[X", false⟩, ⟨1, "X", false⟩, ⟨1, "V", false⟩])
  obtain ⟨protos, hprotos, hitems⟩ := exists_run_of_map (by decide +kernel :
    (run (Pool.Protos.read unspelledStrings unspelledTypes 2 24) unspelledInput {}).1.map
      Pool.References.items = .ok #[⟨2, 0, 0, []⟩, ⟨2, 2, 48, [1]⟩])
  exact ⟨⟨_, hstrings⟩, ⟨_, rfl, by decide +kernel⟩, protos, _, hprotos, hitems, by decide +kernel⟩

/-- The parameter that spells nothing keeps the prototype from being compared. -/
theorem ProtoItem.shortForm_unspelled :
    ∃ after protos protosAfter,
      run (Pool.Types.read unspelledStrings 255 3 12) unspelledInput {} =
        (.ok unspelledTypes, after) ∧
      run (Pool.Protos.read unspelledStrings unspelledTypes 2 24) unspelledInput {} =
        (.ok protos, protosAfter) ∧
      protos.items[1]? = some ⟨2, 2, 48, [1]⟩ ∧
      (⟨2, 2, 48, [1]⟩ : ProtoItem).shortyOfTypes unspelledTypes = .ok none ∧
      ∃ anomalies : List Anomaly,
        protosAfter.journal.diagnostics = anomalies.map Anomaly.warning ∧
        ∀ stored expected, .shorty 1 stored expected ∉ anomalies := by
  obtain ⟨-, ⟨after, hrun, -⟩, protos, protosAfter, hprotos, hitems, -⟩ := run_unspelledInput
  have hrange : ∀ type ∈ (⟨2, 2, 48, [1]⟩ : ProtoItem).mentioned, type < unspelledTypes.size := by
    decide
  have hitem : protos.items[1]? = some ⟨2, 2, 48, [1]⟩ := by
    rw [hitems]
    rfl
  have hmentioned : (⟨2, 2, 48, [1]⟩ : ProtoItem).MentionsUnspelled unspelledTypes := by
    refine ⟨1, by decide, ⟨_, rfl, rfl⟩, ?_⟩
    rintro ⟨item, hitem, harray⟩
    obtain rfl := Option.some.inj hitem
    cases harray
  obtain ⟨-, hforms, hpool⟩ := shortForm_iff hrun
  obtain ⟨spelled, hspelled, hnone, -⟩ := hforms _ hrange
  obtain ⟨anomalies, hdiagnostics, hnotes⟩ := hpool _ _ {} protosAfter 2 24 protos hprotos
  rw [hnone.mpr hmentioned] at hspelled
  exact ⟨after, protos, protosAfter, hrun, hprotos, hitem, hspelled, anomalies, hdiagnostics,
    hnotes 1 _ hitem hmentioned⟩

/-- An array is warned of as malformed, and its prototype is compared and warned of as well. -/
theorem ProtoItem.shortForm_unspelledArray :
    ∃ after protos protosAfter,
      run (Pool.Types.read unspelledStrings 255 3 12) unspelledInput {} =
        (.ok unspelledTypes, after) ∧
      Anomaly.warning (.malformedType 0 "[X") ∈ after.journal.diagnostics ∧
      unspelledTypes.IsMalformed 0 ∧
      run (Pool.Protos.read unspelledStrings unspelledTypes 2 24) unspelledInput {} =
        (.ok protos, protosAfter) ∧
      protos.items[0]? = some ⟨2, 0, 0, []⟩ ∧
      (⟨2, 0, 0, []⟩ : ProtoItem).shortyOfTypes unspelledTypes = .ok (some "L") ∧
      Anomaly.warning (.shorty 0 "V" "L") ∈ protosAfter.journal.diagnostics := by
  obtain ⟨-, ⟨after, hrun, hnotes⟩, protos, protosAfter, hprotos, hitems, hdiagnostics⟩ :=
    run_unspelledInput
  refine ⟨after, protos, protosAfter, hrun, ?_, ⟨_, rfl, rfl⟩, hprotos, ?_, rfl, ?_⟩
  · rw [hnotes]
    exact List.mem_cons_self
  · rw [hitems]
    rfl
  · rw [hdiagnostics]
    exact List.mem_cons_self

end Dalvik
