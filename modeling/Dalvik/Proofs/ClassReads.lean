import Dalvik.Proofs.ItemReads

/-!
# Reading class data and classes

The differences of class data add up to the indices they stand for, and a class ends with its words
and with what they place elsewhere.
-/

namespace Dalvik

open Decode

variable {input : Bytes} {α : Type}

/-! ## Runs of numbers -/

namespace Bytes

theorem holdsNumbers_append {pos stop : Nat} {first second : List Nat} :
    input.HoldsNumbers pos (first ++ second) stop ↔
      ∃ middle, input.HoldsNumbers pos first middle ∧ input.HoldsNumbers middle second stop := by
  induction first generalizing pos with
  | nil => simp [HoldsNumbers]
  | cons value first ih =>
      simp only [List.cons_append, HoldsNumbers, ih]
      constructor
      · rintro ⟨next, hvalue, middle, hfirst, hsecond⟩
        exact ⟨middle, ⟨next, hvalue, hfirst⟩, hsecond⟩
      · rintro ⟨middle, ⟨next, hvalue, hfirst⟩, hsecond⟩
        exact ⟨next, hvalue, middle, hfirst, hsecond⟩

theorem holdsNumbers_singleton {pos value stop : Nat} :
    input.HoldsNumbers pos [value] stop ↔ input.uleb128At? pos = some (value, stop) := by
  constructor
  · rintro ⟨next, hvalue, rfl⟩
    exact hvalue
  · intro hvalue
    exact ⟨stop, hvalue, rfl⟩

end Bytes

/-! ## Lists of members -/

namespace ClassData

/-- An index that fits 32 bits is the exact sum. -/
theorem reads_indexAfter {size : Nat} (hsize : size ≤ 2 ^ 32) (list : MemberList)
    (last difference : Nat) :
    (indexAfter list size last difference).Reads input 0 fun _ index =>
      index = last + difference ∧ last + difference < size := by
  refine (Reads.ite (fun _ => reads_fail _ 0) fun _ => Reads.ite (fun _ => reads_fail _ 0)
    fun _ => reads_pure (last + difference)).congr rfl fun pos index => ?_
  grind

/-- Members that follow one of index `last`, with the numbers they are stored as. -/
structure MembersAt (input : Bytes) (index : α → Nat) (details : α → List Nat) (good : α → Prop)
    (size last pos : Nat) (list : List α) (stop : Nat) : Prop where
  sorted : (last :: list.map index).Pairwise (· ≤ ·)
  good : ∀ member ∈ list, index member < size ∧ good member
  numbers : input.HoldsNumbers pos (memberNumbers index details last list) stop

section MembersAt

variable {index : α → Nat} {details : α → List Nat} {good : α → Prop} {size last pos stop : Nat}

theorem membersAt_nil :
    MembersAt input index details good size last pos [] stop ↔ stop = pos :=
  ⟨fun h => h.numbers, fun h => ⟨by simp, by simp, h⟩⟩

/-- The first member is stored as its difference from the last one and its details, and the others
follow it. -/
theorem membersAt_cons {member : α} {list : List α} :
    MembersAt input index details good size last pos (member :: list) stop ↔
      ∃ difference middle next, input.uleb128At? pos = some (difference, middle) ∧
        last + difference < size ∧
        (index member = last + difference ∧ good member ∧
          input.HoldsNumbers middle (details member) next) ∧
        MembersAt input index details good size (last + difference) next list stop := by
  constructor
  · rintro ⟨hsorted, hgood, hnumbers⟩
    obtain ⟨hle, hsorted⟩ := List.pairwise_cons.mp hsorted
    obtain ⟨⟨hlt, hmember⟩, hgood⟩ := List.forall_mem_cons.mp hgood
    -- No index is below the one before it, so no difference is cut off at zero.
    have hsum : last + (index member - last) = index member :=
      Nat.add_sub_cancel' (hle _ List.mem_cons_self)
    rw [memberNumbers, List.cons_append] at hnumbers
    obtain ⟨middle, hdifference, hnumbers⟩ := hnumbers
    obtain ⟨next, hdetails, hnumbers⟩ := Bytes.holdsNumbers_append.mp hnumbers
    refine ⟨_, middle, next, hdifference, by omega, ⟨hsum.symm, hmember, hdetails⟩, ?_⟩
    rw [hsum]
    exact ⟨hsorted, hgood, hnumbers⟩
  · rintro ⟨difference, middle, next, hdifference, hlt, ⟨hindex, hmember, hdetails⟩, hsorted, hgood,
      hnumbers⟩
    refine ⟨?_, ?_, ?_⟩
    · obtain ⟨hle, hrest⟩ := List.pairwise_cons.mp hsorted
      rw [List.map_cons, hindex, List.pairwise_cons]
      refine ⟨fun i hi => ?_, hsorted⟩
      rcases List.mem_cons.mp hi with rfl | hi
      · omega
      · have := hle i hi
        omega
    · rw [List.forall_mem_cons, hindex]
      exact ⟨⟨hlt, hmember⟩, hgood⟩
    · rw [memberNumbers, hindex, Nat.add_sub_cancel_left, List.cons_append]
      exact ⟨_, hdifference, Bytes.holdsNumbers_append.mpr ⟨_, hdetails, hnumbers⟩⟩

/-- The differences and details of a list give back its members. -/
theorem yields_readMembers {entry : Nat → Decode α} (hentry : ∀ i, (entry i).Yields input
      fun pos member next =>
        index member = i ∧ good member ∧ input.HoldsNumbers pos (details member) next)
    (hsize : size ≤ 2 ^ 32) (list : MemberList) (count last : Nat) (done : Array α) :
    (readMembers list size entry count last done).Yields input fun pos members next =>
      ∃ added : List α, members = done ++ added.toArray ∧ added.length = count ∧
        MembersAt input index details good size last pos added next := by
  -- On the entries left to read. The index of the last entry is carried along, as it is the sum of
  -- all differences so far.
  induction count generalizing last done with
  | zero =>
      refine (yields_pure done).congr fun pos members next => ?_
      constructor
      · rintro ⟨rfl, rfl⟩
        exact ⟨[], by simp, rfl, membersAt_nil.mpr rfl⟩
      · rintro ⟨added, rfl, hlength, hadded⟩
        obtain rfl := List.length_eq_zero_iff.mp hlength
        exact ⟨by simp, membersAt_nil.mp hadded⟩
  | succ count ih =>
      refine (Yields.bind yields_uleb128 fun difference =>
        Yields.bind (reads_indexAfter hsize list last difference) fun i =>
          Yields.bind (hentry i) fun member => ih i (done.push member)).congr
            fun pos members next => ?_
      constructor
      · rintro ⟨difference, middle, hdifference, _, _, ⟨rfl, rfl, hlt⟩, member, afterEntry,
          hmember, added, rfl, hlength, hadded⟩
        exact ⟨member :: added, by simp, by simp [hlength],
          membersAt_cons.mpr ⟨_, _, afterEntry, hdifference, hlt, hmember, hadded⟩⟩
      · rintro ⟨added, rfl, hlength, hadded⟩
        cases added with
        | nil => simp at hlength
        | cons member added =>
            obtain ⟨difference, middle, afterEntry, hdifference, hlt, hmember, hadded⟩ :=
              membersAt_cons.mp hadded
            exact ⟨difference, middle, hdifference, _, middle, ⟨rfl, rfl, hlt⟩, member, afterEntry,
              hmember, added, by simp, by simpa using hlength, hadded⟩

end MembersAt

theorem yields_readFlags :
    readFlags.Yields input fun pos flags next =>
      input.uleb128At? pos = some (flags.bits.toNat, next) := by
  refine (Yields.bind yields_uleb128 fun value =>
    yields_pure (AccessFlags.mk (UInt32.ofNat value))).congr fun pos flags next => ?_
  constructor
  · rintro ⟨value, _, hvalue, rfl, rfl⟩
    rw [hvalue, UInt32.toNat_ofNat', Nat.mod_eq_of_lt (Bytes.uleb128At?_lt hvalue)]
  · intro hflags
    exact ⟨_, next, hflags, by simp, rfl⟩

theorem yields_readField (field : Nat) :
    (readField field).Yields input fun pos member next =>
      member.field = field ∧ True ∧ input.HoldsNumbers pos member.details next := by
  refine (Yields.bind yields_readFlags fun flags =>
    yields_pure (DefinedField.mk field flags)).congr fun pos member next => ?_
  rw [DefinedField.details, Bytes.holdsNumbers_singleton]
  constructor
  · rintro ⟨flags, _, hflags, rfl, rfl⟩
    exact ⟨rfl, trivial, hflags⟩
  · rintro ⟨rfl, -, hflags⟩
    exact ⟨member.flags, next, hflags, rfl, rfl⟩

theorem yields_readMethod (list : MemberList) (method : Nat) :
    (readMethod list method).Yields input fun pos member next =>
      member.method = method ∧ member.codeOffset < input.size ∧
        input.HoldsNumbers pos member.details next := by
  refine (Yields.bind yields_readFlags fun flags => Yields.bind yields_uleb128 fun codeOffset =>
    Yields.bind reads_length fun length => Yields.ite (fun _ => yields_fail _) fun _ =>
      yields_pure (DefinedMethod.mk method flags codeOffset)).congr fun pos member next => ?_
  constructor
  · rintro ⟨flags, middle, hflags, codeOffset, after, hcode, _, _, ⟨rfl, rfl⟩, hrest⟩
    split at hrest
    next => exact hrest.elim
    next hlt =>
      obtain ⟨rfl, rfl⟩ := hrest
      exact ⟨rfl, Nat.lt_of_not_le hlt, middle, hflags, _, hcode, rfl⟩
  · rintro ⟨rfl, hlt, middle, hflags, _, hcode, rfl⟩
    refine ⟨member.flags, middle, hflags, member.codeOffset, next, hcode, input.size, next,
      ⟨rfl, rfl⟩, ?_⟩
    rw [if_neg (Nat.not_le_of_lt hlt)]
    exact ⟨rfl, rfl⟩

theorem membersAt_fields {fields pos stop : Nat} {list : List DefinedField} :
    MembersAt input DefinedField.field DefinedField.details (fun _ => True) fields 0 pos list stop ↔
      FieldsInRange fields list ∧ input.HoldsNumbers pos (fieldNumbers list) stop := by
  constructor
  · rintro ⟨hsorted, hgood, hnumbers⟩
    exact ⟨⟨(List.pairwise_cons.mp hsorted).2, fun m hm => (hgood m hm).1⟩, hnumbers⟩
  · rintro ⟨⟨hsorted, hlt⟩, hnumbers⟩
    exact ⟨List.pairwise_cons.mpr ⟨fun i _ => Nat.zero_le i, hsorted⟩,
      fun m hm => ⟨hlt m hm, trivial⟩, hnumbers⟩

theorem membersAt_methods {methods pos stop : Nat} {list : List DefinedMethod} :
    MembersAt input DefinedMethod.method DefinedMethod.details (·.codeOffset < input.size) methods 0
        pos list stop ↔
      MethodsInRange methods input.size list ∧
        input.HoldsNumbers pos (methodNumbers list) stop := by
  constructor
  · rintro ⟨hsorted, hgood, hnumbers⟩
    exact ⟨⟨(List.pairwise_cons.mp hsorted).2, fun m hm => (hgood m hm).1,
      fun m hm => (hgood m hm).2⟩, hnumbers⟩
  · rintro ⟨⟨hsorted, hlt, hcode⟩, hnumbers⟩
    exact ⟨List.pairwise_cons.mpr ⟨fun i _ => Nat.zero_le i, hsorted⟩,
      fun m hm => ⟨hlt m hm, hcode m hm⟩, hnumbers⟩

/-- A list that starts at the index zero is all that is read into an empty array. -/
theorem yields_readMembers_toList {index : α → Nat} {details : α → List Nat} {good : α → Prop}
    {entry : Nat → Decode α} (hentry : ∀ i, (entry i).Yields input fun pos member next =>
      index member = i ∧ good member ∧ input.HoldsNumbers pos (details member) next)
    {size : Nat} (hsize : size ≤ 2 ^ 32) (list : MemberList) (count : Nat) :
    Yields (do return (← readMembers list size entry count 0 #[]).toList) input
      fun pos members next => members.length = count ∧
        MembersAt input index details good size 0 pos members next := by
  refine (Yields.bind (yields_readMembers hentry hsize list count 0 #[]) fun members =>
    yields_pure members.toList).congr fun pos members next => ?_
  constructor
  · rintro ⟨_, _, ⟨added, rfl, hlength, hadded⟩, rfl, rfl⟩
    simp only [Array.empty_append]
    exact ⟨hlength, hadded⟩
  · rintro ⟨hlength, hadded⟩
    exact ⟨members.toArray, next, ⟨members, by simp, hlength, hadded⟩, rfl, rfl⟩

theorem yields_readFields {fields : Nat} (hfields : fields ≤ 2 ^ 32) (list : MemberList)
    (count : Nat) :
    (readFields list fields count).Yields input fun pos members next =>
      members.length = count ∧ FieldsInRange fields members ∧
        input.HoldsNumbers pos (fieldNumbers members) next :=
  (yields_readMembers_toList yields_readField hfields list count).congr fun _ _ _ =>
    and_congr_right' membersAt_fields

theorem yields_readMethods {methods : Nat} (hmethods : methods ≤ 2 ^ 32) (list : MemberList)
    (count : Nat) :
    (readMethods list methods count).Yields input fun pos members next =>
      members.length = count ∧ MethodsInRange methods input.size members ∧
        input.HoldsNumbers pos (methodNumbers members) next :=
  (yields_readMembers_toList (yields_readMethod list) hmethods list count).congr fun _ _ _ =>
    and_congr_right' membersAt_methods

/-- Class data is read as what it is stored as, and the cursor ends just past it. -/
theorem yields_read {fields methods : Nat} (hfields : fields ≤ 2 ^ 32)
    (hmethods : methods ≤ 2 ^ 32) :
    (read fields methods).Yields input fun pos data next =>
      data.StoredAt input fields methods pos next := by
  refine (Yields.bind yields_uleb128 fun staticCount => Yields.bind yields_uleb128
    fun instanceCount => Yields.bind yields_uleb128 fun directCount => Yields.bind yields_uleb128
    fun virtualCount => Yields.bind (yields_readFields hfields .staticFields staticCount)
    fun staticFields => Yields.bind (yields_readFields hfields .instanceFields instanceCount)
    fun instanceFields => Yields.bind (yields_readMethods hmethods .directMethods directCount)
    fun directMethods => Yields.bind (yields_readMethods hmethods .virtualMethods virtualCount)
    fun virtualMethods => yields_pure (ClassData.mk staticFields instanceFields directMethods
      virtualMethods)).congr fun pos data next => ?_
  constructor
  · rintro ⟨_, _, hstaticCount, _, _, hinstanceCount, _, _, hdirectCount, _, _, hvirtualCount,
      _, _, ⟨rfl, hstatic, hstaticNumbers⟩, _, _, ⟨rfl, hinstance, hinstanceNumbers⟩,
      _, _, ⟨rfl, hdirect, hdirectNumbers⟩, _, _, ⟨rfl, hvirtual, hvirtualNumbers⟩, rfl, rfl⟩
    refine ⟨?_, hstatic, hinstance, hdirect, hvirtual⟩
    simp only [ClassData.numbers, Bytes.holdsNumbers_append]
    exact ⟨_, ⟨_, ⟨_, ⟨_, ⟨_, hstaticCount, _, hinstanceCount, _, hdirectCount, _, hvirtualCount,
      rfl⟩, hstaticNumbers⟩, hinstanceNumbers⟩, hdirectNumbers⟩, hvirtualNumbers⟩
  · rintro ⟨hnumbers, hstatic, hinstance, hdirect, hvirtual⟩
    simp only [ClassData.numbers, Bytes.holdsNumbers_append] at hnumbers
    obtain ⟨_, ⟨_, ⟨_, ⟨_, ⟨_, hstaticCount, _, hinstanceCount, _, hdirectCount, _, hvirtualCount,
      rfl⟩, hstaticNumbers⟩, hinstanceNumbers⟩, hdirectNumbers⟩, hvirtualNumbers⟩ := hnumbers
    exact ⟨_, _, hstaticCount, _, _, hinstanceCount, _, _, hdirectCount, _, _, hvirtualCount,
      _, _, ⟨rfl, hstatic, hstaticNumbers⟩, _, _, ⟨rfl, hinstance, hinstanceNumbers⟩,
      _, _, ⟨rfl, hdirect, hdirectNumbers⟩, _, _, ⟨rfl, hvirtual, hvirtualNumbers⟩, rfl, rfl⟩

end ClassData

/-! ## Classes -/

namespace ClassItem

/-- The sizes of some pools. -/
def Pools.sizes (pools : Pools) : Sizes :=
  { strings := pools.strings.size, types := pools.types.size, fields := pools.fields.size,
    methods := pools.methods.size }

theorem reads_readData {pools : Pools} (hfields : pools.fields.size ≤ 2 ^ 32)
    (hmethods : pools.methods.size ≤ 2 ^ 32) (index offset : Nat) :
    (readData pools index offset).Reads input 0 fun _ data? =>
      ClassData.StoredOrNone input pools.fields.size pools.methods.size offset data? := by
  refine (Reads.ite (fun _ => reads_pure none) fun _ => ((Yields.atOffset
    (ClassData.yields_read hfields hmethods) offset).within (.membersOf index)).bind
      fun data => reads_pure (some data)).congr rfl fun pos data? => ?_
  unfold ClassData.StoredOrNone
  split
  · rfl
  · constructor
    · rintro ⟨data, ⟨-, stop, hdata⟩, rfl⟩
      exact ⟨data, stop, rfl, hdata⟩
    · rintro ⟨data, stop, rfl, hdata⟩
      -- The first number is within the input, so the cursor can be put there.
      obtain ⟨next, hfirst, -⟩ := hdata.numbers
      have := Bytes.uleb128At?_next hfirst
      exact ⟨data, ⟨by omega, stop, hdata⟩, rfl⟩

theorem Stored.reads_read :
    Stored.read.Reads input 32 fun pos stored =>
      input.u32At? pos = some stored.type ∧ input.u32At? (pos + 4) = some stored.flags.toNat ∧
        input.u32At? (pos + 8) = some stored.superclass ∧
        input.u32At? (pos + 12) = some stored.interfacesOffset ∧
        input.u32At? (pos + 16) = some stored.sourceFile ∧
        input.u32At? (pos + 20) = some stored.annotationsOffset ∧
        input.u32At? (pos + 24) = some stored.dataOffset ∧
        input.u32At? (pos + 28) = some stored.staticValuesOffset := by
  refine (reads_u32.bind fun type => reads_word.bind fun flags => reads_u32.bind fun superclass =>
    reads_u32.bind fun interfaces => reads_u32.bind fun source => reads_u32.bind fun annotations =>
    reads_u32.bind fun data => reads_u32.bind fun staticValues => reads_pure (Stored.mk type flags
      superclass interfaces source annotations data staticValues)).congr rfl fun pos stored => ?_
  constructor
  · rintro ⟨_, htype, _, hflags, _, hsuper, _, hinterfaces, _, hsource, _, hannotations, _, hdata,
      _, hvalues, rfl⟩
    exact ⟨htype, hflags, hsuper, hinterfaces, hsource, hannotations, hdata, hvalues⟩
  · rintro ⟨htype, hflags, hsuper, hinterfaces, hsource, hannotations, hdata, hvalues⟩
    exact ⟨_, htype, _, hflags, _, hsuper, _, hinterfaces, _, hsource, _, hannotations, _, hdata,
      _, hvalues, rfl⟩

/-- What a stored item becomes: its references are checked, its offsets followed. -/
structure OfStored (input : Bytes) (sizes : Sizes) (stored : Stored) (item : ClassItem) : Prop where
  type : stored.type = item.type
  type_lt : stored.type < sizes.types
  flags : stored.flags = item.flags.bits
  superclass : reference? stored.superclass = item.superclass
  superclass_lt : ∀ type ∈ item.superclass, type < sizes.types
  interfaces : input.HoldsTypesOrNone sizes.types stored.interfacesOffset item.interfaces
  sourceFile : reference? stored.sourceFile = item.sourceFile
  sourceFile_lt : ∀ string ∈ item.sourceFile, string < sizes.strings
  annotationsOffset : stored.annotationsOffset = item.annotationsOffset
  data : ClassData.StoredOrNone input sizes.fields sizes.methods stored.dataOffset item.data
  staticValuesOffset : stored.staticValuesOffset = item.staticValuesOffset

theorem reads_ofStored {pools : Pools} (hfields : pools.fields.size ≤ 2 ^ 32)
    (hmethods : pools.methods.size ≤ 2 ^ 32) (index : Nat) (stored : Stored) :
    (ofStored pools index stored).Reads input 0 fun _ item =>
      OfStored input pools.sizes stored item := by
  refine ((reads_checkReference _ _ _ _).bind fun _ => (reads_optionalReference _ _ _ _).bind
    fun superclass => (reads_optionalReference _ _ _ _).bind fun sourceFile =>
    (reads_typeListAt pools.types.size stored.interfacesOffset _).bind fun interfaces =>
    (reads_readData hfields hmethods index stored.dataOffset).bind fun data =>
      reads_pure (ClassItem.mk stored.type ⟨stored.flags⟩ superclass interfaces sourceFile
        stored.annotationsOffset data stored.staticValuesOffset)).congr rfl fun pos item => ?_
  constructor
  · rintro ⟨_, htype, superclass, ⟨hsuper, hsuperLt⟩, sourceFile, ⟨hsource, hsourceLt⟩, interfaces,
      hinterfaces, data, hdata, rfl⟩
    exact ⟨rfl, htype, rfl, hsuper, hsuperLt, hinterfaces, hsource, hsourceLt, rfl, hdata, rfl⟩
  · rintro ⟨htype, htypeLt, hflags, hsuper, hsuperLt, hinterfaces, hsource, hsourceLt,
      hannotations, hdata, hvalues⟩
    refine ⟨(), htypeLt, item.superclass, ⟨hsuper, hsuperLt⟩, item.sourceFile,
      ⟨hsource, hsourceLt⟩, item.interfaces, hinterfaces, item.data, hdata, ?_⟩
    rw [htype, hflags, hannotations, hvalues]

theorem reads_readAt {pools : Pools} (hfields : pools.fields.size ≤ 2 ^ 32)
    (hmethods : pools.methods.size ≤ 2 ^ 32) (index : Nat) :
    (readAt pools index).Reads input Table.classes.itemSize fun pos item =>
      item.StoredAt input pools.sizes pos := by
  refine (Stored.reads_read.bind fun stored => (reads_ofStored hfields hmethods index stored).bind
    fun item => reads_length.bind fun length =>
      (reads_forM_warn id (item.anomalies index length)).bind fun _ =>
        reads_pure item).congr rfl fun pos item => ?_
  constructor
  · rintro ⟨stored, ⟨htype, hflags, hsuper, hinterfaces, hsource, hannotations, hdata, hvalues⟩, _,
      hitem, _, -, _, -, rfl⟩
    refine ⟨?_, ?_, ?_, ?_, hitem.superclass_lt, ⟨_, hinterfaces, hitem.interfaces⟩, ?_,
      hitem.sourceFile_lt, ?_, ⟨_, hdata, hitem.data⟩, ?_⟩
    · rw [htype, hitem.type]
    · exact hitem.type ▸ hitem.type_lt
    · rw [hflags, hitem.flags]
    · rw [hsuper, Option.map_some, hitem.superclass]
    · rw [hsource, Option.map_some, hitem.sourceFile]
    · rw [hannotations, hitem.annotationsOffset]
    · rw [hvalues, hitem.staticValuesOffset]
  · rintro ⟨htype, htypeLt, hflags, hsuper, hsuperLt, ⟨interfacesOffset, hinterfaces, hlist⟩,
      hsource, hsourceLt, hannotations, ⟨dataOffset, hdata, hclassData⟩, hvalues⟩
    obtain ⟨superclass, hsuperWord, hsuperEq⟩ := Option.map_eq_some_iff.mp hsuper
    obtain ⟨source, hsourceWord, hsourceEq⟩ := Option.map_eq_some_iff.mp hsource
    exact ⟨⟨item.type, item.flags.bits, superclass, interfacesOffset, source,
      item.annotationsOffset, dataOffset, item.staticValuesOffset⟩,
      ⟨htype, hflags, hsuperWord, hinterfaces, hsourceWord, hannotations, hdata, hvalues⟩, item,
      ⟨rfl, htypeLt, rfl, hsuperEq, hsuperLt, hlist, hsourceEq, hsourceLt, rfl, hclassData, rfl⟩,
      _, rfl, (), trivial, rfl⟩

end ClassItem

end Dalvik
