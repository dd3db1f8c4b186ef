import Dalvik.Descriptor.Basic

/-!
# The grammar of descriptors

A descriptor is read by counting the brackets at its front. A grammar that takes one bracket after
another says the same of every text, up to the limit on array levels. Which descriptors come back
from their own text can be told from the leaf and the number of levels.
-/

namespace Dalvik

namespace Descriptor

variable {text : List Char} {descriptor : Descriptor} {name raw : String}

/-! ## Nesting -/

/-- How deep arrays are nested in a text. A bracket counts if an element follows it. -/
def nesting : List Char → Nat
  | '[' :: c :: rest => nesting (c :: rest) + 1
  | _ => 0

theorem nesting_eq_levels (text : List Char) : nesting text = levels text := by
  induction text with
  | nil => rfl
  | cons first text ih =>
      by_cases hbracket : first = '['
      · subst hbracket
        cases text with
        | nil => rfl
        | cons c rest =>
            have hle : ((c :: rest).takeWhile (· == '[')).length ≤ (c :: rest).length :=
              (List.takeWhile_prefix _).length_le
            have hfront : ('[' :: c :: rest).takeWhile (· == '[') =
                '[' :: (c :: rest).takeWhile (· == '[') := rfl
            rw [nesting, ih]
            simp only [levels, hfront, List.length_cons] at hle ⊢
            split <;> split <;> omega
      · rw [levels, List.takeWhile_cons_of_neg (by simpa using hbracket)]
        simp [nesting, hbracket]

/-! ## The recursive grammar -/

/-- The descriptor that a text spells. After a bracket the rest of the text, if there is any, spells
the element type of an array. -/
def ofGrammar : List Char → Descriptor
  | '[' :: c :: rest => array (ofGrammar (c :: rest))
  | ['Z'] => primitive .boolean
  | ['B'] => primitive .byte
  | ['C'] => primitive .char
  | ['D'] => primitive .double
  | ['F'] => primitive .float
  | ['I'] => primitive .int
  | ['J'] => primitive .long
  | ['S'] => primitive .short
  | ['V'] => primitive .void
  | 'L' :: c :: rest => classRef (String.ofList ('L' :: c :: rest))
  | text => unknown (String.ofList text)

/-- Text that spells no type. -/
structure SpellsNothing (text : List Char) : Prop where
  ne_array : ∀ c rest, text ≠ '[' :: c :: rest
  ne_code : ∀ kind : Primitive, text ≠ [kind.code]
  ne_class : ∀ c rest, text ≠ 'L' :: c :: rest

@[simp]
theorem ofGrammar_code (kind : Primitive) : ofGrammar [kind.code] = primitive kind := by
  cases kind <;> rfl

theorem ofGrammar_bracket (h : text ≠ []) : ofGrammar ('[' :: text) = array (ofGrammar text) := by
  cases text with
  | nil => exact (h rfl).elim
  | cons c rest => rfl

theorem SpellsNothing.ofGrammar_eq (h : SpellsNothing text) :
    ofGrammar text = unknown (String.ofList text) := by
  fun_cases ofGrammar text with
  | case1 c rest => exact (h.ne_array c rest rfl).elim
  | case2 => exact (h.ne_code .boolean rfl).elim
  | case3 => exact (h.ne_code .byte rfl).elim
  | case4 => exact (h.ne_code .char rfl).elim
  | case5 => exact (h.ne_code .double rfl).elim
  | case6 => exact (h.ne_code .float rfl).elim
  | case7 => exact (h.ne_code .int rfl).elim
  | case8 => exact (h.ne_code .long rfl).elim
  | case9 => exact (h.ne_code .short rfl).elim
  | case10 => exact (h.ne_code .void rfl).elim
  | case11 c rest => exact (h.ne_class c rest rfl).elim
  | case12 => rfl

theorem depth_ofGrammar (text : List Char) : (ofGrammar text).depth = nesting text := by
  fun_induction ofGrammar text with
  | case1 c rest ih => rw [depth, nesting, ih]
  | case12 text hbracket =>
      fun_cases nesting text with
      | case1 c rest => exact (hbracket c rest rfl).elim
      | case2 => rfl
  | _ => rfl

theorem ofGrammar_eq_unknown_iff :
    ofGrammar raw.toList = unknown raw ↔ SpellsNothing raw.toList := by
  constructor
  · intro h
    constructor
    · intro c rest heq
      rw [heq] at h
      cases h
    · intro kind heq
      rw [heq, ofGrammar_code] at h
      cases h
    · intro c rest heq
      rw [heq] at h
      cases h
  · intro h
    rw [h.ofGrammar_eq, String.ofList_toList]

theorem ofGrammar_eq_classRef_iff :
    ofGrammar name.toList = classRef name ↔ ∃ c rest, name.toList = 'L' :: c :: rest := by
  constructor
  · generalize name.toList = text
    fun_cases ofGrammar text with
    | case11 c rest => exact fun _ => ⟨c, rest, rfl⟩
    | _ => nofun
  · rintro ⟨c, rest, hname⟩
    rw [hname, ofGrammar, ← hname, String.ofList_toList]

/-- Where no array is spelled, the element reader follows the grammar. -/
theorem ofGrammar_eq_ofElement (h : nesting text = 0) : ofGrammar text = ofElement text := by
  fun_cases ofElement text with
  | case1 letter kind hkind => rw [← Primitive.code_of_ofCode? hkind, ofGrammar_code]
  | case2 letter hnone =>
      refine SpellsNothing.ofGrammar_eq ⟨?_, ?_, ?_⟩
      · rintro c rest ⟨⟩
      · rintro kind heq
        rw [(List.cons.inj heq).1, Primitive.ofCode?_code] at hnone
        cases hnone
      · rintro c rest ⟨⟩
  | case3 c rest => rfl
  | case4 _ hsingle hclass =>
      refine SpellsNothing.ofGrammar_eq ⟨?_, fun kind => hsingle _, hclass⟩
      rintro c rest rfl
      cases h

theorem nest_nesting (text : List Char) :
    nest (nesting text) (ofElement (text.drop (nesting text))) = ofGrammar text := by
  fun_induction nesting text with
  | case1 c rest ih => rw [nest, List.drop_succ_cons, ih, ofGrammar]
  | case2 text hnone => exact (ofGrammar_eq_ofElement (nesting.eq_2 _ hnone)).symm

theorem ofText_eq (text : String) (limit : Nat) :
    ofText text limit =
      if nesting text.toList ≤ min limit maxArrayLevels then ofGrammar text.toList
      else unknown text := by
  rw [← nest_nesting, nesting_eq_levels]
  simp only [ofText, ← Nat.not_lt, ite_not]

/-- A text is read as what it spells, unless this has more array levels than the limit or the format
allows. Then it is kept whole, so no descriptor has more levels. -/
theorem ofText_eq_ofGrammar (text : String) (limit : Nat) :
    ofText text limit =
      (if (ofGrammar text.toList).depth ≤ min limit 255 then ofGrammar text.toList
        else unknown text) ∧
    (ofText text limit).depth ≤ min limit 255 := by
  have heq : ofText text limit = if (ofGrammar text.toList).depth ≤ min limit 255 then
      ofGrammar text.toList else unknown text := by
    rw [depth_ofGrammar]
    exact ofText_eq text limit
  refine ⟨heq, ?_⟩
  rw [heq]
  split
  next hle => exact hle
  next => exact Nat.zero_le _

example : ofText "[[" 1 = array (unknown "[") := rfl

/-! ## Descriptors that come back -/

/-- The leaf of a descriptor with `depth` array levels that comes back from its text. -/
def IsCanonicalLeaf (depth : Nat) : Descriptor → Prop
  | primitive _ => True
  | classRef name => ∃ c rest, name.toList = 'L' :: c :: rest
  | array _ => False
  | unknown raw => raw = "[" ∨
      raw.toList.head? ≠ some '[' ∧ (∀ kind : Primitive, raw.toList ≠ [kind.code]) ∧
        (∀ c rest, raw.toList ≠ 'L' :: c :: rest) ∧ (raw = "" → depth = 0)

/-- A descriptor that comes back from its text under a limit on array levels. -/
def IsCanonical (limit : Nat) (descriptor : Descriptor) : Prop :=
  descriptor.depth ≤ limit ∧ descriptor.leaf.IsCanonicalLeaf descriptor.depth ∨
    ∃ raw, descriptor = unknown raw ∧ raw.toList.head? = some '[' ∧ limit < levels raw.toList

/-- Text that spells nothing is a lone bracket or does not start with one. -/
theorem spellsNothing_iff :
    SpellsNothing raw.toList ↔ (unknown raw).IsCanonicalLeaf 0 := by
  have hlone : raw = "[" ↔ raw.toList = ['['] := by
    rw [← String.toList_inj]
    rfl
  rw [IsCanonicalLeaf, hlone]
  constructor
  · intro h
    by_cases hhead : raw.toList.head? = some '['
    · obtain ⟨rest, htext⟩ := List.head?_eq_some_iff.mp hhead
      cases rest with
      | nil => exact .inl htext
      | cons c rest => exact (h.ne_array c rest htext).elim
    · exact .inr ⟨hhead, h.ne_code, h.ne_class, fun _ => rfl⟩
  · rintro (h | ⟨hhead, hcode, hclass, -⟩)
    · rw [h]
      constructor
      · nofun
      · intro kind
        cases kind <;> decide
      · nofun
    · refine ⟨fun c rest htext => hhead ?_, hcode, hclass⟩
      rw [htext]
      rfl

/-- Below an array level a leaf needs a text. -/
theorem isCanonicalLeaf_iff_of_ne_zero {depth : Nat} (h : depth ≠ 0) :
    descriptor.IsCanonicalLeaf depth ↔
      descriptor.chars ≠ [] ∧ descriptor.IsCanonicalLeaf 0 := by
  cases descriptor with
  | primitive kind => simp [IsCanonicalLeaf, chars]
  | classRef name =>
      refine (and_iff_right_of_imp ?_).symm
      rintro ⟨c, rest, hname⟩
      rw [chars, hname]
      exact List.cons_ne_nil _ _
  | array element => simp [IsCanonicalLeaf]
  | unknown raw =>
      by_cases hraw : raw = ""
      · subst hraw
        simp [IsCanonicalLeaf, chars, h]
      · simp [IsCanonicalLeaf, chars, hraw]

theorem isCanonicalLeaf_succ :
    descriptor.leaf.IsCanonicalLeaf (descriptor.depth + 1) ↔
      descriptor.chars ≠ [] ∧ descriptor.leaf.IsCanonicalLeaf descriptor.depth := by
  have hsucc : descriptor.depth + 1 ≠ 0 := Nat.succ_ne_zero _
  rw [isCanonicalLeaf_iff_of_ne_zero hsucc]
  cases descriptor with
  | primitive | classRef | unknown => rfl
  | array element =>
      rw [leaf, depth, isCanonicalLeaf_iff_of_ne_zero (Nat.succ_ne_zero _), chars]
      exact (and_iff_right (List.cons_ne_nil _ _)).symm

/-- A text spells a descriptor whose text it is, if the leaf is canonical. -/
theorem ofGrammar_chars_eq_iff :
    ofGrammar descriptor.chars = descriptor ↔
      descriptor.leaf.IsCanonicalLeaf descriptor.depth := by
  induction descriptor with
  | primitive kind => simp [chars, leaf, IsCanonicalLeaf]
  | classRef name => exact ofGrammar_eq_classRef_iff
  | unknown raw => exact ofGrammar_eq_unknown_iff.trans spellsNothing_iff
  | array element ih =>
      rw [chars, leaf, depth, isCanonicalLeaf_succ, ← ih]
      by_cases hempty : element.chars = []
      · rw [hempty]
        refine iff_of_false ?_ fun h => h.1 rfl
        intro h
        cases h
      · rw [ofGrammar_bracket hempty, array.injEq, and_iff_right hempty]

theorem toList_text (descriptor : Descriptor) : descriptor.text.toList = descriptor.chars :=
  String.toList_ofList

theorem head?_of_nesting_pos (h : 0 < nesting text) : text.head? = some '[' := by
  fun_cases nesting text with
  | case1 => rfl
  | case2 _ hnone =>
      rw [nesting.eq_2 _ hnone] at h
      cases h

theorem ofText_text_eq_iff (limit : Nat) (descriptor : Descriptor) :
    ofText descriptor.text limit = descriptor ↔ descriptor.IsCanonical (min limit 255) := by
  rw [ofText_eq, toList_text, maxArrayLevels]
  split
  next hle =>
    rw [IsCanonical, ← ofGrammar_chars_eq_iff]
    constructor
    · intro h
      refine .inl ⟨?_, h⟩
      rwa [← h, depth_ofGrammar]
    · rintro (⟨-, h⟩ | ⟨raw, rfl, -, hlt⟩)
      · exact h
      · rw [← nesting_eq_levels] at hlt
        exact (Nat.not_lt.mpr hle hlt).elim
  next hgt =>
    -- The text is kept whole, so nothing but a text kept whole comes back.
    have hlt := Nat.lt_of_not_le hgt
    constructor
    · intro h
      refine .inr ⟨descriptor.text, h.symm, ?_, ?_⟩
      · rw [toList_text]
        exact head?_of_nesting_pos (Nat.zero_lt_of_lt hlt)
      · rwa [toList_text, ← nesting_eq_levels]
    · rintro (⟨hdepth, hleaf⟩ | ⟨raw, rfl, -⟩)
      · rw [← ofGrammar_chars_eq_iff] at hleaf
        rw [← hleaf, depth_ofGrammar] at hdepth
        exact (hgt hdepth).elim
      · rw [text, chars, String.ofList_toList]

/-- Reading keeps the text, and a descriptor comes back from its text just when it is canonical for
the limit that is in force. -/
theorem ofText_text_eq_self_iff (text : String) (limit : Nat) :
    (ofText text limit).text = text ∧
      ∀ descriptor, ofText descriptor.text limit = descriptor ↔
        descriptor.IsCanonical (min limit 255) :=
  ⟨text_ofText text limit, ofText_text_eq_iff limit⟩

/-- The canonical descriptors are all that can be read. -/
theorem exists_ofText_eq_iff (limit : Nat) :
    (∃ text, ofText text limit = descriptor) ↔ descriptor.IsCanonical (min limit 255) := by
  rw [← ofText_text_eq_iff]
  constructor
  · rintro ⟨text, rfl⟩
    rw [text_ofText]
  · exact fun h => ⟨descriptor.text, h⟩

end Descriptor

end Dalvik
