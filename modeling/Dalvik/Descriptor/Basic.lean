import Dalvik.Options

/-!
# Type descriptors

The written form of a type: a letter for a primitive type, `L` and a class name for a class, and a
bracket before the descriptor of its elements for an array. Text of any other form is kept whole,
so that reading a descriptor never fails and never loses a character.
-/

namespace Dalvik

/-- The types that are not references. -/
inductive Primitive where
  | boolean
  | byte
  | char
  | double
  | float
  | int
  | long
  | short
  | void
  deriving DecidableEq, Repr

namespace Primitive

/-- The primitive types, in the order of their letters' names. -/
def all : List Primitive :=
  [boolean, byte, char, double, float, int, long, short, void]

/-- The letter that stands for the type. -/
def code : Primitive → Char
  | boolean => 'Z'
  | byte => 'B'
  | char => 'C'
  | double => 'D'
  | float => 'F'
  | int => 'I'
  | long => 'J'
  | short => 'S'
  | void => 'V'

def ofCode? (letter : Char) : Option Primitive :=
  all.find? fun kind => kind.code == letter

/-- The keyword for the type in source text. -/
def keyword : Primitive → String
  | boolean => "boolean"
  | byte => "byte"
  | char => "char"
  | double => "double"
  | float => "float"
  | int => "int"
  | long => "long"
  | short => "short"
  | void => "void"

/-- Whether a value of the type takes two registers. -/
def isWide : Primitive → Bool
  | long | double => true
  | _ => false

@[simp]
theorem ofCode?_code (kind : Primitive) : ofCode? kind.code = some kind := by
  cases kind <;> rfl

theorem code_of_ofCode? {letter : Char} {kind : Primitive} (h : ofCode? letter = some kind) :
    kind.code = letter := by
  simpa using List.find?_some h

end Primitive

/-- A type as it is written. -/
inductive Descriptor where
  | primitive (kind : Primitive)
  /-- A class, with the whole text, the `L` and the semicolon included. -/
  | classRef (name : String)
  | array (element : Descriptor)
  /-- Text that spells no type. -/
  | unknown (raw : String)
  deriving DecidableEq, Repr

namespace Descriptor

/-- The type at the bottom of the array levels. -/
def leaf : Descriptor → Descriptor
  | array element => element.leaf
  | other => other

/-- The number of array levels. -/
def depth : Descriptor → Nat
  | array element => element.depth + 1
  | _ => 0

/-- The array of `levels` levels over an element type. -/
def nest : (levels : Nat) → Descriptor → Descriptor
  | 0, element => element
  | levels + 1, element => array (nest levels element)

/-- The characters of the written form. -/
def chars : Descriptor → List Char
  | primitive kind => [kind.code]
  | classRef name => name.toList
  | array element => '[' :: element.chars
  | unknown raw => raw.toList

/-- The written form. -/
def text (descriptor : Descriptor) : String :=
  String.ofList descriptor.chars

def isPrimitive : Descriptor → Bool
  | primitive _ => true
  | _ => false

def isArray : Descriptor → Bool
  | array _ => true
  | _ => false

def isUnknown : Descriptor → Bool
  | unknown _ => true
  | _ => false

/-- Whether the type is one that object registers hold. -/
def isReference : Descriptor → Bool
  | classRef _ | array _ => true
  | _ => false

/-- The letter for the type in the short form of a method's signature, where all references share
one letter. -/
def shorty? : Descriptor → Option Char
  | primitive kind => some kind.code
  | classRef _ | array _ => some 'L'
  | unknown _ => none

/-- Leaves out one character at the front, if it is there. -/
def dropLeading (c : Char) : List Char → List Char
  | first :: rest => if first = c then rest else first :: rest
  | [] => []

/-- Leaves out one character at the end, if it is there. -/
def dropTrailing (c : Char) (text : List Char) : List Char :=
  (dropLeading c text.reverse).reverse

/-- The name of a class without the `L` before and the semicolon after it. -/
def bareName (name : String) : String :=
  String.ofList (dropTrailing ';' (dropLeading 'L' name.toList))

/-- The bare name of a class; other types have none. -/
def internalName? : Descriptor → Option String
  | classRef name => some (bareName name)
  | _ => none

/-- The type as source text would write it. -/
def javaName : Descriptor → String
  | primitive kind => kind.keyword
  | classRef name =>
    String.ofList ((bareName name).toList.map fun c => if c = '/' then '.' else c)
  | array element => element.javaName ++ "[]"
  | unknown raw => raw

/-- Reads a text as a descriptor without array levels. -/
def ofElement (text : List Char) : Descriptor :=
  match text with
  | [letter] =>
    match Primitive.ofCode? letter with
    | some kind => primitive kind
    | none => unknown (String.ofList text)
  | 'L' :: _ :: _ => classRef (String.ofList text)
  | _ => unknown (String.ofList text)

/-- The number of brackets at the front of a text that count as array levels. A bracket needs an
element, so of a text of brackets alone the last is not a level. -/
def levels (text : List Char) : Nat :=
  let brackets := (text.takeWhile (· == '[')).length
  if brackets = text.length then brackets - 1 else brackets

/-- Reads a descriptor with at most `maxDepth` array levels, and never more than the format allows.
A text with more is kept whole. -/
def ofText (text : String) (maxDepth : Nat) : Descriptor :=
  let depth := levels text.toList
  if min maxDepth maxArrayLevels < depth then unknown text
  else nest depth (ofElement (text.toList.drop depth))

/-- Reads a descriptor with as many array levels as the format allows. -/
def ofString (text : String) : Descriptor :=
  ofText text maxArrayLevels

@[simp]
theorem leaf_nest (levels : Nat) (element : Descriptor) :
    (nest levels element).leaf = element.leaf := by
  induction levels with
  | zero => rfl
  | succ levels ih => rw [nest, leaf, ih]

@[simp]
theorem depth_nest (levels : Nat) (element : Descriptor) :
    (nest levels element).depth = element.depth + levels := by
  induction levels with
  | zero => rfl
  | succ levels ih => rw [nest, depth, ih, Nat.add_assoc]

@[simp]
theorem chars_nest (levels : Nat) (element : Descriptor) :
    (nest levels element).chars = List.replicate levels '[' ++ element.chars := by
  induction levels with
  | zero => rfl
  | succ levels ih => rw [nest, chars, ih]; rfl

/-- A type is made of its leaf and its array levels. -/
theorem nest_depth_leaf (descriptor : Descriptor) :
    nest descriptor.depth descriptor.leaf = descriptor := by
  induction descriptor with
  | primitive | classRef | unknown => rfl
  | array element ih => rw [depth, leaf, nest, ih]

/-- Reading an element type keeps its text. -/
theorem chars_ofElement (text : List Char) : (ofElement text).chars = text := by
  unfold ofElement
  split
  · next letter =>
      split
      next kind h => simp [chars, Primitive.code_of_ofCode? h]
      next => simp [chars]
  · simp [chars]
  · simp [chars]

/-- The levels of a text are brackets at its front. -/
theorem take_levels (text : List Char) :
    text.take (levels text) = List.replicate (levels text) '[' := by
  have hle : levels text ≤ (text.takeWhile (· == '[')).length := by
    unfold levels
    grind
  have hfront : (text.takeWhile (· == '[') ++ text.dropWhile (· == '[')).take (levels text) =
      (text.takeWhile (· == '[')).take (levels text) :=
    List.take_append_of_le_length hle
  rw [List.takeWhile_append_dropWhile] at hfront
  rw [hfront, List.eq_replicate_iff]
  refine ⟨by rw [List.length_take]; omega, ?_⟩
  intro c hc
  have hall := List.all_eq_true.mp (List.all_takeWhile (p := (· == '[')) (l := text))
  exact beq_iff_eq.mp (hall c (List.mem_of_mem_take hc))

/-- Reading a descriptor keeps its text, whatever the limit on its levels. -/
@[simp]
theorem text_ofText (text : String) (maxDepth : Nat) : (ofText text maxDepth).text = text := by
  simp only [ofText]
  split
  · exact String.ofList_toList
  · rw [Descriptor.text, chars_nest, chars_ofElement, ← take_levels, List.take_append_drop,
      String.ofList_toList]

end Descriptor

end Dalvik
