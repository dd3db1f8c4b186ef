import Dalvik.Image
import Dalvik.Proofs.WrittenTexts

/-!
# The markup form

Whatever characters the texts of a file have, the markup form tells the texts: they are read back
from it as they are. An angle bracket that opens a tag stands nowhere in a written text, so what
stands between two of them is a tag of the form itself and the text after it.
-/

namespace Dalvik

open Text

namespace Listing

/-! ## Reading texts back -/

/-- The text in a piece of a markup form, if the piece begins with the tag of a value. -/
def value? : List Char → Option String
  | 'v' :: 'a' :: 'l' :: 'u' :: 'e' :: '>' :: text => some (String.ofList (unmarkup text))
  | _ => none

/-- Whether a piece of a markup form does not begin with the tag that ends the strings. -/
def isWithin (piece : List Char) : Bool :=
  !"/strings>".toList.isPrefixOf piece

/-- The texts of the strings and those of the types in a markup form, which is taken apart where
tags open. -/
def ofMarkup (form : String) : List String × List String :=
  let pieces := form.toList.splitOn '<'
  ((pieces.takeWhile isWithin).filterMap value?,
    (pieces.dropWhile isWithin).filterMap value?)

theorem value?_eq_none {piece : List Char} (h : piece.head? ≠ some 'v') : value? piece = none := by
  unfold value?
  split
  next => exact absurd rfl h
  next => rfl

/-! ## The pieces of a markup form -/

/-- The pieces of some elements, where `front` stands before the first. The white space before an
element belongs to the piece before it. -/
def pieces (tag front : List Char) : List (String × Nat) → List (List Char)
  | [] => [front]
  | (text, index) :: entries =>
    (front ++ ['\t']) :: (tag ++ ['>', '\n', '\t', '\t']) ::
      (['i', 'd', '>'] ++ (hex index).toList) :: ['/', 'i', 'd', '>', '\n', '\t', '\t'] ::
      (['v', 'a', 'l', 'u', 'e', '>'] ++ (markup text).toList) ::
      ['/', 'v', 'a', 'l', 'u', 'e', '>', '\n', '\t'] ::
      pieces tag ('/' :: tag ++ ['>', '\n']) entries

/-- The elements of some texts, one after another. -/
def elements (tag : String) (entries : List (String × Nat)) : List Char :=
  (String.join (entries.map fun (text, index) => element tag index text)).toList

/-- The tags of an element open between its pieces. -/
theorem append_elements_cons (tag text : String) (index : Nat) (entries : List (String × Nat))
    (front rest : List Char) :
    front ++ (elements tag ((text, index) :: entries) ++ rest) =
      (front ++ ['\t']) ++ '<' :: ((tag.toList ++ ['>', '\n', '\t', '\t']) ++
        '<' :: ((['i', 'd', '>'] ++ (hex index).toList) ++
        '<' :: (['/', 'i', 'd', '>', '\n', '\t', '\t'] ++
        '<' :: ((['v', 'a', 'l', 'u', 'e', '>'] ++ (markup text).toList) ++
        '<' :: (['/', 'v', 'a', 'l', 'u', 'e', '>', '\n', '\t'] ++
        '<' :: (('/' :: tag.toList ++ ['>', '\n']) ++ (elements tag entries ++ rest))))))) := by
  simp [elements, element, toString, String.toList_join]

theorem splitOn_elements {tag : String} (htag : '<' ∉ tag.toList) {front : List Char}
    (hfront : '<' ∉ front) (entries : List (String × Nat)) (rest : List Char) :
    (front ++ (elements tag entries ++ '<' :: rest)).splitOn '<' =
      pieces tag.toList front entries ++ rest.splitOn '<' := by
  induction entries generalizing front with
  | nil => exact splitOn_append_cons hfront rest
  | cons entry entries ih =>
      obtain ⟨text, index⟩ := entry
      have hindex : '<' ∉ (hex index).toList := by
        rw [hex, String.toList_ofList]
        exact not_mem_toDigits (by decide) (by decide) index
      have htext := openBracket_not_mem_markup text
      rw [append_elements_cons, splitOn_append_cons (by simp [hfront]),
        splitOn_append_cons (by simp [htag]), splitOn_append_cons (by simp [hindex]),
        splitOn_append_cons (by simp), splitOn_append_cons (by simp [htext]),
        splitOn_append_cons (by simp), ih (by simp [htag])]
      rfl

/-- The values among the pieces are the texts. -/
theorem filterMap_pieces {tag front : List Char} (htag : tag.head? ≠ some 'v')
    (hfront : front.head? ≠ some 'v') (entries : List (String × Nat)) :
    (pieces tag front entries).filterMap value? = entries.map Prod.fst := by
  induction entries generalizing front with
  | nil => simp [pieces, value?_eq_none hfront]
  | cons entry entries ih =>
      obtain ⟨text, index⟩ := entry
      have hbefore : value? (front ++ ['\t']) = none :=
        value?_eq_none (by cases front <;> simp_all)
      have hopening : value? (tag ++ ['>', '\n', '\t', '\t']) = none :=
        value?_eq_none (by cases tag <;> simp_all)
      have hvalue :
          value? (['v', 'a', 'l', 'u', 'e', '>'] ++ (markup text).toList) = some text := by
        change some (String.ofList (unmarkup (markup text).toList)) = some text
        rw [unmarkup_markup, String.ofList_toList]
      have hclosing : ('/' :: tag ++ ['>', '\n']).head? ≠ some 'v' := by simp
      have hrest := ih hclosing
      rw [pieces]
      simp only [List.filterMap_cons, hbefore, hopening, hvalue, hrest]
      rfl

/-- The strings do not end before their last element. -/
theorem isWithin_of_mem_pieces {front : List Char} (hfront : isWithin front)
    (hbefore : isWithin (front ++ ['\t'])) (entries : List (String × Nat)) :
    ∀ piece ∈ pieces "string".toList front entries, isWithin piece := by
  induction entries generalizing front with
  | nil => simpa [pieces] using hfront
  | cons entry entries ih =>
      obtain ⟨text, index⟩ := entry
      have hclosing : isWithin ['/', 's', 't', 'r', 'i', 'n', 'g', '>', '\n'] := by decide
      have hrest := ih hclosing (by decide)
      rw [pieces]
      simp only [List.forall_mem_cons]
      exact ⟨hbefore, by decide, rfl, by decide, rfl, by decide, hrest⟩

end Listing

namespace Image

open Listing

/-- The markup form of a file between the places where tags open. -/
theorem splitOn_markup (image : Image) :
    image.markup.toList.splitOn '<' =
      ([] :: "dex>\n".toList ::
        pieces "string".toList "strings>\n".toList image.strings.texts.zipIdx) ++
        "/strings>\n".toList :: (pieces "type".toList "types>\n".toList image.types.texts.zipIdx ++
          ["/types>\n".toList, "/dex>\n".toList]) := by
  have hform : image.markup.toList = [] ++ '<' :: ("dex>\n".toList ++ '<' :: ("strings>\n".toList ++
      (elements "string" image.strings.texts.zipIdx ++ '<' :: ("/strings>\n".toList ++
        '<' :: ("types>\n".toList ++ (elements "type" image.types.texts.zipIdx ++
          '<' :: ("/types>\n".toList ++ '<' :: "/dex>\n".toList))))))) := by
    simp [Image.markup, Pool.Strings.markup, Pool.Types.markup, tagged, elements, toString]
  rw [hform, splitOn_append_cons (by decide), splitOn_append_cons (by decide),
    splitOn_elements (by decide) (by decide), splitOn_append_cons (by decide),
    splitOn_elements (by decide) (by decide), splitOn_append_cons (by decide)]
  rfl

/-- The texts are read back from the markup form. -/
theorem ofMarkup_markup (image : Image) :
    ofMarkup image.markup = (image.strings.texts, image.types.texts) := by
  have hbefore : ∀ piece ∈ [] :: "dex>\n".toList ::
      pieces "string".toList "strings>\n".toList image.strings.texts.zipIdx,
      isWithin piece := by
    simp only [List.forall_mem_cons]
    exact ⟨rfl, by decide, isWithin_of_mem_pieces (by decide) (by decide) _⟩
  have hend : ¬isWithin "/strings>\n".toList := by decide
  rw [ofMarkup, splitOn_markup]
  refine Prod.ext ?strings ?types
  case strings =>
    rw [List.takeWhile_append_of_pos hbefore, List.takeWhile_cons_of_neg hend, List.append_nil,
      List.filterMap_cons_none rfl, List.filterMap_cons_none (value?_eq_none (by decide)),
      filterMap_pieces (by decide) (by decide), List.zipIdx_map_fst]
  case types =>
    rw [List.dropWhile_append_of_pos hbefore, List.dropWhile_cons_of_neg hend,
      List.filterMap_cons_none (value?_eq_none (by decide)), List.filterMap_append,
      filterMap_pieces (by decide) (by decide), List.zipIdx_map_fst,
      List.filterMap_cons_none (value?_eq_none (by decide)),
      List.filterMap_cons_none (value?_eq_none (by decide)), List.filterMap_nil, List.append_nil]

/-- The markup form tells the texts of the strings and of the types, whatever characters are in
them: they are read back from it, and two files that are written alike have the same texts. -/
theorem markup_determines_texts (image other : Image) :
    ofMarkup image.markup = (image.strings.texts, image.types.texts) ∧
    (image.markup = other.markup ↔
      image.strings.texts = other.strings.texts ∧ image.types.texts = other.types.texts) := by
  refine ⟨image.ofMarkup_markup, ?_, ?_⟩
  · intro hform
    have htexts := image.ofMarkup_markup
    rw [hform, other.ofMarkup_markup] at htexts
    exact ⟨(congrArg Prod.fst htexts).symm, (congrArg Prod.snd htexts).symm⟩
  · rintro ⟨hstrings, htypes⟩
    rw [Image.markup, Image.markup, Pool.Strings.markup, Pool.Strings.markup, Pool.Types.markup,
      Pool.Types.markup, hstrings, htypes]

end Image

end Dalvik
