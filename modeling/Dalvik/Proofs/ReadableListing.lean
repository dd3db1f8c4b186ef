import Dalvik.Proofs.RoundTrip
import Dalvik.Proofs.WrittenTexts

/-!
# The readable form

The readable form of a file has one line for each string and each type, and a heading before the
strings and before the types. An escaped text has no line break in it, so that no text can imitate
the line of another entry, and the texts are read back from the lines as they are.
-/

namespace Dalvik

open Text

namespace Listing

/-! ## Lines -/

/-- The lines of a form, each without the line break that ends it. What no line break ends is no
line. -/
def lines (form : String) : List String :=
  (form.toList.splitOn '\n').dropLast.map String.ofList

/-- The form that has some lines. -/
def ofLines (texts : List String) : String :=
  String.join (texts.map (· ++ "\n"))

theorem splitOn_ofLines {texts : List String} (h : ∀ text ∈ texts, '\n' ∉ text.toList) :
    (ofLines texts).toList.splitOn '\n' = texts.map String.toList ++ [[]] := by
  induction texts with
  | nil => rfl
  | cons text texts ih =>
      obtain ⟨htext, htexts⟩ := List.forall_mem_cons.mp h
      have hform : (ofLines (text :: texts)).toList =
          text.toList ++ '\n' :: (ofLines texts).toList := by
        simp [ofLines, String.toList_join]
      rw [hform, splitOn_append_cons htext, ih htexts]
      rfl

/-- Lines are found again where they end. -/
theorem lines_ofLines {texts : List String} (h : ∀ text ∈ texts, '\n' ∉ text.toList) :
    lines (ofLines texts) = texts := by
  rw [lines, splitOn_ofLines h, List.dropLast_concat, List.map_map]
  simp

/-! ## Entries -/

/-- The line before the entries of one kind. -/
def heading (title : String) : String :=
  s!"=========== DEX {title}s ==========="

/-- The line of an entry. -/
def entry (title : String) (index : Nat) (text : String) : String :=
  s!"{title} ({index}): {hex index}-> \"{escaped text}\""

/-- The entries of some texts, each under its position. -/
def entries (title : String) (texts : List String) : List String :=
  texts.zipIdx.map fun (text, index) => entry title index text

theorem line_eq_entry (title : String) (index : Nat) (text : String) :
    line title index text = entry title index text ++ "\n" := by
  have hend : "\"\n" = "\"" ++ "\n" := rfl
  exact (congrArg _ hend).trans String.append_assoc.symm

/-- Both kinds of entries make a form of whole lines. -/
theorem readable_eq_ofLines (title : String) (texts : List String) :
    readable title texts = ofLines (heading title :: entries title texts) := by
  have hheading : s!"=========== DEX {title}s ===========\n" = heading title ++ "\n" := by
    have hend : "s ===========\n" = "s ===========" ++ "\n" := rfl
    exact (congrArg _ hend).trans String.append_assoc.symm
  have hlines : (texts.zipIdx.map fun (text, index) => line title index text) =
      (entries title texts).map (· ++ "\n") := by
    rw [entries, List.map_map]
    exact List.map_congr_left fun _ _ => line_eq_entry _ _ _
  rw [ofLines, List.map_cons, String.join_cons]
  exact congrArg₂ (· ++ ·) hheading (congrArg String.join hlines)

theorem ofLines_append (first second : List String) :
    ofLines (first ++ second) = ofLines first ++ ofLines second := by
  rw [ofLines, List.map_append, String.join_append]
  rfl

/-- An entry up to the quote before its text. -/
def label (title : String) (index : Nat) : List Char :=
  title.toList ++ (" (".toList ++ (Nat.toDigits 10 index ++ ("): ".toList ++
    (Nat.toDigits 16 index ++ "-> ".toList))))

theorem toList_entry (title : String) (index : Nat) (text : String) :
    (entry title index text).toList =
      label title index ++ '"' :: ((escaped text).toList ++ ['"']) := by
  simp [entry, label, toString, hex, Nat.toList_repr]

/-- Nothing but the title, digits and a few marks stands before the quote. -/
theorem not_mem_label {title : String} {c : Char} (htitle : c ∉ title.toList)
    (hmarks : c ∉ " (): ->".toList) (hdigit : ∀ digit < 16, Nat.digitChar digit ≠ c) (index : Nat) :
    c ∉ label title index := by
  have hdecimal : c ∉ Nat.toDigits 10 index :=
    not_mem_toDigits (by decide) (fun digit hlt => hdigit digit (by omega)) index
  have hhex : c ∉ Nat.toDigits 16 index := not_mem_toDigits (by decide) hdigit index
  simp at hmarks
  simp [label, htitle, hdecimal, hhex, hmarks]

/-- An entry has no line break in it, whatever its text is. -/
theorem newline_not_mem_entry {title : String} (htitle : '\n' ∉ title.toList) (index : Nat)
    (text : String) : '\n' ∉ (entry title index text).toList := by
  have hlabel := not_mem_label htitle (by decide) (by decide) index
  have htext := newline_not_mem_escaped text
  simp [toList_entry, hlabel, htext]

/-! ## Reading texts back -/

/-- The text between the first quote of a line and its last character. -/
def quoted (line : String) : String :=
  String.ofList (unescape .outside ((line.toList.dropWhile (· ≠ '"')).tail.dropLast))

/-- Whether a line after the first is not the heading of the types. -/
def isEntry (line : String) : Bool :=
  line != heading "Type"

/-- The texts of the strings and those of the types in a readable form: those of the lines after the
first heading and after the second. -/
def ofReadable (form : String) : List String × List String :=
  let found := (lines form).tail
  ((found.takeWhile isEntry).map quoted, (found.dropWhile isEntry).tail.map quoted)

theorem quoted_entry {title : String} (htitle : '"' ∉ title.toList) (index : Nat) (text : String) :
    quoted (entry title index text) = text := by
  have hlabel := not_mem_label htitle (by decide) (by decide) index
  have hfront : ∀ c ∈ label title index, decide (c ≠ '"') = true := fun c hc =>
    decide_eq_true fun heq => hlabel (heq ▸ hc)
  rw [quoted, toList_entry, List.dropWhile_append_of_pos hfront,
    List.dropWhile_cons_of_neg (by simp), List.tail_cons, List.dropLast_concat, unescape_escaped,
    String.ofList_toList]

theorem map_quoted_entries {title : String} (htitle : '"' ∉ title.toList) (texts : List String) :
    (entries title texts).map quoted = texts := by
  have htexts : ∀ entry ∈ texts.zipIdx, quoted (Listing.entry title entry.2 entry.1) = entry.1 :=
    fun _ _ => quoted_entry htitle _ _
  rw [entries, List.map_map]
  exact (List.map_congr_left htexts).trans (List.zipIdx_map_fst 0 texts)

/-- No entry of a string imitates the heading of the types: it begins with its title. -/
theorem isEntry_entry (index : Nat) (text : String) : isEntry (entry "String" index text) := by
  have hentry : (entry "String" index text).toList.head? = some 'S' := by
    rw [toList_entry]
    rfl
  have hheading : (heading "Type").toList.head? = some '=' := by decide
  refine bne_iff_ne.mpr fun heq => ?_
  rw [heq, hheading] at hentry
  exact absurd hentry (by decide)

/-- The lines of a file: a heading and the strings, a heading and the types. -/
def linesOf (strings types : List String) : List String :=
  (heading "String" :: entries "String" strings) ++ heading "Type" :: entries "Type" types

theorem newline_not_mem_linesOf (strings types : List String) :
    ∀ line ∈ linesOf strings types, '\n' ∉ line.toList := by
  have hentries : ∀ {title : String}, '\n' ∉ title.toList → ∀ texts,
      ∀ line ∈ entries title texts, '\n' ∉ line.toList := by
    intro title htitle texts line hline
    obtain ⟨⟨text, index⟩, -, rfl⟩ := List.mem_map.mp hline
    exact newline_not_mem_entry htitle index text
  rw [linesOf, List.forall_mem_append, List.forall_mem_cons, List.forall_mem_cons]
  exact ⟨⟨by decide, hentries (by decide) strings⟩, by decide, hentries (by decide) types⟩

@[simp]
theorem length_entries (title : String) (texts : List String) :
    (entries title texts).length = texts.length := by
  simp [entries]

/-- An entry stands at the position of its text. -/
theorem getElem?_entries (title : String) {texts : List String} {index : Nat}
    (h : index < texts.length) :
    (entries title texts)[index]? = some (entry title index texts[index]) := by
  simp [entries, h]

theorem getElem?_linesOf_string {strings types : List String} {index : Nat}
    (h : index < strings.length) :
    (linesOf strings types)[index + 1]? = some (entry "String" index strings[index]) := by
  rw [linesOf, List.cons_append, List.getElem?_cons_succ,
    List.getElem?_append_left (by rwa [length_entries]), getElem?_entries _ h]

theorem getElem?_linesOf_type {strings types : List String} {index : Nat}
    (h : index < types.length) :
    (linesOf strings types)[strings.length + index + 2]? =
      some (entry "Type" index types[index]) := by
  have hfirst : (heading "String" :: entries "String" strings).length = strings.length + 1 := by
    rw [List.length_cons, length_entries]
  rw [linesOf, List.getElem?_append_right (by omega), hfirst,
    (by omega : strings.length + index + 2 - (strings.length + 1) = index + 1),
    List.getElem?_cons_succ, getElem?_entries _ h]

theorem ofReadable_ofLines (strings types : List String) :
    ofReadable (ofLines (linesOf strings types)) = (strings, types) := by
  have hbefore : ∀ line ∈ entries "String" strings, isEntry line := fun line hline => by
    obtain ⟨⟨text, index⟩, -, rfl⟩ := List.mem_map.mp hline
    exact isEntry_entry index text
  have hend : ¬isEntry (heading "Type") := by simp [isEntry]
  rw [ofReadable, lines_ofLines (newline_not_mem_linesOf strings types), linesOf, List.cons_append,
    List.tail_cons]
  refine Prod.ext ?first ?second
  case first =>
    rw [List.takeWhile_append_of_pos hbefore, List.takeWhile_cons_of_neg hend, List.append_nil,
      map_quoted_entries (by decide)]
  case second =>
    rw [List.dropWhile_append_of_pos hbefore, List.dropWhile_cons_of_neg hend, List.tail_cons,
      map_quoted_entries (by decide)]

end Listing

namespace Image

open Listing

theorem listing_eq_ofLines (image : Image) :
    image.listing = ofLines (linesOf image.strings.texts image.types.texts) := by
  rw [listing, Pool.Strings.listing, Pool.Types.listing, readable_eq_ofLines, readable_eq_ofLines,
    ← ofLines_append]
  rfl

/-- The readable form of a file that has been read has a line for each string and each type, under
its index, and the two headings. The texts are read back from it, and two files that are written
alike have the same texts. -/
theorem listing_determines_texts {input : Bytes} {options : Options} {image : Image}
    (h : Image.read input options = .ok image) (other : Image) :
    let lines := Listing.lines image.listing
    (lines.length = image.strings.size + image.types.size + 2 ∧
      image.listing = String.join (lines.map (· ++ "\n")) ∧ ∀ line ∈ lines, '\n' ∉ line.toList) ∧
    (∀ index (_ : index < image.strings.items.size),
      let text := image.strings.items[index].text
      lines[index + 1]? = some s!"String ({index}): {hex index}-> \"{escaped text}\"") ∧
    (∀ index (_ : index < image.types.items.size),
      let item := image.types.items[index]
      item.index = index ∧ lines[image.strings.size + index + 2]? =
        some s!"Type ({index}): {hex item.index}-> \"{escaped item.descriptor.text}\"") ∧
    ofReadable image.listing = (image.strings.texts, image.types.texts) ∧
    (image.listing = other.listing ↔
      image.strings.texts = other.strings.texts ∧ image.types.texts = other.types.texts) := by
  intro lines
  have hstored := image.read_eq_ok_iff.mp ⟨image.journal, h⟩
  have hlines : lines = linesOf image.strings.texts image.types.texts := by
    rw [← lines_ofLines (newline_not_mem_linesOf _ _), ← listing_eq_ofLines]
  have htexts : ofReadable image.listing = (image.strings.texts, image.types.texts) := by
    rw [listing_eq_ofLines, ofReadable_ofLines]
  have hstrings : image.strings.texts.length = image.strings.size := by
    simp [Pool.Strings.texts, Pool.Strings.size]
  have htypes : image.types.texts.length = image.types.size := by
    simp [Pool.Types.texts, Pool.Types.size]
  refine ⟨⟨?_, ?_, ?_⟩, ?stringLines, ?typeLines, htexts, ?_, ?_⟩
  · rw [hlines, linesOf]
    simp [hstrings, htypes]
    omega
  · rw [hlines]
    exact image.listing_eq_ofLines
  · rw [hlines]
    exact newline_not_mem_linesOf _ _
  case stringLines =>
    intro index hindex
    have hline : (linesOf image.strings.texts image.types.texts)[index + 1]? = _ :=
      getElem?_linesOf_string (hindex.trans_eq hstrings.symm)
    rw [hlines, hline]
    simp only [Pool.Strings.texts, List.getElem_map, Array.getElem_toList]
    rfl
  case typeLines =>
    intro index hindex item
    have hindexed : item.index = index := (hstored.types.holds.item index hindex).index_eq
    have hline : (linesOf image.strings.texts image.types.texts)[_]? = _ :=
      getElem?_linesOf_type (hindex.trans_eq htypes.symm)
    refine ⟨hindexed, ?_⟩
    rw [hlines, hindexed, ← hstrings, hline]
    simp only [Pool.Types.texts, List.getElem_map, Array.getElem_toList]
    rfl
  · intro hform
    have hother := other.listing_eq_ofLines
    rw [hform, hother, ofReadable_ofLines] at htexts
    exact ⟨(congrArg Prod.fst htexts).symm, (congrArg Prod.snd htexts).symm⟩
  · rintro ⟨hstrings, htypes⟩
    rw [listing_eq_ofLines, listing_eq_ofLines, hstrings, htypes]

end Image

namespace Contents

/-- Texts that would end their line, imitate an escape, an entry or a heading, or combine with the
quote before them. -/
def hostile : Contents where
  strings := ["\"\n", "\u0301\u0301", "\\u\x7b301\x7d\u0301", "Type (0): 0-> \"I\""]
  types := [1, 0]

theorem storedIn_hostile : (hostile.image {}).StoredIn hostile.encode {} := by
  have hsize : hostile.size = 176 := by decide +kernel
  refine storedIn_image ?_ ?_ ?_
  · rw [hsize]
    decide
  · rw [hsize]
    constructor <;> decide
  · rw [hsize]
    decide

theorem listing_determines_texts_hostile :
    ∃ image, Image.read hostile.encode {} = .ok image ∧
      (Listing.lines image.listing).length = 8 ∧
      (Listing.lines image.listing)[2]? = some "String (1): 1-> \"\\u\x7b301\x7d\u0301\"" ∧
      (Listing.lines image.listing)[3]? = some "String (2): 2-> \"\\\\u\x7b301\x7d\u0301\"" ∧
      Listing.ofReadable image.listing = (hostile.strings, ["\u0301\u0301", "\"\n"]) := by
  obtain ⟨journal, hread⟩ := (Image.read_eq_ok_iff _).mpr storedIn_hostile
  obtain ⟨⟨hlength, -, -⟩, hstrings, -, htexts, -⟩ :=
    Image.listing_determines_texts hread (hostile.image {})
  have hsizes : (hostile.image {}).strings.size + (hostile.image {}).types.size + 2 = 8 := by
    decide +kernel
  have hmark : ∃ h : 1 < (hostile.image {}).strings.items.size,
      Listing.entry "String" 1 (hostile.image {}).strings.items[1].text =
        "String (1): 1-> \"\\u\x7b301\x7d\u0301\"" := by
    decide +kernel
  have hescape : ∃ h : 2 < (hostile.image {}).strings.items.size,
      Listing.entry "String" 2 (hostile.image {}).strings.items[2].text =
        "String (2): 2-> \"\\\\u\x7b301\x7d\u0301\"" := by
    decide +kernel
  have hboth : ((hostile.image {}).strings.texts, (hostile.image {}).types.texts) =
      (hostile.strings, ["\u0301\u0301", "\"\n"]) := by
    decide +kernel
  obtain ⟨hone, hmark⟩ := hmark
  obtain ⟨htwo, hescape⟩ := hescape
  exact ⟨_, hread, hlength.trans hsizes, (hstrings 1 hone).trans (congrArg some hmark),
    (hstrings 2 htwo).trans (congrArg some hescape), htexts.trans hboth⟩

end Contents

end Dalvik
