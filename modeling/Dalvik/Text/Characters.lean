/-!
# Text as bytes

An encoding is given by a reader of one character at the front of a byte string. A text is read by
running the reader until nothing is left.
-/

namespace Dalvik.Text

/-- Reads the character at the front, and returns the bytes after it. -/
abbrev CharReader := List UInt8 → Option (Char × List UInt8)

/-- The characters of a byte string that has at most `fuel` of them. -/
def readCharsUpTo (next? : CharReader) : (fuel : Nat) → List UInt8 → Option (List Char)
  | _, [] => some []
  | 0, _ :: _ => none
  | fuel + 1, byte :: bytes =>
    match next? (byte :: bytes) with
    | none => none
    | some (c, rest) => (readCharsUpTo next? fuel rest).map (c :: ·)

/-- The characters of a byte string, or nothing if the reader refuses some part of it. A character
takes at least one byte. -/
def readChars (next? : CharReader) (bytes : List UInt8) : Option (List Char) :=
  readCharsUpTo next? bytes.length bytes

/-- A reader that takes at least one byte. -/
def CharReader.Progresses (next? : CharReader) : Prop :=
  ∀ {bytes rest c}, next? bytes = some (c, rest) → rest.length < bytes.length

/-- Any two amounts of fuel that cover the bytes give the same text. -/
theorem readCharsUpTo_congr {next? : CharReader} (h : next?.Progresses) {fuel other : Nat}
    {bytes : List UInt8} (hfuel : bytes.length ≤ fuel) (hother : bytes.length ≤ other) :
    readCharsUpTo next? fuel bytes = readCharsUpTo next? other bytes := by
  induction fuel generalizing other bytes with
  | zero =>
      obtain rfl : bytes = [] := List.length_eq_zero_iff.mp (by omega)
      rw [readCharsUpTo, readCharsUpTo]
  | succ fuel ih =>
      cases bytes with
      | nil => rw [readCharsUpTo, readCharsUpTo]
      | cons byte bytes =>
          cases other with
          | zero => simp at hother
          | succ other =>
              rw [readCharsUpTo, readCharsUpTo]
              cases hnext : next? (byte :: bytes) with
              | none => rfl
              | some result =>
                  have hshort := h hnext
                  simp only [List.length_cons] at hfuel hother hshort
                  simp only
                  rw [ih (by omega) (by omega : result.2.length ≤ other)]

theorem readChars_nil (next? : CharReader) : readChars next? [] = some [] := by
  rw [readChars, readCharsUpTo]

/-- A text is its first character and the text of what is left. -/
theorem readChars_of_next {next? : CharReader} (h : next?.Progresses) {bytes rest : List UInt8}
    {c : Char} (hnext : next? bytes = some (c, rest)) :
    readChars next? bytes = (readChars next? rest).map (c :: ·) := by
  have hshort := h hnext
  cases bytes with
  | nil => simp at hshort
  | cons byte bytes =>
      rw [readChars, List.length_cons, readCharsUpTo, hnext]
      simp only
      rw [List.length_cons] at hshort
      rw [readChars, readCharsUpTo_congr h (by omega) (Nat.le_refl _)]

/-- A byte string whose front is refused has no text. -/
theorem readChars_of_refused {next? : CharReader} {bytes : List UInt8} (hne : bytes ≠ [])
    (hnext : next? bytes = none) : readChars next? bytes = none := by
  cases bytes with
  | nil => exact absurd rfl hne
  | cons byte bytes => rw [readChars, List.length_cons, readCharsUpTo, hnext]

/-- What is written character by character is read back, if each character is, whatever follows. -/
theorem readChars_flatMap {next? : CharReader} (h : next?.Progresses) {encode : Char → List UInt8}
    (hread : ∀ c rest, next? (encode c ++ rest) = some (c, rest)) (text : List Char) :
    readChars next? (text.flatMap encode) = some text := by
  induction text with
  | nil => exact readChars_nil next?
  | cons c text ih =>
      rw [List.flatMap_cons, readChars_of_next h (hread c _), ih]
      rfl

end Dalvik.Text
