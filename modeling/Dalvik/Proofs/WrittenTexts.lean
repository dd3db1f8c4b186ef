import Dalvik.Text.Escaped
import Dalvik.Text.Markup
import Mathlib.Tactic.IntervalCases

/-!
# Written texts

Text with entities and text with backslash escapes are read back as what was written, whatever
characters it has. No written text has in it what sets it apart from the others: a text between tags
has no angle bracket, and an escaped text no line break.
-/

namespace Dalvik.Text

/-- What stands before a separator is one part, if it has no separator in it. -/
theorem splitOn_append_cons {separator : Char} {part : List Char} (h : separator ∉ part)
    (rest : List Char) :
    (part ++ separator :: rest).splitOn separator = part :: rest.splitOn separator := by
  apply List.splitOnP_append_cons_of_forall_mem
  · intro c hc
    exact beq_eq_false_iff_ne.mpr fun heq => h (heq ▸ hc)
  · exact beq_self_eq_true separator

/-! ## Numerals -/

/-- The value of a lower-case hexadecimal digit. -/
def hexValue (digit : Char) : Nat :=
  if digit.toNat ≤ '9'.toNat then digit.toNat - '0'.toNat else digit.toNat - 'a'.toNat + 10

theorem hexValue_digitChar {n : Nat} (h : n < 16) : hexValue n.digitChar = n := by
  interval_cases n <;> rfl

/-- A numeral is read from the left, each digit with the weight of all after it. -/
theorem foldl_hexValue_toDigits (n : Nat) :
    (Nat.toDigits 16 n).foldl (fun value digit => 16 * value + hexValue digit) 0 = n := by
  induction n using Nat.strongRecOn with
  | ind n ih =>
      rw [Nat.toDigits_eq_if (by decide)]
      split
      next hsmall => simp [hexValue_digitChar hsmall]
      next hlarge =>
        rw [List.foldl_append, ih _ (by omega), List.foldl_cons, List.foldl_nil,
          hexValue_digitChar (Nat.mod_lt n (by decide))]
        omega

/-- What is no digit does not stand in a numeral. -/
theorem not_mem_toDigits {base : Nat} (hbase : 1 < base) {c : Char}
    (h : ∀ digit < base, Nat.digitChar digit ≠ c) (n : Nat) : c ∉ Nat.toDigits base n := by
  induction n using Nat.strongRecOn with
  | ind n ih =>
      rw [Nat.toDigits_eq_if hbase]
      split
      next hsmall => simpa using (h n hsmall).symm
      next hlarge =>
        have hpos : 0 < base := Nat.lt_of_succ_lt hbase
        rw [List.mem_append, List.mem_singleton, not_or]
        exact ⟨ih _ (Nat.div_lt_self (by omega) hbase), (h _ (Nat.mod_lt n hpos)).symm⟩

/-! ## Entities -/

/-- Reads text between tags back. -/
def unmarkup : List Char → List Char
  | '&' :: 'l' :: 't' :: ';' :: rest => '<' :: unmarkup rest
  | '&' :: 'g' :: 't' :: ';' :: rest => '>' :: unmarkup rest
  | '&' :: 'a' :: 'm' :: 'p' :: ';' :: rest => '&' :: unmarkup rest
  | '&' :: 'a' :: 'p' :: 'o' :: 's' :: ';' :: rest => '\'' :: unmarkup rest
  | '&' :: 'q' :: 'u' :: 'o' :: 't' :: ';' :: rest => '"' :: unmarkup rest
  | c :: rest => c :: unmarkup rest
  | [] => []

theorem unmarkup_cons {c : Char} (h : c ≠ '&') (rest : List Char) :
    unmarkup (c :: rest) = c :: unmarkup rest := by
  rw [unmarkup] <;> simp [h]

theorem unmarkup_entity (c : Char) (rest : List Char) :
    unmarkup (entity c ++ rest) = c :: unmarkup rest := by
  unfold entity
  split
  case h_6 _ hlt hgt hamp hapos hquot => exact unmarkup_cons hamp rest
  all_goals simp [unmarkup]

/-- Text between tags is read back. -/
theorem unmarkup_markup (text : String) : unmarkup (markup text).toList = text.toList := by
  rw [markup, String.toList_ofList]
  induction text.toList with
  | nil => simp [unmarkup]
  | cons c chars ih => rw [List.flatMap_cons, unmarkup_entity, ih]

/-- No character of a text opens a tag. -/
theorem openBracket_not_mem_markup (text : String) : '<' ∉ (markup text).toList := by
  rw [markup, String.toList_ofList, List.mem_flatMap]
  rintro ⟨c, -, hc⟩
  unfold entity at hc
  split at hc
  case h_6 _ hlt hgt hamp hapos hquot => exact hlt (List.mem_singleton.mp hc).symm
  all_goals simp at hc

/-! ## Backslash escapes -/

/-- Where the reading of an escaped text stands. -/
inductive EscapeReading where
  | outside
  /-- After a backslash. -/
  | opened
  /-- In the code point of a character, after digits that make a number. -/
  | digits (value : Nat)

/-- The character that a letter after a backslash stands for. -/
def ofEscapeLetter (letter : Char) : Char :=
  match letter with
  | '0' => '\x00'
  | 't' => '\t'
  | 'r' => '\r'
  | 'n' => '\n'
  | letter => letter

/-- Reads escaped text back. -/
def unescape : EscapeReading → List Char → List Char
  | _, [] => []
  | .outside, c :: rest =>
    if c = '\\' then unescape .opened rest else c :: unescape .outside rest
  | .opened, c :: rest =>
    if c = 'u' then unescape (.digits 0) rest
    else ofEscapeLetter c :: unescape .outside rest
  | .digits value, c :: rest =>
    if c = '\x7b' then unescape (.digits 0) rest
    else if c = '\x7d' then Char.ofNat value :: unescape .outside rest
    else unescape (.digits (16 * value + hexValue c)) rest

theorem unescape_digits (digits : List Char) (hopen : '\x7b' ∉ digits) (hclose : '\x7d' ∉ digits)
    (value : Nat) (rest : List Char) :
    unescape (.digits value) (digits ++ rest) =
      unescape (.digits (digits.foldl (fun value digit => 16 * value + hexValue digit) value))
        rest := by
  induction digits generalizing value with
  | nil => rfl
  | cons digit digits ih =>
      rw [List.mem_cons, not_or] at hopen hclose
      rw [List.cons_append, unescape, if_neg (Ne.symm hopen.1), if_neg (Ne.symm hclose.1),
        ih hopen.2 hclose.2, List.foldl_cons]

theorem unescape_codePointEscape (c : Char) (rest : List Char) :
    unescape .outside (codePointEscape c ++ rest) = c :: unescape .outside rest := by
  have hopen : '\x7b' ∉ Nat.toDigits 16 c.toNat := not_mem_toDigits (by decide) (by decide) _
  have hclose : '\x7d' ∉ Nat.toDigits 16 c.toNat := not_mem_toDigits (by decide) (by decide) _
  have hdigits := unescape_digits (Nat.toDigits 16 c.toNat) hopen hclose 0 ('\x7d' :: rest)
  rw [foldl_hexValue_toDigits] at hdigits
  simp only [codePointEscape, List.cons_append, List.nil_append, List.append_assoc]
  simp [unescape, hdigits]

/-- The written form of a character is read back, whether or not it opens the text. -/
theorem unescape_escapeChar (leading : Bool) (c : Char) (rest : List Char) :
    unescape .outside (escapeChar leading c ++ rest) = c :: unescape .outside rest := by
  unfold escapeChar
  split
  case h_8 _ hnul htab hreturn hnewline hquote hquotes hbackslash =>
    split
    next => exact unescape_codePointEscape c rest
    next => rw [List.singleton_append, unescape, if_neg hbackslash]
  all_goals simp [unescape, ofEscapeLetter]

/-- Escaped text is read back. -/
theorem unescape_escaped (text : String) :
    unescape .outside (escaped text).toList = text.toList := by
  rw [escaped, String.toList_ofList]
  have hrest : ∀ chars : List Char,
      unescape .outside (chars.flatMap (escapeChar false)) = chars := fun chars => by
    induction chars with
    | nil => simp [unescape]
    | cons c chars ih => rw [List.flatMap_cons, unescape_escapeChar, ih]
  cases text.toList with
  | nil => simp [escapeChars, unescape]
  | cons c chars => rw [escapeChars, unescape_escapeChar, hrest]

theorem newline_not_mem_escapeChar (leading : Bool) (c : Char) : '\n' ∉ escapeChar leading c := by
  unfold escapeChar
  split
  case h_8 _ hnul htab hreturn hnewline hquote hquotes hbackslash =>
    split
    next =>
      have hdigits : '\n' ∉ Nat.toDigits 16 c.toNat :=
        not_mem_toDigits (by decide) (by decide) c.toNat
      simp [codePointEscape, hdigits]
    next => simpa using Ne.symm hnewline
  all_goals decide

/-- An escaped text does not end its line. -/
theorem newline_not_mem_escaped (text : String) : '\n' ∉ (escaped text).toList := by
  rw [escaped, String.toList_ofList]
  cases text.toList with
  | nil => simp [escapeChars]
  | cons c chars =>
      simp [escapeChars, newline_not_mem_escapeChar]

end Dalvik.Text
