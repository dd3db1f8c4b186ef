import Dalvik.Proofs.ModifiedUtf8
import Mathlib.Data.List.Basic

/-!
# Well-formed text

Which bytes are modified UTF-8, said by the ranges of the bytes alone, and which bytes are read as a
text. Strict reading accepts just what is well-formed. Reading also accepts plain UTF-8, which is
modified UTF-8 unless it has a character of four bytes.
-/

namespace Dalvik.Text

variable {a b c d e f : UInt8} {bytes rest : List UInt8} {char : Char} {text : List Char}

/-! ## Texts and their bytes -/

/-- A text that is read from some bytes begins with the character at the front. -/
theorem exists_next?_of_readChars {next? : CharReader} (h : next?.Progresses) (hne : bytes ≠ [])
    (htext : readChars next? bytes = some text) :
    ∃ char rest tail, next? bytes = some (char, rest) ∧ readChars next? rest = some tail ∧
      char :: tail = text := by
  cases hnext : next? bytes with
  | none =>
      rw [readChars_of_refused hne hnext] at htext
      cases htext
  | some result =>
      rw [readChars_of_next h hnext] at htext
      obtain ⟨tail, htail, heq⟩ := Option.map_eq_some_iff.mp htext
      exact ⟨result.1, result.2, tail, rfl, htail, heq⟩

/-- A reader that reads back what is written, and takes only what is written, reads the texts of an
encoding. -/
theorem readChars_eq_some_iff {next? : CharReader} (h : next?.Progresses)
    {encode : Char → List UInt8}
    (hread : ∀ char rest, next? (encode char ++ rest) = some (char, rest))
    (hwrite : ∀ {bytes rest char}, 0 ∉ bytes → next? bytes = some (char, rest) →
      bytes = encode char ++ rest)
    (hzero : 0 ∉ bytes) : readChars next? bytes = some text ↔ text.flatMap encode = bytes := by
  refine ⟨fun htext => ?_, fun hbytes => hbytes ▸ readChars_flatMap h hread text⟩
  induction text generalizing bytes with
  | nil =>
      cases bytes with
      | nil => rfl
      | cons byte bytes =>
          obtain ⟨_, _, _, -, -, ⟨⟩⟩ :=
            exists_next?_of_readChars h (List.cons_ne_nil byte bytes) htext
  | cons char text ih =>
      have hne : bytes ≠ [] := by
        rintro rfl
        rw [readChars_nil] at htext
        cases htext
      obtain ⟨_, rest, _, hnext, hrest, ⟨⟩⟩ := exists_next?_of_readChars h hne htext
      obtain rfl := hwrite hzero hnext
      rw [List.flatMap_cons, ih (fun hmem => hzero (List.mem_append_right _ hmem)) hrest]

theorem toNat_ofNat_char {n : Nat} (h : n.isValidChar) : (Char.ofNat n).val.toNat = n := by
  rw [Char.ofNat, dif_pos h]
  rfl

theorem ofNat_eq {n : Nat} (h : n = a.toNat) : UInt8.ofNat n = a := by
  rw [h, UInt8.ofNat_toNat]

/-! ## Plain UTF-8 -/

namespace Utf8

open ModifiedUtf8

/-- Up to `U+FFFF` and apart from NUL, modified UTF-8 is plain UTF-8. -/
theorem encodeChar_eq_utf8EncodeChar (hpos : 0 < char.toNat) (hlt : char.toNat < 0x10000) :
    encodeChar char = String.utf8EncodeChar char := by
  simp only [encodeChar, encodeThree, String.utf8EncodeChar, Char.toNat_val]
  rw [if_neg (by omega)]
  by_cases hone : char.toNat < 0x80
  · rw [if_pos hone, if_pos (by omega)]
  · rw [if_neg hone, if_neg (by omega : ¬char.toNat ≤ 127)]
    by_cases htwo : char.toNat < 0x800
    · rw [if_pos htwo, if_pos (by omega), Nat.mod_eq_of_lt (by omega : char.toNat / 64 < 32),
        Nat.add_comm, Nat.add_comm 128]
    · rw [if_neg htwo, if_neg (by omega : ¬char.toNat ≤ 2047), if_pos hlt, if_pos (by omega),
        Nat.mod_eq_of_lt (by omega : char.toNat / 4096 < 16), Nat.add_comm, Nat.add_comm 128,
        Nat.add_comm 128]

theorem zero_mem_utf8EncodeChar (h : char.toNat = 0) : 0 ∈ String.utf8EncodeChar char := by
  rw [← Char.ofNat_toNat char, h]
  decide

/-- A character above `U+FFFF` begins with a byte that no other character has. -/
theorem exists_lead_of_le (h : 0x10000 ≤ char.toNat) :
    ∃ byte ∈ String.utf8EncodeChar char, 0xf0 ≤ byte := by
  refine ⟨UInt8.ofNat (char.toNat / 262144 % 8 + 240), ?_, ?_⟩
  · simp only [String.utf8EncodeChar, Char.toNat_val]
    rw [if_neg (by omega), if_neg (by omega), if_neg (by omega)]
    exact List.mem_cons_self
  · rw [UInt8.le_iff_toNat_le, toNat_ofNat (by omega)]
    simp

theorem utf8EncodeChar_one (h : a.toNat < 0x80) :
    String.utf8EncodeChar (Char.ofNat a.toNat) = [a] := by
  have hcode := toNat_ofNat_char (n := a.toNat) (.inl (by omega))
  simp only [String.utf8EncodeChar, hcode]
  rw [if_pos (by omega), ofNat_eq rfl]

theorem utf8EncodeChar_charOfTwo (h : isTwo a b) :
    String.utf8EncodeChar (charOfTwo a b) = [a, b] := by
  simp only [isTwo, isTail, Bool.and_eq_true, decide_eq_true_eq, UInt8.le_iff_toNat_le,
    UInt8.lt_iff_toNat_lt, UInt8.reduceToNat] at h
  have hcode : (charOfTwo a b).val.toNat = a.toNat % 32 * 64 + tailBits b :=
    toNat_ofNat_char (.inl (by rw [tailBits]; omega))
  rw [tailBits] at hcode
  simp only [String.utf8EncodeChar, hcode]
  rw [if_neg (by omega), if_pos (by omega), ofNat_eq (a := a) (by omega),
    ofNat_eq (a := b) (by omega)]

theorem utf8EncodeChar_charOfThree (h : isThree a b c) :
    String.utf8EncodeChar (charOfThree a b c) = [a, b, c] := by
  simp only [isThree, opensThree, isTail, Bool.and_eq_true, Bool.or_eq_true, decide_eq_true_eq,
    bne_iff_ne, ne_eq, ← UInt8.toNat_inj, UInt8.le_iff_toNat_le, UInt8.lt_iff_toNat_lt,
    UInt8.reduceToNat] at h
  have hcode : (charOfThree a b c).val.toNat =
      (a.toNat % 16 * 64 + tailBits b) * 64 + tailBits c := by
    refine toNat_ofNat_char ?_
    rw [tailBits, tailBits, Nat.isValidChar]
    omega
  rw [tailBits, tailBits] at hcode
  simp only [String.utf8EncodeChar, hcode]
  rw [if_neg (by omega), if_neg (by omega), if_pos (by omega), ofNat_eq (a := a) (by omega),
    ofNat_eq (a := b) (by omega), ofNat_eq (a := c) (by omega)]

theorem utf8EncodeChar_charOfFour (h : isFour a b c d) :
    String.utf8EncodeChar (charOfFour a b c d) = [a, b, c, d] := by
  simp only [isFour, opensFour, isTail, Bool.and_eq_true, Bool.or_eq_true, decide_eq_true_eq,
    bne_iff_ne, ne_eq, ← UInt8.toNat_inj, UInt8.le_iff_toNat_le, UInt8.lt_iff_toNat_lt,
    UInt8.reduceToNat] at h
  have hcode : (charOfFour a b c d).val.toNat =
      ((a.toNat % 8 * 64 + tailBits b) * 64 + tailBits c) * 64 + tailBits d := by
    refine toNat_ofNat_char ?_
    rw [tailBits, tailBits, tailBits, Nat.isValidChar]
    omega
  rw [tailBits, tailBits, tailBits] at hcode
  simp only [String.utf8EncodeChar, hcode]
  rw [if_neg (by omega), if_neg (by omega), if_neg (by omega), ofNat_eq (a := a) (by omega),
    ofNat_eq (a := b) (by omega), ofNat_eq (a := c) (by omega), ofNat_eq (a := d) (by omega)]

theorem next?_one (h : a.toNat < 0x80) : next? (a :: rest) = some (Char.ofNat a.toNat, rest) := by
  have hone : a < 0x80 := UInt8.lt_iff_toNat_lt.mpr h
  simp [next?, one?, hone]

theorem next?_two (h : isTwo a b) : next? (a :: b :: rest) = some (charOfTwo a b, rest) := by
  obtain ⟨hone, -⟩ := ne_of_lead (lt_of_isTwo h).1
  simp [next?, one?, two?, hone, h]

theorem next?_three (h : isThree a b c) :
    next? (a :: b :: c :: rest) = some (charOfThree a b c, rest) := by
  have hlead := lt_of_isThree h
  obtain ⟨hone, -⟩ := ne_of_lead (by omega : 0xc2 ≤ a.toNat)
  have htwo : ¬isTwo a b := by
    intro htwo
    have := lt_of_isTwo htwo
    omega
  simp [next?, one?, two?, three?, hone, htwo, h]

theorem next?_four (h : isFour a b c d) :
    next? (a :: b :: c :: d :: rest) = some (charOfFour a b c d, rest) := by
  have hlead := lt_of_isFour h
  obtain ⟨hone, -⟩ := ne_of_lead (by omega : 0xc2 ≤ a.toNat)
  have htwo : ¬isTwo a b := by
    intro htwo
    have := lt_of_isTwo htwo
    omega
  have hthree : ¬isThree a b c := by
    intro hthree
    have := lt_of_isThree hthree
    omega
  simp [next?, one?, two?, three?, four?, hone, htwo, hthree, h]

/-- A character that is read is written as the bytes that were read. -/
theorem eq_utf8EncodeChar_of_next? (h : next? bytes = some (char, rest)) :
    bytes = String.utf8EncodeChar char ++ rest := by
  rcases utf8_cases h with h | h | h | h
  · obtain ⟨a, rest, rfl, ha, ⟨⟩⟩ := one?_eq_some h
    rw [utf8EncodeChar_one ha]
    rfl
  · obtain ⟨a, b, rest, rfl, htwo, ⟨⟩⟩ := two?_eq_some h
    rw [utf8EncodeChar_charOfTwo htwo]
    rfl
  · obtain ⟨a, b, c, rest, rfl, hthree, ⟨⟩⟩ := three?_eq_some h
    rw [utf8EncodeChar_charOfThree hthree]
    rfl
  · obtain ⟨a, b, c, d, rest, rfl, hfour, ⟨⟩⟩ := four?_eq_some h
    rw [utf8EncodeChar_charOfFour hfour]
    rfl

theorem next?_utf8EncodeChar_of_le (h : 0x10000 ≤ char.toNat) :
    next? (String.utf8EncodeChar char ++ rest) = some (char, rest) := by
  have hvalid : char.toNat < 0xd800 ∨ 0xdfff < char.toNat ∧ char.toNat < 0x110000 := char.valid
  have hlead : (UInt8.ofNat (char.toNat / 262144 % 8 + 240)).toNat =
      char.toNat / 262144 % 8 + 240 := toNat_ofNat (by omega)
  simp only [String.utf8EncodeChar, Char.toNat_val]
  rw [if_neg (by omega), if_neg (by omega), if_neg (by omega)]
  simp only [Nat.add_comm (_ % 64) 128]
  have hfour : isFour (UInt8.ofNat (char.toNat / 262144 % 8 + 240))
      (UInt8.ofNat (128 + char.toNat / 4096 % 64)) (UInt8.ofNat (128 + char.toNat / 64 % 64))
      (UInt8.ofNat (128 + char.toNat % 64)) := by
    simp only [isFour, opensFour, isTail_tail, Bool.and_true, Bool.and_eq_true, Bool.or_eq_true,
      decide_eq_true_eq, bne_iff_ne, ne_eq, ← UInt8.toNat_inj, UInt8.le_iff_toNat_le,
      UInt8.lt_iff_toNat_lt, hlead, toNat_tail, UInt8.reduceToNat]
    omega
  have hchar : charOfFour (UInt8.ofNat (char.toNat / 262144 % 8 + 240))
      (UInt8.ofNat (128 + char.toNat / 4096 % 64)) (UInt8.ofNat (128 + char.toNat / 64 % 64))
      (UInt8.ofNat (128 + char.toNat % 64)) = char := by
    rw [charOfFour, hlead, tailBits_tail, tailBits_tail, tailBits_tail]
    exact (congrArg Char.ofNat (by omega)).trans (Char.ofNat_toNat char)
  simp only [List.cons_append, List.nil_append, next?_four hfour, hchar]

/-- What is written for a character is read back as that character, whatever follows. -/
theorem next?_utf8EncodeChar (char : Char) (rest : List UInt8) :
    next? (String.utf8EncodeChar char ++ rest) = some (char, rest) := by
  obtain hzero | hpos := Nat.eq_zero_or_pos char.toNat
  · obtain rfl : char = '\x00' := by
      rw [← Char.ofNat_toNat char, hzero]
    exact next?_one (by decide)
  obtain hlt | hle := Nat.lt_or_ge char.toNat 0x10000
  case inr => exact next?_utf8EncodeChar_of_le hle
  -- Below, the two encodings and their readers agree.
  have hmodified := ModifiedUtf8.next?_encodeChar char rest
  rw [encodeChar_eq_utf8EncodeChar hpos hlt] at hmodified
  rcases next?_cases hmodified with h | h | h | h | h
  · obtain ⟨a, _, hbytes, ha, heq⟩ := one?_eq_some h
    rw [hbytes, heq]
    exact next?_one ha
  · obtain ⟨_, -, ⟨⟩⟩ := nul?_eq_some h
    exact absurd hpos (by decide)
  · obtain ⟨a, b, _, hbytes, htwo, heq⟩ := two?_eq_some h
    rw [hbytes, heq]
    exact next?_two htwo
  · obtain ⟨a, b, c, _, hbytes, hthree, heq⟩ := three?_eq_some h
    rw [hbytes, heq]
    exact next?_three hthree
  · obtain ⟨a, b, c, d, e, f, rest, hbytes, -, ⟨⟩⟩ := pair?_eq_some h
    have hlength := congrArg List.length hbytes
    have hfour := (charOfPair b c e f).utf8Size_le_four
    simp only [List.length_append, String.length_utf8EncodeChar, List.length_cons] at hlength
    omega

/-- The texts that are read are those that are written. -/
theorem decode_eq_some_iff (hzero : 0 ∉ bytes) :
    decode bytes = some text ↔ text.flatMap String.utf8EncodeChar = bytes :=
  readChars_eq_some_iff progresses_utf8 next?_utf8EncodeChar
    (fun _ => eq_utf8EncodeChar_of_next?) hzero

end Utf8

/-! ## The syntax of modified UTF-8 -/

namespace ModifiedUtf8

open Utf8

/-- A byte that may follow the first of a sequence. -/
def FollowsLead (byte : UInt8) : Prop :=
  0x80 ≤ byte ∧ byte ≤ 0xbf

/-- The bytes of one character. -/
inductive IsCharacter : List UInt8 → Prop
  /-- ASCII, but not NUL. -/
  | one {a : UInt8} : 0 < a → a ≤ 0x7f → IsCharacter [a]
  | nul : IsCharacter [0xc0, 0x80]
  | two {a b : UInt8} : 0xc2 ≤ a → a ≤ 0xdf → FollowsLead b → IsCharacter [a, b]
  /-- Neither overlong nor a surrogate. -/
  | three {a b c : UInt8} : 0xe0 ≤ a → a ≤ 0xef → FollowsLead b → FollowsLead c →
    (a = 0xe0 → 0xa0 ≤ b) → (a = 0xed → b ≤ 0x9f) → IsCharacter [a, b, c]
  /-- A high surrogate and a low surrogate. -/
  | pair {b c e f : UInt8} : 0xa0 ≤ b → b ≤ 0xaf → FollowsLead c → 0xb0 ≤ e → e ≤ 0xbf →
    FollowsLead f → IsCharacter [0xed, b, c, 0xed, e, f]

/-- The bytes of a text, one character after another. -/
inductive IsWellFormed : List UInt8 → Prop
  | nil : IsWellFormed []
  | cons {first rest : List UInt8} : IsCharacter first → IsWellFormed rest →
    IsWellFormed (first ++ rest)

theorem isTwo_iff : isTwo a b ↔ 0xc2 ≤ a ∧ a ≤ 0xdf ∧ FollowsLead b := by
  simp only [FollowsLead, isTwo, isTail, Bool.and_eq_true, decide_eq_true_eq,
    UInt8.le_iff_toNat_le, UInt8.lt_iff_toNat_lt, UInt8.reduceToNat]
  omega

theorem isThree_iff : isThree a b c ↔ 0xe0 ≤ a ∧ a ≤ 0xef ∧ FollowsLead b ∧ FollowsLead c ∧
    (a = 0xe0 → 0xa0 ≤ b) ∧ (a = 0xed → b ≤ 0x9f) := by
  simp only [FollowsLead, isThree, opensThree, isTail, Bool.and_eq_true, Bool.or_eq_true,
    decide_eq_true_eq, bne_iff_ne, ne_eq, ← UInt8.toNat_inj, UInt8.le_iff_toNat_le,
    UInt8.lt_iff_toNat_lt, UInt8.reduceToNat]
  omega

theorem isPair_iff : isPair a b c d e f ↔ a = 0xed ∧ 0xa0 ≤ b ∧ b ≤ 0xaf ∧ FollowsLead c ∧
    d = 0xed ∧ 0xb0 ≤ e ∧ e ≤ 0xbf ∧ FollowsLead f := by
  simp only [FollowsLead, isPair, isTail, Bool.and_eq_true, decide_eq_true_eq, beq_iff_eq,
    ← UInt8.toNat_inj, UInt8.le_iff_toNat_le, UInt8.lt_iff_toNat_lt, UInt8.reduceToNat]
  omega

theorem isCharacter_of_isTwo (h : isTwo a b) : IsCharacter [a, b] := by
  obtain ⟨hle, hge, hb⟩ := isTwo_iff.mp h
  exact .two hle hge hb

theorem isCharacter_of_isThree (h : isThree a b c) : IsCharacter [a, b, c] := by
  obtain ⟨hle, hge, hb, hc, hover, hsurrogate⟩ := isThree_iff.mp h
  exact .three hle hge hb hc hover hsurrogate

theorem isCharacter_of_isPair (h : isPair a b c d e f) : IsCharacter [a, b, c, d, e, f] := by
  obtain ⟨rfl, hb, hb', hc, rfl, he, he', hf⟩ := isPair_iff.mp h
  exact .pair hb hb' hc he he' hf

/-! ## One character -/

theorem encodeChar_charOfPair (h : isPair a b c d e f) :
    encodeChar (charOfPair b c e f) = [a, b, c, d, e, f] := by
  simp only [isPair, isTail, Bool.and_eq_true, decide_eq_true_eq, beq_iff_eq, ← UInt8.toNat_inj,
    UInt8.le_iff_toNat_le, UInt8.lt_iff_toNat_lt, UInt8.reduceToNat] at h
  have hcode : (charOfPair b c e f).toNat =
      0x10000 + surrogateBits b c * 1024 + surrogateBits e f := by
    refine toNat_ofNat_char ?_
    rw [surrogateBits, surrogateBits, tailBits, tailBits, Nat.isValidChar]
    omega
  rw [surrogateBits, surrogateBits, tailBits, tailBits] at hcode
  simp only [encodeChar, encodeThree, hcode]
  rw [if_neg (by omega), if_neg (by omega), if_neg (by omega), if_neg (by omega),
    ofNat_eq (a := a) (by omega), ofNat_eq (a := b) (by omega), ofNat_eq (a := c) (by omega),
    ofNat_eq (a := d) (by omega), ofNat_eq (a := e) (by omega), ofNat_eq (a := f) (by omega)]
  rfl

/-- No byte of a character is zero, and none begins a character of four bytes. -/
theorem IsCharacter.range (h : IsCharacter bytes) : ∀ byte ∈ bytes, 0 < byte ∧ byte < 0xf0 := by
  cases h with
  | one => grind
  | nul => grind
  | two => grind [FollowsLead]
  | three => grind [FollowsLead]
  | pair => grind [FollowsLead]

/-- NUL has a byte that is zero in plain UTF-8, and a character above `U+FFFF` one that begins four
bytes; all others are written the same way in both encodings. -/
theorem encodeChar_eq_of_utf8 {first : List UInt8} (hutf8 : String.utf8EncodeChar char = first)
    (hfirst : IsCharacter first) : encodeChar char = first := by
  subst hutf8
  apply encodeChar_eq_utf8EncodeChar
  · refine Nat.pos_of_ne_zero fun hchar => ?_
    exact absurd (hfirst.range 0 (zero_mem_utf8EncodeChar hchar)).1 (by decide)
  · refine Nat.lt_of_not_le fun hchar => ?_
    obtain ⟨byte, hmem, hbyte⟩ := exists_lead_of_le hchar
    exact absurd (hfirst.range byte hmem).2 (UInt8.not_lt.mpr hbyte)

/-- A character that is read from bytes without NUL is written as the bytes that were read, and
these are in the grammar. -/
theorem isCharacter_of_next? (hzero : 0 ∉ bytes) (h : next? bytes = some (char, rest)) :
    IsCharacter (encodeChar char) ∧ bytes = encodeChar char ++ rest := by
  rcases next?_cases h with h | h | h | h | h
  · obtain ⟨a, rest, rfl, ha, ⟨⟩⟩ := one?_eq_some h
    have hpos : 0 < a := UInt8.pos_iff_ne_zero.mpr fun h => hzero (h ▸ List.mem_cons_self)
    have hfirst : IsCharacter [a] := .one hpos (UInt8.le_iff_toNat_le.mpr (Nat.le_of_lt_succ ha))
    rw [encodeChar_eq_of_utf8 (utf8EncodeChar_one ha) hfirst]
    exact ⟨hfirst, rfl⟩
  · obtain ⟨rest, rfl, ⟨⟩⟩ := nul?_eq_some h
    exact ⟨.nul, rfl⟩
  · obtain ⟨a, b, rest, rfl, htwo, ⟨⟩⟩ := two?_eq_some h
    have hfirst := isCharacter_of_isTwo htwo
    rw [encodeChar_eq_of_utf8 (utf8EncodeChar_charOfTwo htwo) hfirst]
    exact ⟨hfirst, rfl⟩
  · obtain ⟨a, b, c, rest, rfl, hthree, ⟨⟩⟩ := three?_eq_some h
    have hfirst := isCharacter_of_isThree hthree
    rw [encodeChar_eq_of_utf8 (utf8EncodeChar_charOfThree hthree) hfirst]
    exact ⟨hfirst, rfl⟩
  · obtain ⟨a, b, c, d, e, f, rest, rfl, hpair, ⟨⟩⟩ := pair?_eq_some h
    rw [encodeChar_charOfPair hpair]
    exact ⟨isCharacter_of_isPair hpair, rfl⟩

/-- The grammar is that of the characters that can be written. -/
theorem isCharacter_iff : IsCharacter bytes ↔ ∃ char, encodeChar char = bytes := by
  constructor
  · intro h
    have hchar := h
    cases h with
    | @one a hpos hle =>
        have ha : a.toNat < 0x80 := Nat.lt_succ_of_le (UInt8.le_iff_toNat_le.mp hle)
        exact ⟨_, encodeChar_eq_of_utf8 (utf8EncodeChar_one ha) hchar⟩
    | nul => exact ⟨'\x00', rfl⟩
    | two hle hge hb =>
        have htwo := isTwo_iff.mpr ⟨hle, hge, hb⟩
        exact ⟨_, encodeChar_eq_of_utf8 (utf8EncodeChar_charOfTwo htwo) hchar⟩
    | three hle hge hb hc hover hsurrogate =>
        have hthree := isThree_iff.mpr ⟨hle, hge, hb, hc, hover, hsurrogate⟩
        exact ⟨_, encodeChar_eq_of_utf8 (utf8EncodeChar_charOfThree hthree) hchar⟩
    | pair hb hb' hc he he' hf =>
        exact ⟨_, encodeChar_charOfPair (isPair_iff.mpr ⟨rfl, hb, hb', hc, rfl, he, he', hf⟩)⟩
  · rintro ⟨char, rfl⟩
    have hnext := next?_encodeChar char []
    rw [List.append_nil] at hnext
    exact (isCharacter_of_next? (zero_notMem_encodeChar char) hnext).1

/-- The grammar is that of the texts that can be written. -/
theorem isWellFormed_iff : IsWellFormed bytes ↔ ∃ text, encode text = bytes := by
  constructor
  · intro h
    induction h with
    | nil => exact ⟨[], rfl⟩
    | cons hfirst _ ih =>
        obtain ⟨char, rfl⟩ := isCharacter_iff.mp hfirst
        obtain ⟨text, rfl⟩ := ih
        exact ⟨char :: text, List.flatMap_cons⟩
  · rintro ⟨text, rfl⟩
    induction text with
    | nil => exact .nil
    | cons char text ih =>
        rw [encode, List.flatMap_cons]
        exact .cons (isCharacter_iff.mpr ⟨char, rfl⟩) ih

theorem IsWellFormed.lt (h : IsWellFormed bytes) : ∀ byte ∈ bytes, byte < 0xf0 := by
  induction h with
  | nil =>
      intro byte hmem
      cases hmem
  | cons hfirst _ ih =>
      intro byte hmem
      exact (List.mem_append.mp hmem).elim (fun hmem => (hfirst.range byte hmem).2) (ih byte)

/-- The texts that are read strictly are those that are written. -/
theorem decodeStrict_eq_some_iff (hzero : 0 ∉ bytes) :
    decodeStrict bytes = some text ↔ encode text = bytes :=
  readChars_eq_some_iff progresses_next? next?_encodeChar
    (fun hzero h => (isCharacter_of_next? hzero h).2) hzero

/-! ## What is accepted -/

/-- Plain UTF-8 with a character above `U+FFFF`, which modified UTF-8 writes as two surrogates. -/
def IsSupplementary (bytes : List UInt8) : Prop :=
  ∃ text : List Char, text.flatMap String.utf8EncodeChar = bytes ∧
    ∃ char ∈ text, 0x10000 ≤ char.toNat

/-- Plain UTF-8 without NUL is modified UTF-8 unless it has a character above `U+FFFF`. -/
theorem isWellFormed_or_isSupplementary (hzero : 0 ∉ bytes)
    (h : text.flatMap String.utf8EncodeChar = bytes) :
    IsWellFormed bytes ∨ IsSupplementary bytes := by
  by_cases hhigh : ∃ char ∈ text, 0x10000 ≤ char.toNat
  · exact .inr ⟨text, h, hhigh⟩
  · have hsame : ∀ char ∈ text, encodeChar char = String.utf8EncodeChar char := by
      intro char hchar
      refine encodeChar_eq_utf8EncodeChar (Nat.pos_of_ne_zero fun hnul => hzero ?_)
        (Nat.lt_of_not_le fun hle => hhigh ⟨char, hchar, hle⟩)
      rw [← h, List.mem_flatMap]
      exact ⟨char, hchar, zero_mem_utf8EncodeChar hnul⟩
    refine .inl (isWellFormed_iff.mpr ⟨text, ?_⟩)
    rw [encode, List.flatMap_congr hsame, h]

/-- Bytes without NUL are read as a text just where they are modified UTF-8 or plain UTF-8. -/
theorem exists_decode_iff (hzero : 0 ∉ bytes) :
    (∃ text, decode bytes = some text) ↔ IsWellFormed bytes ∨ IsSupplementary bytes := by
  constructor
  · rintro ⟨text, htext⟩
    rw [decode, Option.orElse_eq_orElse, Option.orElse_eq_or, Option.or_eq_some_iff] at htext
    rcases htext with h | ⟨-, h⟩
    · exact isWellFormed_or_isSupplementary hzero ((Utf8.decode_eq_some_iff hzero).mp h)
    · exact .inl (isWellFormed_iff.mpr ⟨text, (decodeStrict_eq_some_iff hzero).mp h⟩)
  · rintro (h | ⟨text, h, -⟩)
    · obtain ⟨text, rfl⟩ := isWellFormed_iff.mp h
      exact ⟨text, decode_encode text⟩
    · exact ⟨text, by rw [decode, (Utf8.decode_eq_some_iff hzero).mpr h]; rfl⟩

end ModifiedUtf8
end Dalvik.Text
