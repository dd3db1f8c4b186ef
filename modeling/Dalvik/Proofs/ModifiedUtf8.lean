import Dalvik.Text.ModifiedUtf8

/-!
# Round trip of modified UTF-8

What is written for a text is read back as that text. The bytes are first tried as plain UTF-8,
which either refuses them or reads the same characters.
-/

namespace Dalvik.Text.ModifiedUtf8

open Utf8

variable {a b c d e f : UInt8} {rest bytes : List UInt8}

/-! ## The forms of a character -/

theorem lt_of_isTwo (h : isTwo a b) : 0xc2 ≤ a.toNat ∧ a.toNat < 0xe0 := by
  simp only [isTwo, Bool.and_eq_true, decide_eq_true_eq, UInt8.le_iff_toNat_le,
    UInt8.lt_iff_toNat_lt] at h
  exact h.1

theorem lt_of_isThree (h : isThree a b c) : 0xe0 ≤ a.toNat ∧ a.toNat < 0xf0 := by
  simp only [isThree, opensThree, Bool.and_eq_true, decide_eq_true_eq, UInt8.le_iff_toNat_le,
    UInt8.lt_iff_toNat_lt] at h
  exact h.1.1.1.1

theorem lt_of_isFour (h : isFour a b c d) : 0xf0 ≤ a.toNat := by
  simp only [isFour, opensFour, Bool.and_eq_true, decide_eq_true_eq, UInt8.le_iff_toNat_le,
    UInt8.lt_iff_toNat_lt] at h
  exact h.1.1.1.1.1.1

theorem next?_one (h : a.toNat < 0x80) : next? (a :: rest) = some (Char.ofNat a.toNat, rest) := by
  have hone : a < 0x80 := UInt8.lt_iff_toNat_lt.mpr h
  simp [next?, one?, hone]

/-- The first byte of a longer form is neither a character by itself nor that of NUL. -/
theorem ne_of_lead (h : 0xc2 ≤ a.toNat) : ¬a < 0x80 ∧ a ≠ 0xc0 := by
  constructor
  · rw [UInt8.lt_iff_toNat_lt]
    exact Nat.not_lt.mpr (Nat.le_trans (by decide) h)
  · rintro rfl
    exact absurd h (by decide)

theorem next?_nul : next? (0xc0 :: 0x80 :: rest) = some ('\x00', rest) := by
  simp [next?, one?, nul?]

theorem next?_two (h : isTwo a b) : next? (a :: b :: rest) = some (charOfTwo a b, rest) := by
  obtain ⟨hone, hnul⟩ := ne_of_lead (lt_of_isTwo h).1
  simp [next?, one?, nul?, two?, hone, hnul, h]

theorem next?_three (h : isThree a b c) :
    next? (a :: b :: c :: rest) = some (charOfThree a b c, rest) := by
  have hlead := lt_of_isThree h
  obtain ⟨hone, hnul⟩ := ne_of_lead (by omega : 0xc2 ≤ a.toNat)
  have htwo : ¬isTwo a b := by
    intro htwo
    have := lt_of_isTwo htwo
    omega
  simp [next?, one?, nul?, two?, three?, hone, hnul, htwo, h]

theorem next?_pair (h : isPair a b c d e f) :
    next? (a :: b :: c :: d :: e :: f :: rest) = some (charOfPair b c e f, rest) := by
  have hpair := h
  simp only [isPair, Bool.and_eq_true, beq_iff_eq, decide_eq_true_eq] at hpair
  obtain ⟨⟨⟨⟨⟨⟨⟨rfl, hle⟩, hlt⟩, hc⟩, rfl⟩, he⟩, he'⟩, hf⟩ := hpair
  -- A surrogate begins like a three-byte form, but its second byte is too large for one.
  have hthree : ¬isThree 0xed b c := by
    simp only [isThree, opensThree, Bool.and_eq_true, Bool.or_eq_true, decide_eq_true_eq,
      UInt8.lt_iff_toNat_lt, UInt8.le_iff_toNat_le] at hle ⊢
    rintro ⟨⟨_, hb⟩, -⟩
    simp at hb hle
    omega
  have htwo : ¬isTwo 0xed b := by simp [isTwo]
  simp [next?, one?, nul?, two?, three?, pair?, hthree, htwo, h]

/-! ## One character -/

theorem toNat_ofNat {n : Nat} (h : n < 256) : (UInt8.ofNat n).toNat = n := by
  rw [UInt8.toNat_ofNat']
  exact Nat.mod_eq_of_lt h

theorem toNat_tail (n : Nat) : (UInt8.ofNat (0x80 + n % 64)).toNat = 0x80 + n % 64 :=
  toNat_ofNat (by omega)

theorem isTail_tail (n : Nat) : isTail (UInt8.ofNat (0x80 + n % 64)) := by
  simp only [isTail, Bool.and_eq_true, decide_eq_true_eq, UInt8.le_iff_toNat_le,
    UInt8.lt_iff_toNat_lt, toNat_tail]
  simp
  omega

theorem tailBits_tail (n : Nat) : tailBits (UInt8.ofNat (0x80 + n % 64)) = n % 64 := by
  rw [tailBits, toNat_tail]
  omega

theorem next?_encodeTwo {n : Nat} (hle : 0x80 ≤ n) (hlt : n < 0x800) :
    next? ([UInt8.ofNat (0xc0 + n / 64), UInt8.ofNat (0x80 + n % 64)] ++ rest) =
      some (Char.ofNat n, rest) := by
  have hlead : (UInt8.ofNat (0xc0 + n / 64)).toNat = 0xc0 + n / 64 := toNat_ofNat (by omega)
  have htwo : isTwo (UInt8.ofNat (0xc0 + n / 64)) (UInt8.ofNat (0x80 + n % 64)) := by
    simp only [isTwo, isTail_tail, Bool.and_true, Bool.and_eq_true, decide_eq_true_eq,
      UInt8.le_iff_toNat_le, UInt8.lt_iff_toNat_lt, hlead]
    simp
    omega
  have hchar : charOfTwo (UInt8.ofNat (0xc0 + n / 64)) (UInt8.ofNat (0x80 + n % 64)) =
      Char.ofNat n := by
    rw [charOfTwo, hlead, tailBits_tail]
    exact congrArg Char.ofNat (by omega)
  rw [← hchar]
  exact next?_two htwo

theorem next?_encodeThree {n : Nat} (hle : 0x800 ≤ n) (hlt : n < 0x10000)
    (hsurrogate : n < 0xd800 ∨ 0xdfff < n) :
    next? (encodeThree n ++ rest) = some (Char.ofNat n, rest) := by
  have hlead : (UInt8.ofNat (0xe0 + n / 4096)).toNat = 0xe0 + n / 4096 := toNat_ofNat (by omega)
  have hthree : isThree (UInt8.ofNat (0xe0 + n / 4096)) (UInt8.ofNat (0x80 + n / 64 % 64))
      (UInt8.ofNat (0x80 + n % 64)) := by
    simp only [isThree, opensThree, isTail_tail, Bool.and_true, Bool.and_eq_true, Bool.or_eq_true,
      decide_eq_true_eq, bne_iff_ne, ne_eq, ← UInt8.toNat_inj, UInt8.le_iff_toNat_le,
      UInt8.lt_iff_toNat_lt, hlead, toNat_tail]
    simp
    omega
  have hchar : charOfThree (UInt8.ofNat (0xe0 + n / 4096)) (UInt8.ofNat (0x80 + n / 64 % 64))
      (UInt8.ofNat (0x80 + n % 64)) = Char.ofNat n := by
    rw [charOfThree, hlead, tailBits_tail, tailBits_tail]
    exact congrArg Char.ofNat (by omega)
  rw [← hchar]
  exact next?_three hthree

/-- A pair of surrogates that stand for `high` and `low` is read as one character. -/
theorem next?_encodePair {high low : Nat} (hhigh : high < 1024) (hlow : low < 1024) :
    next? (encodeThree (0xd800 + high) ++ encodeThree (0xdc00 + low) ++ rest) =
      some (Char.ofNat (0x10000 + high * 1024 + low), rest) := by
  have hlead : ∀ n, 0xd000 ≤ n → n < 0xe000 → UInt8.ofNat (0xe0 + n / 4096) = 0xed := by
    intro n hle hlt
    have hdiv : n / 4096 = 13 := by omega
    rw [hdiv]
    rfl
  have hpair : isPair 0xed (UInt8.ofNat (0x80 + (0xd800 + high) / 64 % 64))
      (UInt8.ofNat (0x80 + (0xd800 + high) % 64)) 0xed
      (UInt8.ofNat (0x80 + (0xdc00 + low) / 64 % 64))
      (UInt8.ofNat (0x80 + (0xdc00 + low) % 64)) := by
    simp only [isPair, isTail_tail, Bool.and_true, Bool.and_eq_true, beq_iff_eq,
      decide_eq_true_eq, UInt8.le_iff_toNat_le, UInt8.lt_iff_toNat_lt, toNat_tail]
    simp
    omega
  have hchar : charOfPair (UInt8.ofNat (0x80 + (0xd800 + high) / 64 % 64))
      (UInt8.ofNat (0x80 + (0xd800 + high) % 64))
      (UInt8.ofNat (0x80 + (0xdc00 + low) / 64 % 64))
      (UInt8.ofNat (0x80 + (0xdc00 + low) % 64)) =
        Char.ofNat (0x10000 + high * 1024 + low) := by
    simp only [charOfPair, surrogateBits, tailBits_tail, toNat_tail]
    exact congrArg Char.ofNat (by omega)
  rw [encodeThree, encodeThree, hlead _ (by omega) (by omega), hlead _ (by omega) (by omega),
    ← hchar]
  exact next?_pair hpair

/-- What is written for a character is read back as that character, whatever follows. -/
theorem next?_encodeChar (c : Char) (rest : List UInt8) :
    next? (encodeChar c ++ rest) = some (c, rest) := by
  have hofNat := Char.ofNat_toNat c
  have hrange : c.toNat < 0xd800 ∨ 0xdfff < c.toNat ∧ c.toNat < 0x110000 := c.valid
  simp only [encodeChar]
  split
  next hzero =>
    rw [hzero] at hofNat
    rw [← hofNat]
    exact next?_nul
  next =>
    split
    next hsmall =>
      have hbyte : (UInt8.ofNat c.toNat).toNat = c.toNat := toNat_ofNat (by omega)
      have hone : next? ([UInt8.ofNat c.toNat] ++ rest) =
          some (Char.ofNat (UInt8.ofNat c.toNat).toNat, rest) := next?_one (by omega)
      rwa [hbyte, hofNat] at hone
    next hsmall =>
      split
      next htwo => rw [next?_encodeTwo (by omega) htwo, hofNat]
      next htwo =>
        split
        next hthree => rw [next?_encodeThree (by omega) hthree (by omega), hofNat]
        next hthree =>
          rw [next?_encodePair (by omega) (by omega)]
          have hsum : 0x10000 + (c.toNat - 0x10000) / 1024 * 1024 + (c.toNat - 0x10000) % 1024 =
              c.toNat := by omega
          rw [hsum, hofNat]

/-! ## Whole texts -/

theorem orElse_eq_some {first second : Option (Char × List UInt8)} {result : Char × List UInt8}
    (h : (first <|> second) = some result) : first = some result ∨ second = some result := by
  cases first with
  | none => exact Or.inr h
  | some _ => exact Or.inl h

theorem one?_eq_some {result : Char × List UInt8} (h : one? bytes = some result) :
    ∃ a rest, bytes = a :: rest ∧ a.toNat < 0x80 ∧ result = (Char.ofNat a.toNat, rest) := by
  unfold one? at h
  split at h
  next a rest =>
    obtain ⟨ha, heq⟩ := Option.ite_none_right_eq_some.mp h
    exact ⟨a, rest, rfl, UInt8.lt_iff_toNat_lt.mp ha, (Option.some.inj heq).symm⟩
  next => cases h

theorem nul?_eq_some {result : Char × List UInt8} (h : nul? bytes = some result) :
    ∃ rest, bytes = 0xc0 :: 0x80 :: rest ∧ result = ('\x00', rest) := by
  unfold nul? at h
  split at h
  next a b rest =>
    obtain ⟨hab, heq⟩ := Option.ite_none_right_eq_some.mp h
    obtain ⟨rfl, rfl⟩ : a = 0xc0 ∧ b = 0x80 := by simpa using hab
    exact ⟨rest, rfl, (Option.some.inj heq).symm⟩
  next => cases h

theorem two?_eq_some {result : Char × List UInt8} (h : two? bytes = some result) :
    ∃ a b rest, bytes = a :: b :: rest ∧ isTwo a b ∧ result = (charOfTwo a b, rest) := by
  unfold two? at h
  split at h
  next a b rest =>
    obtain ⟨hab, heq⟩ := Option.ite_none_right_eq_some.mp h
    exact ⟨a, b, rest, rfl, hab, (Option.some.inj heq).symm⟩
  next => cases h

theorem three?_eq_some {result : Char × List UInt8} (h : three? bytes = some result) :
    ∃ a b c rest, bytes = a :: b :: c :: rest ∧ isThree a b c ∧
      result = (charOfThree a b c, rest) := by
  unfold three? at h
  split at h
  next a b c rest =>
    obtain ⟨habc, heq⟩ := Option.ite_none_right_eq_some.mp h
    exact ⟨a, b, c, rest, rfl, habc, (Option.some.inj heq).symm⟩
  next => cases h

theorem four?_eq_some {result : Char × List UInt8} (h : four? bytes = some result) :
    ∃ a b c d rest, bytes = a :: b :: c :: d :: rest ∧ isFour a b c d ∧
      result = (charOfFour a b c d, rest) := by
  unfold four? at h
  split at h
  next a b c d rest =>
    obtain ⟨habcd, heq⟩ := Option.ite_none_right_eq_some.mp h
    exact ⟨a, b, c, d, rest, rfl, habcd, (Option.some.inj heq).symm⟩
  next => cases h

theorem pair?_eq_some {result : Char × List UInt8} (h : pair? bytes = some result) :
    ∃ a b c d e f rest, bytes = a :: b :: c :: d :: e :: f :: rest ∧ isPair a b c d e f ∧
      result = (charOfPair b c e f, rest) := by
  unfold pair? at h
  split at h
  next a b c d e f rest =>
    obtain ⟨hpair, heq⟩ := Option.ite_none_right_eq_some.mp h
    exact ⟨a, b, c, d, e, f, rest, rfl, hpair, (Option.some.inj heq).symm⟩
  next => cases h

theorem next?_cases {result : Char × List UInt8} (h : next? bytes = some result) :
    one? bytes = some result ∨ nul? bytes = some result ∨ two? bytes = some result ∨
      three? bytes = some result ∨ pair? bytes = some result := by
  refine (orElse_eq_some h).imp_right fun h => (orElse_eq_some h).imp_right fun h =>
    (orElse_eq_some h).imp_right fun h => orElse_eq_some h

theorem utf8_cases {result : Char × List UInt8} (h : Utf8.next? bytes = some result) :
    one? bytes = some result ∨ two? bytes = some result ∨ three? bytes = some result ∨
      four? bytes = some result := by
  refine (orElse_eq_some h).imp_right fun h => (orElse_eq_some h).imp_right fun h =>
    orElse_eq_some h

theorem progresses_next? : CharReader.Progresses next? := by
  intro bytes rest c h
  rcases next?_cases h with h | h | h | h | h
  · obtain ⟨_, _, rfl, -, ⟨⟩⟩ := one?_eq_some h
    simp only [List.length_cons]
    omega
  · obtain ⟨_, rfl, ⟨⟩⟩ := nul?_eq_some h
    simp only [List.length_cons]
    omega
  · obtain ⟨_, _, _, rfl, -, ⟨⟩⟩ := two?_eq_some h
    simp only [List.length_cons]
    omega
  · obtain ⟨_, _, _, _, rfl, -, ⟨⟩⟩ := three?_eq_some h
    simp only [List.length_cons]
    omega
  · obtain ⟨_, _, _, _, _, _, _, rfl, -, ⟨⟩⟩ := pair?_eq_some h
    simp only [List.length_cons]
    omega

theorem progresses_utf8 : CharReader.Progresses Utf8.next? := by
  intro bytes rest c h
  rcases utf8_cases h with h | h | h | h
  · obtain ⟨_, _, rfl, -, ⟨⟩⟩ := one?_eq_some h
    simp only [List.length_cons]
    omega
  · obtain ⟨_, _, _, rfl, -, ⟨⟩⟩ := two?_eq_some h
    simp only [List.length_cons]
    omega
  · obtain ⟨_, _, _, _, rfl, -, ⟨⟩⟩ := three?_eq_some h
    simp only [List.length_cons]
    omega
  · obtain ⟨_, _, _, _, _, rfl, -, ⟨⟩⟩ := four?_eq_some h
    simp only [List.length_cons]
    omega

theorem decodeStrict_encode (text : List Char) : decodeStrict (encode text) = some text :=
  readChars_flatMap progresses_next? next?_encodeChar text

/-- The first byte of a form that only plain UTF-8 has is refused. -/
theorem next?_eq_none (hlead : 0xf0 ≤ a.toNat) : next? (a :: rest) = none := by
  rw [Option.eq_none_iff_forall_ne_some]
  intro result h
  rcases next?_cases h with h | h | h | h | h
  · obtain ⟨_, _, ⟨⟩, hone, -⟩ := one?_eq_some h
    omega
  · obtain ⟨_, ⟨⟩, -⟩ := nul?_eq_some h
    exact absurd hlead (by decide)
  · obtain ⟨_, _, _, ⟨⟩, htwo, -⟩ := two?_eq_some h
    have := lt_of_isTwo htwo
    omega
  · obtain ⟨_, _, _, _, ⟨⟩, hthree, -⟩ := three?_eq_some h
    have := lt_of_isThree hthree
    omega
  · obtain ⟨_, _, _, _, _, _, _, ⟨⟩, hpair, -⟩ := pair?_eq_some h
    simp only [isPair, Bool.and_eq_true, beq_iff_eq] at hpair
    obtain ⟨⟨⟨⟨⟨⟨⟨rfl, -⟩, -⟩, -⟩, -⟩, -⟩, -⟩, -⟩ := hpair
    exact absurd hlead (by decide)

/-- A character that plain UTF-8 reads is read the same way or not at all. -/
theorem next?_of_utf8 {result : Char × List UInt8} (h : Utf8.next? bytes = some result) :
    next? bytes = some result ∨ next? bytes = none := by
  rcases utf8_cases h with h | h | h | h
  · obtain ⟨a, rest, rfl, ha, rfl⟩ := one?_eq_some h
    exact Or.inl (next?_one ha)
  · obtain ⟨a, b, rest, rfl, htwo, rfl⟩ := two?_eq_some h
    exact Or.inl (next?_two htwo)
  · obtain ⟨a, b, c, rest, rfl, hthree, rfl⟩ := three?_eq_some h
    exact Or.inl (next?_three hthree)
  · obtain ⟨a, b, c, d, rest, rfl, hfour, rfl⟩ := four?_eq_some h
    exact Or.inr (next?_eq_none (lt_of_isFour hfour))

/-- A text that both encodings read is the same in both. -/
theorem eq_of_utf8_of_strict {first second : List Char}
    (hutf8 : Utf8.decode bytes = some first) (hstrict : decodeStrict bytes = some second) :
    first = second := by
  induction hlength : bytes.length using Nat.strongRecOn generalizing bytes first second with
  | ind length ih =>
      rw [Utf8.decode] at hutf8
      rw [decodeStrict] at hstrict
      cases bytes with
      | nil =>
          rw [readChars_nil] at hutf8 hstrict
          exact Option.some.inj (hutf8.symm.trans hstrict)
      | cons byte bytes =>
          cases hnext : Utf8.next? (byte :: bytes) with
          | none =>
              rw [readChars_of_refused (List.cons_ne_nil _ _) hnext] at hutf8
              cases hutf8
          | some result =>
              -- Where the readers part, modified UTF-8 refuses the whole text.
              rcases next?_of_utf8 hnext with hsame | hnone
              · rw [readChars_of_next progresses_utf8 hnext] at hutf8
                rw [readChars_of_next progresses_next? hsame] at hstrict
                obtain ⟨firstRest, hfirst, rfl⟩ := Option.map_eq_some_iff.mp hutf8
                obtain ⟨secondRest, hsecond, rfl⟩ := Option.map_eq_some_iff.mp hstrict
                have hshort := progresses_next? hsame
                rw [ih _ (by omega) hfirst hsecond rfl]
              · rw [readChars_of_refused (List.cons_ne_nil _ _) hnone] at hstrict
                cases hstrict

/-- What is written for a text is read back as that text. -/
theorem decode_encode (text : List Char) : decode (encode text) = some text := by
  have hstrict := decodeStrict_encode text
  rw [decode]
  cases hutf8 : Utf8.decode (encode text) with
  | none => exact hstrict
  | some first =>
      rw [eq_of_utf8_of_strict hutf8 hstrict]
      rfl

/-! ## Bytes of a text -/

theorem zero_ne_ofNat {n : Nat} (hpos : 0 < n) (hlt : n < 256) : 0 ≠ UInt8.ofNat n := by
  intro heq
  have hnat := toNat_ofNat hlt
  rw [← heq, UInt8.toNat_zero] at hnat
  omega

theorem zero_notMem_encodeThree {n : Nat} (h : n < 0x10000) : 0 ∉ encodeThree n := by
  simp only [encodeThree, List.mem_cons, List.not_mem_nil, or_false, not_or]
  exact ⟨zero_ne_ofNat (by omega) (by omega), zero_ne_ofNat (by omega) (by omega),
    zero_ne_ofNat (by omega) (by omega)⟩

theorem zero_notMem_encodeChar (c : Char) : 0 ∉ encodeChar c := by
  have hrange : c.toNat < 0xd800 ∨ 0xdfff < c.toNat ∧ c.toNat < 0x110000 := c.valid
  simp only [encodeChar]
  split
  next => decide
  next hzero =>
    split
    next hsmall =>
      rw [List.mem_singleton]
      exact zero_ne_ofNat (by omega) (by omega)
    next hsmall =>
      split
      next htwo =>
        simp only [List.mem_cons, List.not_mem_nil, or_false, not_or]
        exact ⟨zero_ne_ofNat (by omega) (by omega), zero_ne_ofNat (by omega) (by omega)⟩
      next htwo =>
        split
        next hthree => exact zero_notMem_encodeThree hthree
        next hthree =>
          rw [List.mem_append, not_or]
          exact ⟨zero_notMem_encodeThree (by omega), zero_notMem_encodeThree (by omega)⟩

theorem zero_notMem_encode (text : List Char) : 0 ∉ encode text := by
  intro hmem
  obtain ⟨c, -, hc⟩ := List.mem_flatMap.mp hmem
  exact zero_notMem_encodeChar c hc

theorem units_le_length (c : Char) : units c ≤ (encodeChar c).length := by
  simp only [units, encodeChar]
  split
  next hunits =>
    repeat' split
    all_goals simp [encodeThree]
  next hunits =>
    rw [if_neg (by omega), if_neg (by omega), if_neg (by omega)]
    simp [encodeThree]

theorem unitCount_le_length (text : List Char) : unitCount text ≤ (encode text).length := by
  induction text with
  | nil => exact Nat.le_refl 0
  | cons c text ih =>
      have hc := units_le_length c
      simp only [unitCount, encode, List.flatMap_cons, List.length_append] at ih ⊢
      omega

end Dalvik.Text.ModifiedUtf8
