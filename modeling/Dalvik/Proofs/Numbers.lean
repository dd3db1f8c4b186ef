import Dalvik.Bytes.Basic
import Dalvik.Bytes.Uleb128
import Mathlib.Algebra.Group.Nat.Defs

/-!
# Numbers in bytes

Little-endian numbers and variable-length numbers are read back from the bytes they are written as.
-/

namespace Dalvik

theorem ofLittleEndian_lt (digits : List UInt8) :
    ofLittleEndian digits < 256 ^ digits.length := by
  induction digits with
  | nil => simp [ofLittleEndian]
  | cons digit digits ih =>
      have hdigit := digit.toNat_lt
      rw [ofLittleEndian, List.length_cons, Nat.pow_succ]
      omega

/-- Writing a number that fits and reading it back changes nothing. -/
theorem ofLittleEndian_toLittleEndian {width n : Nat} (h : n < 256 ^ width) :
    ofLittleEndian (toLittleEndian width n) = n := by
  induction width generalizing n with
  | zero => simp at h; simp [toLittleEndian, ofLittleEndian, h]
  | succ width ih =>
      rw [Nat.pow_succ] at h
      rw [toLittleEndian, ofLittleEndian, ih (by omega), UInt8.toNat_ofNat']
      omega

theorem toLittleEndian_ofLittleEndian (digits : List UInt8) :
    toLittleEndian digits.length (ofLittleEndian digits) = digits := by
  induction digits with
  | nil => rfl
  | cons digit digits ih =>
      have hdigit := digit.toNat_lt
      have hlow : UInt8.ofNat (digit.toNat + 256 * ofLittleEndian digits) = digit := by
        apply UInt8.toNat_inj.mp
        rw [UInt8.toNat_ofNat']
        omega
      have hhigh : (digit.toNat + 256 * ofLittleEndian digits) / 256 = ofLittleEndian digits := by
        omega
      rw [List.length_cons, ofLittleEndian, toLittleEndian, hlow, hhigh, ih]

namespace Uleb128

/-- The groups of a number that fits are read back, whatever follows them. -/
theorem decodeGroups_encodeGroups {more value : Nat} (h : value < 128 ^ (more + 1))
    (rest : List UInt8) :
    decodeGroups more (encodeGroups more value ++ rest) =
      some (value, (encodeGroups more value).length) := by
  induction more generalizing value with
  | zero =>
      have hbyte : (UInt8.ofNat value).toNat = value := by
        rw [UInt8.toNat_ofNat']
        omega
      simp only [encodeGroups, List.singleton_append, decodeGroups, hbyte]
      simp
      omega
  | succ more ih =>
      rw [encodeGroups]
      split
      next hsmall =>
        have hbyte : (UInt8.ofNat value).toNat = value := by
          rw [UInt8.toNat_ofNat']
          omega
        have hlast : UInt8.ofNat value < 128 := by
          rw [UInt8.lt_iff_toNat_lt, hbyte]
          exact hsmall
        simp [decodeGroups, hlast, hbyte]
      next hlarge =>
        have hbyte : (UInt8.ofNat (value % 128 + 128)).toNat = value % 128 + 128 := by
          rw [UInt8.toNat_ofNat']
          omega
        have hmore : ¬UInt8.ofNat (value % 128 + 128) < 128 := by
          rw [UInt8.lt_iff_toNat_lt, hbyte]
          simp
        have hhigh : value / 128 < 128 ^ (more + 1) := by
          rw [Nat.pow_succ] at h
          omega
        have hvalue : (value % 128 + 128) % 128 + 128 * (value / 128) = value := by omega
        rw [List.cons_append, decodeGroups, if_neg hmore, ih hhigh, Option.map_some, hbyte,
          List.length_cons]
        simp only [hvalue]

/-- A number of 32 bits is read back from its shortest form, whatever follows it. -/
theorem decode_encode_append {value : Nat} (h : value < 2 ^ 32) (rest : List UInt8) :
    decode (encode value ++ rest) = some (value, (encode value).length) := by
  have hfits : value % 0x100000000 = value := Nat.mod_eq_of_lt (by omega)
  rw [decode, encode, decodeGroups_encodeGroups (by omega), Option.map_some]
  simp only [hfits]

/-- Only as many bytes as a number may take are looked at. -/
theorem decodeGroups_take (more : Nat) (bytes : List UInt8) :
    decodeGroups more (bytes.take (more + 1)) = decodeGroups more bytes := by
  induction more generalizing bytes with
  | zero => cases bytes <;> rfl
  | succ more ih =>
      cases bytes with
      | nil => rfl
      | cons byte bytes => rw [List.take_succ_cons, decodeGroups, decodeGroups, ih]

theorem decode_take (bytes : List UInt8) : decode (bytes.take 5) = decode bytes := by
  rw [decode, decode, decodeGroups_take]

/-- A number that ends within some bytes is not changed by those that follow. -/
theorem decodeGroups_append {groups : Nat} {bytes : List UInt8} {found : Nat × Nat}
    (h : decodeGroups groups bytes = some found) (rest : List UInt8) :
    decodeGroups groups (bytes ++ rest) = some found := by
  induction groups generalizing bytes found with
  | zero =>
      cases bytes with
      | nil => cases h
      | cons byte bytes => exact h
  | succ groups ih =>
      cases bytes with
      | nil => cases h
      | cons byte bytes =>
          rw [decodeGroups] at h
          rw [List.cons_append, decodeGroups]
          split
          next hlast => rwa [if_pos hlast] at h
          next hmore =>
            rw [if_neg hmore] at h
            obtain ⟨high, hhigh, heq⟩ := Option.map_eq_some_iff.mp h
            rw [ih hhigh, Option.map_some, heq]

/-- The groups of a number are decoded from the bytes that they take. -/
theorem decodeGroups_take_used {more : Nat} {bytes : List UInt8} {value used : Nat}
    (h : decodeGroups more bytes = some (value, used)) :
    decodeGroups more (bytes.take used) = some (value, used) := by
  induction more generalizing bytes value used with
  | zero =>
      cases bytes with
      | nil => cases h
      | cons byte bytes => cases h; rfl
  | succ more ih =>
      cases bytes with
      | nil => cases h
      | cons byte bytes =>
          rw [decodeGroups] at h
          split at h
          next hlast =>
            cases h
            rw [List.take_succ_cons, decodeGroups, if_pos hlast]
          next hmore =>
            obtain ⟨⟨high, rest⟩, hrest, heq⟩ := Option.map_eq_some_iff.mp h
            cases heq
            rw [List.take_succ_cons, decodeGroups, if_neg hmore, ih hrest, Option.map_some]

theorem decode_append {bytes : List UInt8} {found : Nat × Nat} (h : decode bytes = some found)
    (rest : List UInt8) : decode (bytes ++ rest) = some found := by
  obtain ⟨groups, hgroups, hfound⟩ := Option.map_eq_some_iff.mp h
  rw [decode, decodeGroups_append hgroups, Option.map_some, hfound]

theorem decode_take_used {bytes : List UInt8} {value used : Nat}
    (h : decode bytes = some (value, used)) : decode (bytes.take used) = some (value, used) := by
  obtain ⟨⟨whole, count⟩, hgroups, heq⟩ := Option.map_eq_some_iff.mp h
  cases heq
  rw [decode, decodeGroups_take_used hgroups, Option.map_some]

theorem decode_lt {bytes : List UInt8} {value used : Nat} (h : decode bytes = some (value, used)) :
    value < 2 ^ 32 := by
  obtain ⟨whole, -, heq⟩ := Option.map_eq_some_iff.mp h
  obtain ⟨rfl, -⟩ := Prod.mk.inj heq
  exact Nat.mod_lt _ (by decide)

end Uleb128

end Dalvik
