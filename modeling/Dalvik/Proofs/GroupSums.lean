import Dalvik.Proofs.Numbers
import Mathlib.Algebra.BigOperators.Fin
import Mathlib.Data.Nat.Bitwise
import Mathlib.Tactic.IntervalCases
import Mathlib.Tactic.Ring

/-!
# Sums of groups

A variable-length number is the sum of its groups, each at its place. The sum can be formed in a
word of 32 bits, byte by byte from the front: what is lost is lost where the fifth group is moved to
its place, and never in an addition.
-/

namespace Dalvik.Uleb128

/-! ## The number in closed form -/

/-- The sum of the groups of some bytes, the lowest group first. -/
def groupSum (bytes : List UInt8) : Nat :=
  ∑ place : Fin bytes.length, bytes[place].toNat % 128 * 2 ^ (7 * place.val)

@[simp]
theorem groupSum_nil : groupSum [] = 0 := rfl

theorem groupSum_cons (byte : UInt8) (bytes : List UInt8) :
    groupSum (byte :: bytes) = byte.toNat % 128 + 128 * groupSum bytes := by
  have hplace : ∀ place : Nat, 2 ^ (7 * (place + 1)) = 128 * 2 ^ (7 * place) := fun place => by
    rw [Nat.mul_succ, Nat.pow_add, Nat.mul_comm]
  simp only [groupSum, Finset.mul_sum]
  refine (Fin.sum_univ_succ _).trans (congrArg₂ (· + ·) (Nat.mul_one _) ?_)
  refine Finset.sum_congr rfl fun place _ => ?_
  simp only [Fin.val_succ, hplace]
  exact Nat.mul_left_comm _ _ _

theorem groupSum_lt (bytes : List UInt8) : groupSum bytes < 128 ^ bytes.length := by
  induction bytes with
  | nil => simp
  | cons byte bytes ih =>
      rw [groupSum_cons, List.length_cons, Nat.pow_succ]
      omega

theorem groupSum_append_singleton (bytes : List UInt8) (byte : UInt8) :
    groupSum (bytes ++ [byte]) = groupSum bytes + byte.toNat % 128 * 2 ^ (7 * bytes.length) := by
  induction bytes with
  | nil => simp [groupSum_cons]
  | cons first bytes ih =>
      rw [List.cons_append, groupSum_cons, groupSum_cons, ih, List.length_cons, Nat.mul_succ,
        Nat.pow_add, Nat.mul_add]
      ring

/-- How many bytes a number takes that may have `more` bytes after the first: all up to the first
byte without the top bit, if the limit is not met before. -/
def usedBytes (more : Nat) (bytes : List UInt8) : Nat :=
  min (more + 1) (bytes.findIdx (· < 128) + 1)

/-- The bytes end inside a number if there are too few of them and all have the top bit. -/
theorem decodeGroups_eq_none_iff {more : Nat} {bytes : List UInt8} :
    decodeGroups more bytes = none ↔
      bytes.length < more + 1 ∧ ∀ byte ∈ bytes, 128 ≤ byte := by
  induction bytes generalizing more with
  | nil => simp [decodeGroups]
  | cons byte bytes ih =>
      cases more with
      | zero => simp [decodeGroups]
      | succ more =>
          rw [decodeGroups]
          split
          next hlast => simp [hlast]
          next hmore => simp [ih, UInt8.not_lt.mp hmore]

/-- The groups of a number make up its value, and end with the byte that ends it. -/
theorem decodeGroups_eq_some {more : Nat} {bytes : List UInt8} {value used : Nat}
    (h : decodeGroups more bytes = some (value, used)) :
    used = usedBytes more bytes ∧ value = groupSum (bytes.take used) := by
  induction bytes generalizing more value used with
  | nil => simp [decodeGroups] at h
  | cons byte bytes ih =>
      cases more with
      | zero =>
          cases h
          simp [usedBytes, groupSum_cons]
      | succ more =>
          rw [decodeGroups] at h
          split at h
          next hlast =>
            cases h
            have hbyte : byte.toNat % 128 = byte.toNat :=
              Nat.mod_eq_of_lt (UInt8.lt_iff_toNat_lt.mp hlast)
            simp [usedBytes, groupSum_cons, List.findIdx_cons, hlast, hbyte]
          next hmore =>
            obtain ⟨⟨high, count⟩, hhigh, heq⟩ := Option.map_eq_some_iff.mp h
            cases heq
            obtain ⟨hcount, hvalue⟩ := ih hhigh
            refine ⟨?_, ?_⟩
            · simp only [usedBytes, List.findIdx_cons, hmore] at hcount ⊢
              simp; omega
            · rw [List.take_succ_cons, groupSum_cons, ← hvalue]

/-! ## The sum in a word -/

/-- The sum of the groups so far in a word of 32 bits, and how far the next group is moved up. -/
structure Accumulator where
  value : UInt32 := 0
  shift : UInt32 := 0

namespace Accumulator

/-- The group of a byte, moved to its place. Bits above the 32nd are dropped. -/
def addend (acc : Accumulator) (byte : UInt8) : UInt32 :=
  (byte &&& 0x7f).toUInt32 <<< acc.shift

/-- Adds the group of a byte, if its place is in the word. -/
def add (acc : Accumulator) (byte : UInt8) : Accumulator where
  value := if acc.shift < 32 then acc.value + acc.addend byte else acc.value
  shift := acc.shift + 7

/-- Adds groups up to the first byte without the top bit, or up to the fifth byte. The bytes before
those in the list are `count`. -/
def sumFrom : (count : Nat) → (acc : Accumulator) → List UInt8 → Option (UInt32 × Nat)
  | _, _, [] => none
  | count, acc, byte :: bytes =>
    if byte &&& 0x80 = 0 ∨ count = 4 then some ((acc.add byte).value, count + 1)
    else sumFrom (count + 1) (acc.add byte) bytes

/-- What has been summed after all of some bytes. -/
def after (bytes : List UInt8) : Accumulator :=
  bytes.foldl add {}

theorem after_append_singleton (bytes : List UInt8) (byte : UInt8) :
    after (bytes ++ [byte]) = (after bytes).add byte := by
  rw [after, List.foldl_append]
  rfl

theorem toNat_addend (acc : Accumulator) (byte : UInt8) (h : acc.shift < 32) :
    (acc.addend byte).toNat = byte.toNat % 128 * 2 ^ acc.shift.toNat % 2 ^ 32 := by
  have hshift : acc.shift.toNat % 32 = acc.shift.toNat := Nat.mod_eq_of_lt h
  have hgroup : byte.toNat &&& 0x7f = byte.toNat % 128 := Nat.and_two_pow_sub_one_eq_mod _ 7
  rw [addend, UInt32.toNat_shiftLeft, hshift, UInt8.toNat_toUInt32, UInt8.toNat_and,
    Nat.shiftLeft_eq]
  exact congrArg (fun group => group * 2 ^ acc.shift.toNat % 2 ^ 32) hgroup

/-- What an accumulator is once the groups of some bytes have been added to it. -/
structure Holds (acc : Accumulator) (bytes : List UInt8) : Prop where
  value : acc.value.toNat = groupSum bytes % 2 ^ 32
  shift : acc.shift.toNat = 7 * bytes.length

theorem Holds.shift_lt {acc : Accumulator} {bytes : List UInt8} (h : acc.Holds bytes)
    (hlength : bytes.length < 5) : acc.shift < 32 := by
  rw [UInt32.lt_iff_toNat_lt, h.shift]
  change 7 * bytes.length < 32
  omega

/-- The fifth group still fits on top of the four before it, once it has been cut to the word. -/
theorem Holds.not_wraps {acc : Accumulator} {bytes : List UInt8} (h : acc.Holds bytes)
    (hlength : bytes.length < 5) (byte : UInt8) :
    acc.value.toNat + (acc.addend byte).toNat < 2 ^ 32 := by
  have hlt := h.shift_lt hlength
  have hsum := groupSum_lt bytes
  have hgroup := Nat.mod_lt byte.toNat (by decide : 0 < 128)
  rw [toNat_addend acc byte hlt, h.value, h.shift]
  generalize byte.toNat % 128 = group at hgroup
  generalize bytes.length = count at hlength hsum
  interval_cases count <;> omega

theorem Holds.add {acc : Accumulator} {bytes : List UInt8} (h : acc.Holds bytes)
    (hlength : bytes.length < 5) (byte : UInt8) : (acc.add byte).Holds (bytes ++ [byte]) := by
  have hlt := h.shift_lt hlength
  have hexact := h.not_wraps hlength byte
  constructor
  · rw [Accumulator.add, if_pos hlt, UInt32.toNat_add, toNat_addend acc byte hlt, h.value,
      ← Nat.add_mod, groupSum_append_singleton, h.shift]
  · rw [Accumulator.add, UInt32.toNat_add, h.shift, List.length_append, List.length_singleton]
    change (7 * bytes.length + 7) % 2 ^ 32 = 7 * (bytes.length + 1)
    omega

theorem holds_after {bytes : List UInt8} (h : bytes.length ≤ 5) : (after bytes).Holds bytes := by
  induction bytes using List.reverseRecOn with
  | nil => exact ⟨rfl, rfl⟩
  | append_singleton bytes byte ih =>
      rw [List.length_append, List.length_singleton] at h
      rw [after_append_singleton]
      exact (ih (by omega)).add (by omega) byte

theorem topBit_eq_zero_iff {byte : UInt8} : byte &&& 0x80 = 0 ↔ byte < 128 := by
  have hbyte := byte.toNat_lt
  rw [← UInt8.toNat_inj, UInt8.lt_iff_toNat_lt, UInt8.toNat_and]
  change byte.toNat &&& 2 ^ 7 = 0 ↔ byte.toNat < 128
  rw [Nat.and_two_pow, Nat.testBit_eq_decide_div_mod_eq]
  by_cases hbit : byte.toNat / 2 ^ 7 % 2 = 1
  · simp only [hbit, decide_true, Bool.toNat_true]
    omega
  · simp only [hbit, decide_false, Bool.toNat_false]
    omega

/-- From where the sum stands after some bytes, it goes on as the groups of the bytes to come are
decoded. -/
theorem sumFrom_after (front : List UInt8) {more : Nat} (h : front.length + more = 4)
    (bytes : List UInt8) :
    sumFrom front.length (after front) bytes = (decodeGroups more bytes).map fun (_, used) =>
      ((after (front ++ bytes.take used)).value, front.length + used) := by
  induction bytes generalizing front more with
  | nil => simp [sumFrom, decodeGroups]
  | cons byte bytes ih =>
      simp only [sumFrom, topBit_eq_zero_iff, ← after_append_singleton]
      cases more with
      | zero => simp [decodeGroups, show front.length = 4 from h]
      | succ more =>
          have hcount : front.length ≠ 4 := by omega
          simp only [decodeGroups, hcount, or_false]
          split
          next hlast => simp
          next hmore =>
            have hlength : (front ++ [byte]).length + more = 4 := by
              rw [List.length_append, List.length_singleton]
              omega
            have hnext := ih (front ++ [byte]) hlength
            rw [List.length_append, List.length_singleton] at hnext
            rw [hnext, Option.map_map]
            refine congrFun (congrArg Option.map (funext fun found => ?_)) _
            simp only [Function.comp, List.take_succ_cons, List.append_assoc, List.singleton_append]
            rw [Nat.add_assoc, Nat.add_comm 1]

end Accumulator

/-! ## Whole numbers -/

theorem decode_eq_none_iff {bytes : List UInt8} :
    decode bytes = none ↔ bytes.length < 5 ∧ ∀ byte ∈ bytes, 128 ≤ byte := by
  rw [decode, Option.map_eq_none_iff, decodeGroups_eq_none_iff]

theorem decode_eq_some {bytes : List UInt8} {value used : Nat}
    (h : decode bytes = some (value, used)) :
    used = usedBytes 4 bytes ∧ value = groupSum (bytes.take used) % 2 ^ 32 := by
  obtain ⟨⟨whole, count⟩, hgroups, heq⟩ := Option.map_eq_some_iff.mp h
  cases heq
  obtain ⟨hused, hwhole⟩ := decodeGroups_eq_some hgroups
  exact ⟨hused, congrArg (· % 2 ^ 32) hwhole⟩

/-- The sum in a word is the number. -/
theorem Accumulator.sumFrom_eq_decode (bytes : List UInt8) :
    sumFrom 0 {} bytes = (decode bytes).map fun (value, used) => (UInt32.ofNat value, used) := by
  have hcount : ([] : List UInt8).length + 4 = 4 := rfl
  have hsum := sumFrom_after [] hcount bytes
  rw [decode, Option.map_map]
  refine hsum.trans ?_
  cases hgroups : decodeGroups 4 bytes with
  | none => rfl
  | some found =>
      obtain ⟨hused, hwhole⟩ := decodeGroups_eq_some hgroups
      have hlength : (bytes.take found.2).length ≤ 5 := by
        rw [List.length_take, hused, usedBytes]
        omega
      have hvalue : (after (bytes.take found.2)).value = UInt32.ofNat (found.1 % 0x100000000) := by
        apply UInt32.toNat_inj.mp
        rw [(holds_after hlength).value, ← hwhole, UInt32.toNat_ofNat']
        exact (Nat.mod_mod _ _).symm
      simp [hvalue]

/-- No more groups are written than a number needs. -/
theorem length_encodeGroups_le {more value count : Nat} (hcount : 0 < count)
    (h : value < 128 ^ count) : (encodeGroups more value).length ≤ count := by
  induction more generalizing value count with
  | zero => exact hcount
  | succ more ih =>
      rw [encodeGroups]
      split
      next => exact hcount
      next hlarge =>
        obtain ⟨count, rfl⟩ := Nat.exists_eq_add_of_lt hcount
        rw [Nat.zero_add] at h ⊢
        have hpos : 0 < count := by
          rcases Nat.eq_zero_or_pos count with rfl | hpos
          · omega
          · exact hpos
        rw [Nat.pow_succ] at h
        rw [List.length_cons]
        exact Nat.succ_le_succ (ih hpos (by omega))

/-- No bytes that are decoded as a number are fewer than those it is written as. -/
theorem length_encode_le {bytes : List UInt8} {value used : Nat}
    (h : decode bytes = some (value, used)) : (encode value).length ≤ used := by
  have hvalue := (decode_eq_some h).2
  have hpos := (decode_used h).1
  have hlt := groupSum_lt (bytes.take used)
  have hle : value ≤ groupSum (bytes.take used) := hvalue ▸ Nat.mod_le _ _
  rw [List.length_take_of_le (decode_used h).2] at hlt
  exact length_encodeGroups_le hpos (by omega)

/-- A number ends with the first byte without the top bit or with the fifth byte, and is missing if
there is neither. It is the sum of its groups in 32 bits. A sum in a word comes to the same, and
none of its additions overflows. No byte after the number matters, and the shortest form of every
word is read back. -/
theorem decode_sums_groups (bytes : List UInt8) :
    (decode bytes = none ↔ bytes.length < 5 ∧ ∀ byte ∈ bytes, 128 ≤ byte) ∧
    (∀ value used, decode bytes = some (value, used) →
      used = min 5 (bytes.findIdx (· < 128) + 1) ∧
      value = (∑ place : Fin (bytes.take used).length,
        (bytes.take used)[place].toNat % 128 * 2 ^ (7 * place.val)) % 2 ^ 32 ∧
      (∀ place (h : place < bytes.length), place < used →
        let before := Accumulator.after (bytes.take place)
        before.value.toNat + (before.addend bytes[place]).toNat < 2 ^ 32) ∧
      ∀ other, bytes.take used <+: other → decode other = some (value, used)) ∧
    (Accumulator.sumFrom 0 {} bytes =
      (decode bytes).map fun (value, used) => (UInt32.ofNat value, used)) ∧
    ∀ (word : UInt32) (tail : List UInt8),
      decode (encode word.toNat ++ tail) = some (word.toNat, (encode word.toNat).length) ∧
      ∀ form used, decode form = some (word.toNat, used) → (encode word.toNat).length ≤ used := by
  refine ⟨decode_eq_none_iff, ?number, Accumulator.sumFrom_eq_decode bytes, ?word⟩
  case number =>
    intro value used h
    obtain ⟨hused, hvalue⟩ := decode_eq_some h
    refine ⟨hused, hvalue, ?_, ?_⟩
    · intro place hplace hlt
      have hlength : (bytes.take place).length < 5 := by
        rw [List.length_take_of_le (Nat.le_of_lt hplace)]
        rw [usedBytes] at hused
        omega
      exact (Accumulator.holds_after (Nat.le_of_lt hlength)).not_wraps hlength _
    · rintro _ ⟨rest, rfl⟩
      exact decode_append (decode_take_used h) rest
  case word =>
    intro word tail
    exact ⟨decode_encode_append word.toNat_lt tail, fun form used h => length_encode_le h⟩

/-- A number of seven bytes that all but the last have the top bit: five of them count, and of the
fifth only four bits. -/
theorem decode_sums_groups_overlong :
    decode [0xff, 0x80, 0xff, 0x80, 0xff, 0xff, 0x01] = some (0xf01fc07f, 5) ∧
    Accumulator.sumFrom 0 {} [0xff, 0x80, 0xff, 0x80, 0xff, 0xff, 0x01] = some (0xf01fc07f, 5) ∧
    decode [0xff, 0x80, 0xff, 0x80, 0xff, 0x00] = some (0xf01fc07f, 5) ∧
    (encode 0xf01fc07f).length ≤ 5 := by
  have hdecode : decode [0xff, 0x80, 0xff, 0x80, 0xff, 0xff, 0x01] = some (0xf01fc07f, 5) := by
    decide
  obtain ⟨-, hnumber, hsum, hword⟩ := decode_sums_groups [0xff, 0x80, 0xff, 0x80, 0xff, 0xff, 0x01]
  obtain ⟨-, -, -, hother⟩ := hnumber _ _ hdecode
  refine ⟨hdecode, ?_, hother _ ⟨[0x00], rfl⟩, (hword 0xf01fc07f []).2 _ _ hdecode⟩
  rw [hsum, hdecode]
  rfl

end Dalvik.Uleb128
