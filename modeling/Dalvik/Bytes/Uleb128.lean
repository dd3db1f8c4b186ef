/-!
# Unsigned LEB128

A 32-bit number in groups of seven bits, the lowest group first. The top bit of a byte says that
another group follows; the fifth byte ends the number whatever its top bit says, and bits above the
32nd are dropped.
-/

namespace Dalvik.Uleb128

/-- The value of the groups at the front of `bytes` and how many bytes they take, when at most
`more` bytes may follow the first. -/
def decodeGroups : (more : Nat) → (bytes : List UInt8) → Option (Nat × Nat)
  | _, [] => none
  | 0, byte :: _ => some (byte.toNat % 128, 1)
  | more + 1, byte :: bytes =>
    if byte < 128 then some (byte.toNat, 1)
    else
      (decodeGroups more bytes).map fun (high, used) => (byte.toNat % 128 + 128 * high, used + 1)

/-- The number at the front of `bytes` and how many bytes it takes, or nothing if the bytes end
inside it. -/
def decode (bytes : List UInt8) : Option (Nat × Nat) :=
  (decodeGroups 4 bytes).map fun (value, used) => (value % 0x100000000, used)

/-- The groups of a number below `128 ^ (more + 1)`, without a superfluous last group. -/
def encodeGroups : (more : Nat) → (value : Nat) → List UInt8
  | 0, value => [UInt8.ofNat value]
  | more + 1, value =>
    if value < 128 then [UInt8.ofNat value]
    else UInt8.ofNat (value % 128 + 128) :: encodeGroups more (value / 128)

/-- The shortest form of a number below `2 ^ 32`. -/
def encode (value : Nat) : List UInt8 :=
  encodeGroups 4 value

/-- A decoded number took at least one byte, and no more than there were. -/
theorem decodeGroups_used {more : Nat} {bytes : List UInt8} {value used : Nat}
    (h : decodeGroups more bytes = some (value, used)) : 0 < used ∧ used ≤ bytes.length := by
  induction bytes generalizing more value used with
  | nil => cases more <;> simp [decodeGroups] at h
  | cons byte bytes ih =>
      cases more with
      | zero => simp [decodeGroups] at h; simp [← h.2]
      | succ more =>
          rw [decodeGroups] at h
          split at h
          · simp at h; simp [← h.2]
          · obtain ⟨⟨high, rest⟩, hrest, heq⟩ := Option.map_eq_some_iff.mp h
            obtain ⟨-, rfl⟩ := Prod.mk.inj heq
            have := ih hrest
            simp; omega

theorem decode_used {bytes : List UInt8} {value used : Nat}
    (h : decode bytes = some (value, used)) : 0 < used ∧ used ≤ bytes.length := by
  obtain ⟨⟨whole, count⟩, hgroups, heq⟩ := Option.map_eq_some_iff.mp h
  obtain ⟨-, rfl⟩ := Prod.mk.inj heq
  exact decodeGroups_used hgroups

end Dalvik.Uleb128
