import Mathlib.Algebra.Group.Nat.Defs
import Mathlib.Tactic.Common
import Mathlib.Data.List.Basic
import Mathlib.Data.List.GetD

/-!
# `ZfsBoot.Lib.Word`: machine words over `Nat`, and the bytes they are read from

The C and Go sources compute in `uint8_t`, `uint16_t`, `uint32_t` and `uint64_t`. The models
keep every value in `Nat` and write the wrap-around out, at exactly the places where the
source type forces it: `u8`, `u16`, `u32` and `u64` are the reductions. A value that is
already in range passes through (`u32_of_lt` and its siblings), so a proof discharges a
wrap by bounding the operand once.

Little-endian and big-endian loads come from byte lists. A load past the end of the list
reads zeros. The models only load from whole sectors, so no claim rests on that default.
-/

set_option autoImplicit false

namespace ZfsBoot.Lib

variable (bs : List UInt8) {n : Nat}

/-- Conversion to `uint8_t`. -/
def u8 (n : Nat) : Nat := n % 2 ^ 8

/-- Conversion to `uint16_t`. -/
def u16 (n : Nat) : Nat := n % 2 ^ 16

/-- Conversion to `uint32_t`. -/
def u32 (n : Nat) : Nat := n % 2 ^ 32

/-- Conversion to `uint64_t`. -/
def u64 (n : Nat) : Nat := n % 2 ^ 64

theorem u16_lt (n : Nat) : u16 n < 2 ^ 16 := Nat.mod_lt _ (by decide)

theorem u32_lt (n : Nat) : u32 n < 2 ^ 32 := Nat.mod_lt _ (by decide)

theorem u64_lt (n : Nat) : u64 n < 2 ^ 64 := Nat.mod_lt _ (by decide)

theorem u8_of_lt (h : n < 2 ^ 8) : u8 n = n := Nat.mod_eq_of_lt h

theorem u16_of_lt (h : n < 2 ^ 16) : u16 n = n := Nat.mod_eq_of_lt h

theorem u32_of_lt (h : n < 2 ^ 32) : u32 n = n := Nat.mod_eq_of_lt h

theorem u64_of_lt (h : n < 2 ^ 64) : u64 n = n := Nat.mod_eq_of_lt h

theorem u16_le (n : Nat) : u16 n ≤ n := Nat.mod_le _ _

theorem u32_le (n : Nat) : u32 n ≤ n := Nat.mod_le _ _

theorem u64_le (n : Nat) : u64 n ≤ n := Nat.mod_le _ _

/-- Adding before or after an inner wrap is the same: `lba += n` in a loop agrees with one
addition of the total. -/
theorem u64_add_u64 (a b : Nat) : u64 (u64 a + b) = u64 (a + b) := by
  simp [u64]

theorem u32_add_u32 (a b : Nat) : u32 (u32 a + b) = u32 (a + b) := by
  simp [u32]

/-! ### Bytes -/

/-- A property of all bytes, checked for each. -/
theorem forall_uint8 {p : UInt8 → Prop} (h : ∀ n : Fin 256, p (UInt8.ofNat n.val)) (c : UInt8) :
    p c := by
  have hc := h ⟨c.toNat, c.toNat_lt⟩
  rwa [UInt8.ofNat_toNat] at hc

/-! ### Loads -/

/-- The byte at position `i`, as a number. -/
def byteAt (bs : List UInt8) (i : Nat) : Nat := (bs.getD i 0).toNat

theorem byteAt_lt (i : Nat) : byteAt bs i < 2 ^ 8 :=
  (bs.getD i 0).toNat_lt

/-- A little-endian 16-bit load. -/
def le16 (bs : List UInt8) (i : Nat) : Nat := byteAt bs i + 2 ^ 8 * byteAt bs (i + 1)

/-- A little-endian 32-bit load. -/
def le32 (bs : List UInt8) (i : Nat) : Nat := le16 bs i + 2 ^ 16 * le16 bs (i + 2)

/-- A little-endian 64-bit load. -/
def le64 (bs : List UInt8) (i : Nat) : Nat := le32 bs i + 2 ^ 32 * le32 bs (i + 4)

/-- A big-endian 32-bit load. -/
def be32 (bs : List UInt8) (i : Nat) : Nat :=
  2 ^ 24 * byteAt bs i + 2 ^ 16 * byteAt bs (i + 1) + 2 ^ 8 * byteAt bs (i + 2) + byteAt bs (i + 3)

theorem le16_lt (i : Nat) : le16 bs i < 2 ^ 16 := by
  have h0 := byteAt_lt bs i
  have h1 := byteAt_lt bs (i + 1)
  unfold le16
  omega

theorem le32_lt (i : Nat) : le32 bs i < 2 ^ 32 := by
  have h0 := le16_lt bs i
  have h1 := le16_lt bs (i + 2)
  unfold le32
  omega

theorem le64_lt (i : Nat) : le64 bs i < 2 ^ 64 := by
  have h0 := le32_lt bs i
  have h1 := le32_lt bs (i + 4)
  unfold le64
  omega

/-! ### Stores -/

/-- The four bytes of a little-endian 32-bit store. -/
def le32Bytes (n : Nat) : List UInt8 :=
  [UInt8.ofNat n, UInt8.ofNat (n / 2 ^ 8), UInt8.ofNat (n / 2 ^ 16), UInt8.ofNat (n / 2 ^ 24)]

/-- A load gives back what was stored, wherever it stands. -/
theorem le32_le32Bytes (before after : List UInt8) {i : Nat} (hi : before.length = i)
    (h : n < 2 ^ 32) : le32 (before ++ (le32Bytes n ++ after)) i = n := by
  subst hi
  simp only [le32, le16, byteAt, le32Bytes, Nat.add_assoc, List.getD_append_right _ _ _ _
    (Nat.le_add_right _ _), List.getD_append_right _ _ _ _ (Nat.le_refl _),
    Nat.add_sub_cancel_left, Nat.sub_self]
  simp only [List.cons_append, List.getD_cons_zero, List.getD_cons_succ, UInt8.toNat_ofNat']
  omega

end ZfsBoot.Lib
