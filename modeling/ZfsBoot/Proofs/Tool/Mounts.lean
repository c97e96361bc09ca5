import ZfsBoot.Tool.BootEnv

/-!
# `ZfsBoot.Proofs.Tool.Mounts`: the fields of `/proc/self/mounts`

`unescapeMountField` undoes the kernel's escaping. It replaces the four escapes one after the other
in the whole field, and still no pass meets what an earlier one put in: until the last pass a
backslash in the field is always the first byte of one of the kernel's escapes.
-/

set_option autoImplicit false

namespace ZfsBoot.Proofs.Tool.Mounts

open Lib ZfsBoot.Tool

/-- What the kernel writes for a byte of a mount field. -/
def escaped (c : UInt8) : List UInt8 :=
  if c = 0x20 then [0x5C, 0x30, 0x34, 0x30]
  else if c = 0x09 then [0x5C, 0x30, 0x31, 0x31]
  else if c = 0x0A then [0x5C, 0x30, 0x31, 0x32]
  else if c = 0x5C then [0x5C, 0x31, 0x33, 0x34]
  else [c]

/-- The bytes as they stand after the first `n` passes. -/
def passed (n : Nat) (c : UInt8) : List UInt8 :=
  (mountFieldEscapes.take n).foldl (fun code e => if code = e.1 then e.2 else code) (escaped c)

theorem isCode_passed (n : Fin 4) (c : UInt8) : IsCode 0x5C 3 (passed n.val c) := by
  have hall : ∀ c, ∀ n : Fin 4, IsCode 0x5C 3 (passed n.val c) := forall_uint8 (by decide +kernel)
  exact hall c n

/-- Reading a field gives back what the kernel escaped. -/
theorem unescapeMountField_escaped (s : List UInt8) :
    unescapeMountField (s.flatMap escaped) = s := by
  have h1 : replaceAll [0x5C, 0x30, 0x34, 0x30] [0x20] 0 (s.flatMap (passed 0))
      = s.flatMap (passed 1) := replaceAll_flatMap (isCode_passed 0) s
  have h2 : replaceAll [0x5C, 0x30, 0x31, 0x31] [0x09] 0 (s.flatMap (passed 1))
      = s.flatMap (passed 2) := replaceAll_flatMap (isCode_passed 1) s
  have h3 : replaceAll [0x5C, 0x30, 0x31, 0x32] [0x0A] 0 (s.flatMap (passed 2))
      = s.flatMap (passed 3) := replaceAll_flatMap (isCode_passed 2) s
  have h4 : replaceAll [0x5C, 0x31, 0x33, 0x34] [0x5C] 0 (s.flatMap (passed 3))
      = s.flatMap (passed 4) := replaceAll_flatMap (isCode_passed 3) s
  have hall : ∀ c, passed 4 c = [c] := forall_uint8 (by decide +kernel)
  show replaceAll [0x5C, 0x31, 0x33, 0x34] [0x5C] 0 (replaceAll [0x5C, 0x30, 0x31, 0x32] [0x0A] 0
    (replaceAll [0x5C, 0x30, 0x31, 0x31] [0x09] 0 (replaceAll [0x5C, 0x30, 0x34, 0x30] [0x20] 0
      (s.flatMap (passed 0))))) = s
  rw [h1, h2, h3, h4, funext hall, List.flatMap_singleton']

end ZfsBoot.Proofs.Tool.Mounts
