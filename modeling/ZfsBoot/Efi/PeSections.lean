import Mathlib.Algebra.Group.Nat.Defs

/-!
# `ZfsBoot.Efi.PeSections`: a section of the running image

The model of `efi/pe_sections.c`. The image is the memory from `image_base` on, also behind its end,
and a pointer into it is an offset. No sum of the source wraps in a `UINTN` of 64 bits: `e_lfanew`
has 32 bits, and what is added to it 22.
-/

set_option autoImplicit false

namespace ZfsBoot.Efi

/-- `read_u16`. -/
def readU16 (image : Nat → UInt8) (p : Nat) : Nat := (image p).toNat + 2 ^ 8 * (image (p + 1)).toNat

/-- `read_u32`. -/
def readU32 (image : Nat → UInt8) (p : Nat) : Nat :=
  readU16 image p + 2 ^ 16 * readU16 image (p + 2)

/-- `name_matches`; `want` is the string before its NUL. -/
def nameMatches (image : Nat → UInt8) (raw : Nat) (want : List UInt8) : Bool :=
  want.length ≤ 8 && (List.range 8).all fun i => image (raw + i) == want.getD i 0

/-- `pe_section_t`. -/
structure PeSection where
  data : Nat
  size : Nat

/-- The statuses of `pe_find_section` other than `EFI_SUCCESS`. -/
inductive EfiStatus where
  | loadError
  | notFound

/-- The loop over the section headers, from header `i` on, with `left` headers to go. -/
def findSection (image : Nat → UInt8) (size : Nat) (name : List UInt8) (sectionsOff : Nat) :
    (left i : Nat) → Except EfiStatus PeSection
  | 0, _ => .error .notFound
  | left + 1, i =>
    let sh := sectionsOff + i * 40
    if sh > size ∨ size - sh < 40 then .error .notFound
    else if ¬ nameMatches image sh name then findSection image size name sectionsOff left (i + 1)
    else
      let va := readU32 image (sh + 12)
      let vsize := readU32 image (sh + 8)
      if va > size ∨ size - va < vsize then .error .loadError
      else .ok ⟨va, vsize⟩

/-- `pe_find_section`. -/
def peFindSection (image : Nat → UInt8) (size : Nat) (name : List UInt8) :
    Except EfiStatus PeSection :=
  if size < 0x3C + 4 then .error .loadError
  else if readU16 image 0 ≠ 0x5A4D then .error .loadError
  else
    let ntHeader := readU32 image 0x3C
    if ntHeader > size ∨ size - ntHeader < 4 + 20 then .error .loadError
    else if readU32 image ntHeader ≠ 0x00004550 then .error .loadError
    else
      let sectionsOff := ntHeader + 4 + 20 + readU16 image (ntHeader + 4 + 16)
      if sectionsOff > size then .error .loadError
      else findSection image size name sectionsOff (readU16 image (ntHeader + 4 + 2)) 0

end ZfsBoot.Efi
