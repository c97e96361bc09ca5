import Mathlib.Tactic.Common
import ZfsBoot.Efi.PeSections

/-!
# `ZfsBoot.Proofs.Efi.PeSections`: the section that `pe_find_section` returns

The loop has passed over the headers before `i`, none of which has the name. So the first header it
stops at is the first one with the name; and the headers behind one that is not inside the image are
not inside it either.
-/

set_option autoImplicit false

namespace ZfsBoot.Proofs.Efi

open ZfsBoot.Efi

variable {image : Nat → UInt8} {size : Nat} {name : List UInt8}

/-- The section headers that the image claims to have. -/
def claimed (image : Nat → UInt8) : Nat := readU16 image (readU32 image 0x3C + 4 + 2)

/-- Where section header `k` starts. -/
def headerOff (image : Nat → UInt8) (k : Nat) : Nat :=
  readU32 image 0x3C + 4 + 20 + readU16 image (readU32 image 0x3C + 4 + 16) + k * 40

/-- Header `k` has the name, padded with NULs to 8 bytes. -/
def Named (image : Nat → UInt8) (name : List UInt8) (k : Nat) : Prop :=
  ∀ j < 8, image (headerOff image k + j) = name.getD j 0

/-- What each outcome says. -/
def Says (image : Nat → UInt8) (size : Nat) (name : List UInt8) : Except EfiStatus PeSection → Prop
  | .ok sec => sec.data + sec.size ≤ size ∧ ∃ k < claimed image, headerOff image k + 40 ≤ size ∧
      Named image name k ∧ (∀ j < k, ¬ Named image name j) ∧
      sec = ⟨readU32 image (headerOff image k + 12), readU32 image (headerOff image k + 8)⟩
  | .error .notFound => ∀ k < claimed image, headerOff image k + 40 ≤ size → ¬ Named image name k
  | .error .loadError => True

theorem nameMatches_iff (hname : name.length ≤ 8) (k : Nat) :
    nameMatches image (headerOff image k) name = true ↔ Named image name k := by
  simp [nameMatches, hname, Named]

theorem findSection_says (hname : name.length ≤ 8) {left i : Nat} (hleft : i + left = claimed image)
    (hbefore : ∀ j < i, ¬ Named image name j) :
    Says image size name (findSection image size name (headerOff image 0) left i) := by
  induction left generalizing i with
  | zero => exact fun k hk _ => hbefore k (by omega)
  | succ left ih =>
    have hoff : headerOff image 0 + i * 40 = headerOff image i := by
      unfold headerOff
      omega
    rw [findSection, hoff]
    dsimp only
    split_ifs with hout hmatch hbad
    · -- the headers from here on are not inside the image
      intro k hk hin
      refine hbefore k (Nat.lt_of_not_le fun hik => ?_)
      have hle : headerOff image i ≤ headerOff image k := by
        unfold headerOff
        omega
      omega
    · trivial
    · refine ⟨?_, i, by omega, by omega, (nameMatches_iff hname i).1 hmatch, hbefore, rfl⟩
      show readU32 image _ + readU32 image _ ≤ size
      omega
    · rw [nameMatches_iff hname] at hmatch
      refine ih (by omega) fun j hj hnamed => ?_
      rcases Nat.lt_succ_iff_lt_or_eq.1 hj with hlt | rfl
      · exact hbefore j hlt hnamed
      · exact hmatch hnamed

/-- A section that `pe_find_section` returns lies inside the image, and is the virtual range of the
first header with that name; and if it finds none, no claimed header inside the image has the
name. -/
theorem peFindSection_says (image : Nat → UInt8) (size : Nat) (hname : name.length ≤ 8) :
    Says image size name (peFindSection image size name) := by
  have hrun : Says image size name (findSection image size name (headerOff image 0) (claimed image) 0) :=
    findSection_says hname (Nat.zero_add _) fun _ hj => absurd hj (Nat.not_lt_zero _)
  unfold peFindSection
  dsimp only
  split_ifs
  · trivial
  · trivial
  · trivial
  · trivial
  · trivial
  · exact hrun

/-- An image with one section, `.a`, of 4 bytes at its start. -/
def oneSection : Nat → UInt8
  | 0x00 => 0x4D
  | 0x01 => 0x5A
  | 0x3C => 0x40
  | 0x40 => 0x50
  | 0x41 => 0x45
  | 0x46 => 1
  | 0x58 => 0x2E
  | 0x59 => 0x61
  | 0x60 => 4
  | _ => 0

theorem peFindSection_says_oneSection :
    peFindSection oneSection 128 [0x2E, 0x61] = .ok ⟨0, 4⟩ ∧
      Says oneSection 128 [0x2E, 0x61] (peFindSection oneSection 128 [0x2E, 0x61]) :=
  ⟨rfl, peFindSection_says oneSection 128 (by decide)⟩

end ZfsBoot.Proofs.Efi
