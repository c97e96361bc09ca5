import ZfsBoot.Lib.Word

/-!
# `ZfsBoot.Lib.Memory`: ranges of a 32-bit address space

A memory is a function from addresses to bytes. A range is given by its first address and its
length, and its addresses are computed in 32 bits. `SameOutside` says that two memories differ in
a range at most; it is how a routine's frame is stated.
-/

set_option autoImplicit false

namespace ZfsBoot.Lib

variable (ram : Nat → UInt8) {phys len : Nat} {r r' : Nat → UInt8}

/-- `len` bytes from physical address `phys` on, in a 32-bit address space. -/
def ramBytes (ram : Nat → UInt8) (phys len : Nat) : List UInt8 :=
  (List.range len).map fun i => ram (u32 (phys + i))

theorem length_ramBytes (phys len : Nat) : (ramBytes ram phys len).length = len := by
  rw [ramBytes, List.length_map, List.length_range]

theorem ramBytes_add (phys a b : Nat) :
    ramBytes ram phys (a + b) = ramBytes ram phys a ++ ramBytes ram (phys + a) b := by
  simp only [ramBytes, List.range_add, List.map_append, List.map_map, Nat.add_assoc]
  rfl

/-- An address computed in 32 bits names the same bytes. -/
theorem ramBytes_u32 (base x len : Nat) :
    ramBytes ram (base + u32 x) len = ramBytes ram (base + x) len := by
  refine List.map_congr_left fun i _ => ?_
  have hwrap : u32 (base + u32 x + i) = u32 (base + x + i) := by
    unfold u32
    omega
  rw [hwrap]

theorem ramBytes_congr {ram ram' : Nat → UInt8}
    (h : ∀ i, i < len → ram (u32 (phys + i)) = ram' (u32 (phys + i))) :
    ramBytes ram phys len = ramBytes ram' phys len :=
  List.map_congr_left fun i hi => h i (List.mem_range.mp hi)

/-- The two memories are the same outside the `len` bytes from `phys` on. -/
def SameOutside (phys len : Nat) (r r' : Nat → UInt8) : Prop :=
  ∀ a, (∀ i, i < len → a ≠ u32 (phys + i)) → r' a = r a

theorem SameOutside.refl (phys len : Nat) (r : Nat → UInt8) : SameOutside phys len r r :=
  fun _ _ => rfl

theorem SameOutside.trans {r'' : Nat → UInt8}
    (h₁ : SameOutside phys len r r') (h₂ : SameOutside phys len r' r'') :
    SameOutside phys len r r'' :=
  fun a ha => (h₂ a ha).trans (h₁ a ha)

/-- A part of a range. -/
theorem SameOutside.widen {off n : Nat}
    (h : SameOutside (u32 (phys + off)) n r r') (hle : off + n ≤ len) :
    SameOutside phys len r r' := by
  refine fun a ha => h a fun i hi => ?_
  rw [u32_add_u32, Nat.add_assoc]
  exact ha (off + i) (by omega)

/-- A range that another one does not reach keeps its bytes. -/
theorem SameOutside.ramBytes_eq {phys' len' : Nat} (h : SameOutside phys len r r')
    (hdisj : ∀ i, i < len → ∀ j, j < len' → u32 (phys' + j) ≠ u32 (phys + i)) :
    ramBytes r' phys' len' = ramBytes r phys' len' :=
  ramBytes_congr fun j hj => h _ fun i hi => hdisj i hi j hj

end ZfsBoot.Lib
