import ZfsBoot.Lib.Word

/-!
# `ZfsBoot.Bios.E820`: the memory map and the checks against it

The model of `bios/e820.c` and `bios/e820_range.c`. The BIOS may answer the queries for the map
in any way.
-/

set_option autoImplicit false

namespace ZfsBoot.Bios

open Lib

/-! ### The map -/

/-- `struct boot_e820_entry`. -/
structure E820Entry where
  addr : Nat
  size : Nat
  type : Nat

/-- `E820_TYPE_RAM`. -/
def e820TypeRam : Nat := 1

/-- What one INT 15h, EAX=E820h leaves: the carry flag, EAX, ECX, EBX and the buffer. -/
structure E820Answer where
  failed : Bool
  signature : Nat
  bytesReturned : Nat
  continuation : Nat
  entry : E820Entry

/-- The BIOS: the answer to call number `calls`, made with a continuation value. -/
abbrev E820Bios := (calls continuation : Nat) → E820Answer

/-- `E820_MAX_CALLS`. -/
def e820MaxCalls : Nat := 256

/-- The loop of `e820_get_map`, with the calls it may still make. -/
def e820Loop (bios : E820Bios) (max : Nat) : Nat → Nat → List E820Entry → List E820Entry
  | 0, _, entries => entries
  | left + 1, continuation, entries =>
    if entries.length ≥ max then entries
    else
      let a := bios (e820MaxCalls - (left + 1)) continuation
      if a.failed ∨ a.signature ≠ 0x534D4150 then entries
      else
        let entries := if a.bytesReturned ≥ 20 then entries ++ [a.entry] else entries
        if a.continuation = 0 then entries else e820Loop bios max left a.continuation entries

/-- `e820_get_map`. -/
def e820GetMap (bios : E820Bios) (max : Nat) : List E820Entry := e820Loop bios max e820MaxCalls 0 []

/-! ### Ranges -/

/-- `end_of`: the end of a range, or the largest address if it wraps. -/
def endOf (addr size : Nat) : Nat :=
  if u64 (addr + size) < addr then 2 ^ 64 - 1 else u64 (addr + size)

/-- `e820_ranges_overlap`. -/
def e820RangesOverlap (a alen b blen : Nat) : Bool :=
  if alen = 0 ∨ blen = 0 then false else a < endOf b blen ∧ b < endOf a alen

/-- `E820_RANGE_*`. -/
inductive E820Range where
  | ok | notRam | reserved | beyondRam
  deriving DecidableEq

/-- One entry of the search for the RAM that goes on at `cur`. -/
def reachFrom (cur best : Nat) (e : E820Entry) : Nat :=
  if e.type ≠ e820TypeRam ∨ e.size = 0 then best
  else if e.addr ≤ cur ∧ cur < endOf e.addr e.size ∧ endOf e.addr e.size > best then
    endOf e.addr e.size
  else best

/-- `best`: how far RAM goes on from `cur`. -/
def reach (map : List E820Entry) (cur : Nat) : Nat := map.foldl (reachFrom cur) cur

theorem le_foldl_reachFrom (cur : Nat) (map : List E820Entry) :
    ∀ best, best ≤ map.foldl (reachFrom cur) best := by
  induction map with
  | nil => exact fun best => Nat.le_refl best
  | cons e map ih =>
    intro best
    refine Nat.le_trans ?_ (ih _)
    unfold reachFrom
    split_ifs <;> omega

theorem le_reach (map : List E820Entry) (cur : Nat) : cur ≤ reach map cur :=
  le_foldl_reachFrom cur map cur

/-- `top`: the end of the highest RAM entry. -/
def ramTop (map : List E820Entry) : Nat :=
  map.foldl (fun top e =>
    if e.type = e820TypeRam ∧ endOf e.addr e.size > top then endOf e.addr e.size else top) 0

/-- The walk of `e820_range_check` over RAM, from `cur` to `stop`: the first address that is not
RAM, or none. -/
def ramWalk (map : List E820Entry) (stop cur : Nat) : Option Nat :=
  if cur < stop then
    if reach map cur = cur then some cur else ramWalk map stop (reach map cur)
  else none
termination_by stop - cur
decreasing_by
  have := le_reach map cur
  omega

/-- The first entry of another type that the range overlaps, and the address reported for it. -/
def reservedAt (map : List E820Entry) (start len : Nat) : Option Nat :=
  (map.find? fun e => e.type ≠ e820TypeRam ∧ e820RangesOverlap start len e.addr e.size).map
    fun e => if e.addr > start then e.addr else start

/-- `e820_range_check`: its result and `*bad`. -/
def e820RangeCheck (map : List E820Entry) (start len : Nat) : E820Range × Nat :=
  let stop := u64 (start + len)
  if len = 0 then (.ok, start)
  else if stop < start then (.notRam, start)
  else
    match ramWalk map stop start with
    | some cur => (if cur ≥ ramTop map then .beyondRam else .notRam, cur)
    | none =>
      match reservedAt map start len with
      | some bad => (.reserved, bad)
      | none => (.ok, start)

/-! ### The kernel's own range -/

/-- The fields of `struct setup_header` that the loader looks at. -/
structure SetupHeader where
  setupSects : Nat
  bootFlag : Nat
  header : Nat
  version : Nat
  code32Start : Nat
  initrdAddrMax : Nat
  kernelAlignment : Nat
  relocatableKernel : Nat
  prefAddress : Nat
  initSize : Nat

/-- `SETUP_HEADER_FILE_OFFSET`. -/
def setupHeaderFileOffset : Nat := 0x1F1

/-- `SETUP_HEADER_FILE_OFFSET + sizeof(struct setup_header)`. -/
def setupHeaderEnd : Nat := setupHeaderFileOffset + 123

/-- The header of a kernel file, from its first `setupHeaderEnd` bytes. -/
def setupHeader (file : List UInt8) : SetupHeader where
  setupSects := byteAt file 0x1F1
  bootFlag := le16 file 0x1FE
  header := le32 file 0x202
  version := le16 file 0x206
  code32Start := le32 file 0x214
  initrdAddrMax := le32 file 0x22C
  kernelAlignment := le32 file 0x230
  relocatableKernel := byteAt file 0x234
  prefAddress := le64 file 0x258
  initSize := le32 file 0x260

/-- `kernel_runtime_range`: where the kernel will live, if its protocol says so. -/
def kernelRuntimeRange (h : SetupHeader) (loadAddr : Nat) : Option (Nat × Nat) :=
  if h.version < 0x020A ∨ h.initSize = 0 then none
  else if h.relocatableKernel ≠ 0 then
    let a := if loadAddr < h.prefAddress then h.prefAddress else loadAddr
    if h.kernelAlignment ≠ 0 ∧ h.kernelAlignment &&& (h.kernelAlignment - 1) = 0 then
      -- the mask of a power of two clears what is below it
      some (u64 (a + h.kernelAlignment - 1) / h.kernelAlignment * h.kernelAlignment, h.initSize)
    else some (a, h.initSize)
  else some (h.prefAddress, h.initSize)

end ZfsBoot.Bios
