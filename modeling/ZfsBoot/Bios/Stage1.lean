import ZfsBoot.Lib.Loop
import ZfsBoot.Lib.Word

/-!
# `ZfsBoot.Bios.Stage1`: what stage1 checks before it jumps

The model of the checks in `bios/stage1.S`, from the point where the whole stage2 region is in
memory at `STAGE2_SEGMENT:0`. `%ds` points there, so an address is an offset into the region.
-/

set_option autoImplicit false

namespace ZfsBoot.Bios.Stage1

open Lib

/-- `STAGE2_MAGIC`. -/
def stage2Magic : Nat := 0x325a

/-- `STAGE2_SUM_MARKER`. -/
def stage2SumMarker : Nat := 0x5331

/-- `STAGE2_LEN_OFFSET`. -/
def stage2LenOffset : Nat := 6

/-- `STAGE2_MAX_WORDS`. -/
def stage2MaxWords : Nat := 64 * 512 / 2

/-- Where the code ends up: in stage2, or at `read_failed` with a `!` on the screen. -/
inductive Exit where
  | jump
  | readFailed
  deriving DecidableEq, Repr

/-- The registers that `sum_loop` works with. -/
structure SumRegs where
  cx : Nat
  si : Nat
  bx : Nat

/-- `lodsw; addw %ax, %bx; loop sum_loop`. The loop leaves with the sum in `%bx`. -/
def sumPass (mem : List UInt8) (r : SumRegs) : Loop.Step SumRegs Nat :=
  let bx := u16 (r.bx + le16 mem r.si)
  let si := u16 (r.si + 2)
  let cx := u16 (r.cx + (2 ^ 16 - 1))
  if cx ≠ 0 then .next ⟨cx, si, bx⟩ else .done bx

/-- The checks. `none` would be a loop that does not end within all values of `%cx`. -/
def check (mem : List UInt8) : Option Exit :=
  if le16 mem 2 ≠ stage2Magic then some .readFailed
  else if le16 mem 4 ≠ stage2SumMarker then some .jump -- an older stage2: magic word only
  else
    let cx := le16 mem stage2LenOffset
    if cx = 0 then some .readFailed
    else if cx > stage2MaxWords then some .readFailed
    else do
      let bx ← Loop.run (sumPass mem) (2 ^ 16) ⟨cx, 0, 0⟩
      return if bx ≠ 0 then .readFailed else .jump

end ZfsBoot.Bios.Stage1
