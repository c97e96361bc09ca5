import ZfsBoot.Bios.Disk

/-!
# `ZfsBoot.Bios.Chs`: reading a disk by cylinder, head and sector

A BIOS without the INT 13h extensions only has AH=02h, which names a sector by cylinder, head
and sector. The model of `disk_lba_to_chs` (`bios/disk_policy.c`) and of `int13_read_chs`
(`bios/disk.c`), down to the registers of each call.

The BIOS is the parameter `ChsBios`: any answer to any call, whatever came before. `Int13Regs`
has the registers as the caller sets them, and the accessors below it are how AH=02h reads them;
`int13_get_geometry` unpacks the answer of AH=08h in the same way.
-/

set_option autoImplicit false

namespace ZfsBoot.Bios

open Lib

/-- The geometry in `struct disk_info`, from AH=08h. -/
structure Geometry where
  heads : Nat
  spt : Nat
  cyls : Nat

/-- What `disk_lba_to_chs` writes: where the sector is, and how many sectors its track has from
there on. -/
structure Chs where
  c : Nat
  h : Nat
  s : Nat
  left : Nat
  deriving DecidableEq

/-- `disk_lba_to_chs`; `none` is its -1. -/
def diskLbaToChs (lba heads spt cyls : Nat) : Option Chs :=
  if heads = 0 ∨ spt = 0 ∨ spt > 63 ∨ lba > 0xffffffff then none
  else
    let l := u32 lba
    let cyl := l / u32 (heads * spt)
    if cyl ≥ cyls ∨ cyl > 1023 then none
    else
      some
        { c := u16 cyl
          h := u8 (l / spt % heads)
          s := u8 (l % spt + 1)
          left := u16 (spt - l % spt) }

/-- The registers of one `int $0x13`. -/
structure Int13Regs where
  ax : Nat
  bx : Nat
  cx : Nat
  dx : Nat
  deriving DecidableEq

/-! ### The registers as AH=02h reads them -/

namespace Int13Regs

/-- AH: the service. -/
def service (r : Int13Regs) : Nat := r.ax / 256

/-- AL: how many sectors to read. -/
def sectors (r : Int13Regs) : Nat := r.ax % 256

/-- CH, with the two high bits of CL above it. -/
def cylinder (r : Int13Regs) : Nat := (r.cx >>> 8) ||| ((r.cx &&& 0xc0) <<< 2)

/-- DH. -/
def head (r : Int13Regs) : Nat := r.dx / 256

/-- The low six bits of CL; the first sector of a track is 1. -/
def sector (r : Int13Regs) : Nat := r.cx &&& 0x3f

/-- DL. -/
def drive (r : Int13Regs) : Nat := r.dx % 256

/-- The number of the first sector, on a disk with `heads` heads and `spt` sectors to a track. -/
def first (g : Geometry) (r : Int13Regs) : Nat :=
  (r.cylinder * g.heads + r.head) * g.spt + r.sector - 1

/-- The sectors a call reads, each with the offset in ES that it goes to. -/
def transfers (g : Geometry) (r : Int13Regs) : List (Nat × Nat) :=
  (List.range r.sectors).map fun i => (r.first g + i, r.bx + diskSectorSize * i)

end Int13Regs

/-! ### The loop -/

/-- The answer to one call: the carry flag, AX, and what the call left in each sector's part of
the buffer. -/
structure ChsAnswer where
  failed : Bool
  ax : Nat
  data : Nat → List UInt8

/-- The BIOS behind `int13_read_chs`, with a state of its own. -/
structure ChsBios (β : Type) where
  call : β → Int13Regs → ChsAnswer × β
  reset : β → β

/-- One call as it was made, and its answer. -/
structure ChsCall where
  regs : Int13Regs
  answer : ChsAnswer

/-- The state of `int13_read_chs`'s loop. -/
structure ChsLoop (β : Type) where
  bios : β
  lba : Nat
  count : Nat
  /-- `buf`, the address -/
  buf : Nat
  /-- how many sectors the loop has gone past -/
  slot : Nat
  /-- what the buffer holds, sector by sector from where it starts -/
  mem : Nat → List UInt8
  calls : List ChsCall

namespace ChsLoop

variable {β : Type}

/-- The registers for `n` sectors at `chs`, to the address `buf`. -/
def regs (drive : Nat) (chs : Chs) (n buf : Nat) : Int13Regs where
  ax := u16 (0x0200 ||| n)
  cx := u16 (((chs.c &&& 0xff) <<< 8) ||| ((chs.c >>> 2) &&& 0xc0) ||| chs.s)
  dx := u16 ((chs.h <<< 8) ||| drive)
  bx := u16 buf

/-- The status of a failed call: AH, or 0xff if the BIOS left it zero. -/
def failure (ax : Nat) : Nat := if ax >>> 8 ≠ 0 then ax >>> 8 else 0xff

/-- The call with registers `r`. -/
def int13 (bios : ChsBios β) (r : Int13Regs) (s : ChsLoop β) : ChsLoop β :=
  let a := bios.call s.bios r
  { s with
    bios := a.2
    mem := fun i =>
      if s.slot ≤ i ∧ i < s.slot + r.sectors then a.1.data (i - s.slot) else s.mem i
    calls := s.calls ++ [⟨r, a.1⟩] }

/-- Moving on past `n` sectors that were read. -/
def advance (n : Nat) (s : ChsLoop β) : ChsLoop β :=
  { s with
    lba := u64 (s.lba + n)
    buf := u32 (s.buf + u32 (n * diskSectorSize))
    slot := s.slot + n
    count := s.count - n }

/-- One pass of the loop. The result is the status that `int13_read_chs` returns. -/
def body (bios : ChsBios β) (g : Geometry) (drive : Nat) (s : ChsLoop β) :
    Loop.Step (ChsLoop β) (Nat × ChsLoop β) :=
  if s.count = 0 then .done (0, s)
  else
    match diskLbaToChs s.lba g.heads g.spt g.cyls with
    -- "sector not found": beyond what CHS can address
    | none => .done (0x04, s)
    | some chs =>
      let n := if s.count < chs.left then s.count else chs.left
      let r := regs drive chs n s.buf
      let a := (bios.call s.bios r).1
      if a.failed then .done (failure a.ax, s.int13 bios r)
      else .next ((s.int13 bios r).advance n)

end ChsLoop

/-- The loop's state on entry to `int13_read_chs`. -/
def chsStart {β : Type} (lba count buf : Nat) (b : β) : ChsLoop β :=
  { bios := b, lba := lba, count := count, buf := buf, slot := 0, mem := fun _ => [], calls := [] }

/-- `int13_read_chs`. `none` would say that the loop is still running after one pass for every
sector; `int13ReadChs_spec` shows that this never happens. -/
def int13ReadChs {β : Type} (bios : ChsBios β) (g : Geometry) (drive lba count buf : Nat) (b : β) :
    Option (Nat × ChsLoop β) :=
  Loop.run (ChsLoop.body bios g drive) (count + 1) (chsStart lba count buf b)

/-- `disk_int13_read` in CHS mode, with the buffer at `buf`. -/
def chsInt13 {β : Type} (bios : ChsBios β) (g : Geometry) (drive buf : Nat) : Int13 β where
  read b lba count :=
    match int13ReadChs bios g drive lba count buf b with
    | some (status, s) => (⟨status, s.mem⟩, s.bios)
    | none => (⟨0xff, fun _ => []⟩, b)
  reset := bios.reset

end ZfsBoot.Bios
