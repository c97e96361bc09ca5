import ZfsBoot.Bios.Disk
import ZfsBoot.Lib.Bytes

/-!
# `ZfsBoot.Bios.Cdrom`: the CD build's disk

The model of `bios/cdrom_disk.c`, without fault injection. A CD has sectors of 2048 bytes, and
`disk_read_lba` serves 512-byte units from them: it reads a batch of native sectors into
`g_native_buf` and copies the part that was asked for.

A batch comes from INT 13h or, once that has failed ten times in a row, from the ATAPI driver
for the rest of the boot. Both are the parameter `CdDrive`: any answer to any command, whatever
came before. The trace records every native command with its outcome.
-/

set_option autoImplicit false

namespace ZfsBoot.Bios

open Lib

/-- `NATIVE_SECTOR_SIZE`. -/
def nativeSectorSize : Nat := 2048

/-- `UNITS_PER_NATIVE`: the 512-byte units of a native sector. -/
def unitsPerNative : Nat := 4

/-- `NATIVE_BATCH`: the sectors that `g_native_buf` has room for. -/
def nativeBatch : Nat := 4

/-- `READ_MAX_ATTEMPTS`. -/
def readMaxAttempts : Nat := 10

/-- The two ways to reach the drive. -/
inductive CdBackend where
  | int13
  | atapi
  deriving DecidableEq

/-- The answer to one native command: whether it reported success, and what it left in each
sector of the transfer. -/
structure NativeAnswer where
  ok : Bool
  data : Nat → List UInt8

/-- The drive behind the build, with a state of its own: `int13_read_native` and
`atapi_read_native`, and `atapi_init`. -/
structure CdDrive (β : Type) where
  read : CdBackend → β → (nativeLba nativeCount : Nat) → NativeAnswer × β
  atapiInit : β → Bool × β

/-- One native command as it was issued. -/
structure NativeCommand where
  backend : CdBackend
  lba : Nat
  count : Nat
  ok : Bool

/-- The globals of `cdrom_disk.c`, and the state of the drive. The cap is always a number of
sectors that `g_native_buf` has room for. -/
structure CdState (β : Type) where
  drive : β
  /-- `g_use_int13` -/
  useInt13 : Bool
  /-- `g_atapi_probed` -/
  atapiProbed : Bool
  /-- `g_atapi_ready` -/
  atapiReady : Bool
  /-- `g_cd_retries` -/
  cdRetries : Nat
  /-- `g_native_buf`, sector by sector -/
  nativeBuf : Nat → List UInt8
  /-- `g_native_cap` -/
  nativeCap : Nat
  one_le_cap : 1 ≤ nativeCap
  cap_le_batch : nativeCap ≤ nativeBatch
  trace : List NativeCommand

/-- `disk_set_chunk`: the setting counts 512-byte sectors, the cap native ones. -/
def cdSetChunk {β : Type} (sectors : Nat) (st : CdState β) : CdState β :=
  if sectors < 1 ∨ sectors > diskChunkLimit then st
  else
    { st with
      nativeCap := min (max (sectors / 4) 1) nativeBatch
      one_le_cap := by
        rw [Nat.le_min]
        exact ⟨Nat.le_max_right _ _, by decide⟩
      cap_le_batch := Nat.min_le_right _ _ }

namespace CdState

variable {β : Type}

/-- One attempt at a native command into `g_native_buf`; a failed one counts in
`g_cd_retries`. -/
def attempt (cd : CdDrive β) (backend : CdBackend) (nativeLba nativeCount : Nat) (st : CdState β) :
    Option Unit × CdState β :=
  let n := u16 nativeCount
  let r := cd.read backend st.drive nativeLba n
  let st :=
    { st with
      drive := r.2
      nativeBuf := fun j => if j < n then r.1.data j else st.nativeBuf j
      trace := st.trace ++ [⟨backend, nativeLba, n, r.1.ok⟩] }
  if r.1.ok then (some (), st) else (none, { st with cdRetries := u16 (st.cdRetries + 1) })

/-- Leaving INT 13h for good: ATAPI is initialised unless `disk_init` has done so. -/
def fallBack (cd : CdDrive β) (st : CdState β) : CdState β :=
  let st := { st with useInt13 := false }
  if st.atapiProbed then st
  else
    let r := cd.atapiInit st.drive
    { st with drive := r.2, atapiReady := r.1, atapiProbed := true }

/-- The ATAPI half of `native_read_batch_raw`. -/
def readAtapi (cd : CdDrive β) (nativeLba nativeCount : Nat) (st : CdState β) : Bool × CdState β :=
  if st.atapiReady then
    let r := Loop.retry id (attempt cd .atapi nativeLba nativeCount) readMaxAttempts st
    (r.1.isSome, r.2)
  else (false, st)

/-- `native_read_batch_raw`. -/
def nativeReadBatch (cd : CdDrive β) (nativeLba nativeCount : Nat) (st : CdState β) :
    Bool × CdState β :=
  if st.useInt13 then
    match Loop.retry id (attempt cd .int13 nativeLba nativeCount) readMaxAttempts st with
    | (some _, st) => (true, st)
    | (none, st) => readAtapi cd nativeLba nativeCount (fallBack cd st)
  else readAtapi cd nativeLba nativeCount st

/-- The bytes of `g_native_buf`. -/
def bytes (st : CdState β) : List UInt8 := blocks st.nativeBuf nativeBatch

end CdState

/-- The state of `disk_read_lba`'s loop. -/
structure CdLoop (β : Type) where
  st : CdState β
  cur : Nat
  remaining : Nat
  /-- what was copied to `buf` so far -/
  out : List UInt8

namespace CdLoop

variable {β : Type}

/-- `sub_index`: where in its native sector the next unit is. -/
def subIndex (s : CdLoop β) : Nat := u32 (s.cur % unitsPerNative)

/-- `native_count`: the sectors that cover what is left, at most the cap. -/
def nativeCount (s : CdLoop β) : Nat :=
  let n := (s.subIndex + s.remaining + unitsPerNative - 1) / unitsPerNative
  if n > s.st.nativeCap then s.st.nativeCap else n

/-- `take`: the units to copy out of this batch. -/
def take (s : CdLoop β) : Nat :=
  let avail := s.nativeCount * unitsPerNative - s.subIndex
  if avail < s.remaining then avail else s.remaining

/-- Copying out of the batch in `st`, and moving on. -/
def advance (st : CdState β) (s : CdLoop β) : CdLoop β where
  st := st
  cur := u64 (s.cur + s.take)
  remaining := u16 (s.remaining - u16 s.take)
  out := s.out ++
    (st.bytes.drop (s.subIndex * diskSectorSize)).take (s.take * diskSectorSize)

/-- One pass of the loop. The result is the return value: `true` for 0, `false` for -1. -/
def body (cd : CdDrive β) (s : CdLoop β) : Loop.Step (CdLoop β) (Bool × CdLoop β) :=
  if s.remaining = 0 then .done (true, s)
  else
    match s.st.nativeReadBatch cd (u32 (s.cur / unitsPerNative)) s.nativeCount with
    | (false, st) => .done (false, { s with st := st })
    | (true, st) => .next (s.advance st)

end CdLoop

/-- The loop's state on entry to `disk_read_lba`. -/
def cdReadStart {β : Type} (lba : UInt64) (count : UInt16) (st : CdState β) : CdLoop β :=
  { st := st, cur := lba.toNat, remaining := count.toNat, out := [] }

/-- The CD build's `disk_read_lba`. `none` would say that the loop is still running after one
pass for every unit; `cdReadLba_spec` shows that this never happens. -/
def cdReadLba {β : Type} (cd : CdDrive β) (lba : UInt64) (count : UInt16) (st : CdState β) :
    Option (Bool × CdLoop β) :=
  Loop.run (CdLoop.body cd) (count.toNat + 1) (cdReadStart lba count st)

/-- The CD build's `disk_read_lba` as `fat.c`, `gpt.c` and `mbr.c` see it. -/
def cdDisk {β : Type} (cd : CdDrive β) : Backend (CdState β) where
  read st lba count :=
    match cdReadLba cd (UInt64.ofNat lba) (UInt16.ofNat count) st with
    | some (ok, s) => (⟨ok, s.out⟩, s.st)
    | none => (⟨false, []⟩, st)

/-! ### The medium -/

/-- The contents of a CD, 2048 bytes to a sector. -/
structure CdMedium where
  sector : Nat → List UInt8
  length_sector : ∀ n, (sector n).length = nativeSectorSize

/-- A 512-byte unit: four of them make a sector. -/
def CdMedium.unit (m : CdMedium) (u : Nat) : List UInt8 :=
  ((m.sector (u / unitsPerNative)).drop (u % unitsPerNative * diskSectorSize)).take diskSectorSize

end ZfsBoot.Bios
