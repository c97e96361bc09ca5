import ZfsBoot.Lib.Word
import ZfsBoot.Lib.Loop

/-!
# `ZfsBoot.Bios.Disk`: how a read request becomes BIOS calls

The model of `bios/disk_policy.c` (the hard-disk build, without `DISK_POLICY_NO_SHRINK`).
`disk_int13_read` and `disk_int13_reset` are the BIOS, and the model takes them as the
parameter `Int13`: any answer to any call, whatever came before. The answer carries what
each 512-byte slot of the call's own part of the buffer holds afterwards, also for a
failed call.

The buffer is a map from slot number to content. The trace records every BIOS call with
the chunk in force when it was made, the resets and the two notifications, in order.
-/

set_option autoImplicit false

namespace ZfsBoot.Bios

open Lib

/-- `DISK_CHUNK_LIMIT`: the largest transfer a boot may ask for. -/
def diskChunkLimit : Nat := 127

/-- `DISK_MAX_CHUNK_SECTORS`: the transfer cap a boot starts with. -/
def diskMaxChunkSectors : Nat := 16

/-- `DISK_SECTOR_SIZE`. -/
def diskSectorSize : Nat := 512

/-- `struct disk_error`: the most recent failed BIOS call. -/
structure DiskError where
  status : Nat
  lba : Nat
  count : Nat
  chunk : Nat

/-- `struct disk_stats`. -/
structure DiskStats where
  calls : Nat
  cap : Nat
  chunk : Nat
  largest : Nat
  failures : Nat

/-- The answer to one `disk_int13_read`: the BIOS status, 0 for success, and what slot `i`
of the transfer holds after the call. -/
structure Int13Answer where
  status : Nat
  data : Nat → List UInt8

/-- The BIOS behind the driver, with a state of its own. -/
structure Int13 (β : Type) where
  read : β → (lba count : Nat) → Int13Answer × β
  reset : β → β

/-- The globals of `disk_policy.c`, and the state of the BIOS. -/
structure DiskState (β : Type) where
  bios : β
  /-- `g_chunk` -/
  chunk : Nat
  /-- `g_disk_bios_limit` -/
  biosLimit : Nat
  /-- `g_disk_stats` -/
  stats : DiskStats
  /-- `g_disk_last_error` -/
  lastError : DiskError

/-- `disk_set_chunk`: a request outside `1..127` is ignored, one above what the drive's
interface allows is lowered to that. -/
def diskSetChunk {β : Type} (sectors : Nat) (st : DiskState β) : DiskState β :=
  if sectors < 1 ∨ sectors > diskChunkLimit then st
  else
    let sectors := if sectors > st.biosLimit then st.biosLimit else sectors
    { st with chunk := sectors, stats := { st.stats with cap := sectors, chunk := sectors } }

/-- One `disk_int13_read`: `n` sectors from `lba` into the slots from `slot` on, made while
`chunk` was the chunk size in use; `data j` is what it left in slot `slot + j`. -/
structure BiosCall where
  lba : Nat
  n : Nat
  slot : Nat
  chunk : Nat
  status : Nat
  data : Nat → List UInt8

namespace BiosCall

/-- The BIOS reported success. -/
def Ok (c : BiosCall) : Prop := c.status = 0

/-- Slot `i` lies in the call's own part of the buffer. -/
def Covers (c : BiosCall) (i : Nat) : Prop := c.slot ≤ i ∧ i < c.slot + c.n

instance (c : BiosCall) : Decidable c.Ok := inferInstanceAs (Decidable (_ = _))

instance (c : BiosCall) (i : Nat) : Decidable (c.Covers i) :=
  inferInstanceAs (Decidable (_ ∧ _))

end BiosCall

/-- What `disk_read_lba` does to the outside world, in order. -/
inductive DiskEvent where
  | int13 (call : BiosCall)
  | reset
  | notifyFailure (e : DiskError) (attempt : Nat)
  | notifyShrink (e : DiskError) (chunk : Nat)

/-- The state of `disk_read_lba`'s loop. -/
structure ReadLoop (β : Type) where
  st : DiskState β
  lba : Nat
  count : Nat
  /-- `p`, in slots from the start of the buffer -/
  slot : Nat
  attempt : Nat
  buf : Nat → List UInt8
  trace : List DiskEvent

namespace ReadLoop

variable {β : Type}

/-- The BIOS calls made so far. -/
def calls (s : ReadLoop β) : List BiosCall :=
  s.trace.filterMap fun
    | .int13 c => some c
    | _ => none

/-- The record of `disk_int13_read(lba, n, p)` made in this state. -/
def call (bios : Int13 β) (n : Nat) (s : ReadLoop β) : BiosCall :=
  let a := (bios.read s.st.bios s.lba n).1
  { lba := s.lba, n := n, slot := s.slot, chunk := s.st.chunk, status := a.status, data := a.data }

/-- `disk_int13_read(lba, n, p)` and `g_disk_stats.calls++`. The status it returned is
`(s.call bios n).status`. -/
def int13 (bios : Int13 β) (n : Nat) (s : ReadLoop β) : ReadLoop β :=
  let r := bios.read s.st.bios s.lba n
  { s with
    st := { s.st with
      bios := r.2
      stats := { s.st.stats with calls := u32 (s.st.stats.calls + 1) } }
    buf := fun i => if s.slot ≤ i ∧ i < s.slot + n then r.1.data (i - s.slot) else s.buf i
    trace := s.trace ++ [.int13 (s.call bios n)] }

/-- `note_failure`, the saturating `attempt` counter and `disk_notify_failure`. -/
def noteFailure (status n : Nat) (s : ReadLoop β) : ReadLoop β :=
  let e : DiskError := ⟨u16 status, s.lba, n, s.st.chunk⟩
  let attempt := if s.attempt < 255 then s.attempt + 1 else s.attempt
  { s with
    st := { s.st with lastError := e }
    attempt := attempt
    trace := s.trace ++ [.notifyFailure e attempt] }

/-- `disk_int13_reset`. -/
def reset (bios : Int13 β) (s : ReadLoop β) : ReadLoop β :=
  { s with st := { s.st with bios := bios.reset s.st.bios }, trace := s.trace ++ [.reset] }

/-- Halving after a refused transfer of `n` sectors: the chunk becomes `n / 2`. -/
def shrink (n : Nat) (s : ReadLoop β) : ReadLoop β :=
  let chunk := u16 (n / 2)
  let e := { s.st.lastError with chunk := chunk }
  { s with
    st := { s.st with
      chunk := chunk
      stats := { s.st.stats with chunk := chunk }
      lastError := e }
    trace := s.trace ++ [.notifyShrink e chunk] }

/-- Moving on past `n` sectors that were read. -/
def advance (n : Nat) (s : ReadLoop β) : ReadLoop β :=
  { s with
    st := { s.st with
      stats := { s.st.stats with
        largest := if n > s.st.stats.largest then n else s.st.stats.largest } }
    lba := u64 (s.lba + n)
    slot := s.slot + n
    count := s.count - n }

/-- `g_disk_stats.failures++`. -/
def countFailure (s : ReadLoop β) : ReadLoop β :=
  { s with
    st := { s.st with
      stats := { s.st.stats with failures := u16 (s.st.stats.failures + 1) } } }

/-- The failed call for `n` sectors, up to and including the reset after it. -/
def failed (bios : Int13 β) (n : Nat) (s : ReadLoop β) : ReadLoop β :=
  (((s.int13 bios n).noteFailure (s.call bios n).status n).countFailure).reset bios

/-- `n` of the next call: what is left, or the chunk in use. -/
def nextCount (s : ReadLoop β) : Nat := if s.count < s.st.chunk then s.count else s.st.chunk

/-- One pass of `disk_read_lba`'s loop. The result is the return value: `true` for 0,
`false` for -1. -/
def body (bios : Int13 β) (s : ReadLoop β) : Loop.Step (ReadLoop β) (Bool × ReadLoop β) :=
  if s.count = 0 then .done (true, s)
  else
    let n := s.nextCount
    if (s.call bios n).status = 0 then .next ((s.int13 bios n).advance n)
    else
      let s := s.failed bios n
      if n > 1 then
        -- the same sectors, in smaller pieces
        .next (s.shrink n)
      else if (s.call bios 1).status = 0 then .next ((s.int13 bios 1).advance n)
      else .done (false, (s.int13 bios 1).noteFailure (s.call bios 1).status 1)

/-- The passes `disk_read_lba` may need: each lowers the sectors left, or the chunk. -/
def variant (bound : Nat) (s : ReadLoop β) : Nat := s.count * (bound + 1) + s.st.chunk

end ReadLoop

/-- The loop's state on entry to `disk_read_lba`. -/
def diskReadStart {β : Type} (lba : UInt64) (count : UInt16) (st : DiskState β)
    (buf : Nat → List UInt8) : ReadLoop β :=
  { st := st, lba := lba.toNat, count := count.toNat, slot := 0, attempt := 0, buf := buf
    trace := [] }

/-- `disk_read_lba`. `none` would say that the loop is still running after the number of
passes its variant allows; `diskReadLba_spec` shows that this never happens. -/
def diskReadLba {β : Type} (bios : Int13 β) (lba : UInt64) (count : UInt16)
    (st : DiskState β) (buf : Nat → List UInt8) : Option (Bool × ReadLoop β) :=
  let s := diskReadStart lba count st buf
  Loop.run (ReadLoop.body bios) (s.variant st.chunk + 1) s

/-! ### The disk as its callers see it

`fat.c`, `gpt.c` and `mbr.c` only ever call `disk_read_lba`. `Backend` is that interface;
`hardDisk` is the hard-disk build's implementation of it. -/

/-- What `disk_read_lba` leaves behind: its return value (`true` for 0) and the buffer. -/
structure ReadAnswer where
  ok : Bool
  data : List UInt8

/-- A `disk_read_lba`, with the state of the driver and the disk behind it. -/
structure Backend (δ : Type) where
  read : δ → (lba count : Nat) → ReadAnswer × δ

/-- The contents of a disk, 512 bytes to a sector. -/
structure Image where
  sector : Nat → List UInt8
  length_sector : ∀ lba, (sector lba).length = diskSectorSize

/-- The image with the byte `f p` at position `p`. -/
def Image.ofBytes (f : Nat → UInt8) : Image where
  sector lba := (List.range diskSectorSize).map fun i => f (diskSectorSize * lba + i)
  length_sector lba := by rw [List.length_map, List.length_range]

/-- The `count` sectors from `lba` on, one after the other. -/
def Image.read (img : Image) (lba count : Nat) : List UInt8 :=
  (List.range count).flatMap fun i => img.sector (u64 (lba + i))

/-- The disk may fail a read, but what it returns with success is what is on it. `I` holds
of the driver states in question (the right drive is selected, say) and is kept by reads. -/
structure Backend.Faithful {δ : Type} (bk : Backend δ) (img : Image) (I : δ → Prop) :
    Prop where
  keeps : ∀ d lba n, I d → I (bk.read d lba n).2
  truthful : ∀ d lba n, n < 2 ^ 16 → I d → (bk.read d lba n).1.ok = true →
    (bk.read d lba n).1.data = img.read lba n

/-- The disk that holds `img` and never fails. -/
def Image.backend (img : Image) : Backend Unit where
  read _ lba count := (⟨true, img.read lba count⟩, ())

/-- No read fails. -/
def Backend.NeverFails {δ : Type} (bk : Backend δ) (I : δ → Prop) : Prop :=
  ∀ d lba n, I d → (bk.read d lba n).1.ok = true

/-- The hard-disk build's `disk_read_lba`. -/
def hardDisk {β : Type} (bios : Int13 β) : Backend (DiskState β) where
  read st lba count :=
    match diskReadLba bios (UInt64.ofNat lba) (UInt16.ofNat count) st (fun _ => []) with
    | some (ok, s) => (⟨ok, (List.range (u16 count)).flatMap s.buf⟩, s.st)
    | none => (⟨false, []⟩, st)

end ZfsBoot.Bios
