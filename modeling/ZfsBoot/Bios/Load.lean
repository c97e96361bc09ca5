import ZfsBoot.Bios.BlkVerify
import ZfsBoot.Bios.E820
import ZfsBoot.Bios.Fat
import ZfsBoot.Bios.PartTable
import ZfsBoot.Lib.Halting
import ZfsBoot.Lib.Memory

/-!
# `ZfsBoot.Bios.Load`: loading and checking the payload

The part of `bios/stage2_main.c` that reads CHECKSUM and BLKSUM, loads KERNEL and INITRD with
their blocks checked as they land, and hashes RAM before the jump. The hard-disk build.

`Platform` is what the build and the machine fix: the driver, the size of the staging buffer, and
where the loader's own buffers lie in RAM. The driver may answer in any way. `Globals` are the
loader's static variables, with a flag and the data it guards in one `Option`: `g_sum` is there
while `g_sum_loaded` is set, `g_blk` while `g_blk_loaded` is. `BootLog` is read by nothing in the
source. Messages that only go to the screen are left out.
-/

set_option autoImplicit false

namespace ZfsBoot.Bios

open Lib Lib.Halting

/-! ### The platform -/

/-- `KERNEL_LOAD_ADDR`. -/
def kernelLoadAddr : Nat := 0x00100000

/-- `INITRD_LOAD_ADDR`. -/
def initrdLoadAddr : Nat := 0x04000000

/-- `CMDLINE_BUF_SIZE`. -/
def cmdlineBufSize : Nat := 512

/-- `PAYLOAD_SUM_MAX_BYTES`. -/
def payloadSumMaxBytes : Nat := 512

/-- `GPT_RETRY_ATTEMPTS`. -/
def gptRetryAttempts : Nat := 10

/-- What `disk_select` leaves: its result, and what its probe read into the staging buffer. -/
structure SelectAnswer where
  result : Int
  staged : List UInt8

/-- The driver as `stage2_main.c` uses it. `getCap` and `setCap` are `g_disk_stats.cap`. -/
structure Drive (δ : Type) extends Backend δ where
  reset : δ → δ
  select : (drive : Nat) → δ → SelectAnswer × δ
  getChunk : δ → Nat
  setChunk : Nat → δ → δ
  getCap : δ → Nat
  setCap : Nat → δ → δ

/-- What the build and the machine fix. The buffers are in the loader's segment, below the
kernel's load address, and apart from each other. -/
structure Platform (δ : Type) where
  drive : Drive δ
  /-- `FAT_IO_BATCH_SECTORS` -/
  batch : Nat
  batch_pos : 1 ≤ batch
  batch_lt : batch * 512 < 2 ^ 32
  ro : Rodata
  /-- `g_header_buf` -/
  headerBuf : Nat
  /-- `g_cmdline` -/
  cmdlineBuf : Nat
  /-- `g_blk_sec` -/
  blkSec : Nat
  /-- `low_probe` of `a20_verify` -/
  lowProbe : Nat
  headerBuf_le : headerBuf + setupHeaderEnd ≤ kernelLoadAddr
  cmdlineBuf_le : cmdlineBuf + cmdlineBufSize ≤ kernelLoadAddr
  blkSec_le : blkSec + blksumSectorSize ≤ kernelLoadAddr
  lowProbe_le : lowProbe + 4 ≤ kernelLoadAddr
  header_cmdline : headerBuf + setupHeaderEnd ≤ cmdlineBuf ∨ cmdlineBuf + cmdlineBufSize ≤ headerBuf
  header_blkSec : headerBuf + setupHeaderEnd ≤ blkSec ∨ blkSec + blksumSectorSize ≤ headerBuf
  e820 : E820Bios
  /-- The A20 gate opens when `enable_a20` asks for it. -/
  a20 : Bool

/-- `g_fat_io_buf_size`. -/
def Platform.ioBufSize {δ : Type} (pf : Platform δ) : Nat := pf.batch * diskSectorSize

theorem Platform.ioBufSize_pos {δ : Type} (pf : Platform δ) : 0 < pf.ioBufSize :=
  Nat.mul_pos pf.batch_pos (by decide)

/-! ### The state of a boot -/

/-- BLKSUM once it is in use: `g_blk_vol`, `g_blk_file` and `g_blk`. -/
structure BlkTable where
  vol : FatVolume
  file : FatFile
  hdr : BlksumHdr

/-- `g_alt` once a drive has been found: `vol` and `f[0]`, `f[1]` belong to that drive. -/
structure AltSource where
  drive : Nat
  vol : FatVolume
  kernel : FatFile
  initrd : FatFile

/-- The static variables of `stage2_main.c`. -/
structure Globals where
  sum : Option PayloadSum
  blk : Option BlkTable
  /-- `g_blk_sec_idx` -/
  blkSecIdx : Nat
  /-- `g_alt.probed` -/
  altProbed : Bool
  alt : Option AltSource
  bootDrive : Nat

/-- What happened in the boot so far: the command line once it is read, the manifest with its
text once it is parsed, RAM when `verify_loaded` began. `stuck` is set where a loop of the model
ran out of passes. -/
structure BootLog where
  cmdline : Option (List UInt8)
  checksum : Option (List UInt8 × PayloadSum)
  verifying : Option (Nat → UInt8)
  stuck : Bool

/-- A boot in progress. -/
structure Boot (δ : Type) where
  m : Machine δ
  g : Globals
  log : BootLog

/-- The value of `g_blk_sec_idx` that stands for no sector. -/
def noSector : Nat := 0xFFFFFFFF

/-- The loader as it is started. -/
def Boot.start {δ : Type} (m : Machine δ) : Boot δ where
  m := m
  g := ⟨none, none, noSector, false, none, 0⟩
  log := ⟨none, none, none, false⟩

/-- The messages of `die`. -/
inductive Stop where
  | noReads | noEsp | noEspMbr | mount | noKernel | noInitrd | noCmdline
  | kernelSize | initrdSize | cmdlineSize | cmdlineRead | headerLength | headerMagic | realMode
  | e820 | beyondRam | a20 | kernelRead | initrdRead | addrMax
  | layoutMismatch | blockMismatch | digestMismatch
  deriving DecidableEq, Repr

/-- The stops that a mismatch with CHECKSUM or BLKSUM causes. -/
def Stop.integrity : Stop → Bool
  | .layoutMismatch | .blockMismatch | .digestMismatch => true
  | _ => false

section

variable {δ : Type} (pf : Platform δ)

/-! ### The reader and the driver, on the state of a boot -/

/-- A loop of the model ran out of passes. -/
def Boot.stick (s : Boot δ) : Boot δ := { s with log := { s.log with stuck := true } }

/-- `fat_read_range` without a callback. -/
def readRange (vol : FatVolume) (file : FatFile) (offset length dst : Nat) (s : Boot δ) :
    Bool × Boot δ :=
  match fatReadRange (κ := Unit) pf.drive.toBackend vol pf.batch file (UInt32.ofNat offset)
      (UInt32.ofNat length) (UInt32.ofNat dst) none () s.m with
  | some (ok, _, run) => (ok, { s with m := run.m })
  | none => (false, s.stick)

/-- `fat_open`. -/
def openFile (vol : FatVolume) (path : String) (s : Boot δ) : Option FatFile × Boot δ :=
  match fatOpen pf.drive.toBackend vol (ascii path) s.m with
  | some (file, run) => (file, { s with m := run.m })
  | none => (none, s.stick)

/-- `fat_mount`. -/
def mount (lba sectors : Nat) (s : Boot δ) : Option FatVolume × Boot δ :=
  let r := fatMount pf.drive.toBackend (UInt64.ofNat lba) (UInt64.ofNat sectors) s.m
  (r.1, { s with m := r.2.m })

/-- `fat_cache_invalidate`. -/
def cacheInvalidate (s : Boot δ) : Boot δ := { s with m := fatCacheInvalidate s.m }

/-- A routine that changes only the driver and the disk. -/
def onDisk {α : Type} (f : δ → α × δ) (s : Boot δ) : α × Boot δ :=
  let r := f s.m.disk
  (r.1, { s with m := { s.m with disk := r.2 } })

/-- `disk_reset`. -/
def diskReset (s : Boot δ) : Boot δ :=
  { s with m := { s.m with disk := pf.drive.reset s.m.disk } }

/-- `disk_select`. -/
def diskSelect (drive : Nat) (s : Boot δ) : Int × Boot δ :=
  let r := pf.drive.select drive s.m.disk
  (r.1.result, { s with m := { s.m with disk := r.2, ioBuf := overlay r.1.staged s.m.ioBuf } })

/-- `disk_set_chunk(chunk)` and `g_disk_stats.cap = cap`. -/
def setChunkAndCap (chunk cap : Nat) (s : Boot δ) : Boot δ :=
  { s with m := { s.m with disk := pf.drive.setCap cap (pf.drive.setChunk chunk s.m.disk) } }

/-- `unreal_read` into the staging buffer. -/
def unrealRead (phys len : Nat) (s : Boot δ) : List UInt8 × Boot δ :=
  let bytes := ramBytes s.m.ram phys len
  (bytes, { s with m := { s.m with ioBuf := overlay bytes s.m.ioBuf } })

/-- A reset and an empty FAT cache, before a read is tried again. -/
def startOver (s : Boot δ) : Boot δ := cacheInvalidate (diskReset pf s)

/-! ### CHECKSUM -/

/-- One read of CHECKSUM and the parse after it. Nothing says to try again, `some none` that it is
of another version. -/
def checksumAttempt (vol : FatVolume) (file : FatFile) (s : Boot δ) :
    Option (Option (List UInt8 × PayloadSum)) × Boot δ :=
  match readRange pf vol file 0 file.size.toNat pf.headerBuf s with
  | (false, s) => (none, s)
  | (true, s) =>
    let text := ramBytes s.m.ram pf.headerBuf file.size.toNat
    match payloadSumParse pf.ro text with
    | (.ok, some sum) => (some (some (text, sum)), s)
    | (.unsupported, _) => (some none, s)
    | _ => (none, s)

/-- `payload_sum_load`. -/
def payloadSumLoad (vol : FatVolume) (s : Boot δ) : Boot δ :=
  match openFile pf vol "/EFI/ALPINE/CHECKSUM" s with
  | (none, s) => s
  | (some file, s) =>
    if file.size = 0 ∨ file.size.toNat > payloadSumMaxBytes then s
    else
      match Loop.retry id (checksumAttempt pf vol file) gptRetryAttempts s with
      | (some (some (text, sum)), s) =>
        { s with
          g := { s.g with sum := some sum }
          log := { s.log with checksum := some (text, sum) } }
      | (_, s) => s

/-- `payload_sum_check_file`, for the entry and the offset the caller names. -/
def payloadSumCheckFile (entry : PayloadSum → PayloadSumEntry) (size : Nat)
    (offset : PayloadSum → Nat) : Halting Stop (Boot δ) Unit := do
  let s ← look
  match s.g.sum with
  | none => pure ()
  | some sum =>
    if payloadSumCheckLayout (entry sum) size (offset sum) = .ok then pure ()
    else if sum.mode = .enforce then stop .layoutMismatch
    else modify fun s => { s with g := { s.g with sum := none } }

/-- The loop of `payload_sum_verify`. -/
def verifyLoop (p left : Nat) (c : Sha256Ctx) (s : Boot δ) : Sha256Ctx × Boot δ :=
  if left = 0 then (c, s)
  else
    let n := min left pf.ioBufSize
    let r := unrealRead p n s
    verifyLoop (u32 (p + n)) (left - n) (c.update r.1) r.2
termination_by left
decreasing_by
  have := pf.ioBufSize_pos
  omega

/-- `payload_sum_verify`: whether the bytes in RAM have the digest. -/
def payloadSumVerify (e : PayloadSumEntry) (phys len : Nat) (s : Boot δ) : Bool × Boot δ :=
  let r := verifyLoop pf phys len Sha256Ctx.zero.init s
  (r.1.final == e.sha256, r.2)

/-- `verify_loaded`. -/
def verifyLoaded (protectedModeSize initrdSize : Nat) : Halting Stop (Boot δ) Unit := do
  modify fun s => { s with log := { s.log with verifying := some s.m.ram } }
  let s ← look
  match s.g.sum with
  | none => pure ()
  | some sum =>
    let kernelOk ← step (payloadSumVerify pf sum.kernel kernelLoadAddr protectedModeSize)
    let initrdOk ← step (payloadSumVerify pf sum.initrd initrdLoadAddr initrdSize)
    require .digestMismatch ((kernelOk ∧ initrdOk) ∨ sum.mode ≠ .enforce)

/-! ### BLKSUM -/

/-- One read of table sector `idx`. -/
def blksumAttempt (vol : FatVolume) (file : FatFile) (idx : Nat) (s : Boot δ) :
    Option Unit × Boot δ :=
  match readRange pf vol file (idx * blksumSectorSize) blksumSectorSize pf.blkSec s with
  | (false, s) => (none, s)
  | (true, s) =>
    let sec := ramBytes s.m.ram pf.blkSec blksumSectorSize
    (if idx = 0 ∨ blksumCheckSector sec then some () else none, s)

/-- `blksum_sector`. -/
def blksumSector (vol : FatVolume) (file : FatFile) (idx : Nat) (s : Boot δ) : Bool × Boot δ :=
  if s.g.blkSecIdx = idx then (true, s)
  else
    match Loop.retry (startOver pf) (blksumAttempt pf vol file idx) (blkvTries + 1) s with
    | (some (), s) => (true, { s with g := { s.g with blkSecIdx := idx } })
    | (none, s) => (false, { s with g := { s.g with blkSecIdx := noSector } })

/-- One read of the header and the parse after it, with the results as in `checksumAttempt`. -/
def blksumHeaderAttempt (vol : FatVolume) (file : FatFile) (s : Boot δ) :
    Option (Option BlksumHdr) × Boot δ :=
  match blksumSector pf vol file 0 { s with g := { s.g with blkSecIdx := noSector } } with
  | (false, s) => (none, s)
  | (true, s) =>
    match blksumParseHeader (ramBytes s.m.ram pf.blkSec blksumSectorSize) with
    | .ok hdr => (some (some hdr), s)
    | .unsupported => (some none, s)
    | .bad => (none, s)

/-- A descriptor of BLKSUM agrees with the entry of CHECKSUM. -/
def BlksumFile.Agrees (f : BlksumFile) (e : PayloadSumEntry) : Prop :=
  f.size = e.size ∧ f.offset = e.offset ∧ f.sha256 = e.sha256.toList

instance (f : BlksumFile) (e : PayloadSumEntry) : Decidable (f.Agrees e) :=
  inferInstanceAs (Decidable (_ ∧ _ ∧ _))

/-- `blksum_load`. -/
def blksumLoad (vol : FatVolume) (s : Boot δ) : Boot δ :=
  match s.g.sum with
  | none => s
  | some sum =>
    match openFile pf vol "/EFI/ALPINE/BLKSUM" s with
    | (none, s) => s
    | (some file, s) =>
      let r := Loop.retry id (blksumHeaderAttempt pf vol file) gptRetryAttempts s
      let s := { r.2 with g := { r.2.g with blkSecIdx := noSector } }
      match r.1 with
      | some (some hdr) =>
        if hdr.kernel.Agrees sum.kernel ∧ hdr.initrd.Agrees sum.initrd then
          { s with g := { s.g with blk := some ⟨vol, file, hdr⟩ } }
        else s
      | _ => s

/-! ### The second source -/

/-- `alt_leave`. -/
def altLeave (chunk cap : Nat) (s : Boot δ) : Boot δ :=
  let r := diskSelect pf s.g.bootDrive s
  let s := if r.1 ≠ 0 then (diskSelect pf s.g.bootDrive (diskReset pf r.2)).2 else r.2
  cacheInvalidate (setChunkAndCap pf chunk cap s)

/-- The FAT partition of the selected drive, by GPT and else by MBR. -/
def altPartition (d : δ) : Option (Nat × Nat) × δ :=
  match gptReadHeader pf.drive.toBackend d with
  | (.ok hdr, d) => gptFindPartition pf.drive.toBackend hdr espTypeGuid d
  | (_, d) => mbrFindPartition pf.drive.toBackend fatMbrType d

/-- A CHECKSUM that describes the same KERNEL and INITRD. INITRD's offset is not compared. -/
def sameManifest (ps sum : PayloadSum) : Prop :=
  ps.kernel.size = sum.kernel.size ∧ ps.kernel.offset = sum.kernel.offset ∧
    ps.kernel.sha256 = sum.kernel.sha256 ∧ ps.initrd.size = sum.initrd.size ∧
    ps.initrd.sha256 = sum.initrd.sha256

instance (ps sum : PayloadSum) : Decidable (sameManifest ps sum) :=
  inferInstanceAs (Decidable (_ ∧ _ ∧ _ ∧ _ ∧ _))

/-- The manifest of the other drive: one read, no retry. -/
def altManifest (vol : FatVolume) (file : FatFile) (s : Boot δ) : Option PayloadSum × Boot δ :=
  if file.size = 0 ∨ file.size.toNat > payloadSumMaxBytes then (none, s)
  else
    match readRange pf vol file 0 file.size.toNat pf.headerBuf s with
    | (false, s) => (none, s)
    | (true, s) =>
      ((payloadSumParse pf.ro (ramBytes s.m.ram pf.headerBuf file.size.toNat)).2, s)

/-- `alt_try`. -/
def altTry (sum : PayloadSum) (drive : Nat) : Halting Unit (Boot δ) AltSource := do
  let selected ← step (diskSelect pf drive)
  require () (selected = 0)
  modify cacheInvalidate
  let esp ← attempt () (onDisk (altPartition pf))
  let vol ← attempt () (mount pf esp.1 esp.2)
  let kernel ← attempt () (openFile pf vol "/EFI/ALPINE/KERNEL")
  let initrd ← attempt () (openFile pf vol "/EFI/ALPINE/INITRD")
  let file ← attempt () (openFile pf vol "/EFI/ALPINE/CHECKSUM")
  let ps ← attempt () (altManifest pf vol file)
  require () (sameManifest ps sum ∧ kernel.size.toNat = sum.kernel.size ∧
    initrd.size.toNat = sum.initrd.size)
  pure ⟨drive, vol, kernel, initrd⟩

/-- The probe of `hook_second` over the drives, up to the first that serves. -/
def altProbe (sum : PayloadSum) : List Nat → Boot δ → Option AltSource × Boot δ
  | [], s => (none, s)
  | d :: ds, s =>
    if d = s.g.bootDrive then altProbe sum ds s
    else
      match altTry pf sum d s with
      | (.ok a, s) => (some a, s)
      | (.error (), s) => altProbe sum ds s

/-- The drives the BIOS counts, from 0x80 on and at most 16. -/
def altDrives (s : Boot δ) : List Nat := List.range' 0x80 (min (s.m.ram 0x475).toNat 16)

/-! ### One load -/

/-- `struct load_ctx`, as far as it does not change during a load. -/
structure LoadInfo where
  vol : FatVolume
  file : FatFile
  fileOff : Nat
  /-- `which` -/
  initrd : Bool
  table : BlkTable
  sum : PayloadSum

/-- `g_blk.f[which]`. -/
def LoadInfo.blkFile (ld : LoadInfo) : BlksumFile :=
  if ld.initrd then ld.table.hdr.initrd else ld.table.hdr.kernel

/-- `hook_reread`. -/
def hookReread (ld : LoadInfo) (base off len : Nat) (s : Boot δ) : Bool × Boot δ :=
  readRange pf ld.vol ld.file (ld.fileOff + off) len (base + off) (cacheInvalidate s)

/-- `hook_entry`. -/
def hookEntry (ld : LoadInfo) (i : Nat) (s : Boot δ) : Option (Vector UInt8 32) × Boot δ :=
  match blksumSector pf ld.table.vol ld.table.file (u32 (ld.blkFile.first + i / blksumPerSector))
      s with
  | (false, s) => (none, s)
  | (true, s) =>
    (some (Vector.ofFn fun k =>
      s.m.ram (u32 (pf.blkSec + (i % blksumPerSector * 32 + k.val)))), s)

/-- `hook_set_cap`: the chunk changes, the configured cap does not. -/
def hookSetCap (n : Nat) (s : Boot δ) : Boot δ := setChunkAndCap pf n (pf.drive.getCap s.m.disk) s

/-- `hook_report`: the lookup for the message, with a fresh FAT cache. -/
def hookReport (ld : LoadInfo) (block : Nat) (s : Boot δ) : Boot δ :=
  let s := cacheInvalidate s
  let off := UInt32.ofNat (ld.fileOff + block * blksumBlock)
  { s with m := (fatOffsetLba pf.drive.toBackend ld.vol ld.file off s.m).2.m }

/-- `hook_second`, once the probe has been made. -/
def altRead (ld : LoadInfo) (chunk cap base off len : Nat) (s : Boot δ) : Bool × Boot δ :=
  match s.g.alt with
  | none => (false, s)
  | some a =>
    let file := if ld.initrd then a.initrd else a.kernel
    let r := diskSelect pf a.drive s
    let r :=
      if r.1 = 0 then
        let s := cacheInvalidate r.2
        let s := { s with m := { s.m with disk := pf.drive.setChunk chunk s.m.disk } }
        readRange pf a.vol file (ld.fileOff + off) len (base + off) s
      else (false, r.2)
    (r.1, altLeave pf chunk cap r.2)

/-- `hook_second`. -/
def hookSecond (ld : LoadInfo) (base off len : Nat) (s : Boot δ) : Bool × Boot δ :=
  let chunk := pf.drive.getChunk s.m.disk
  let cap := pf.drive.getCap s.m.disk
  if s.g.altProbed then altRead pf ld chunk cap base off len s
  else
    let s := { s with g := { s.g with altProbed := true } }
    let r := altProbe pf ld.sum (altDrives s) s
    let s := { r.2 with g := { r.2.g with alt := r.1 } }
    altRead pf ld chunk cap base off len (altLeave pf chunk cap s)

/-- `g_blkv_hooks`. -/
def blkvHooks (ld : LoadInfo) : BlkvHooks (Boot δ) where
  reread := hookReread pf ld
  second := some (hookSecond pf ld)
  entry := hookEntry pf ld
  peek := unrealRead
  getCap s := pf.drive.getChunk s.m.disk
  setCap := hookSetCap pf
  reset := diskReset pf
  report block _ _ _ := hookReport pf ld block

/-- What a load changes: `lc->done`, and the block verifier in the state of the boot. -/
structure LoadCtx (δ : Type) where
  done : Nat
  run : BlkvRun (Boot δ)

/-- The context and the machine, put together. -/
def LoadCtx.onto (c : LoadCtx δ) (m : Machine δ) : BlkvRun (Boot δ) :=
  { c.run with w := { c.run.w with m := m } }

/-- `load_progress`; the hooks are there while `lc->checking` is set. -/
def loadProgress (hooks : Option (BlkvHooks (Boot δ))) : Progress δ (LoadCtx δ) := fun n c m =>
  let run := c.onto m
  let run :=
    match hooks with
    | none => run
    | some h =>
      match blkvLanded h n run with
      | some run => run
      | none => { run with w := run.w.stick }
  (⟨u32 (c.done + n), run⟩, run.w.m)

/-- One attempt of `load_file`: from the first byte that has not landed. -/
def loadAttempt (hooks : Option (BlkvHooks (Boot δ))) (vol : FatVolume) (file : FatFile)
    (fileOff len dst : Nat) (c : LoadCtx δ) : Option Unit × LoadCtx δ :=
  match fatReadRange pf.drive.toBackend vol pf.batch file (UInt32.ofNat (fileOff + c.done))
      (UInt32.ofNat (len + 2 ^ 32 - c.done)) (UInt32.ofNat (dst + c.done))
      (some (loadProgress hooks)) c c.run.w.m with
  | some (ok, c, run) => (if ok then some () else none, { c with run := c.onto run.m })
  | none => (none, { c with run := { c.run with w := c.run.w.stick } })

/-- Between two attempts of `load_file`. -/
def loadAgain (c : LoadCtx δ) : LoadCtx δ :=
  { c with run := { c.run with w := startOver pf c.run.w } }

/-- `load_file` without the verdict on its blocks. -/
def loadRun (hooks : Option (BlkvHooks (Boot δ))) (vol : FatVolume) (file : FatFile)
    (fileOff len dst nblocks : Nat) (s : Boot δ) : Option Unit × LoadCtx δ :=
  Loop.retry (loadAgain pf) (loadAttempt pf hooks vol file fileOff len dst) gptRetryAttempts
    ⟨0, ⟨blkvStart dst len nblocks pf.ioBufSize pf.ioBufSize_pos, s, [], []⟩⟩

/-- The load under way, if its blocks are to be checked (`lc->checking`). -/
def loadInfo (initrd : Bool) (vol : FatVolume) (file : FatFile) (fileOff : Nat) (g : Globals) :
    Option LoadInfo :=
  match g.sum, g.blk with
  | some sum, some table => some ⟨vol, file, fileOff, initrd, table, sum⟩
  | _, _ => none

/-- `load_file`: whether it returned 0. -/
def loadFile (initrd : Bool) (vol : FatVolume) (file : FatFile) (fileOff len dst : Nat) :
    Halting Stop (Boot δ) Bool := do
  let s ← look
  match loadInfo initrd vol file fileOff s.g with
  | none =>
    let ok ← step fun s =>
      let r := loadRun pf none vol file fileOff len dst 0 s
      (r.1.isSome, r.2.run.w)
    pure ok
  | some ld =>
    let r ← step fun s =>
      let r := loadRun pf (some (blkvHooks pf ld)) vol file fileOff len dst ld.blkFile.nblocks s
      ((r.1.isSome, r.2.run.b.bad), r.2.run.w)
    if r.1 then
      require .blockMismatch (r.2 = 0 ∨ ld.sum.mode ≠ .enforce)
      pure true
    else pure false

end

end ZfsBoot.Bios
