import ZfsBoot.Bios.Cmdline
import ZfsBoot.Bios.Load

/-!
# `ZfsBoot.Bios.Stage2`: from the boot drive to the kernel's entry point

The model of `stage2_main` and of the functions around it in `bios/stage2_main.c`. The result is
the jump into the kernel, or the message the loader halts with. `boot_params`, the video query and
everything that is only printed are left out.
-/

set_option autoImplicit false

namespace ZfsBoot.Bios

open Lib Lib.Halting

/-- `MAX_KERNEL_SIZE`. -/
def maxKernelSize : Nat := 48 * 1024 * 1024

/-- `MAX_INITRD_SIZE`. -/
def maxInitrdSize : Nat := 512 * 1024 * 1024

/-- `BOOT_PARAMS_E820_MAX_ENTRIES`. -/
def bootParamsE820MaxEntries : Nat := 128

/-- `jump_to_kernel`: the entry point, and what the loader has loaded by then. -/
structure Jump where
  entry : Nat
  kernelSize : Nat
  realModeBytes : Nat
  initrdSize : Nat

section

variable {δ : Type} (pf : Platform δ)

/-! ### The partition -/

/-- One `gpt_read_header` of the retry loop. A missing signature ends the attempts. -/
def gptAttempt (s : Boot δ) : Option (Option GptHeader) × Boot δ :=
  match onDisk (gptReadHeader pf.drive.toBackend) s with
  | (.ok hdr, s) => (some (some hdr), s)
  | (.noSignature, s) => (some none, s)
  | (.invalid, s) => (none, s)

/-- The FAT partition: by GPT if there is one, else by MBR. -/
def findEsp : Halting Stop (Boot δ) (Nat × Nat) := do
  let header ← step (Loop.retry id (gptAttempt pf) gptRetryAttempts)
  match header with
  | some (some hdr) =>
    attempt .noEsp (Loop.retry id
      (onDisk (gptFindPartition pf.drive.toBackend hdr espTypeGuid)) gptRetryAttempts)
  | _ =>
    attempt .noEspMbr (Loop.retry id
      (onDisk (mbrFindPartition pf.drive.toBackend fatMbrType)) gptRetryAttempts)

/-- `fat_mount_retry`. -/
def fatMountRetry (lba sectors : Nat) (s : Boot δ) : Option FatVolume × Boot δ :=
  Loop.retry id (mount pf lba sectors) gptRetryAttempts s

/-- `fat_open_retry`. -/
def fatOpenRetry (vol : FatVolume) (path : String) (s : Boot δ) : Option FatFile × Boot δ :=
  Loop.retry id (openFile pf vol path) gptRetryAttempts s

/-! ### The command line and its options -/

/-- `g_cmdline`, as the C string it is. -/
def cmdlineString (s : Boot δ) : List UInt8 :=
  (ramBytes s.m.ram pf.cmdlineBuf cmdlineBufSize).takeWhile (· ≠ 0)

/-- `g_cmdline[i] = '\0'`. -/
def terminate (i : Nat) (s : Boot δ) : Boot δ := { s with m := unrealCopy (pf.cmdlineBuf + i) [0] s.m }

/-- The command line: read, without one newline at its end, and terminated. -/
def readCmdline (vol : FatVolume) (file : FatFile) : Halting Stop (Boot δ) Unit := do
  let ok ← step (readRange pf vol file 0 file.size.toNat pf.cmdlineBuf)
  require .cmdlineRead (ok = true)
  modify fun s =>
    let len := file.size.toNat
    let s := terminate pf
      (if 0 < len ∧ s.m.ram (u32 (pf.cmdlineBuf + (len - 1))) = 0x0A then len - 1 else len) s
    { s with log := { s.log with cmdline := some (cmdlineString pf s) } }

/-- `alpine-zfsboot.int13chunk=`. -/
def readChunk (s : Boot δ) : Boot δ :=
  match cmdlineValue (ascii "alpine-zfsboot.int13chunk=") (cmdlineString pf s) with
  | none => s
  | some v =>
    match cmdlineParseChunk v diskChunkLimit with
    | none => s
    | some c => { s with m := { s.m with disk := pf.drive.setChunk c s.m.disk } }

/-- `alpine-zfsboot.integrity=`, and what mode off does. -/
def readIntegrity (s : Boot δ) : Boot δ :=
  match s.g.sum with
  | none => s
  | some sum =>
    let v := cmdlineValue (ascii "alpine-zfsboot.integrity=") (cmdlineString pf s)
    let sum := { sum with mode := (v.bind (payloadSumMode pf.ro)).getD sum.mode }
    { s with g := { s.g with sum := if sum.mode = .off then none else some sum } }

/-- `read_options`. -/
def readOptions (vol : FatVolume) (kernelSize initrdSize : Nat) : Halting Stop (Boot δ) Unit := do
  modify (readChunk pf)
  modify (payloadSumLoad pf vol)
  modify (readIntegrity pf)
  -- sizes now; the kernel's offset once its header has been read
  payloadSumCheckFile (·.kernel) kernelSize (·.kernel.offset)
  payloadSumCheckFile (·.initrd) initrdSize fun _ => 0
  modify (blksumLoad pf vol)

/-! ### The kernel's header and the memory map -/

/-- One read of the kernel's header, valid or not. -/
def headerAttempt (vol : FatVolume) (file : FatFile) (s : Boot δ) :
    Option SetupHeader × Boot δ :=
  match readRange pf vol file 0 setupHeaderEnd pf.headerBuf s with
  | (false, s) => (none, s)
  | (true, s) =>
    let hdr := setupHeader (ramBytes s.m.ram pf.headerBuf setupHeaderEnd)
    (if hdr.bootFlag = 0xAA55 ∧ hdr.header = 0x53726448 then some hdr else none, s)

/-- `check_ram_range`: only a range above all RAM stops the boot. -/
def checkRamRange (start len : Nat) (map : List E820Entry) : Halting Stop (Boot δ) Unit :=
  require .beyondRam ((e820RangeCheck map start len).1 ≠ .beyondRam)

/-- `check_layout`. -/
def checkLayout (hdr : SetupHeader) (protectedModeSize initrdSize : Nat) :
    Halting Stop (Boot δ) Unit := do
  let map := e820GetMap pf.e820 bootParamsE820MaxEntries
  require .e820 (map ≠ [])
  checkRamRange kernelLoadAddr protectedModeSize map
  match kernelRuntimeRange hdr kernelLoadAddr with
  | some run => checkRamRange run.1 run.2 map
  | none => pure ()
  checkRamRange initrdLoadAddr initrdSize map

/-- `a20_verify`: with the gate closed the write lands on the probe itself. -/
def a20Verify (s : Boot δ) : Bool × Boot δ :=
  let pattern : List UInt8 := [0x73, 0x9E, 0xCF, 0xA1]
  let high := pf.lowProbe + 0x00100000
  (pf.a20, { s with m := unrealCopy (if pf.a20 then high else pf.lowProbe) pattern s.m })

/-- `setup_sects`, where 0 stands for 4. -/
def SetupHeader.realModeBytes (hdr : SetupHeader) : Nat :=
  ((if hdr.setupSects = 0 then 4 else hdr.setupSects) + 1) * 512

/-! ### The boot -/

/-- The files of a boot, once they are found and their sizes are in range. -/
structure BootFiles where
  vol : FatVolume
  kernel : FatFile
  initrd : FatFile
  cmdline : FatFile

/-- `stage2_main` up to the size checks. -/
def findFiles (driveNumber : Nat) : Halting Stop (Boot δ) BootFiles := do
  modify fun s => { s with g := { s.g with bootDrive := driveNumber } }
  let selected ← step (diskSelect pf driveNumber)
  require .noReads (0 ≤ selected)
  let esp ← findEsp pf
  let vol ← attempt .mount (fatMountRetry pf esp.1 esp.2)
  let kernel ← attempt .noKernel (fatOpenRetry pf vol "/EFI/ALPINE/KERNEL")
  let initrd ← attempt .noInitrd (fatOpenRetry pf vol "/EFI/ALPINE/INITRD")
  let cmdline ← attempt .noCmdline (fatOpenRetry pf vol "/EFI/ALPINE/CMDLINE")
  require .kernelSize (kernel.size ≠ 0 ∧ kernel.size.toNat ≤ maxKernelSize)
  require .initrdSize (initrd.size ≠ 0 ∧ initrd.size.toNat ≤ maxInitrdSize)
  require .cmdlineSize (cmdline.size ≠ 0 ∧ cmdline.size.toNat ≤ cmdlineBufSize - 1)
  pure ⟨vol, kernel, initrd, cmdline⟩

/-- `stage2_main` from the kernel's header to the last check before anything is loaded. -/
def readKernelHeader (files : BootFiles) : Halting Stop (Boot δ) SetupHeader := do
  require .headerLength (setupHeaderEnd ≤ files.kernel.size.toNat)
  let hdr ← attempt .headerMagic
    (Loop.retry id (headerAttempt pf files.vol files.kernel) gptRetryAttempts)
  require .realMode (hdr.realModeBytes < files.kernel.size.toNat)
  payloadSumCheckFile (·.kernel) files.kernel.size.toNat fun _ => hdr.realModeBytes
  checkLayout pf hdr (files.kernel.size.toNat - hdr.realModeBytes) files.initrd.size.toNat
  let a20 ← step (a20Verify pf)
  require .a20 (a20 = true)
  pure hdr

/-- `stage2_main`: the two loads. -/
def loadPayload (files : BootFiles) (hdr : SetupHeader) : Halting Stop (Boot δ) Unit := do
  let ok ← loadFile pf false files.vol files.kernel hdr.realModeBytes
    (files.kernel.size.toNat - hdr.realModeBytes) kernelLoadAddr
  require .kernelRead (ok = true)
  require .addrMax (initrdLoadAddr + files.initrd.size.toNat ≤ hdr.initrdAddrMax)
  let ok ← loadFile pf true files.vol files.initrd 0 files.initrd.size.toNat initrdLoadAddr
  require .initrdRead (ok = true)

/-- `stage2_main`. -/
def stage2Main (driveNumber : Nat) : Halting Stop (Boot δ) Jump := do
  let files ← findFiles pf driveNumber
  readCmdline pf files.vol files.cmdline
  readOptions pf files.vol files.kernel.size.toNat files.initrd.size.toNat
  let hdr ← readKernelHeader pf files
  loadPayload pf files hdr
  verifyLoaded pf (files.kernel.size.toNat - hdr.realModeBytes) files.initrd.size.toNat
  pure ⟨hdr.code32Start, files.kernel.size.toNat, hdr.realModeBytes, files.initrd.size.toNat⟩

end

end ZfsBoot.Bios
