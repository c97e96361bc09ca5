import ZfsBoot.Lib.Replace
import ZfsBoot.Tool.PartTable

/-!
# `ZfsBoot.Tool.BootEnv`: the check before stage2 is written, and the fields of a mount table

The model of `CheckStage2ExtentFree` of `internal/bootenv`. Stage2 has a fixed place on the disk,
LBA 34 to 97. The check refuses a disk whose partition table claims a part of it.
`unescapeMountField`, of the same package, reads a field of `/proc/self/mounts`.
-/

set_option autoImplicit false

namespace ZfsBoot.Tool

open Lib

/-- `layout.Stage2LBA`. -/
def stage2Lba : Nat := 34

/-- `layout.Stage2Sectors`. -/
def stage2Sectors : Nat := 64

/-- `extentEnd`: the last sector of stage2. -/
def stage2End : Nat := stage2Lba + stage2Sectors - 1

/-- `lbaRangesOverlap`. -/
def lbaRangesOverlap (aStart aEnd bStart bEnd : Nat) : Bool := aStart ≤ bEnd ∧ bStart ≤ aEnd

/-- The errors of `CheckStage2ExtentFree`. -/
inductive ExtentError where
  | header (err : PartError)
  | noTable (err : PartError)
  | mbrOverlap (e : MbrPartitionEntry)
  | entrySizeZero
  | arrayOverlap (start last : Nat)
  | array (err : PartError)
  | gptOverlap (e : GptPartitionEntry)

/-- `pEnd` of an entry with a nonzero size: a 64-bit difference. -/
def MbrPartitionEntry.endLba (e : MbrPartitionEntry) : Nat := u64 (e.startLba + e.sectorCount - 1)

/-- A partition from `start` to `last` that the check refuses: any overlap but a partition that is
exactly the place of stage2. -/
def conflicts (start last : Nat) : Bool :=
  ¬ (start = stage2Lba ∧ last = stage2End) ∧ lbaRangesOverlap stage2Lba stage2End start last

/-- `arraySectors` of `checkGPTExtentFree`, in 64 bits. -/
def GptHeader.arraySectors (hdr : GptHeader) : Nat :=
  let entriesPerSector := max 1 hdr.entriesPerSector
  (hdr.numPartitionEntries + entriesPerSector - 1) / entriesPerSector

/-- `arrayEnd` of `checkGPTExtentFree`. -/
def GptHeader.arrayEnd (hdr : GptHeader) : Nat :=
  u64 (hdr.partitionEntryLba + hdr.arraySectors + (2 ^ 64 - 1))

/-- `checkGPTExtentFree`. -/
def checkGptExtentFree (img : DiskImage) (hdr : GptHeader) : Except ExtentError Unit :=
  if hdr.partitionEntrySize = 0 then .error .entrySizeZero
  else if 0 < hdr.arraySectors ∧
      lbaRangesOverlap stage2Lba stage2End hdr.partitionEntryLba hdr.arrayEnd then
    .error (.arrayOverlap hdr.partitionEntryLba hdr.arrayEnd)
  else
    match gptPartitions img hdr with
    | .error err => .error (.array err)
    | .ok entries =>
      match entries.find? fun e => conflicts e.startLba e.endLba with
      | some e => .error (.gptOverlap e)
      | none => .ok ()

/-- `CheckStage2ExtentFree`. -/
def checkStage2ExtentFree (img : DiskImage) : Except ExtentError Unit :=
  match readGptHeader img with
  | .ok hdr => checkGptExtentFree img hdr
  | .error .noGptSignature =>
    match mbrPartitions img with
    | .error err => .error (.noTable err)
    | .ok entries =>
      match entries.find? fun e => conflicts e.startLba e.endLba with
      | some e => .error (.mbrOverlap e)
      | none => .ok ()
  | .error err => .error (.header err)

/-- `mountFieldEscapes`: the kernel's escapes of a space, a tab, a newline and a backslash. -/
def mountFieldEscapes : List (List UInt8 × List UInt8) :=
  [([0x5C, 0x30, 0x34, 0x30], [0x20]), ([0x5C, 0x30, 0x31, 0x31], [0x09]),
    ([0x5C, 0x30, 0x31, 0x32], [0x0A]), ([0x5C, 0x31, 0x33, 0x34], [0x5C])]

/-- `unescapeMountField`: one `strings.ReplaceAll` after the other. -/
def unescapeMountField (s : List UInt8) : List UInt8 :=
  mountFieldEscapes.foldl (fun s e => replaceAll e.1 e.2 0 s) s

end ZfsBoot.Tool
