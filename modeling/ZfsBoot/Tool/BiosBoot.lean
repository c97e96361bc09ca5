import Mathlib.Data.List.Infix
import Mathlib.Data.List.DropRight
import ZfsBoot.Tool.BootEnv
import ZfsBoot.Tool.World

/-!
# `ZfsBoot.Tool.BiosBoot`: stage1 and stage2 on a disk

The model of `internal/biosboot` and of `writeBIOSStagesWithRollback` of `cmd/tool`. Stage1 is the
first 440 bytes of the disk. Stage2 has the 64 sectors from LBA 34 on, and is followed by zeros
there. Each writer reads what it replaces before it writes, and hands it to its caller for the
rollback, unless it failed before it wrote.
-/

set_option autoImplicit false

namespace ZfsBoot.Tool

open Lib Lib.Halting

/-- `layout.Stage1Bytes`. -/
def stage1Bytes : Nat := 440

/-- `layout.Stage2Bytes`. -/
def stage2Bytes : Nat := stage2Sectors * sectorSize

/-- The offset of stage2 on the disk. -/
def stage2Offset : Nat := stage2Lba * sectorSize

/-- A stage2 as `WriteStage2` leaves it on the disk: followed by zeros. -/
def stage2Region (stage2 : List UInt8) : List UInt8 :=
  stage2 ++ List.replicate (stage2Bytes - stage2.length) 0

/-! ### What stage1 accepts -/

/-- `Stage2Magic`. -/
def stage2Magic : Nat := 0x325a

/-- `Stage2SumMarker`. -/
def stage2SumMarker : Nat := 0x5331

/-- `stage1MarkerCheck`: `cmpw $Stage2SumMarker, 4`. -/
def stage1MarkerCheck : List UInt8 := [0x81, 0x3e, 0x04, 0x00, 0x31, 0x53]

/-- `Stage1ChecksSum`. -/
def stage1ChecksSum (stage1 : List UInt8) : Bool := stage1MarkerCheck <:+: stage1

/-- The errors of `CheckStage2`. -/
inductive Stage2Error where
  | size (got : Nat)
  | noMagic
  | length (words : Nat)
  | checksum (sum : Nat)
  deriving DecidableEq, Repr

/-- The 16-bit sum of the first `words` words. -/
def wordSum (region : List UInt8) (words : Nat) : Nat :=
  (List.range words).foldl (fun sum i => u16 (sum + le16 region (2 * i))) 0

/-- `CheckStage2`. -/
def checkStage2 (stage2 : List UInt8) : Except Stage2Error Unit :=
  if stage2.length < 4 ∨ stage2.length > stage2Bytes then .error (.size stage2.length)
  else if le16 stage2 2 ≠ stage2Magic then .error .noMagic
  else if stage2.length < 10 ∨ le16 stage2 4 ≠ stage2SumMarker then .ok ()
  else
    let region := stage2Region stage2
    let words := le16 region 6
    if words = 0 ∨ words > stage2Bytes / 2 then .error (.length words)
    else
      let sum := wordSum region words
      if sum ≠ 0 then .error (.checksum sum) else .ok ()

/-- `Stage1Accepts`. -/
def stage1Accepts (stage1 stage2 : List UInt8) : Bool :=
  if stage2.length < 4 ∨ le16 stage2 2 ≠ stage2Magic then false
  else if ¬ stage1ChecksSum stage1 then true
  else (checkStage2 stage2).isOk

/-- `ReadStage2` on the region it reads: the trailing zeros are trimmed. -/
def trimStage2 (region : List UInt8) : List UInt8 := region.rdropWhile (· == 0)

/-! ### Writing -/

/-- The errors of the writers and of their read-backs. -/
inductive StageError where
  | stage1Size (got : Nat)
  | stage2Size (got : Nat)
  | extent (err : Option ExtentError)
  | opening
  | backup
  | writing
  | syncing
  | readBack
  | differs (at_ : Nat)
  | padding (at_ : Nat)

/-- The first position at which two byte strings differ. -/
def firstDiff (got want : List UInt8) : Nat :=
  ((List.range (min got.length want.length)).find? fun i => got.getD i 0 != want.getD i 0).getD
    (min got.length want.length)

/-- What a failing writer returns: the previous content, if it got as far as to write, and the
error. -/
structure WriteFailure where
  previous : Option (List UInt8)
  err : StageError

section Steps

variable {ε : Type}

/-- `CheckStage2ExtentFree` of the disk as it is now. -/
def checkExtent (part : Part) (disk : String) (e : StageError → ε) : ToolM ε Unit := do
  let result ← observe (e (.extent none)) ⟨part, .checkExtent disk⟩ fun w =>
    checkStage2ExtentFree (w.disk disk)
  ofExcept (result.mapError fun err => e (.extent (some err)))

/-- `ReadAt`. -/
def readDisk (part : Part) (disk : String) (off n : Nat) (e : ε) : ToolM ε (List UInt8) := do
  let result ← observe e ⟨part, .readAt disk off n⟩ fun w => (w.disk disk).readAt off n
  ofExcept (result.mapError fun _ => e)

/-- `WriteAt` and `Sync`. -/
def writeDisk (part : Part) (disk : String) (off : Nat) (bytes : List UInt8) (e : StageError → ε) :
    ToolM ε Unit := do
  demand (e .writing) ⟨part, .writeAt disk off bytes⟩
  demand (e .syncing) ⟨part, .sync disk⟩

/-- `verifyStage2At`. -/
def verifyStage2At (part : Part) (disk : String) (want : List UInt8) (e : StageError → ε) :
    ToolM ε Unit := do
  let region ← readDisk part disk stage2Offset stage2Bytes (e .readBack)
  require (e (.differs (firstDiff (region.take want.length) want)))
    (region.take want.length = want)
  match (region.drop want.length).findIdx? (· != 0) with
  | some i => stop (e (.padding (want.length + i)))
  | none => pure ()

end Steps

/-- `WriteStage1`. -/
def writeStage1 (part : Part) (disk : String) (stage1 : List UInt8) :
    ToolM WriteFailure (List UInt8) := do
  require ⟨none, .stage1Size stage1.length⟩ (stage1.length = stage1Bytes)
  checkExtent part disk (WriteFailure.mk none)
  demand ⟨none, .opening⟩ ⟨part, .openDisk disk⟩
  let previous ← readDisk part disk 0 stage1Bytes ⟨none, .backup⟩
  writeDisk part disk 0 stage1 (WriteFailure.mk (some previous))
  return previous

/-- `WriteStage2`. -/
def writeStage2 (part : Part) (disk : String) (stage2 : List UInt8) :
    ToolM WriteFailure (List UInt8) := do
  require ⟨none, .stage2Size stage2.length⟩ (stage2.length ≤ stage2Bytes)
  checkExtent part disk (WriteFailure.mk none)
  demand ⟨none, .opening⟩ ⟨part, .openDisk disk⟩
  let previous ← readDisk part disk stage2Offset stage2Bytes ⟨none, .backup⟩
  writeDisk part disk stage2Offset (stage2Region stage2) (WriteFailure.mk (some previous))
  verifyStage2At part disk stage2 (WriteFailure.mk (some previous))
  return previous

/-- `VerifyStage1`. -/
def verifyStage1 (disk : String) (want : List UInt8) : ToolM StageError Unit := do
  require (.stage1Size want.length) (want.length = stage1Bytes)
  demand .opening ⟨.write, .openDisk disk⟩
  let got ← readDisk .write disk 0 stage1Bytes .readBack
  require (.differs (firstDiff got want)) (got = want)

/-- `VerifyStage2`. -/
def verifyStage2 (disk : String) (want : List UInt8) : ToolM StageError Unit := do
  require (.stage2Size want.length) (want.length ≤ stage2Bytes)
  demand .opening ⟨.write, .openDisk disk⟩
  verifyStage2At .write disk want id

/-! ### Both stages, with a rollback -/

/-- The errors of `writeBIOSStagesWithRollback`. -/
inductive StagesError where
  | writingStage2 (err : StageError)
  | verifyingStage2 (err : StageError)
  | writingStage1 (err : StageError)
  | verifyingStage1 (err : StageError)

/-- A failure of `writeBIOSStagesWithRollback`: its error, and whether the two rollbacks restored
what they had to, which the messages on standard error say. -/
structure StagesFailure where
  err : StagesError
  stage1Restored : Bool
  stage2Restored : Bool

section Rollback

variable {ε : Type}

/-- A rollback: nothing to restore, or a write of the previous content. -/
def rollbackStage (write : List UInt8 → ToolM WriteFailure (List UInt8))
    (previous : Option (List UInt8)) : ToolM ε Bool :=
  match previous with
  | none => pure true
  | some content => (do let _ ← write content; return true).rescue fun _ => pure false

/-- `rollbackStage1`. -/
def rollbackStage1 (disk : String) (previous : Option (List UInt8)) : ToolM ε Bool :=
  rollbackStage (writeStage1 .rollback disk) previous

/-- `rollbackStage2`. -/
def rollbackStage2 (disk : String) (previous : Option (List UInt8)) : ToolM ε Bool :=
  rollbackStage (writeStage2 .rollback disk) previous

end Rollback

/-- `writeBIOSStagesWithRollback`: stage2 first, stage1 last, and back in reverse order. -/
def writeBiosStagesWithRollback (disk : String) (stage1 stage2 : List UInt8) :
    ToolM StagesFailure Unit := do
  let stage2Prev ← (writeStage2 .write disk stage2).rescue fun f => do
    let restored ← rollbackStage2 disk f.previous
    stop ⟨.writingStage2 f.err, true, restored⟩
  (verifyStage2 disk stage2).rescue fun err => do
    let restored ← rollbackStage2 disk (some stage2Prev)
    stop ⟨.verifyingStage2 err, true, restored⟩
  let stage1Prev ← (writeStage1 .write disk stage1).rescue fun f => do
    let restored1 ← rollbackStage1 disk f.previous
    let restored2 ← rollbackStage2 disk (some stage2Prev)
    stop ⟨.writingStage1 f.err, restored1, restored2⟩
  (verifyStage1 disk stage1).rescue fun err => do
    let restored1 ← rollbackStage1 disk (some stage1Prev)
    let restored2 ← rollbackStage2 disk (some stage2Prev)
    stop ⟨.verifyingStage1 err, restored1, restored2⟩

end ZfsBoot.Tool
