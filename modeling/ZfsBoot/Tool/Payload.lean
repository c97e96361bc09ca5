import ZfsBoot.Tool.PayloadSum
import ZfsBoot.Tool.World

/-!
# `ZfsBoot.Tool.Payload`: one boot generation, written or rolled back

The model of `writePayloadWithRollback` of `cmd/tool`, with the writers of `internal/espconfig`
that it calls. KERNEL, INITRD, CMDLINE and METADATA are one generation. On x86_64 so are CHECKSUM
and BLKSUM, which go first and come back last.

Every step after the two manifests are computed ends in the same way when it fails: all six files
are put back, and the error is returned. The model has that once, around all of them.

METADATA is made by a deep look into the kernel and the initrd. What comes of it is a parameter:
the bytes, or the reason why there are none.
-/

set_option autoImplicit false

namespace ZfsBoot.Tool

open Lib Lib.Halting

/-! ### Files -/

/-- The errors of `VerifyFile`. -/
inductive VerifyError where
  | reading
  | differs
  deriving DecidableEq, Repr

section Files

variable {ε : Type}

/-- `os.ReadFile`; a file that does not exist is `none`. -/
def readFile (part : Part) (mountpoint : String) (f : EspFile) (e : ε) :
    ToolM ε (Option (List UInt8)) :=
  observe e ⟨part, .readFile mountpoint f⟩ fun w => w.files mountpoint f

/-- `espconfig.WriteFile`. -/
def writeFile (part : Part) (mountpoint : String) (f : EspFile) (content : List UInt8) (e : ε) :
    ToolM ε Unit :=
  demand e ⟨part, .writeFile mountpoint f content⟩

/-- `os.Remove`; that there was no file is no error. -/
def removeFile (part : Part) (mountpoint : String) (f : EspFile) (e : ε) : ToolM ε Unit :=
  demand e ⟨part, .remove mountpoint f⟩

/-- `VerifyFile`. -/
def verifyFile (mountpoint : String) (f : EspFile) (want : List UInt8) (e : VerifyError → ε) :
    ToolM ε Unit := do
  match ← readFile .write mountpoint f (e .reading) with
  | none => stop (e .reading)
  | some got => require (e .differs) (got = want)

end Files

/-! ### The payload -/

/-- The errors of `writePayloadWithRollback`. -/
inductive PayloadError where
  | backup (f : EspFile)
  | generating (f : EspFile) (err : PayloadSum.SumError)
  | removing (f : EspFile)
  | writing (f : EspFile)
  | verifying (f : EspFile) (err : VerifyError)
  | metadata (err : String)
  | writingMetadata
  | writingManifest (f : EspFile)
  | verifyingManifest (f : EspFile) (err : VerifyError)

/-- `espconfig.WritePayload`. -/
def writePayload (mountpoint : String) (kernel initrd cmdline : List UInt8) :
    ToolM PayloadError Unit := do
  writeFile .write mountpoint .kernel kernel (.writing .kernel)
  writeFile .write mountpoint .initrd initrd (.writing .initrd)
  writeFile .write mountpoint .cmdline cmdline (.writing .cmdline)

/-- `espconfig.VerifyPayload`. -/
def verifyPayload (mountpoint : String) (kernel initrd cmdline : List UInt8) :
    ToolM PayloadError Unit := do
  verifyFile mountpoint .kernel kernel (.verifying .kernel)
  verifyFile mountpoint .initrd initrd (.verifying .initrd)
  verifyFile mountpoint .cmdline cmdline (.verifying .cmdline)

/-- `payloadBackup`: what the six files held, `none` for one that was absent. -/
structure PayloadBackup where
  kernel : Option (List UInt8)
  initrd : Option (List UInt8)
  cmdline : Option (List UInt8)
  metadata : Option (List UInt8)
  payloadSum : Option (List UInt8)
  blkSum : Option (List UInt8)

/-- `backupPayload`. -/
def backupPayload (mountpoint : String) : ToolM PayloadError PayloadBackup := do
  let kernel ← readFile .write mountpoint .kernel (.backup .kernel)
  let initrd ← readFile .write mountpoint .initrd (.backup .initrd)
  let cmdline ← readFile .write mountpoint .cmdline (.backup .cmdline)
  let metadata ← readFile .write mountpoint .metadata (.backup .metadata)
  let payloadSum ← readFile .write mountpoint .payloadSum (.backup .payloadSum)
  let blkSum ← readFile .write mountpoint .blkSum (.backup .blkSum)
  return { kernel, initrd, cmdline, metadata, payloadSum, blkSum }

/-- `restore` of `rollbackPayload`: a file that was absent is removed. The answer is `false` where
the source sets `ok` to `false`. -/
def restore (mountpoint : String) (f : EspFile) (want : Option (List UInt8)) :
    ToolM PayloadError Bool :=
  match want with
  | none => perform ⟨.rollback, .remove mountpoint f⟩
  | some content => perform ⟨.rollback, .writeFile mountpoint f content⟩

/-- `restore` of a manifest, once everything before it was restored. -/
def restoreManifest (mountpoint : String) (f : EspFile) (want : Option (List UInt8)) (ok : Bool) :
    ToolM PayloadError Bool :=
  if ok && want.isSome then restore mountpoint f want else pure ok

/-- `rollbackPayload`. The answer is `ok`: whether everything was put back. -/
def rollbackPayload (mountpoint : String) (backup : PayloadBackup) : ToolM PayloadError Bool := do
  let okSum ← restore mountpoint .payloadSum none
  let okBlk ← restore mountpoint .blkSum none
  let okKernel ← restore mountpoint .kernel backup.kernel
  let okInitrd ← restore mountpoint .initrd backup.initrd
  let okCmdline ← restore mountpoint .cmdline backup.cmdline
  let okMetadata ← restore mountpoint .metadata backup.metadata
  let ok := okSum && okBlk && okKernel && okInitrd && okCmdline && okMetadata
  let ok ← restoreManifest mountpoint .blkSum backup.blkSum ok
  restoreManifest mountpoint .payloadSum backup.payloadSum ok

/-- What `writePayloadWithRollback` is to write. -/
structure NewPayload where
  arch : String
  version : String
  buildStamp : String
  kernel : List UInt8
  initrd : List UInt8
  cmdline : List UInt8
  integrity : List UInt8

/-- How METADATA is made of a new payload: `deepMetadataFor` and `checkMetadataEncodable`. -/
abbrev MetadataMaker : Type := NewPayload → Except String (List UInt8)

/-- CHECKSUM and BLKSUM of a new payload: only x86_64 has them. -/
def NewPayload.manifests (n : NewPayload) :
    Except PayloadError (Option (List UInt8) × Option (List UInt8)) :=
  if n.arch = "x86_64" then do
    let payloadSum ← (PayloadSum.generate n.kernel n.initrd n.integrity).mapError
      (PayloadError.generating .payloadSum)
    let blkSum ← (PayloadSum.generateBlkSum n.kernel n.initrd).mapError
      (PayloadError.generating .blkSum)
    return (some payloadSum, some blkSum)
  else .ok (none, none)

/-- `writeMetadata`. -/
def writeMetadata (mountpoint : String) (metadata : Except String (List UInt8)) :
    ToolM PayloadError Unit := do
  let enc ← ofExcept (metadata.mapError PayloadError.metadata)
  writeFile .write mountpoint .metadata enc .writingMetadata

/-- The last loop on one manifest: it is written and read back. -/
def writeManifest (mountpoint : String) (f : EspFile) (data : Option (List UInt8)) :
    ToolM PayloadError Unit :=
  match data with
  | none => pure ()
  | some content => do
      writeFile .write mountpoint f content (.writingManifest f)
      verifyFile mountpoint f content (.verifyingManifest f)

/-- The steps of `writePayloadWithRollback` that a failure rolls back. -/
def replacePayload (mountpoint : String) (n : NewPayload) (metadata : Except String (List UInt8))
    (payloadSum blkSum : Option (List UInt8)) : ToolM PayloadError Unit := do
  removeFile .write mountpoint .payloadSum (.removing .payloadSum)
  removeFile .write mountpoint .blkSum (.removing .blkSum)
  writePayload mountpoint n.kernel n.initrd n.cmdline
  verifyPayload mountpoint n.kernel n.initrd n.cmdline
  writeMetadata mountpoint metadata
  writeManifest mountpoint .blkSum blkSum
  writeManifest mountpoint .payloadSum payloadSum

/-- `writePayloadWithRollback`. -/
def writePayloadWithRollback (makeMetadata : MetadataMaker) (mountpoint : String)
    (n : NewPayload) : ToolM PayloadError Unit := do
  let backup ← backupPayload mountpoint
  let (payloadSum, blkSum) ← ofExcept n.manifests
  (replacePayload mountpoint n (makeMetadata n) payloadSum blkSum).rescue fun err => do
    let _ ← rollbackPayload mountpoint backup
    stop err

end ZfsBoot.Tool
