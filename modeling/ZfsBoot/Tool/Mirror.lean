import ZfsBoot.Tool.Host

/-!
# `ZfsBoot.Tool.Mirror`: what the commands do with one member

The parts that the commands of a mirrored boot share: reading a member's files, the digest of its
content, the copy of config and keys, the lists of UUIDs, and MEMBER.

`Content` is what `os.ReadFile` returns. Most callers tell a file that is absent from one that
cannot be read; some take either for an empty one.
-/

set_option autoImplicit false

namespace ZfsBoot.Tool.Mirror

open Lib Lib.Halting ZfsBoot.Tool.Cmdline
open Bios (ascii)

/-! ### Reading -/

/-- What `os.ReadFile` returns. -/
inductive Content where
  | absent
  | unreadable
  | bytes (b : Bytes)
  deriving DecidableEq

/-- The bytes, where an error is ignored. -/
def Content.orEmpty : Content → Bytes
  | .bytes b => b
  | _ => []

section
variable {ε : Type}

/-- `os.ReadFile`, whatever comes of it. -/
def readContent (part : Part) (mountpoint : String) (f : EspFile) : ToolM ε Content := do
  match ← (readFile part mountpoint f ()).outcome with
  | .error _ => return .unreadable
  | .ok none => return .absent
  | .ok (some b) => return .bytes b

/-- `os.ReadFile` of a file that must be there. -/
def readNeeded (mountpoint : String) (f : EspFile) (e : ε) : ToolM ε Bytes := do
  match ← readContent .write mountpoint f with
  | .bytes b => return b
  | _ => stop e

/-- `readRegion`. -/
def readRegion (disk : String) (off n : Nat) (e : ε) : ToolM ε Bytes := do
  demand e ⟨.write, .openDisk disk⟩
  readDisk .write disk off n e

/-- `ReadStage1`. -/
def readStage1 (disk : String) (e : ε) : ToolM ε Bytes := readRegion disk 0 stage1Bytes e

/-- `ReadStage2`. -/
def readStage2 (disk : String) (e : ε) : ToolM ε Bytes := do
  let region ← readRegion disk stage2Offset stage2Bytes e
  return trimStage2 region

/-- `EFILoaderName`. -/
def efiLoaderName (arch : String) : Option String :=
  if arch = "x86_64" then some "BOOTX64.EFI"
  else if arch = "aarch64" then some "BOOTAA64.EFI"
  else none

/-- `LoaderPath`. -/
def loaderPath (arch : String) : Except StepError String :=
  match efiLoaderName arch with
  | some name => .ok name
  | none => .error (.unsupportedArch arch)

/-- `cmdline.Read` of a loader on an ESP. -/
def readLoader (env : Machine) (mountpoint name : String) : ToolM StepError BuildInfo := do
  let raw ← readNeeded mountpoint (.loader name) (.reading (.loader name))
  ofExcept ((env.loaderInfo raw).mapError StepError.loader)

/-- `cmdline.ReadSection` of a loader on an ESP. -/
def readSection (env : Machine) (mountpoint name sect : String) : ToolM StepError Bytes := do
  let raw ← readNeeded mountpoint (.loader name) (.reading (.loader name))
  ofExcept ((env.loaderSection raw sect).mapError StepError.loaderSection)

/-- `readInstalledKernelInitrd`. -/
def readInstalledKernelInitrd (env : Machine) (uefi : Bool) (mountpoint : String) :
    ToolM StepError (Bytes × Bytes × BuildInfo) :=
  if uefi then do
    let name ← ofExcept (loaderPath env.arch)
    let info ← readLoader env mountpoint name
    let kernel ← readSection env mountpoint name ".linux"
    let initrd ← readSection env mountpoint name ".initrd"
    return (kernel, initrd, info)
  else do
    let kernel ← readNeeded mountpoint .kernel (.reading .kernel)
    let initrd ← readNeeded mountpoint .initrd (.reading .initrd)
    let cmdline ← readNeeded mountpoint .cmdline (.reading .cmdline)
    return (kernel, initrd, parseText cmdline)

/-- `poolOf`. -/
def poolOf (env : Machine) (uefi : Bool) : Option Esp → ToolM ε Bytes
  | none => pure []
  | some m =>
    if uefi then
      match loaderPath env.arch with
      | .error _ => pure []
      | .ok name => do
          match ← (readLoader env m.mountpoint name).outcome with
          | .ok info => return info.pool
          | .error _ => return []
    else do
      match ← readContent .write m.mountpoint .cmdline with
      | .bytes raw => return (parseText raw).pool
      | _ => return []

/-! ### Digests -/

/-- What a digest is of. -/
inductive DigestName where
  | stage1 | stage2
  | file (f : EspFile)
  deriving DecidableEq

/-- `digestBytes`. The text of an error names the file by its full path. -/
inductive FileDigest where
  | absent
  | unreadable (path : String)
  | sum (d : Sha256.Digest)
  deriving DecidableEq

/-- `digestBytes` of a file, after `edit`. -/
def digestOf (mountpoint : String) (edit : Bytes → Bytes) : Content → FileDigest
  | .absent => .absent
  | .unreadable => .unreadable mountpoint
  | .bytes b => .sum (Sha256.digest (edit b))

/-- `memberDigest`. -/
structure MemberDigest where
  buildStamp : Bytes
  files : List (DigestName × FileDigest)
  deriving DecidableEq

/-- The digests of some files. -/
def digestFiles (mountpoint : String) : List EspFile → ToolM ε (List (DigestName × FileDigest))
  | [] => pure []
  | f :: fs => do
      let c ← readContent .write mountpoint f
      let rest ← digestFiles mountpoint fs
      return (.file f, digestOf mountpoint id c) :: rest

/-- The digest of a stage that was read from a disk. -/
def digestStage (disk : String) : Except Unit Bytes → FileDigest
  | .error _ => .unreadable disk
  | .ok b => .sum (Sha256.digest b)

/-- The per-host files. -/
def syncFiles : List EspFile := [.config, .authorizedKeys, .sshHostKey]

/-- `digestMember`. -/
def digestMember (env : Machine) (uefi : Bool) (m : Esp) : ToolM ε MemberDigest :=
  if uefi then
    match loaderPath env.arch with
    | .error _ => do return ⟨[], ← digestFiles m.mountpoint (.metadata :: syncFiles)⟩
    | .ok name => do
        let loader ← readContent .write m.mountpoint (.loader name)
        let info ← (readLoader env m.mountpoint name).outcome
        let rest ← digestFiles m.mountpoint (.metadata :: syncFiles)
        return ⟨match info with
          | .ok info => info.buildStamp
          | .error _ => [],
          (.file (.loader name), digestOf m.mountpoint id loader) :: rest⟩
  else do
    let stage1 ← (readStage1 m.disk ()).outcome
    let stage2 ← (readStage2 m.disk ()).outcome
    let payload ← digestFiles m.mountpoint [.kernel, .initrd, .payloadSum, .blkSum]
    let cmdline ← readContent .write m.mountpoint .cmdline
    let rest ← digestFiles m.mountpoint (.metadata :: syncFiles)
    return ⟨match cmdline with
      | .bytes c => (parseText c).buildStamp
      | _ => [],
      (.stage1, digestStage m.disk stage1) :: (.stage2, digestStage m.disk stage2) :: payload
        ++ (.file .cmdline, digestOf m.mountpoint stripMirrorWords cmdline) :: rest⟩

end

/-- Not one of the files that `syncConfig` copies. -/
def DigestName.isBootChain : DigestName → Bool
  | .file f => f ∉ syncFiles
  | _ => true

/-- Not a setting either. -/
def DigestName.isPayload : DigestName → Bool
  | .file .cmdline | .file .payloadSum => false
  | n => n.isBootChain

/-- The names of a kind in which two members differ. -/
def diff (kind : DigestName → Bool) (a b : MemberDigest) : List DigestName :=
  (a.files.filter fun (name, sum) => kind name ∧ b.files.lookup name ≠ some sum).map Prod.fst

/-! ### Config and keys -/

/-- `syncConfig` on one file: whether something changed. -/
def syncFile (src dst : Esp) (f : EspFile) : ToolM StepError Bool := do
  let want ← readContent .write src.mountpoint f
  let got ← readContent .write dst.mountpoint f
  match want, got with
  | .unreadable, _ => stop (.readingOn f src.info.uuid)
  | .absent, .bytes _ => do
      removeFile .write dst.mountpoint f (.removing f)
      return true
  | .absent, _ => return false
  | .bytes w, got =>
    if got = .bytes w then return false
    else do
      writeFile .write dst.mountpoint f w (.writing f)
      return true

/-- `syncConfig`. -/
def syncConfig (src dst : Esp) : ToolM StepError Bool := do
  let config ← syncFile src dst .config
  let keys ← syncFile src dst .authorizedKeys
  let hostKey ← syncFile src dst .sshHostKey
  return config || keys || hostKey

/-- `SetConfigKey`. -/
def setConfigFile (part : Part) (mountpoint : String) (key value : Bytes) : ToolM StepError Unit := do
  match ← readContent part mountpoint .config with
  | .unreadable => stop (.reading .config)
  | raw => writeFile part mountpoint .config (setConfigKey raw.orEmpty key value) (.writing .config)

/-- `checkCmdlineLength`. -/
def checkCmdlineLength {ε : Type} (raw : Bytes) (e : StepError → ε) : ToolM ε Unit :=
  require (e (.cmdlineLength raw.length)) (raw.length ≤ cmdlineMaxBytes)

/-! ### The lists of UUIDs -/

/-- `strings.EqualFold` of a trimmed text and a UUID. -/
def sameUuid (text : Bytes) (u : FatUuid) : Bool := (trimSpace text).map upper = u.val

/-- `addUUID`. -/
def addUuid (list : Bytes) (u : FatUuid) : Bytes :=
  if list = [] then u.val
  else if (list.splitOn 0x2C).any (sameUuid · u) then list
  else list ++ 0x2C :: u.val

/-- `dropUUID`. -/
def dropUuid (list : Bytes) (u : FatUuid) : Bytes :=
  [0x2C].intercalate ((list.splitOn 0x2C).filter fun text => ¬ sameUuid text u)

/-- The list given for the run, as a text. -/
def joinList (list : List Bytes) : Bytes := [0x2C].intercalate list

/-- `addToLists` on the list given for the run. -/
def Host.growExplicit (h : Host) (uuids : List FatUuid) : Host :=
  { h with explicitList := h.explicitList.map fun list =>
      uuids.foldl (fun list u => (addUuid (joinList list) u).splitOn 0x2C) list }

/-- `grow` of `addToLists`. -/
def Host.grow (h : Host) (uuids : List FatUuid) (cur : Bytes) : Bytes :=
  match h.explicitList with
  | some list => joinList list
  | none => if cur = [] then [] else uuids.foldl addUuid cur

/-- `addToLists` on one member's config. -/
def growConfig (h : Host) (uuids : List FatUuid) (m : Esp) : ToolM StepError Unit := do
  let raw ← readContent .lists m.mountpoint .config
  let v := configValue raw.orEmpty espUuidsWord
  let nl := h.grow uuids v
  onlyIf (nl ≠ v) (setConfigFile .lists m.mountpoint espUuidsWord nl)

/-- `addToLists` on one member's CMDLINE. One that cannot be read is left alone. -/
def growCmdline (h : Host) (uuids : List FatUuid) (m : Esp) : ToolM StepError Unit := do
  match ← readContent .lists m.mountpoint .cmdline with
  | .bytes c =>
    let v := cmdlineValue c espUuidsWord
    let nl := h.grow uuids v
    onlyIf (nl ≠ v) do
      let nc := setCmdlineWord c espUuidsWord nl
      checkCmdlineLength nc id
      writeFile .lists m.mountpoint .cmdline nc (.writing .cmdline)
  | _ => pure ()

/-- `addToLists` on one member. -/
def growLists (h : Host) (uuids : List FatUuid) (m : Esp) : ToolM StepError Unit := do
  growConfig h uuids m
  onlyIf (¬ h.uefi) (growCmdline h uuids m)

/-- `addToLists`, for a host whose own list has grown already. It stops at the first error. -/
def addToLists (h : Host) (uuids : List FatUuid) : List Esp → ToolM StepError Unit
  | [] => pure ()
  | m :: ms => do
      onlyIf (m.mounted ∧ ¬ m.foreign) ((growLists h uuids m).relabel (.onMember m.info.uuid))
      addToLists h uuids ms

/-! ### MEMBER -/

/-- `espmember.Read`, where it succeeds. -/
def readMember {ε : Type} (mountpoint : String) : ToolM ε (Option Member) := do
  match ← readContent .write mountpoint .member with
  | .bytes raw => return (decodeMember raw).toOption
  | _ => return none

/-- The record that `finalizeMembersAt` writes. -/
def wanted (env : Machine) (h : Host) (id : InstallId) (pool : Bytes) (gen : Nat) (m : Esp) :
    Member where
  installId := id
  generation := gen
  espUuid := m.info.uuid
  members := h.expected
  pool := sanitizeInfo pool
  disk := sanitizeInfo (env.diskHint m.disk)
  written := env.nowUtc m.info.uuid

/-- The record that is there says the same. -/
def sameRecord (want : Member) : Option Member → Bool
  | none => false
  | some cur => cur.installId = want.installId ∧ cur.generation = want.generation
      ∧ cur.espUuid = want.espUuid ∧ joinUuids cur.members = joinUuids want.members

/-- `finalizeMembersAt` on one member: `espmember.Write`, unless the record is there already. -/
def finalizeMember (mountpoint : String) (want : Member) : ToolM StepError Unit := do
  let cur ← readMember mountpoint
  if sameRecord want cur then pure ()
  else do
    ofExcept ((validateMember want).mapError StepError.memberInvalid)
    writeFile .write mountpoint .member (encodeMember want) (.writing .member)

section
variable {ε : Type}

/-- A step on every member in turn, whatever comes of it: the errors. -/
def onEach (step : Esp → ToolM StepError Unit) : List Esp → ToolM ε (List (FatUuid × StepError))
  | [] => pure []
  | m :: ms => do
      let r ← (step m).outcome
      let errs ← onEach step ms
      return match r with
        | .ok _ => errs
        | .error err => (m.info.uuid, err) :: errs

/-- `finalizeMembersAt`. -/
def finalizeMembersAt (env : Machine) (h : Host) (ok : List Esp) (genOf : Esp → Nat) (pool : Bytes) :
    ToolM ε (List (FatUuid × StepError)) :=
  match h.ensureInstallId env with
  | .error err => pure (ok.map fun m => (m.info.uuid, err))
  | .ok id => onEach (fun m => finalizeMember m.mountpoint (wanted env h id pool (genOf m) m)) ok

/-- `finalizeMembers`. -/
def finalizeMembers (env : Machine) (h : Host) (ok : List Esp) (gen : Nat) (pool : Bytes) :
    ToolM ε (List (FatUuid × StepError)) :=
  finalizeMembersAt env h ok (fun _ => gen) pool

end

end ZfsBoot.Tool.Mirror
