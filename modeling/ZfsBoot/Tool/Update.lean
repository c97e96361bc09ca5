import ZfsBoot.Tool.Mirror

/-!
# `ZfsBoot.Tool.Update`: one run over all members

The model of `update` in `cmd/tool`: `runUpdate`, and what it does with one member. A member of an
older build, or a new one, gets the release. One that is up to date is compared with the best member,
and rewritten from it if the two carry the same build and differ. Then config and keys are made the
same everywhere, and at last MEMBER is written on every member that had no error.

A run goes on after the failure of one member. `Result` is what it keeps about each.
-/

set_option autoImplicit false

namespace ZfsBoot.Tool.Mirror

open Lib Lib.Halting ZfsBoot.Tool.Cmdline
open Bios (ascii)
open ZfsBoot.Tool.PayloadSum (validMode modeText)

/-! ### UEFI -/

/-- `uefiAsset`. -/
structure UefiAsset where
  bytes : Bytes
  info : BuildInfo

section
variable {ε : Type}

/-- `BackupPrevious`: whether there is a copy now. -/
def backupPrevious (mountpoint name : String) : ToolM ε Bool := do
  match ← readContent .write mountpoint (.loader name) with
  | .bytes b => perform ⟨.write, .writeFile mountpoint (.previousLoader name) b⟩
  | _ => return false

end

/-- `backupUEFIGeneration`. -/
def backupUefiGeneration (mountpoint name : String) :
    ToolM StepError (Option Bytes × Option Bytes) := do
  let loader ← readFile .write mountpoint (.loader name) (.uefiBackup (.loader name))
  let metadata ← readFile .write mountpoint .metadata (.uefiBackup .metadata)
  return (loader, metadata)

/-- `rollbackUEFIGeneration`. -/
def rollbackUefiGeneration (mountpoint name : String) (backup : Option Bytes × Option Bytes) :
    ToolM PayloadError Bool := do
  let okLoader ← restore mountpoint (.loader name) backup.1
  let okMetadata ← restore mountpoint .metadata backup.2
  return okLoader && okMetadata

/-- The steps of `writeUEFIGenerationWithRollback` that a failure rolls back. -/
def replaceUefiGeneration (env : Machine) (mountpoint name : String) (efi : Bytes) (info : BuildInfo) :
    ToolM StepError Unit := do
  let _ ← backupPrevious mountpoint name
  writeFile .write mountpoint (.loader name) efi .writingLoader
  verifyFile mountpoint (.loader name) efi .verifyingLoader
  let kernel ← ofExcept ((env.loaderSection efi ".linux").mapError StepError.loaderSection)
  let initrd ← ofExcept ((env.loaderSection efi ".initrd").mapError StepError.loaderSection)
  (writeMetadata mountpoint (env.deepMetadata env.arch (asciiText info.version)
    (asciiText info.buildStamp) kernel initrd)).relabel StepError.uefiMetadata

/-- `writeUEFIGenerationWithRollback`. -/
def writeUefiGenerationWithRollback (env : Machine) (mountpoint : String) (efi : Bytes)
    (info : BuildInfo) : ToolM StepError Unit := do
  let name ← ofExcept (loaderPath env.arch)
  let backup ← backupUefiGeneration mountpoint name
  (replaceUefiGeneration env mountpoint name efi info).rescue fun err => do
    let _ ← (rollbackUefiGeneration mountpoint name backup).relabel StepError.payload
    stop err

/-- `updateUEFITarget`: whether the ESP was changed. -/
def updateUefiTarget (env : Machine) (mountpoint : String) (a : UefiAsset) (agree seed : Bool) :
    ToolM StepError Bool := do
  let name ← ofExcept (loaderPath env.arch)
  if seed then do
    writeUefiGenerationWithRollback env mountpoint a.bytes a.info
    return true
  else do
    let here ← readLoader env mountpoint name
    require (.archMismatch here.arch a.info.arch) (a.info.arch = here.arch)
    if stampLe a.info.buildStamp here.buildStamp ∨ ¬ agree then return false
    else do
      writeUefiGenerationWithRollback env mountpoint a.bytes a.info
      return true

/-! ### BIOS -/

/-- `biosAssets`. -/
structure BiosAssets where
  stage1 : Bytes
  stage2 : Bytes
  kernel : Bytes
  initrd : Bytes
  cmdline : Bytes

/-- `biosOpts`. A text that is empty is not given. -/
structure BiosOpts where
  force : Bool
  integrity : Bytes
  integritySet : Bool
  int13chunk : Bytes

/-- The options of a command that does not have them. -/
def BiosOpts.none : BiosOpts := ⟨false, [], false, []⟩

/-- What follows the first occurrence of `pat`. -/
def afterFirst (pat : Bytes) : Bytes → Option Bytes
  | [] => if pat = [] then some [] else none
  | c :: s => if pat.isPrefixOf (c :: s) then some ((c :: s).drop pat.length) else afterFirst pat s

/-- `ExtractStage2Version` succeeds. -/
def hasStage2Version (stage2 : Bytes) : Bool :=
  match afterFirst (ascii "alpine-zfsboot by UniDoc, version ") stage2 with
  | none => false
  | some rest =>
    match afterFirst (ascii ", build=") rest with
    | none => false
    | some build => build.any fun c => c = 0x0A ∨ c = 0

/-- `checkStagePair`. -/
def checkStagePair (stage2 : Bytes) (force : Bool) : Except StepError Unit :=
  match checkStage2 stage2 with
  | .ok () => .ok ()
  | .error err => if force then .ok () else .error (.stagePair err)

/-- `preflightBIOSMetadata`. -/
def preflightBiosMetadata (env : Machine) (info : BuildInfo) (kernel initrd : Bytes) :
    Except StepError Unit :=
  match env.deepMetadata env.arch (asciiText info.version) (asciiText info.buildStamp) kernel initrd with
  | .error err => .error (.metadata err)
  | .ok _ =>
    if env.arch = "x86_64" then
      match PayloadSum.generate kernel initrd (modeText .warn) with
      | .error err => .error (.sum err)
      | .ok _ => .ok ()
    else .ok ()

/-- `checkUpdateEligible`. -/
def checkUpdateEligible (disk : String) : ToolM StepError Unit := do
  let stage2 ← readStage2 disk (.noStage2 disk)
  require (.noStage2 disk) (hasStage2Version stage2)

/-- `setIntegrityMode`. -/
def setIntegrityMode (env : Machine) (uefi : Bool) (mountpoint : String) (mode : Bytes) :
    ToolM StepError Unit :=
  match validMode mode with
  | none => stop (.integrityMode mode)
  | some m => do
      match ← readContent .write mountpoint .payloadSum with
      | .unreadable => stop (.reading .payloadSum)
      | .absent => do
          let (kernel, initrd, _) ← readInstalledKernelInitrd env uefi mountpoint
          let man ← ofExcept ((PayloadSum.new kernel initrd mode).mapError StepError.sum)
          let blk ← ofExcept ((PayloadSum.generateBlkSum kernel initrd).mapError StepError.sum)
          writeFile .write mountpoint .blkSum blk (.writing .blkSum)
          writeFile .write mountpoint .payloadSum (PayloadSum.encode man) (.writing .payloadSum)
      | .bytes raw => do
          let man ← ofExcept ((PayloadSum.decode raw).mapError StepError.manifest)
          writeFile .write mountpoint .payloadSum (PayloadSum.encode { man with mode := m })
            (.writing .payloadSum)

/-- `setInt13Chunk`. -/
def setInt13Chunk (mountpoint : String) (value : Bytes) : ToolM StepError Unit := do
  let raw ← readNeeded mountpoint .cmdline (.reading .cmdline)
  let out := setCmdlineInt13Chunk raw value
  if out = raw then pure ()
  else do
    checkCmdlineLength out id
    writeFile .write mountpoint .cmdline out (.writing .cmdline)

/-- `parseInt13Chunk`, with its error. -/
def int13ChunkArg (v : Bytes) : Except StepError Bytes :=
  match parseInt13Chunk v with
  | some value => .ok value
  | none => .error (.int13Chunk v)

section
variable {ε : Type}

/-- `checkBIOSUpToDate`. -/
def checkBiosUpToDate (mountpoint : String) (newBuildStamp : Bytes) : ToolM ε Bool := do
  match ← readContent .write mountpoint .cmdline with
  | .bytes raw =>
    let stamp := (parseText raw).buildStamp
    return (stamp ≠ [] ∧ stampLe newBuildStamp stamp)
  | _ => return false

/-- `updateIntegrityMode`. -/
def updateIntegrityMode (mountpoint : String) (opts : BiosOpts) : ToolM ε Bytes :=
  if opts.integritySet then pure opts.integrity
  else do
    match ← readContent .write mountpoint .payloadSum with
    | .bytes raw =>
      match PayloadSum.decode raw with
      | .ok man => return modeText man.mode
      | .error _ => return modeText .warn
    | _ => return modeText .warn

end

/-- `applyInt13Chunk`. -/
def applyInt13Chunk (mountpoint : String) (opts : BiosOpts) (c : Bytes) : ToolM StepError Bytes :=
  if opts.int13chunk ≠ [] then do
    let v ← ofExcept (int13ChunkArg opts.int13chunk)
    return setCmdlineInt13Chunk c v
  else do
    let raw ← readContent .write mountpoint .cmdline
    let (v, valid) := cmdlineInt13Chunk raw.orEmpty
    return if valid then setCmdlineInt13Chunk c v else c

/-- The member that settings are taken from, unless it is `m` itself. -/
def otherThan (m : Esp) (src : Option Esp) : Option Esp :=
  src.filter fun s => s.info.uuid ≠ m.info.uuid

/-- `cmdlineEditor` up to the list: the CMDLINE to write, and the one that the list is taken from.
Without a CMDLINE of its own a member takes both settings from the best one. -/
def cmdlineFrom (src : Option Esp) (opts : BiosOpts) (c installed : Bytes) :
    ToolM StepError (Bytes × Bytes) :=
  match installed, src with
  | [], some s => do
      let raw ← readContent .write s.mountpoint .cmdline
      let v := cmdlineValue raw.orEmpty int13ChunkKey
      return (if opts.int13chunk = [] ∧ v ≠ [] then setCmdlineWord c int13ChunkKey v else c, raw.orEmpty)
  | _, _ => return (c, installed)

/-- `cmdlineEditor`. -/
def editCmdline (h : Host) (m : Esp) (src : Option Esp) (opts : BiosOpts) (c : Bytes) :
    ToolM StepError Bytes := do
  let installed ← readContent .write m.mountpoint .cmdline
  let (c, source) ← cmdlineFrom (otherThan m src) opts c installed.orEmpty
  let list := match h.explicitList with
    | some list => joinList list
    | none => cmdlineValue source espUuidsWord
  let c := setCmdlineWord (setCmdlineWord c espUuidsWord list) espSelfWord m.info.uuid.val
  checkCmdlineLength c id
  return c

/-- `updateBIOSTarget` of a build that is up to date: the settings that were given. -/
def updateSettings (env : Machine) (h : Host) (m : Esp) (opts : BiosOpts) : ToolM StepError Unit := do
  onlyIf opts.integritySet (setIntegrityMode env h.uefi m.mountpoint opts.integrity)
  onlyIf (opts.int13chunk ≠ []) do
    let v ← ofExcept (int13ChunkArg opts.int13chunk)
    setInt13Chunk m.mountpoint v

/-- `updateBIOSTarget` up to the first write: the CMDLINE to write. -/
def prepareBios (env : Machine) (h : Host) (m : Esp) (src : Option Esp) (a : BiosAssets)
    (opts : BiosOpts) : ToolM StepError Bytes := do
  ofExcept (preflightBiosMetadata env (parseText a.cmdline) a.kernel a.initrd)
  ofExcept (checkStagePair a.stage2 opts.force)
  require (.integrityMode opts.integrity) ((validMode opts.integrity).isSome)
  let c ← applyInt13Chunk m.mountpoint opts a.cmdline
  editCmdline h m src opts c

/-- A failed step on one member, and whether something was written before. -/
structure StepFailure where
  wrote : Bool
  err : StepError

/-- `updateBIOSTarget` from the first write on. -/
def writeBios (env : Machine) (m : Esp) (integrityFrom : String) (a : BiosAssets) (opts : BiosOpts)
    (c : Bytes) : ToolM StepFailure Unit := do
  (writeBiosStagesWithRollback m.disk a.stage1 a.stage2).relabel fun f => ⟨false, .stages f.err⟩
  let mode ← updateIntegrityMode integrityFrom opts
  let info := parseText a.cmdline
  (writePayloadWithRollback (fun n => env.deepMetadata n.arch n.version n.buildStamp n.kernel n.initrd)
    m.mountpoint ⟨env.arch, asciiText info.version, asciiText info.buildStamp, a.kernel, a.initrd, c,
      mode⟩).relabel fun err => ⟨true, .payload err⟩

/-- `updateBIOSTarget`: whether the disk or the ESP was changed. -/
def updateBiosTarget (env : Machine) (h : Host) (m : Esp) (src : Option Esp) (a : BiosAssets)
    (agree : Bool) (opts : BiosOpts) (seed : Bool) : ToolM StepFailure Bool := do
  demand ⟨false, .refusingUpdate (.sectorSize m.disk)⟩ ⟨.write, .checkSectorSize m.disk⟩
  checkExtent .write m.disk fun err => ⟨false, .refusingUpdate (.stage err)⟩
  onlyIf (¬ seed) ((checkUpdateEligible m.disk).relabel (StepFailure.mk false))
  let upToDate ← checkBiosUpToDate m.mountpoint (parseText a.cmdline).buildStamp
  if upToDate ∧ ¬ seed then do
    (updateSettings env h m opts).relabel (StepFailure.mk false)
    return false
  else do
    let c ← (prepareBios env h m src a opts).relabel fun err => ⟨false, .refusingUpdate err⟩
    if ¬ agree then return false
    else do
      -- a new member has no mode of its own yet
      let integrityFrom := match otherThan m src with
        | some s => if seed then s.mountpoint else m.mountpoint
        | none => m.mountpoint
      writeBios env m integrityFrom a opts c
      return true

/-! ### From one member to another -/

/-- `copyBootChain` of a UEFI loader. -/
def copyLoader (env : Machine) (src m : Esp) : ToolM StepError Unit := do
  let name ← ofExcept (loaderPath env.arch)
  let loader ← readNeeded src.mountpoint (.loader name) (.readingOn (.loader name) src.info.uuid)
  let (_, _, info) ← readInstalledKernelInitrd env true src.mountpoint
  writeUefiGenerationWithRollback env m.mountpoint loader info

/-- `copyBootChain` of the stages and the payload. -/
def copyBios (env : Machine) (src m : Esp) : ToolM StepError Unit := do
  let stage1 ← readStage1 src.disk (.noStage2 src.disk)
  let stage2 ← readStage2 src.disk (.noStage2 src.disk)
  ofExcept (checkStagePair stage2 false)
  demand (.refusingWrite m.disk (.sectorSize m.disk)) ⟨.write, .checkSectorSize m.disk⟩
  checkExtent .write m.disk fun err => .refusingWrite m.disk (.stage err)
  let (kernel, initrd, info) ←
    (readInstalledKernelInitrd env false src.mountpoint).relabel (.payloadOf src.info.uuid)
  ofExcept (preflightBiosMetadata env info kernel initrd)
  let raw ← readNeeded src.mountpoint .cmdline (.reading .cmdline)
  let c := setCmdlineWord raw espSelfWord m.info.uuid.val
  checkCmdlineLength c id
  (writeBiosStagesWithRollback m.disk stage1 stage2).relabel fun f => .stages f.err
  let mode ← updateIntegrityMode src.mountpoint .none
  (writePayloadWithRollback (fun n => env.deepMetadata n.arch n.version n.buildStamp n.kernel n.initrd)
    m.mountpoint ⟨env.arch, asciiText info.version, asciiText info.buildStamp, kernel, initrd, c,
      mode⟩).relabel StepError.payload

/-- `copyBootChain` up to config and keys. -/
def copyBuild (env : Machine) (uefi : Bool) (src m : Esp) : ToolM StepError Unit :=
  if uefi then copyLoader env src m else copyBios env src m

/-- `copyBootChain`. -/
def copyBootChain (env : Machine) (uefi : Bool) (src m : Esp) : ToolM StepError Unit := do
  copyBuild env uefi src m
  let _ ← syncConfig src m

/-- `memberSettings`. A setting that is not set is empty. -/
structure MemberSettings where
  int13chunk : Bytes
  integrityWord : Bytes
  mode : Bytes

/-- `readMemberSettings`. -/
def readMemberSettings {ε : Type} (mountpoint : String) : ToolM ε MemberSettings := do
  let cmdline ← readContent .write mountpoint .cmdline
  let sum ← readContent .write mountpoint .payloadSum
  return {
    int13chunk := cmdlineValue cmdline.orEmpty int13ChunkKey
    integrityWord := cmdlineValue cmdline.orEmpty integrityKey
    mode := match sum with
      | .bytes raw =>
        match PayloadSum.decode raw with
        | .ok man => if man.mode = .warn then [] else modeText man.mode
        | .error _ => []
      | _ => [] }

/-- `lostBy` names a setting. -/
def MemberSettings.losesTo (m src : MemberSettings) : Bool :=
  (m.int13chunk ≠ [] ∧ m.int13chunk ≠ src.int13chunk)
    ∨ (m.integrityWord ≠ [] ∧ m.integrityWord ≠ src.integrityWord)
    ∨ (m.mode ≠ [] ∧ m.mode ≠ src.mode)

/-- The source of a repair passes its own CHECKSUM. -/
def checkRepairSource (env : Machine) (src : Esp) : ToolM StepError Unit := do
  let raw ← readNeeded src.mountpoint .payloadSum (.reading .payloadSum)
  let man ← ofExcept ((PayloadSum.decode raw).mapError StepError.manifest)
  let (kernel, initrd, _) ← readInstalledKernelInitrd env false src.mountpoint
  match PayloadSum.verify man kernel initrd with
  | [] => pure ()
  | err :: _ => stop (.sum err)

/-- `repairMember`: whether `m` was rewritten. -/
def repairMember (env : Machine) (uefi : Bool) (src m : Esp) : ToolM StepError Bool := do
  let ds ← digestMember env uefi src
  let dm ← digestMember env uefi m
  if ds.buildStamp = [] ∨ ds.buildStamp ≠ dm.buildStamp ∨ diff DigestName.isBootChain ds dm = [] then
    return false
  else do
    onlyIf (¬ uefi) ((checkRepairSource env src).relabel (.sourceUnverified src.info.uuid m.info.uuid))
    let own ← readMemberSettings m.mountpoint
    let others ← readMemberSettings src.mountpoint
    require (.settingLost src.info.uuid m.info.uuid) (¬ own.losesTo others)
    (copyBootChain env uefi src m).relabel (.repairing src.info.uuid)
    return true

/-! ### All members -/

/-- `result`. -/
structure Result where
  wrote : Bool
  err : Option StepError

/-- The results so far, by member. -/
abbrev Results := FatUuid → Result

/-- What `update` is asked to do, and what it is to install. -/
structure UpdateOpts where
  host : HostOpts
  yes : Bool
  /-- the answer to the question that is asked without `yes` -/
  answer : Bool
  bios : BiosOpts
  uefiAsset : UefiAsset
  biosAssets : BiosAssets

section
variable {ε : Type} (env : Machine) (o : UpdateOpts)

/-- `installed`. -/
def installed (uefi : Bool) (m : Esp) : ToolM ε Bool :=
  if uefi then
    match loaderPath env.arch with
    | .error _ => pure false
    | .ok name => do
        match ← readContent .write m.mountpoint (.loader name) with
        | .bytes _ => return true
        | _ => return false
  else do
    match ← (readStage2 m.disk ()).outcome with
    | .error _ => return false
    | .ok stage2 => return (4 ≤ stage2.length ∧ le16 stage2 2 = stage2Magic)

/-- `seed`: a new member, which the operator named. -/
def isSeed (h : Host) (m : Esp) : ToolM ε Bool :=
  if m.added then pure true
  else if h.set.mode = .legacy then pure false
  else do return !(← installed env h.uefi m)

/-- The release, on one member: whether something was written. -/
def updateTarget (h : Host) (src : Option Esp) (m : Esp) (seed : Bool) : ToolM StepFailure Bool :=
  -- of a mirrored set the question was asked once for all
  let agree := h.mirrored ∨ o.yes ∨ o.answer
  if h.uefi then
    (updateUefiTarget env m.mountpoint o.uefiAsset agree seed).relabel (StepFailure.mk false)
  else updateBiosTarget env h m src o.biosAssets agree o.bios seed

/-- A member that the release did not change is compared with the best one. -/
def repairFrom (h : Host) (src : Option Esp) (m : Esp) (seed : Bool) : ToolM ε Result :=
  match otherThan m src with
  | none => pure ⟨false, none⟩
  | some s =>
    if seed then pure ⟨false, none⟩
    else do
      match ← (repairMember env h.uefi s m).outcome with
      | .error err => return ⟨false, some err⟩
      | .ok wrote => return ⟨wrote, none⟩

/-- The body of the first loop of `runUpdate`. -/
def updateMember (h : Host) (src : Option Esp) (m : Esp) : ToolM ε Result :=
  match m.usable o.host.forceAdopt h.uefi with
  | .error err => pure ⟨false, some err⟩
  | .ok () => do
      let seed ← isSeed env h m
      match ← (updateTarget env o h src m seed).outcome with
      | .error f => return ⟨f.wrote, some f.err⟩
      | .ok true => return ⟨true, none⟩
      | .ok false => repairFrom env h src m seed

/-- The first loop of `runUpdate`. -/
def updateLoop (h : Host) (src : Option Esp) : List Esp → Results → ToolM ε Results
  | [], res => pure res
  | m :: ms, res => do
      let r ← updateMember env o h src m
      updateLoop h src ms (Function.update res m.info.uuid r)

/-- A member's error. -/
def Results.fail (res : Results) (m : Esp) (err : StepError) : Results :=
  Function.update res m.info.uuid { res m.info.uuid with err := some err }

/-- Something was written on a member. -/
def Results.wrote (res : Results) (m : Esp) : Results :=
  Function.update res m.info.uuid { res m.info.uuid with wrote := true }

/-- An ESP added now joins the lists that the set records. -/
def updateLists (h : Host) (src : Option Esp) (res : Results) : ToolM ε (Host × Results) :=
  let on := h.members.filter fun m => (res m.info.uuid).err.isNone ∧ m.mounted
  let added := (on.filter (·.added)).map (·.info.uuid)
  if added = [] then pure (h, res)
  else do
    let h := h.growExplicit added
    match ← (addToLists h added on).outcome with
    | .ok _ => return (h, res)
    | .error err =>
      return (h, match src with
        | some s => res.fail s err
        | none => res)

/-- The list given for this run is recorded in the best member's config. -/
def recordList (h : Host) (src : Esp) (res : Results) : ToolM ε Results :=
  match h.explicitList with
  | none => pure res
  | some list => do
      let raw ← readContent .write src.mountpoint .config
      if configValue raw.orEmpty espUuidsWord = joinList list then return res
      else
        match ← (setConfigFile .write src.mountpoint espUuidsWord (joinList list)).outcome with
        | .ok _ => return res.wrote src
        | .error err => return res.fail src err

/-- Config and keys on every member, from the best one. -/
def syncLoop (src : Esp) : List Esp → Results → ToolM ε Results
  | [], res => pure res
  | m :: ms, res =>
    if m.info.uuid = src.info.uuid ∨ (res m.info.uuid).err.isSome then syncLoop src ms res
    else do
      match ← (syncConfig src m).outcome with
      | .ok wrote => syncLoop src ms (if wrote then res.wrote m else res)
      | .error err => syncLoop src ms (res.fail m (.copyingConfig src.info.uuid err))

/-- `runUpdate` between the payloads and MEMBER. -/
def updateConfig (h : Host) (src : Option Esp) (res : Results) : ToolM ε Results :=
  match src with
  | none => pure res
  | some s => do
      let res ← recordList h s res
      syncLoop s h.members res

/-- The generation of a run: it grows if anything was written. -/
def nextGeneration (h : Host) (res : Results) : Nat :=
  if h.members.any (fun m => (res m.info.uuid).wrote) ∨ h.maxGeneration = 0 then h.maxGeneration + 1
  else h.maxGeneration

/-- The errors of MEMBER. -/
def failAll (res : Results) (errs : List (FatUuid × StepError)) : Results := fun u =>
  match errs.lookup u with
  | some err => { res u with err := some err }
  | none => res u

/-- MEMBER last, on every member that ended this run consistent. -/
def updateFinalize (h : Host) (src : Option Esp) (res : Results) : ToolM ε Results := do
  let ok := h.members.filter fun m => (res m.info.uuid).err.isNone
  let pool ← poolOf env h.uefi src
  let errs ← finalizeMembers env h ok (nextGeneration h res) pool
  return failAll res errs

/-- `runUpdate` up to MEMBER: payloads, lists, config. -/
def updateContent (h : Host) : ToolM ε (Host × Results) := do
  let src := h.bestSource
  let res ← updateLoop env o h src h.members fun _ => ⟨false, none⟩
  let (h, res) ← updateLists h src res
  let res ← updateConfig h src res
  return (h, res)

/-- `runUpdate` on a host: its results. -/
def updateHost (h : Host) : ToolM ε Results := do
  let (h', res) ← updateContent env o h
  updateFinalize env h' h.bestSource res

/-- `summarize`: anything failed. -/
def anyFailed (h : Host) (res : Results) : Bool :=
  h.members.any fun m => (res m.info.uuid).err.isSome

/-- The host of a run of `update`, with the ESPs that are added. -/
def updateSet : Except HostError Host :=
  match discoverHost env o.host with
  | .error err => .error err
  | .ok h =>
    match addEsps env h o.host.addEsp o.host.forceAdopt with
    | .error err => .error err
    | .ok h =>
      match h.checkDistinctDisks with
      | .error err => .error err
      | .ok () => .ok h

/-- `runUpdate`: the exit status. -/
def runUpdate : ToolM ε Nat :=
  match updateSet env o with
  | .error _ => pure 1
  | .ok h =>
    if h.mirrored ∧ ¬ o.yes ∧ ¬ o.answer then pure 0
    else do
      let res ← updateHost env o h
      return h.exitCode (anyFailed h res)

end

end ZfsBoot.Tool.Mirror
