import ZfsBoot.Tool.BiosBoot
import ZfsBoot.Tool.Cmdline
import ZfsBoot.Tool.EspSet
import ZfsBoot.Tool.Payload

/-!
# `ZfsBoot.Tool.Host`: this host's ESPs, mounted

The model of the first half of `cmd/tool/mirror.go`. A mirrored boot has one ESP on each disk. Every
command that writes finds the set of this host's ESPs, mounts them, and works on one after the other.
MEMBER goes last on each: it holds the generation that says which copy is the newest.

What the tool finds on the machine and does not write is `Machine`. That includes functions of other
packages that only look: the reader of PE files, the deep look into a kernel, the names of disks.
A mounted ESP is known by its device here, as the files of `World` are: each is mounted once in a run.

Pointers to members, and maps from them, become UUIDs and functions from those. No two members of a
set have one UUID.
-/

set_option autoImplicit false

namespace ZfsBoot.Tool.Mirror

open Lib Lib.Halting ZfsBoot.Tool.Cmdline
open Bios (ascii)

abbrev Bytes := List UInt8

/-- What a run finds and does not change. -/
structure Machine where
  /-- `firmwareOf` -/
  uefi : Bool
  /-- `detectArch` -/
  arch : String
  /-- `scanESPs`: every device is scanned once -/
  infos : List EspInfo
  distinct : (infos.map EspInfo.dev).Nodup
  /-- `primaryUUID` -/
  primaryUuid : Option FatUuid
  /-- `DevicePartitionBase` -/
  partitionBase : String → String
  /-- `DiskOfESP` -/
  diskOfEsp : String → Except String String
  /-- `MountESP`, for writing -/
  mount : String → Except String Unit
  /-- whether an argument that is no UUID names a device -/
  names : Bytes → String → Bool
  /-- `cmdline.Read` of the bytes of a file -/
  loaderInfo : Bytes → Except String BuildInfo
  /-- `cmdline.ReadSection` of the bytes of a file -/
  loaderSection : Bytes → String → Except String Bytes
  /-- `deepMetadataFor` and `checkMetadataEncodable` -/
  deepMetadata : (arch version buildStamp : String) → (kernel initrd : Bytes) → Except String Bytes
  /-- `NewInstallID` -/
  newInstallId : Except String InstallId
  /-- `diskHint` -/
  diskHint : String → Bytes
  /-- `nowUTC`, when a member's MEMBER is written -/
  nowUtc : FatUuid → Bytes

/-- `hostOpts`, with what `resolveList` makes of them. -/
structure HostOpts where
  list : List FatUuid
  nodup : list.Nodup
  listSource : ListSource
  /-- the list was given for this run, so it is to be recorded -/
  explicit : Bool
  addEsp : Bytes
  forceAdopt : Bool

/-! ### Errors -/

/-- The errors of a step on one ESP. -/
inductive StepError where
  | mount (err : String)
  | foreign (id : Option InstallId)
  | disk (err : String)
  | reading (f : EspFile)
  | readingOn (f : EspFile) (src : FatUuid)
  | removing (f : EspFile)
  | writing (f : EspFile)
  | unsupportedArch (arch : String)
  | loader (err : String)
  | loaderSection (err : String)
  | archMismatch (here latest : String)
  | uefiBackup (f : EspFile)
  | writingLoader
  | verifyingLoader (err : VerifyError)
  | uefiMetadata (err : PayloadError)
  | stage (err : StageError)
  | sectorSize (disk : String)
  | noStage2 (disk : String)
  | stagePair (err : Stage2Error)
  | metadata (err : String)
  | sum (err : PayloadSum.SumError)
  | integrityMode (v : Bytes)
  | manifest (err : PayloadSum.SumError)
  | int13Chunk (v : Bytes)
  | cmdlineLength (n : Nat)
  | refusingUpdate (err : StepError)
  | refusingWrite (disk : String) (err : StepError)
  | stages (err : StagesError)
  | payload (err : PayloadError)
  | payloadOf (src : FatUuid) (err : StepError)
  | sourceUnverified (src m : FatUuid) (err : StepError)
  | settingLost (src m : FatUuid)
  | repairing (src : FatUuid) (err : StepError)
  | copyingConfig (src : FatUuid) (err : StepError)
  | onMember (m : FatUuid) (err : StepError)
  | biosOnly
  | noInstallId (err : String)
  | memberInvalid (err : ValidateError)

/-- The errors that end a command before it writes. -/
inductive HostError where
  | select (err : SelectError)
  | notPresent (u : FatUuid)
  | onSeveral (u : FatUuid)
  | noFat (arg : Bytes)
  | addEsp (arg : Bytes) (err : HostError)
  | addForeign (arg : Bytes) (u : FatUuid) (id : Option InstallId)
  | sameDisk (other u : FatUuid) (disk : String)

/-! ### The host -/

/-- `member`. `target` is there unless the ESP could not be mounted. -/
structure Esp where
  info : EspInfo
  foreign : Bool
  added : Bool
  mountErr : Option String
  disk : String
  diskErr : Option String
  deriving DecidableEq

/-- Where its files are. -/
def Esp.mountpoint (m : Esp) : String := m.info.dev

/-- `m.target != nil`. -/
def Esp.mounted (m : Esp) : Bool := m.mountErr.isNone

/-- `usable` for writing. -/
def Esp.usable (m : Esp) (forceAdopt uefi : Bool) : Except StepError Unit :=
  match m.mountErr with
  | some err => .error (.mount err)
  | none =>
    if m.foreign ∧ ¬ forceAdopt then .error (.foreign m.info.installId)
    else
      match m.diskErr with
      | some err => if uefi then .ok () else .error (.disk err)
      | none => .ok ()

/-- `host`. -/
structure Host where
  uefi : Bool
  set : HostSet
  members : List Esp
  installId : Option InstallId
  explicitList : Option (List Bytes)

/-- `mirrored`. -/
def Host.mirrored (h : Host) : Prop :=
  1 < h.members.length ∨ h.set.missing ≠ [] ∨ h.set.mode = .list

instance (h : Host) : Decidable h.mirrored := inferInstanceAs (Decidable (_ ∨ _ ∨ _))

/-- `exitMemberMissing`. -/
def exitMemberMissing : Nat := 3

/-- `exitCode`. -/
def Host.exitCode (h : Host) (failed : Bool) : Nat :=
  if failed then 1 else if h.set.missing ≠ [] then exitMemberMissing else 0

/-- `expected`. -/
def Host.expected (h : Host) : List FatUuid :=
  let out := (h.set.expected ++ h.members.map (·.info.uuid)).eraseDups
  if h.set.mode = .list then out else sortUuids out

section
variable (env : Machine)

/-- `attach`. Only a mirrored set refuses a disk that BIOS cannot boot from. -/
def attach (uefi : Bool) (mode : Mode) (info : EspInfo) (foreign added : Bool) : Esp where
  info := info
  foreign := foreign
  added := added
  mountErr := match env.mount info.dev with
    | .error err => some err
    | .ok () => none
  disk := if ¬ uefi ∧ (mode ≠ .legacy ∨ added) then
      match env.diskOfEsp info.dev with
      | .ok disk => disk
      | .error _ => env.partitionBase info.dev
    else env.partitionBase info.dev
  diskErr := if ¬ uefi ∧ (mode ≠ .legacy ∨ added) then
      match env.diskOfEsp info.dev with
      | .ok _ => none
      | .error err => some err
    else none

/-- `discoverHost`. -/
def discoverHost (o : HostOpts) : Except HostError Host :=
  match selectHost env.infos ⟨o.list, o.listSource, env.primaryUuid⟩ with
  | .error err => .error (.select err)
  | .ok set => .ok {
      uefi := env.uefi
      set := set
      members := set.members.map fun m => attach env env.uefi set.mode m.toEspInfo m.foreign false
      installId := set.installId
      explicitList := if o.explicit ∧ o.list ≠ [] then some (o.list.map FatUuid.val) else none }

/-- `findInfo`. -/
def findInfo (arg : Bytes) : Except HostError EspInfo :=
  match normalizeFatUuid arg with
  | .ok u =>
    match env.infos.filter (·.uuid = u) with
    | [] => .error (.notPresent u)
    | [i] => .ok i
    | _ => .error (.onSeveral u)
  | .error _ =>
    match env.infos.find? fun i => env.names arg i.dev with
    | some i => .ok i
    | none => .error (.noFat arg)

/-- `addESPs` on one argument. -/
def addEsp (forceAdopt : Bool) (h : Host) (arg : Bytes) : Except HostError Host :=
  let arg := trimSpace arg
  if arg = [] then .ok h
  else
    match findInfo env arg with
    | .error err => .error (.addEsp arg err)
    | .ok info =>
      if h.members.any (·.info.uuid = info.uuid) then .ok h
      else if info.validMember.isSome ∧ info.installId ≠ h.installId ∧ ¬ forceAdopt then
        .error (.addForeign arg info.uuid info.installId)
      else .ok { h with members := h.members ++ [attach env h.uefi h.set.mode info false true] }

/-- `addESPs`. -/
def addEsps (h : Host) (addEspArg : Bytes) (forceAdopt : Bool) : Except HostError Host :=
  if addEspArg = [] then .ok h else (addEspArg.splitOn 0x2C).foldlM (addEsp env forceAdopt) h

end

/-- The loop of `checkDistinctDisks`. -/
def checkDisks : (seen : List (String × FatUuid)) → List Esp → Except HostError Unit
  | _, [] => .ok ()
  | seen, m :: ms =>
    if m.mounted ∧ m.diskErr.isNone then
      match seen.lookup m.disk with
      | some other => .error (.sameDisk other m.info.uuid m.disk)
      | none => checkDisks ((m.disk, m.info.uuid) :: seen) ms
    else checkDisks seen ms

/-- `checkDistinctDisks`. -/
def Host.checkDistinctDisks (h : Host) : Except HostError Unit :=
  if h.uefi then .ok () else checkDisks [] h.members

/-- The loop of `bestSource`. -/
def betterSource (best : Option Esp) (m : Esp) : Option Esp :=
  if ¬ m.mounted ∨ m.added ∨ m.foreign then best
  else
    match best with
    | none => some m
    | some b => if m.info.generation > b.info.generation then some m else some b

/-- `bestSource`. -/
def Host.bestSource (h : Host) : Option Esp := h.members.foldl betterSource none

/-- `maxGeneration`. -/
def Host.maxGeneration (h : Host) : Nat :=
  ((h.members.filter fun m => ¬ m.foreign).map (·.info.generation)).foldl max 0

/-- `ensureInstallID`. -/
def Host.ensureInstallId (h : Host) (env : Machine) : Except StepError InstallId :=
  match h.installId with
  | some id => .ok id
  | none => env.newInstallId.mapError StepError.noInstallId

end ZfsBoot.Tool.Mirror
