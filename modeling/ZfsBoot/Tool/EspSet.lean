import Mathlib.Data.List.Dedup
import Mathlib.Data.List.Sort
import ZfsBoot.Tool.EspMember

/-!
# `ZfsBoot.Tool.EspSet`: the ESPs of this host

The model of the selection in `internal/bootenv/espset.go`. The scan says of every FAT volume what
its label, its files and its marker are. `SelectHost` decides from that which of them are this
host's: those of an explicit list, else those with a marker of this host's installation, else the
one unmarked ESP of the time before markers.

The two maps of the source, from an installation to its ESPs and from a UUID to its devices, are
only read after they are complete. They are functions of the scan here (`group`, `devsOf`).
-/

set_option autoImplicit false

namespace ZfsBoot.Tool

open Lib
open Bios (ascii)

/-! ### The scan -/

/-- `layout.FATVolumeLabel`: "EFI". -/
def fatVolumeLabel : List UInt8 := [0x45, 0x46, 0x49]

/-- What `espmember.Read` made of an ESP's MEMBER file: `Member` and `MemberErr`, of which at most
one is set. -/
inductive Marker where
  | absent
  | broken (err : String)
  | decoded (m : Member)
  deriving DecidableEq

/-- A MEMBER file that does not decode. -/
def Marker.isBroken : Marker → Bool
  | .broken _ => true
  | _ => false

/-- `ESPInfo`. A volume that could not be mounted has the values of an empty one. -/
structure EspInfo where
  dev : String
  uuid : FatUuid
  label : List UInt8
  alpineDir : Bool
  qualifies : Bool
  marker : Marker
  configList : List UInt8
  deriving DecidableEq

/-- `ValidMember`, with the marker: one that names this very ESP. -/
def EspInfo.validMember (i : EspInfo) : Option Member :=
  match i.marker with
  | .decoded m => if m.espUuid = i.uuid then some m else none
  | _ => none

/-- `CopiedMarker`, with the marker: one that names another ESP. -/
def EspInfo.copiedMarker (i : EspInfo) : Option Member :=
  match i.marker with
  | .decoded m => if m.espUuid = i.uuid then none else some m
  | _ => none

/-- The installation that a valid marker names. -/
def EspInfo.installId (i : EspInfo) : Option InstallId := i.validMember.map Member.installId

/-- `Generation`. -/
def EspInfo.generation (i : EspInfo) : Nat := (i.validMember.map Member.generation).getD 0

/-- An ESP as it was before markers: labelled, with files of ours, without a marker. -/
def EspInfo.isUnmarked (i : EspInfo) : Bool :=
  i.label = fatVolumeLabel ∧ i.qualifies ∧ i.marker = .absent

/-- Such an ESP with a marker that cannot be read. -/
def EspInfo.isBroken (i : EspInfo) : Bool :=
  i.label = fatVolumeLabel ∧ i.qualifies ∧ i.marker.isBroken

/-- `countUUIDs`: the devices that carry a UUID. -/
def devsOf (infos : List EspInfo) (u : FatUuid) : List String :=
  (infos.filter (·.uuid = u)).map EspInfo.dev

/-- `infoByUUID`. -/
def infoByUuid (infos : List EspInfo) (u : FatUuid) : Option EspInfo := infos.find? (·.uuid = u)

/-- The keys of `groups`: the installations that a valid marker names. -/
def installIds (infos : List EspInfo) : List InstallId := (infos.filterMap EspInfo.installId).dedup

/-- An entry of `groups`: the ESPs of an installation. -/
def group (infos : List EspInfo) (id : InstallId) : List EspInfo :=
  infos.filter (·.installId = some id)

/-! ### The result -/

/-- Where a list came from. -/
inductive ListSource where
  | given (source : String)
  | configOf (u : FatUuid)
  | unmarked
  deriving DecidableEq

/-- `SelectOpts`. -/
structure SelectOpts where
  list : List FatUuid
  listSource : ListSource
  primaryUuid : Option FatUuid

/-- `ModeList`, `ModeMember` and `ModeLegacy`. -/
inductive Mode where
  | list
  | member
  | legacy
  deriving DecidableEq

/-- `HostMember`: `foreign` when its marker names another installation. -/
structure HostMember extends EspInfo where
  foreign : Bool
  deriving DecidableEq

/-- Why an ESP is not used. -/
inductive IgnoreReason where
  | copied (owner : FatUuid)
  | unreadable (err : String)
  | outranked (id : InstallId)
  | otherInstallation (id : InstallId)
  | noMarker
  | notListed
  deriving DecidableEq

/-- `Ignored`. -/
structure Ignored extends EspInfo where
  why : IgnoreReason
  deriving DecidableEq

/-- `layout.ESPUUIDsKey`. -/
def espUuidsKey : String := "alpine-zfsboot.esp-uuids"

/-- `HostSet`. -/
structure HostSet where
  mode : Mode
  listSource : Option ListSource
  installId : Option InstallId
  members : List HostMember
  expected : List FatUuid
  missing : List FatUuid
  ignored : List Ignored

/-- The errors of `SelectHost`. -/
inductive SelectError where
  | duplicate (u : FatUuid) (devs : List String)
  | severalInstallations (groups : List (InstallId × List (FatUuid × String)))
  | configList (u : FatUuid) (err : UuidError)
  | noEsp (checked : Nat)
  | severalUnmarked (esps : List (String × FatUuid))
  | nonePresent (list : List FatUuid) (source : ListSource)

/-! ### Order -/

/-- The comparison of `orderMembers`. A UUID that is not in `rank` has no position. -/
def before (primary : Option FatUuid) (rank : FatUuid → Option Nat) (a b : HostMember) : Bool :=
  let pa := decide (some a.uuid = primary)
  let pb := decide (some b.uuid = primary)
  if a.generation ≠ b.generation then a.generation > b.generation
  else if pa ≠ pb then pa
  else
    match rank a.uuid, rank b.uuid with
    | some ra, some rb => if ra ≠ rb then ra < rb else a.uuid < b.uuid
    | _, _ => a.uuid < b.uuid

/-- `orderMembers`: a stable sort, best first. -/
def orderMembers (ms : List HostMember) (primary : Option FatUuid) (rank : FatUuid → Option Nat) :
    List HostMember :=
  ms.insertionSort fun a b => before primary rank b a = false

/-- The position that a list gives to a UUID: that of its last occurrence. -/
def listRank (list : List FatUuid) (u : FatUuid) : Option Nat :=
  (list.zipIdx.reverse.find? (·.1 = u)).map Prod.snd

/-- `sort.Strings` of UUIDs. -/
def sortUuids (us : List FatUuid) : List FatUuid := us.insertionSort (· ≤ ·)

/-! ### Selection -/

/-- The identity of a list: that of the first listed ESP with a marker. -/
def listIdentity (infos : List EspInfo) (list : List FatUuid) : Option InstallId :=
  list.findSome? fun u =>
    if (devsOf infos u).length = 1 then (infoByUuid infos u).bind EspInfo.installId else none

/-- The ESPs of a list that are present. -/
def presentOf (infos : List EspInfo) (list : List FatUuid) : List EspInfo :=
  list.filterMap (infoByUuid infos)

/-- What `selectList` returns. -/
def listSet (infos : List EspInfo) (list : List FatUuid) (source : ListSource)
    (primary : Option FatUuid) : HostSet :=
  let id := listIdentity infos list
  let members := orderMembers ((presentOf infos list).map fun i => ⟨i, false⟩) primary
    (listRank list)
  { mode := .list
    listSource := some source
    installId := id
    members := members.map fun m =>
      { m with foreign := decide (m.validMember.isSome ∧ m.installId ≠ id) }
    expected := list
    missing := list.filter fun u => devsOf infos u = []
    ignored := (infos.filter fun i => i.uuid ∉ list ∧ i.alpineDir).map fun i => ⟨i, .notListed⟩ }

/-- `selectList`. The loop over the list stops at the first UUID that is on two devices. -/
def selectList (infos : List EspInfo) (list : List FatUuid) (source : ListSource)
    (primary : Option FatUuid) : Except SelectError HostSet :=
  match list.find? fun u => 1 < (devsOf infos u).length with
  | some u => .error (.duplicate u (devsOf infos u))
  | none =>
    if presentOf infos list = [] then .error (.nonePresent list source)
    else .ok (listSet infos list source primary)

/-- `list` and `agree` after one more of the unmarked ESPs. -/
def agreeStep (st : List UInt8 × Bool) (i : EspInfo) : List UInt8 × Bool :=
  if i.configList = [] then st
  else (i.configList, st.2 && !(st.1 ≠ [] ∧ i.configList ≠ st.1))

/-- The list that unmarked ESPs agree on: the last one, if no two in a row differ. -/
def agreedList (qual : List EspInfo) : Option (List UInt8) :=
  let st := qual.foldl agreeStep ([], true)
  if st.1 ≠ [] ∧ st.2 then some st.1 else none

/-- No ESP is as it was before markers, and one is but for a marker that cannot be read. -/
def usesBroken (infos : List EspInfo) : Bool :=
  infos.filter EspInfo.isUnmarked = [] ∧ (infos.filter EspInfo.isBroken).length = 1

/-- `qual` of `selectLegacy`. -/
def qualifying (infos : List EspInfo) : List EspInfo :=
  if usesBroken infos then infos.filter EspInfo.isBroken else infos.filter EspInfo.isUnmarked

/-- `ignored` of `selectLegacy`: an ESP that is used after all is no longer ignored. -/
def legacyIgnored (infos : List EspInfo) (ignored : List Ignored) : List Ignored :=
  if usesBroken infos then ignored.filter fun ig => ig.uuid ∉ (qualifying infos).map EspInfo.uuid
  else ignored

/-- What `selectLegacy` returns for an ESP without a list in its config. -/
def legacySet (i : EspInfo) (ignored : List Ignored) : HostSet :=
  ⟨.legacy, none, none, [⟨i, false⟩], [i.uuid], [], ignored⟩

/-- `selectLegacy` on several ESPs, in the order of their UUIDs. -/
def selectSeveral (infos qual : List EspInfo) : Except SelectError HostSet :=
  match (agreedList qual).map parseUuidList with
  | some (.ok list) => selectList infos list .unmarked none
  | _ => .error (.severalUnmarked (qual.map fun i => (i.dev, i.uuid)))

/-- `selectLegacy`. -/
def selectLegacy (infos : List EspInfo) (ignored : List Ignored) : Except SelectError HostSet :=
  match qualifying infos with
  | [] => .error (.noEsp infos.length)
  | [i] =>
    if 1 < (devsOf infos i.uuid).length then .error (.duplicate i.uuid (devsOf infos i.uuid))
    else if i.configList ≠ [] then
      match parseUuidList i.configList with
      | .error err => .error (.configList i.uuid err)
      | .ok list => selectList infos list (.configOf i.uuid) none
    else .ok (legacySet i (legacyIgnored infos ignored))
  | qual => selectSeveral infos (qual.insertionSort fun a b => a.uuid ≤ b.uuid)

/-- The ESPs that the first loop of `SelectHost` ignores. -/
def markerIgnored (i : EspInfo) : Option Ignored :=
  match i.marker with
  | .absent => none
  | .broken err => some ⟨i, .unreadable err⟩
  | .decoded m => if m.espUuid = i.uuid then none else some ⟨i, .copied m.espUuid⟩

/-- The primary ESP with its valid marker. -/
def markedPrimary (infos : List EspInfo) (opts : SelectOpts) : Option (EspInfo × Member) := do
  let u ← opts.primaryUuid
  let p ← infoByUuid infos u
  let m ← p.validMember
  return (p, m)

/-- The only marked ESP gives way to an unmarked one: it is not the primary, and it does not have
the label that the unmarked one has. -/
def givesWay (infos : List EspInfo) (opts : SelectOpts) : Bool :=
  let foreign := infos.filter (·.validMember.isSome)
  (installIds infos).length = 1 ∧ (markedPrimary infos opts).isNone ∧
    (∀ i ∈ foreign, i.label ≠ fatVolumeLabel) ∧ (∃ i ∈ infos, i.isUnmarked) ∧ foreign.length = 1

/-- The installation that the markers say is this host's. -/
def chooseInstallation (infos : List EspInfo) (opts : SelectOpts) : Except SelectError InstallId :=
  match markedPrimary infos opts, installIds infos with
  | some (p, m), _ =>
    if 1 < (devsOf infos p.uuid).length then .error (.duplicate p.uuid (devsOf infos p.uuid))
    else .ok m.installId
  | none, [id] => .ok id
  | none, ids =>
    let ids := ids.insertionSort fun a b => a.val.map UInt8.toNat ≤ b.val.map UInt8.toNat
    .error (.severalInstallations (ids.map fun id =>
      (id, (group infos id).map fun i => (i.uuid, i.dev))))

/-- The ESPs that the last loop of `SelectHost` ignores. -/
def unusedIgnored (i : EspInfo) : Option Ignored :=
  match i.installId with
  | some id => some ⟨i, .otherInstallation id⟩
  | none => if i.marker = .absent ∧ i.alpineDir then some ⟨i, .noMarker⟩ else none

/-- The members of an installation, best first. -/
def orderedGroup (infos : List EspInfo) (id : InstallId) (primary : Option FatUuid) :
    List HostMember :=
  orderMembers ((group infos id).map fun i => ⟨i, false⟩) primary fun _ => none

/-- What `SelectHost` returns for an installation whose best member has no list in its config. The
group of a chosen installation is not empty, so there is a best member. -/
def memberSet (infos : List EspInfo) (id : InstallId) (primary : Option FatUuid)
    (ignored : List Ignored) : HostSet :=
  let members := orderedGroup infos id primary
  let present := members.map (·.uuid)
  let recorded := ((members.head?.bind (·.validMember)).map Member.members).getD []
  let expected := sortUuids (recorded ++ present).dedup
  { mode := .member
    listSource := none
    installId := some id
    members := members
    expected := expected
    missing := sortUuids (expected.filter (· ∉ present))
    ignored := ignored ++ (infos.filter (·.uuid ∉ present)).filterMap unusedIgnored }

/-- `SelectHost` from the installation on. -/
def selectMembers (infos : List EspInfo) (id : InstallId) (primary : Option FatUuid)
    (ignored : List Ignored) : Except SelectError HostSet :=
  match (group infos id).find? fun i => 1 < (devsOf infos i.uuid).length with
  | some i => .error (.duplicate i.uuid (devsOf infos i.uuid))
  | none =>
    match (orderedGroup infos id primary).head?.filter (·.configList ≠ []) with
    | some best =>
      match parseUuidList best.configList with
      | .error err => .error (.configList best.uuid err)
      | .ok list => selectList infos list (.configOf best.uuid) primary
    | none => .ok (memberSet infos id primary ignored)

/-- `SelectHost`. -/
def selectHost (infos : List EspInfo) (opts : SelectOpts) : Except SelectError HostSet :=
  if opts.list ≠ [] then selectList infos opts.list opts.listSource opts.primaryUuid
  else
    let ignored := infos.filterMap markerIgnored
    if installIds infos = [] then selectLegacy infos ignored
    else if givesWay infos opts then
      selectLegacy infos (ignored ++ infos.filterMap fun i =>
        i.installId.map fun id => ⟨i, .outranked id⟩)
    else do
      let id ← chooseInstallation infos opts
      selectMembers infos id opts.primaryUuid ignored

end ZfsBoot.Tool
