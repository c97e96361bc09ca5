import ZfsBoot.Tool.Update

/-!
# `ZfsBoot.Tool.EspCmd`: settings, and which ESPs are members

The model of the other commands that write to the set: `integrity` and `int13chunk`, which apply one
setting to every member (`forEachMember`), and `esp add`, `esp remove` and `esp adopt`, which change
the set itself.

`esp adopt` makes its own host: always as on BIOS, from the markers alone, and with the ESPs of the
set attached as if none of them were foreign.
-/

set_option autoImplicit false

namespace ZfsBoot.Tool.Mirror

open Lib Lib.Halting ZfsBoot.Tool.Cmdline

/-! ### Settings -/

/-- A setting that is applied to every member. -/
inductive Setting where
  | integrity (mode : Bytes)
  | int13chunk (value : Bytes)

section
variable {ε : Type} (env : Machine)

/-- The function that `integrity` and `int13chunk` give to `forEachMember`. -/
def applySetting (h : Host) (s : Setting) (m : Esp) : ToolM StepError Unit :=
  if h.uefi then stop .biosOnly
  else
    match s with
    | .integrity mode => setIntegrityMode env h.uefi m.mountpoint mode
    | .int13chunk value => setInt13Chunk m.mountpoint value

/-- The digests of some members. -/
def digestAll (uefi : Bool) : List Esp → ToolM ε (List (FatUuid × MemberDigest))
  | [] => pure []
  | m :: ms => do
      let d ← digestMember env uefi m
      let rest ← digestAll uefi ms
      return (m.info.uuid, d) :: rest

/-- `payloadDifference` names a file. -/
def payloadDifference (h : Host) : ToolM ε Bool := do
  match ← digestAll env h.uefi (h.members.filter fun m => m.mounted ∧ ¬ m.added ∧ ¬ m.foreign) with
  | [] => return false
  | (_, d) :: rest => return rest.any fun (_, d') => diff DigestName.isPayload d d' ≠ []

/-- The loop of `forEachMember`: the members that were reached, and whether one was not. -/
def settingLoop (h : Host) (forceAdopt : Bool) (s : Setting) : List Esp → ToolM ε (List Esp × Bool)
  | [] => pure ([], false)
  | m :: ms => do
      let r ← (do
        ofExcept (m.usable forceAdopt h.uefi)
        applySetting env h s m).outcome
      let (reached, failed) ← settingLoop h forceAdopt s ms
      return match r with
        | .ok _ => (m :: reached, failed)
        | .error _ => (reached, true)

/-- `changed` of `forEachMember`. -/
def anyChanged (uefi : Bool) (old : List (FatUuid × MemberDigest)) : List Esp → ToolM ε Bool
  | [] => pure false
  | m :: ms =>
    match old.lookup m.info.uuid with
    | none => anyChanged uefi old ms
    | some d => do
        let d' ← digestMember env uefi m
        let rest ← anyChanged uefi old ms
        return d.files ≠ d'.files || rest

/-- `recordSettingGeneration` records something. -/
def Host.recordsSetting (h : Host) (reached : List Esp) (someUnreached changed : Bool) : Prop :=
  h.mirrored ∧ reached ≠ [] ∧ h.installId.isSome ∧ changed ∧ (someUnreached ∨ h.set.missing ≠ [])

instance (h : Host) (reached : List Esp) (someUnreached changed : Bool) :
    Decidable (h.recordsSetting reached someUnreached changed) :=
  inferInstanceAs (Decidable (_ ∧ _))

/-- `recordSettingGeneration`. -/
def recordSettingGeneration (h : Host) (reached : List Esp) (someUnreached changed : Bool) :
    ToolM ε Unit :=
  if h.recordsSetting reached someUnreached changed then do
    let pool ← poolOf env h.uefi h.bestSource
    let _ ← finalizeMembers env h reached (h.maxGeneration + 1) pool
  else pure ()

/-- `forEachMember` on a host, up to the recording: the members that were reached, whether one was
not, and whether something changed. -/
def applyToAll (h : Host) (forceAdopt : Bool) (s : Setting) : ToolM ε (List Esp × Bool × Bool) := do
  let old ← digestAll env h.uefi (h.members.filter fun m => m.mounted ∧ ¬ m.foreign)
  let (reached, failed) ← settingLoop env h forceAdopt s h.members
  let changed ← anyChanged env h.uefi old reached
  return (reached, failed, changed)

/-- `forEachMember` on a host: the exit status. -/
def settingHost (h : Host) (forceAdopt : Bool) (s : Setting) : ToolM ε Nat := do
  let differs ← (if h.mirrored then payloadDifference env h else pure false)
  if differs then return 1
  else do
    let (reached, failed, changed) ← applyToAll env h forceAdopt s
    recordSettingGeneration env h reached failed changed
    return h.exitCode failed

/-- `forEachMember`. -/
def forEachMember (o : HostOpts) (s : Setting) : ToolM ε Nat :=
  match discoverHost env o with
  | .error _ => pure 1
  | .ok h => settingHost env h o.forceAdopt s

/-! ### `esp add` -/

/-- The generation of an ESP that is added: the source's, for it has the same content. -/
def addedGeneration (src : Esp) : Nat := if src.info.generation = 0 then 1 else src.info.generation

/-- `ownGen` of `runESPAdd`. -/
def ownGen (gen : Nat) (m x : Esp) : Nat :=
  if x.info.uuid = m.info.uuid then gen
  else if x.info.generation > 0 then x.info.generation
  else gen

/-- `runESPAdd` from the copy on. -/
def addMember (h : Host) (src m : Esp) : ToolM ε Nat := do
  match ← (copyBootChain env h.uefi src m).outcome with
  | .error _ => return 1
  | .ok _ => do
      let ok := h.members.filter fun x => x.mounted ∧ ¬ x.foreign
      let h := h.growExplicit [m.info.uuid]
      let listed ← (addToLists h [m.info.uuid] ok).outcome
      let pool ← poolOf env h.uefi (some src)
      let errs ← finalizeMembersAt env h ok (ownGen (addedGeneration src) m) pool
      if errs ≠ [] ∨ listed matches .error _ then return 1 else return h.exitCode false

/-- What `esp add` adds to: the set with the new ESP, its source, and the new ESP. Nothing, and the
exit status, if there is nothing to do. -/
def addSet (o : HostOpts) (arg : Bytes) : Except Nat (Host × Esp × Esp) :=
  match discoverHost env o with
  | .error _ => .error 1
  | .ok h =>
    match h.bestSource, addEsps env h arg o.forceAdopt with
    | none, _ => .error 1
    | some _, .error _ => .error 1
    | some src, .ok h' =>
      if h'.members.length = h.members.length then .error 0
      else
        match h'.members.getLast? with
        | none => .error 1
        | some m =>
          match m.usable true h'.uefi, h'.checkDistinctDisks with
          | .ok (), .ok () => .ok (h', src, m)
          | _, _ => .error 1

/-- `runESPAdd`. -/
def runEspAdd (o : HostOpts) (arg : Bytes) (yes answer : Bool) : ToolM ε Nat :=
  match addSet env o arg with
  | .error status => pure status
  | .ok (h, src, m) => if ¬ yes ∧ ¬ answer then pure 0 else addMember env h src m

/-! ### `esp remove` -/

/-- A member's config without a UUID in its list. -/
def dropFromConfig (u : FatUuid) (m : Esp) : ToolM StepError Unit := do
  let raw ← readContent .lists m.mountpoint .config
  let v := configValue raw.orEmpty espUuidsWord
  onlyIf (v ≠ [] ∧ dropUuid v u ≠ v) (setConfigFile .lists m.mountpoint espUuidsWord (dropUuid v u))

/-- A member's CMDLINE without a UUID in its list. -/
def dropFromCmdline (u : FatUuid) (m : Esp) : ToolM StepError Unit := do
  let raw ← readContent .lists m.mountpoint .cmdline
  let v := cmdlineValue raw.orEmpty espUuidsWord
  onlyIf (v ≠ [] ∧ dropUuid v u ≠ v)
    (writeFile .lists m.mountpoint .cmdline (setCmdlineWord raw.orEmpty espUuidsWord (dropUuid v u))
      (.writing .cmdline))

/-- The loop of `runESPRemove` over the members that stay: whether something failed. -/
def dropFromLists (uefi : Bool) (u : FatUuid) : List Esp → ToolM ε Bool
  | [] => pure false
  | m :: ms =>
    if ¬ m.mounted ∨ m.foreign then dropFromLists uefi u ms
    else do
      let config ← (dropFromConfig u m).outcome
      let cmdline ← (onlyIf (¬ uefi) (dropFromCmdline u m)).outcome
      let rest ← dropFromLists uefi u ms
      return !config.isOk || !cmdline.isOk || rest

/-- `h` of `runESPRemove` once the ESP is out of it. -/
def Host.without (h : Host) (u : FatUuid) : Host :=
  { h with
    set := { h.set with
      expected := h.set.expected.filter (· ≠ u)
      missing := h.set.missing.filter (· ≠ u) }
    members := h.members.filter fun m => m.info.uuid ≠ u }

/-- `keepGen` of `runESPRemove`. -/
def keepGen (maxGen : Nat) (m : Esp) : Nat :=
  if m.info.generation > 0 then m.info.generation else maxGen

/-- `espmember.Remove` on the ESP, if it is there and mounted: whether it went well. -/
def removeMarker (h : Host) (u : FatUuid) : ToolM ε Bool :=
  match (h.members.filter fun m => m.info.uuid = u).getLast? with
  | none => pure true
  | some m => if m.mounted then perform ⟨.write, .remove m.mountpoint .member⟩ else pure true

/-- `runESPRemove` from the question on. -/
def removeMember (h : Host) (u : FatUuid) : ToolM ε Nat := do
  let removed ← removeMarker h u
  let h := h.without u
  let failed ← dropFromLists h.uefi u h.members
  let ok := h.members.filter fun m => m.mounted ∧ m.info.validMember.isSome ∧ ¬ m.foreign
  let pool ← poolOf env h.uefi h.bestSource
  let errs ← finalizeMembersAt env h ok (keepGen h.maxGeneration) pool
  if ¬ removed ∨ failed ∨ errs ≠ [] then return 1 else return h.exitCode false

/-- What `esp remove` removes: the set, and the UUID. -/
def removeSet (o : HostOpts) (arg : Bytes) : Except Nat (Host × FatUuid) :=
  match discoverHost env o with
  | .error _ => .error 1
  | .ok h =>
    let found := match normalizeFatUuid arg with
      | .ok u => some u
      | .error _ => (findInfo env arg).toOption.map EspInfo.uuid
    match found with
    | none => .error 1
    | some u =>
      if u ∉ h.members.map (·.info.uuid) ∧ u ∉ h.set.missing then .error 1
      else if (h.without u).members = [] then .error 1
      else .ok (h, u)

/-- `runESPRemove`. -/
def runEspRemove (o : HostOpts) (arg : Bytes) (yes answer : Bool) : ToolM ε Nat :=
  match removeSet env o arg with
  | .error status => pure status
  | .ok (h, u) => if ¬ yes ∧ ¬ answer then pure 0 else removeMember env h u

/-! ### `esp adopt` -/

/-- `h.set` of `runESPAdopt`: the zero value if there is no set. -/
def adoptSet : HostSet :=
  match selectHost env.infos ⟨[], .given "", env.primaryUuid⟩ with
  | .ok set => set
  | .error _ => ⟨.member, none, none, [], [], [], []⟩

/-- `MaxGeneration`. -/
def setMaxGeneration (set : HostSet) : Nat := (set.members.map (·.generation)).foldl max 0

/-- The loop of `runESPAdopt` over its arguments, after `seen` and `targets`. -/
def adoptTarget (id : Option InstallId) (forceAdopt : Bool) :
    List FatUuid × List EspInfo → Bytes → Option (List FatUuid × List EspInfo)
  | (seen, targets), arg =>
    match findInfo env arg with
    | .error _ => none
    | .ok i =>
      if i.uuid ∈ seen then some (seen, targets)
      else if ¬ i.alpineDir then none
      else if i.validMember.isSome ∧ i.installId = id then some (i.uuid :: seen, targets)
      else if i.validMember.isSome ∧ ¬ forceAdopt then none
      else some (i.uuid :: seen, targets ++ [i])

/-- `targets`, and `seen`. -/
def adoptTargets (id : Option InstallId) (forceAdopt : Bool) (args : List Bytes) :
    Option (List FatUuid × List EspInfo) :=
  args.foldlM (adoptTarget env id forceAdopt) ([], [])

/-- The host of `runESPAdopt`: the targets, and the members that were not named. -/
def adoptHost (set : HostSet) (id : InstallId) (seen : List FatUuid) (targets : List EspInfo) :
    Host where
  uefi := false
  set := { set with
    expected := sortUuids (set.expected ++ targets.map EspInfo.uuid).dedup }
  members := targets.map (fun i => attach env false set.mode i false true)
    ++ (set.members.filter fun m => m.uuid ∉ seen).map fun m =>
      attach env false set.mode m.toEspInfo false false
  installId := some id
  explicitList := none

/-- The generation of an adopted ESP. -/
def adoptedGeneration (set : HostSet) : Nat :=
  if setMaxGeneration set = 0 then 1 else setMaxGeneration set

/-- `runESPAdopt` on its host, with the generation of the adopted ESPs. -/
def adoptMembers (h : Host) (gen : Nat) : ToolM ε Nat := do
  let ok := h.members.filter Esp.mounted
  let adopted := ok.filter Esp.added
  let existing := ok.filter fun m => ¬ m.added
  let listed ← (addToLists h (adopted.map (·.info.uuid)) ok).outcome
  let errs ← finalizeMembers env h adopted gen []
  let errs' ← finalizeMembers env h existing (gen + 1) []
  if (h.members.any fun m => m.added ∧ ¬ m.mounted) ∨ errs ≠ [] ∨ errs' ≠ []
      ∨ listed matches .error _ then
    return 1
  else return 0

/-- `runESPAdopt`. -/
def runEspAdopt (args : List Bytes) (yes forceAdopt : Bool) : ToolM ε Nat :=
  let set := adoptSet env
  match adoptTargets env set.installId forceAdopt args with
  | none => pure 1
  | some (_, []) => pure 0
  | some (seen, targets) =>
    match set.installId, env.newInstallId with
    | none, .error _ => pure 1
    | none, .ok id | some id, _ =>
      if ¬ yes then pure 1
      else adoptMembers env (adoptHost env set id seen targets) (adoptedGeneration set)

end

end ZfsBoot.Tool.Mirror
