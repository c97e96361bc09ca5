import ZfsBoot.Tool.EspSet

/-!
# `ZfsBoot.Init.EspSelect`: the ESP that `/init` takes its config from

The model of `init/esp-select.sh`. The boot environment reads the same MEMBER files as the tool, with
the means of a shell, and decides by the same rules which ESP is this host's. It never fails: when it
cannot decide it selects nothing, and the host boots with its defaults.

A row of `$ESP_SCAN` is an `EspInfo` here, as the tool scans it. The fields of a row are separated by
blanks. Only the list of a config is a text that the scan does not check, so it is the field that
`awk` can cut short (`configField`). `sort -n` compares numbers exactly. Whether the files of an ESP
have the sizes that its CHECKSUM records is a parameter, `payloadOk`. What the shell tells the
console is left out.
-/

set_option autoImplicit false

namespace ZfsBoot.Init

open Lib ZfsBoot.Tool
open Bios (ascii)

/-! ### UUIDs -/

/-- `tr 'a-f' 'A-F'`. -/
def upperHex (c : UInt8) : UInt8 := if 0x61 ≤ c ∧ c ≤ 0x66 then c - 0x20 else c

/-- `_esp_norm_uuid`. -/
def espNormUuid (s : List UInt8) : Option FatUuid :=
  if h : isFatUuid (s.map upperHex) = true then some ⟨s.map upperHex, h⟩ else none

/-- One more item of a list, after the items `out`. -/
def espNormItem (out : List FatUuid) (item : List UInt8) : Option (List FatUuid) := do
  let n ← espNormUuid item
  if n ∈ out then none else some (out ++ [n])

/-- `_esp_norm_list`. The loop takes items off a text that ends in a comma, so an empty text has one
item, which is empty. -/
def espNormList (s : List UInt8) : Option (List FatUuid) := (s.splitOn 0x2C).foldlM espNormItem []

/-! ### MEMBER -/

/-- The lines of `while IFS= read -r _l || [ -n "$_l" ]`: what follows the last newline is a line if
it is not empty. -/
def readLines (raw : List UInt8) : List (List UInt8) :=
  if (raw.splitOn 0x0A).getLast? = some [] then (raw.splitOn 0x0A).dropLast else raw.splitOn 0x0A

/-- The variables `_id`, `_gen`, `_eu` and `_mem`. -/
structure MemberVars where
  id : List UInt8
  gen : List UInt8
  eu : List UInt8
  mem : List UInt8

/-- The variables at the start. -/
def MemberVars.start : MemberVars := ⟨[], [], [], []⟩

/-- `${_l#KEY=}` for a line that `KEY=*` matches. -/
def valueOf (key line : List UInt8) : Option (List UInt8) :=
  if (keyLine key []).isPrefixOf line then some (line.drop (keyLine key []).length) else none

/-- The variables after one more line. -/
def MemberVars.read (vars : MemberVars) (line : List UInt8) : MemberVars :=
  match valueOf (ascii "INSTALL_ID") line, valueOf (ascii "GENERATION") line,
    valueOf (ascii "ESP_UUID") line, valueOf (ascii "MEMBERS") line with
  | some v, _, _, _ => { vars with id := v }
  | none, some v, _, _ => { vars with gen := v }
  | none, none, some v, _ => { vars with eu := v }
  | none, none, none, some v => { vars with mem := v }
  | none, none, none, none => vars

/-- `sed 's/^0*\([0-9]\)/\1/'` on digits. -/
def stripZeros (s : List UInt8) : List UInt8 :=
  match s.dropWhile (· = 0x30) with
  | [] => [0x30]
  | c :: t => c :: t

/-- What `_esp_read_member` prints. -/
structure MemberRow where
  id : InstallId
  gen : List UInt8
  espUuid : FatUuid
  members : List UInt8

/-- The field that stands for nothing: "-". -/
def noField : List UInt8 := [0x2D]

/-- The checks of `_esp_read_member` after the last line. -/
def MemberVars.row (vars : MemberVars) : Option MemberRow :=
  if hid : isInstallId vars.id = true then
    if isGeneration vars.gen then
      if heu : isFatUuid vars.eu = true then
        if vars.mem = [] then some ⟨⟨vars.id, hid⟩, stripZeros vars.gen, ⟨vars.eu, heu⟩, noField⟩
        else if (espNormList vars.mem).isSome then
          some ⟨⟨vars.id, hid⟩, stripZeros vars.gen, ⟨vars.eu, heu⟩, vars.mem⟩
        else none
      else none
    else none
  else none

/-- `_esp_read_member` on a file without NUL bytes. An empty file leaves `_id` empty. -/
def espReadMember (raw : List UInt8) : Option MemberRow :=
  match (readLines raw).map dropCr with
  | [] => none
  | first :: lines =>
    if first = memberHeader then (lines.foldl MemberVars.read MemberVars.start).row else none

/-- The members that a row names: `-` is none. -/
def MemberRow.memberList (row : MemberRow) : Option (List FatUuid) :=
  if row.members = noField then some [] else espNormList row.members

/-! ### Rows of the scan -/

/-- `_esp_count`. -/
def espCount (infos : List EspInfo) (u : FatUuid) : Nat := infos.countP (·.uuid = u)

/-- The row of which `_esp_field` prints a field: the first with the UUID. -/
def espRow (infos : List EspInfo) (u : FatUuid) : Option EspInfo := infos.find? (·.uuid = u)

/-- What separates two fields. -/
def isBlank (c : UInt8) : Bool := c = 0x20 ∨ c = 0x09 ∨ c = 0x0A

/-- Field 10 of a row. -/
def configField (i : EspInfo) : List UInt8 :=
  if i.configList = [] then noField
  else (i.configList.dropWhile isBlank).takeWhile fun c => !isBlank c

/-- The list in a row's config, if it has one that is well formed. -/
def configUuids (i : EspInfo) : Option (List FatUuid) :=
  if configField i = [] ∨ configField i = noField then none else espNormList (configField i)

/-! ### Selection -/

/-- `ESP_SELECTED_DEV`, `ESP_SELECTED_UUID`, `ESP_SELECTED_INSTALL_ID` and `ESP_SELECTED_REASON`. -/
structure Selection where
  dev : String
  uuid : FatUuid
  installId : Option InstallId
  reason : String
  deriving DecidableEq

/-- `_esp_choose`. -/
def espChoose (infos : List EspInfo) (u : FatUuid) (reason : String) : Selection :=
  { dev := ((espRow infos u).map EspInfo.dev).getD ""
    uuid := u
    installId := (espRow infos u).bind EspInfo.installId
    reason := reason }

/-- The loops over candidates, best first: the first whose payload has its sizes. If none has, the
first one is taken all the same (`_esp_fallback`). -/
def firstUsable (payloadOk : FatUuid → Bool) (infos : List EspInfo) (reason : FatUuid → String)
    (us : List FatUuid) : Option Selection :=
  match us.find? payloadOk with
  | some u => some (espChoose infos u (reason u))
  | none => us.head?.map fun u => espChoose infos u (reason u ++ " (payload check failed)")

/-- `_esp_field UUID 5`. -/
def qualifiesAt (infos : List EspInfo) (u : FatUuid) : Bool :=
  ((espRow infos u).map EspInfo.qualifies).getD false

/-- The generation of a listed ESP: 0 if its marker is not valid. -/
def generationAt (infos : List EspInfo) (u : FatUuid) : Nat :=
  ((espRow infos u).map EspInfo.generation).getD 0

/-- `sort -k1,1nr -k2,2n` in `_esp_order_list`. -/
def orderListLe (infos : List EspInfo) (a b : FatUuid × Nat) : Bool :=
  generationAt infos b.1 < generationAt infos a.1 ∨
    (generationAt infos a.1 = generationAt infos b.1 ∧ a.2 ≤ b.2)

/-- `_esp_order_list`. -/
def espOrderList (infos : List EspInfo) (list : List FatUuid) : List FatUuid :=
  ((list.zipIdx.filter fun e => espCount infos e.1 = 1).insertionSort
    fun a b => orderListLe infos a b).map Prod.fst

/-- The identity of a list: that of the first listed ESP with a valid marker. -/
def firstMarked (infos : List EspInfo) (list : List FatUuid) : Option InstallId :=
  list.findSome? fun u =>
    if espCount infos u = 1 then (espRow infos u).bind EspInfo.installId else none

/-- A listed ESP that `_esp_select_list` passes over. -/
def markedForeign (infos : List EspInfo) (lid : Option InstallId) (u : FatUuid) : Bool :=
  match (espRow infos u).bind EspInfo.installId, lid with
  | some id, some lid => id ≠ lid
  | _, _ => false

/-- `_esp_select_list`. -/
def espSelectList (payloadOk : FatUuid → Bool) (infos : List EspInfo) (list : List FatUuid)
    (source : String) (id : Option InstallId) : Option Selection :=
  if ∃ u ∈ list, 1 < espCount infos u then none
  else
    let lid := id <|> firstMarked infos list
    firstUsable payloadOk infos
      (fun _ => "listed in alpine-zfsboot.esp-uuids from " ++ source)
      ((espOrderList infos list).filter fun u =>
        !markedForeign infos lid u && qualifiesAt infos u)

/-- `sort -k1,1nr -k2,2` on the members of an installation. -/
def candidateLe (a b : EspInfo) : Bool :=
  b.generation < a.generation ∨ (a.generation = b.generation ∧ a.uuid ≤ b.uuid)

/-- `_cands`: the members of an installation, best first. -/
def candidates (infos : List EspInfo) (gid : InstallId) : List EspInfo :=
  (infos.filter (·.installId = some gid)).insertionSort fun a b => candidateLe a b

/-- Where a list in the config of an ESP comes from. -/
def configSource (u : FatUuid) : String := "EFI/ALPINE/config of ESP " ++ asciiText u.val

/-- The candidates of an installation, without a list. -/
def selectCandidates (payloadOk : FatUuid → Bool) (infos : List EspInfo) (gid : InstallId)
    (cands : List EspInfo) : Option Selection :=
  firstUsable payloadOk infos
    (fun u => "member of installation " ++ asciiText gid.val ++ ", generation "
      ++ toString (generationAt infos u))
    ((cands.map EspInfo.uuid).filter (qualifiesAt infos))

/-- Rule 3: the members of an installation. A list in the best one's config decides, unless it is
malformed. -/
def espSelectMembers (payloadOk : FatUuid → Bool) (infos : List EspInfo) (gid : InstallId) :
    Option Selection :=
  if ∃ i ∈ candidates infos gid, 1 < espCount infos i.uuid then none
  else
    match (candidates infos gid).head?.bind fun best => (configUuids best).map (best, ·) with
    | some (best, l) => espSelectList payloadOk infos l (configSource best.uuid) (some gid)
    | none => selectCandidates payloadOk infos gid (candidates infos gid)

/-- `_leg`: the unmarked ESPs, else the only one whose marker cannot be read. -/
def legacyRows (infos : List EspInfo) : List EspInfo :=
  match infos.filter EspInfo.isUnmarked, infos.filter EspInfo.isBroken with
  | [], [i] => [i]
  | leg, _ => leg

/-- The list that several unmarked ESPs have in their configs, if those that have one agree. -/
def commonUuids (leg : List EspInfo) : Option (List FatUuid) :=
  match ((leg.map configField).filter (· ≠ noField)).dedup with
  | [f] => if f = [] then none else espNormList f
  | _ => none

/-- Rule 4: no markers. -/
def espSelectLegacy (payloadOk : FatUuid → Bool) (infos : List EspInfo) : Option Selection :=
  if ∃ i ∈ legacyRows infos, 1 < espCount infos i.uuid then none
  else
    match legacyRows infos with
    | [] => none
    | [i] =>
      match configUuids i with
      | some l => espSelectList payloadOk infos l (configSource i.uuid) none
      | none => some (espChoose infos i.uuid "the only alpine-zfsboot ESP")
    | leg => do
        let l ← commonUuids leg
        espSelectList payloadOk infos l "EFI/ALPINE/config of the unmarked ESPs" none

/-- The only installation has one ESP, not labelled, and an unmarked ESP is. -/
def outranked (infos : List EspInfo) (gid : InstallId) : Bool :=
  let marked := infos.filter (·.installId = some gid)
  (∀ i ∈ marked, i.label ≠ fatVolumeLabel) ∧ marked.length = 1 ∧ ∃ i ∈ infos, i.isUnmarked

/-- Rules 3 and 4, with the installation of the booted ESP if that is known. -/
def espSelectMarked (payloadOk : FatUuid → Bool) (infos : List EspInfo) (gid : Option InstallId) :
    Option Selection :=
  match gid, (infos.filterMap EspInfo.installId).dedup with
  | some gid, _ => espSelectMembers payloadOk infos gid
  | none, [] => espSelectLegacy payloadOk infos
  | none, [gid] =>
    if outranked infos gid then espSelectLegacy payloadOk infos
    else espSelectMembers payloadOk infos gid
  | none, _ => none

/-- What rule 2 says. -/
inductive SelfResult where
  | selected (s : Selection)
  | refused
  | siblings (gid : Option InstallId)

/-- Rule 2: the ESP that this boot came from. -/
def espSelf (infos : List EspInfo) (self : List UInt8) : SelfResult :=
  match espNormUuid self with
  | none => .siblings none -- not given, or not a UUID
  | some s =>
    match espCount infos s, espRow infos s with
    | 0, _ => .siblings none
    | 1, some i =>
      if i.qualifies ∧ i.copiedMarker = none ∧ i.marker.isBroken = false then
        .selected (espChoose infos s "the ESP this boot came from")
      else .siblings i.installId
    | _, _ => .refused

/-- `esp_select`. -/
def espSelect (payloadOk : FatUuid → Bool) (infos : List EspInfo) (cmdlineList self : List UInt8) :
    Option Selection :=
  if cmdlineList ≠ [] then do
    let l ← espNormList cmdlineList
    espSelectList payloadOk infos l "the kernel command line" none
  else
    match espSelf infos self with
    | .selected s => some s
    | .refused => none
    | .siblings gid => espSelectMarked payloadOk infos gid

end ZfsBoot.Init
