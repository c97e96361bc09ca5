import ZfsBoot.Lib.Trace
import ZfsBoot.Proofs.Tool.Host

/-!
# `ZfsBoot.Proofs.Tool.Footprint`: what each part of the tool writes to

Every function of the mirror that works on one member changes files of that member's ESP and, on
BIOS, the stages of its disk, and nothing else. It never touches MEMBER. And when it ends without an
error, every change it asked for was carried out, but for one: the copy of the previous UEFI loader,
which is kept if it can be (`Writes`). A function that only reads changes nothing (`Reads`).

These are facts about the operations that are asked for, in every state and however they go. They
follow the program line by line, with the rules of `Lib.Trace`.
-/

set_option autoImplicit false

namespace ZfsBoot.Proofs.Tool.Footprint

open Lib Lib.Halting ZfsBoot.Tool ZfsBoot.Tool.Mirror Tool.Host

variable (env : Machine) (uefi : Bool) (part : Part) {f : EspFile} {ev : Event Op World} {m : Esp}

/-- What an operation can change. -/
inductive Target where
  | file (mountpoint : String) (f : EspFile)
  | disk (disk : String)
  deriving DecidableEq

/-- What an action changes when it is carried out. -/
def target : Action → Option Target
  | .writeFile mountpoint f _ | .remove mountpoint f => some (.file mountpoint f)
  | .writeAt disk _ _ => some (.disk disk)
  | _ => none

/-- The event changes nothing. -/
def Looks (ev : Event Op World) : Prop := target ev.op.action = none

/-- What the event changes is in `area`. -/
def Confined (area : Target → Prop) (ev : Event Op World) : Prop :=
  ∀ t, target ev.op.action = some t → area t

/-- The files of an ESP, other than MEMBER, and a disk. -/
def Area (mp : String) (disk : Option String) (t : Target) : Prop :=
  (∃ f, f ≠ .member ∧ t = .file mp f) ∨ ∃ d, disk = some d ∧ t = .disk d

/-- What the event changes is a file of the ESP, other than MEMBER, or the disk. -/
abbrev Within (mp : String) (disk : Option String) : Event Op World → Prop := Confined (Area mp disk)

/-- The change was carried out, or it is the copy of a previous loader. -/
def Carried (ev : Event Op World) : Prop :=
  ∀ t, target ev.op.action = some t → ev.fate = .done ∨ ∃ mp name, t = .file mp (.previousLoader name)

/-- `x` changes nothing. -/
abbrev Reads {ε α : Type} (x : ToolM ε α) : Prop := Asks Looks Looks x

/-- `x` changes files of one ESP and one disk, all of them if it ends with a value. -/
abbrev Writes {ε α : Type} (mp : String) (disk : Option String) (x : ToolM ε α) : Prop :=
  Asks (Within mp disk) Carried x

/-- `x` asks for actions of `A` only, and all of them are carried out if it ends with a value. -/
abbrev Uses {ε α : Type} (A : Action → Prop) (x : ToolM ε α) : Prop :=
  Asks (fun ev => A ev.op.action) (fun ev => ev.fate = .done) x

/-- The same, but it may go on after a failure, as a rollback does. -/
abbrev Tries {ε α : Type} (A : Action → Prop) (x : ToolM ε α) : Prop :=
  Asks (fun ev => A ev.op.action) (fun _ => True) x

/-- The actions on the files of an ESP, other than MEMBER. -/
def OnEsp (mp : String) : Action → Prop
  | .readFile mp' f | .writeFile mp' f _ | .remove mp' f => mp' = mp ∧ f ≠ .member
  | _ => False

/-- The actions on a disk. -/
def OnDisk (disk : String) : Action → Prop
  | .checkExtent disk' | .openDisk disk' | .readAt disk' _ _ | .writeAt disk' _ _ | .sync disk' =>
    disk' = disk
  | _ => False

section
variable {ε α : Type} {mp : String} {disk : Option String} {x : ToolM ε α}

theorem Looks.confined {area : Target → Prop} (h : Looks ev) :
    Confined area ev := by
  intro t ht
  cases h.symm.trans ht

theorem Looks.carried (h : Looks ev) : Carried ev := by
  intro t ht
  cases h.symm.trans ht

theorem Confined.mono {area area' : Target → Prop} (h : Confined area ev)
    (harea : ∀ t, area t → area' t) : Confined area' ev :=
  fun t ht => harea t (h t ht)

/-- Reading is no writing. -/
theorem writes_of_reads (h : Reads x) : Writes mp disk x :=
  h.mono (fun _ => Looks.confined) fun _ h _ => h.carried

theorem writes_read {β : Type} {f : α → ToolM ε β} (h : Reads x) (hf : ∀ a, Writes mp disk (f a)) :
    Writes mp disk (x >>= f) :=
  asks_bind (writes_of_reads h) hf

theorem target_onEsp {action : Action} (h : OnEsp mp action) {t : Target}
    (ht : target action = some t) : Area mp disk t := by
  cases action with
  | writeFile mp' f content | remove mp' f =>
    obtain ⟨rfl, hf⟩ := h
    cases ht
    exact .inl ⟨f, hf, rfl⟩
  | writeAt => exact h.elim
  | _ => cases ht

theorem target_onDisk {d : String} {action : Action} (h : OnDisk d action) {t : Target}
    (ht : target action = some t) : t = .disk d := by
  cases action with
  | writeAt d' off bytes =>
    cases ht
    exact congrArg _ h
  | writeFile | remove => exact h.elim
  | _ => cases ht

theorem Uses.writes (h : Uses (OnEsp mp) x) : Writes mp disk x :=
  h.mono (fun _ hev _ ht => target_onEsp hev ht) fun _ _ hdone _ _ => .inl hdone

theorem Uses.writes_disk {d : String} (h : Uses (OnDisk d) x) : Writes mp (some d) x :=
  h.mono (fun _ hev _ ht => .inr ⟨d, rfl, target_onDisk hev ht⟩) fun _ _ hdone _ _ => .inl hdone

theorem Uses.tries {A : Action → Prop} (h : Uses A x) : Tries A x :=
  h.mono (fun _ hev => hev) fun _ _ _ => trivial

/-- What an event leaves alone stays as it was. -/
theorem files_of_linked {w w' : World} {evs : List (Event Op World)} (h : Linked w evs w')
    (hevs : ∀ ev ∈ evs, target ev.op.action ≠ some (.file mp f)) :
    w'.files mp f = w.files mp f := by
  refine Linked.keeps (f := fun w : World => w.files mp f) h fun ev hev w₀ hafter => ?_
  have hne := hevs ev hev
  rw [hafter]
  rcases ev with ⟨⟨part, action⟩, fate, after⟩
  have hset : ∀ (mp' : String) (f' : EspFile) (content : Option (List UInt8)),
      some (Target.file mp' f') ≠ some (.file mp f) →
      (w₀.setFile mp' f' content).files mp f = w₀.files mp f := by
    intro mp' f' content hne
    by_cases hmp : mp = mp'
    · subst hmp
      rw [World.setFile_files_self, Function.update_of_ne]
      rintro rfl
      exact hne rfl
    · rw [World.setFile_files_of_ne _ _ _ hmp]
  have hact : ((⟨part, action⟩ : Op).action.act w₀).files mp f = w₀.files mp f := by
    cases action with
    | writeFile mp' f' content => exact hset mp' f' _ hne
    | remove mp' f' => exact hset mp' f' _ hne
    | readFile | checkSectorSize | checkExtent | openDisk | readAt | writeAt | sync => rfl
  cases fate with
  | failed => rfl
  | done => exact hact
  | late => exact hact

end

/-! ### Reading -/

section
variable {ε : Type}

theorem readFile_reads (mp : String) (f : EspFile) (e : ε) : Reads (readFile part mp f e) :=
  asks_observe (fun _ _ => rfl) fun _ => rfl

theorem outcome_reads {ε' α : Type} {x : ToolM ε α} (h : Reads x) :
    Reads (x.outcome : ToolM ε' (Except ε α)) :=
  asks_outcome h fun _ h => h

theorem readContent_reads (mp : String) (f : EspFile) :
    Reads (readContent part mp f : ToolM ε Content) := by
  refine asks_bind (outcome_reads (readFile_reads part mp f ())) fun r => ?_
  rcases r with _ | _ | b <;> exact asks_pure _

theorem readNeeded_reads (mp : String) (f : EspFile) (e : ε) : Reads (readNeeded mp f e) := by
  refine asks_bind (readContent_reads .write mp f) fun c => ?_
  cases c with
  | bytes b => exact asks_pure b
  | absent => exact asks_stop e
  | unreadable => exact asks_stop e

theorem readDisk_reads (disk : String) (off n : Nat) (e : ε) : Reads (readDisk part disk off n e) :=
  asks_bind (asks_observe (fun _ _ => rfl) fun _ => rfl) fun _ => asks_ofExcept _

theorem checkExtent_reads (disk : String) (e : StageError → ε) : Reads (checkExtent part disk e) :=
  asks_bind (asks_observe (fun _ _ => rfl) fun _ => rfl) fun _ => asks_ofExcept _

theorem readRegion_reads (disk : String) (off n : Nat) (e : ε) : Reads (readRegion disk off n e) :=
  asks_bind (asks_demand (fun _ _ => rfl) fun _ => rfl) fun _ => readDisk_reads ..

theorem readStage1_reads (disk : String) (e : ε) : Reads (readStage1 disk e) := readRegion_reads ..

theorem readStage2_reads (disk : String) (e : ε) : Reads (readStage2 disk e) :=
  asks_bind (readRegion_reads ..) fun _ => asks_pure _

theorem verifyFile_uses {mp : String} (hf : f ≠ .member) (want : List UInt8)
    (e : VerifyError → ε) : Uses (OnEsp mp) (verifyFile mp f want e) := by
  refine asks_bind (asks_observe (fun _ _ => ⟨rfl, hf⟩) fun _ => rfl) fun r => ?_
  cases r with
  | none => exact asks_stop _
  | some got => exact asks_require _ _

theorem readLoader_reads (mp name : String) : Reads (readLoader env mp name) :=
  asks_bind (readNeeded_reads ..) fun _ => asks_ofExcept _

theorem readSection_reads (mp name sect : String) : Reads (readSection env mp name sect) :=
  asks_bind (readNeeded_reads ..) fun _ => asks_ofExcept _

theorem readInstalledKernelInitrd_reads (mp : String) :
    Reads (readInstalledKernelInitrd env uefi mp) := by
  refine asks_ite (fun _ => ?_) fun _ => ?_
  · exact asks_bind (asks_ofExcept _) fun _ => asks_bind (readLoader_reads ..) fun _ =>
      asks_bind (readSection_reads ..) fun _ => asks_bind (readSection_reads ..) fun _ => asks_pure _
  · exact asks_bind (readNeeded_reads ..) fun _ => asks_bind (readNeeded_reads ..) fun _ =>
      asks_bind (readNeeded_reads ..) fun _ => asks_pure _

theorem poolOf_reads (m : Option Esp) : Reads (poolOf env uefi m : ToolM ε Bytes) := by
  cases m with
  | none => exact asks_pure _
  | some m =>
    refine asks_ite (fun _ => ?_) fun _ => ?_
    · cases loaderPath env.arch with
      | error e => exact asks_pure _
      | ok name =>
        refine asks_bind (outcome_reads (readLoader_reads ..)) fun r => ?_
        cases r <;> exact asks_pure _
    · refine asks_bind (readContent_reads ..) fun c => ?_
      cases c <;> exact asks_pure _

theorem digestFiles_reads (mp : String) (fs : List EspFile) :
    Reads (digestFiles mp fs : ToolM ε (List (DigestName × FileDigest))) := by
  induction fs with
  | nil => exact asks_pure _
  | cons f fs ih => exact asks_bind (readContent_reads ..) fun _ => asks_bind ih fun _ => asks_pure _

theorem digestMember_reads (m : Esp) : Reads (digestMember env uefi m : ToolM ε MemberDigest) := by
  refine asks_ite (fun _ => ?_) fun _ => ?_
  · cases loaderPath env.arch with
    | error e => exact asks_bind (digestFiles_reads ..) fun _ => asks_pure _
    | ok name =>
      exact asks_bind (readContent_reads ..) fun _ =>
        asks_bind (outcome_reads (readLoader_reads ..)) fun _ =>
          asks_bind (digestFiles_reads ..) fun _ => asks_pure _
  · exact asks_bind (outcome_reads (readStage1_reads ..)) fun _ =>
      asks_bind (outcome_reads (readStage2_reads ..)) fun _ => asks_bind (digestFiles_reads ..) fun _ =>
        asks_bind (readContent_reads ..) fun _ => asks_bind (digestFiles_reads ..) fun _ => asks_pure _

theorem readMemberSettings_reads (mp : String) :
    Reads (readMemberSettings mp : ToolM ε MemberSettings) :=
  asks_bind (readContent_reads ..) fun _ => asks_bind (readContent_reads ..) fun _ => asks_pure _

theorem checkBiosUpToDate_reads (mp : String) (stamp : Bytes) :
    Reads (checkBiosUpToDate mp stamp : ToolM ε Bool) := by
  refine asks_bind (readContent_reads ..) fun c => ?_
  cases c <;> exact asks_pure _

theorem updateIntegrityMode_reads (mp : String) (opts : BiosOpts) :
    Reads (updateIntegrityMode mp opts : ToolM ε Bytes) := by
  refine asks_ite (fun _ => asks_pure _) fun _ => asks_bind (readContent_reads ..) fun c => ?_
  cases c with
  | bytes raw =>
    dsimp only
    cases PayloadSum.decode raw <;> exact asks_pure _
  | absent => exact asks_pure _
  | unreadable => exact asks_pure _

theorem checkUpdateEligible_reads (disk : String) : Reads (checkUpdateEligible disk) :=
  asks_bind (readStage2_reads ..) fun _ => asks_require _ _

theorem applyInt13Chunk_reads (mp : String) (opts : BiosOpts) (c : Bytes) :
    Reads (applyInt13Chunk mp opts c) := by
  refine asks_ite (fun _ => ?_) fun _ => ?_
  · exact asks_bind (asks_ofExcept _) fun _ => asks_pure _
  · exact asks_bind (readContent_reads ..) fun _ => asks_pure _

theorem cmdlineFrom_reads (src : Option Esp) (opts : BiosOpts) (c installed : Bytes) :
    Reads (cmdlineFrom src opts c installed) := by
  cases installed with
  | cons b bs => exact asks_pure _
  | nil =>
    cases src with
    | none => exact asks_pure _
    | some s => exact asks_bind (readContent_reads ..) fun _ => asks_pure _

theorem editCmdline_reads (h : Host) (m : Esp) (src : Option Esp) (opts : BiosOpts) (c : Bytes) :
    Reads (editCmdline h m src opts c) :=
  asks_bind (readContent_reads ..) fun _ => asks_bind (cmdlineFrom_reads ..) fun _ =>
    asks_bind (asks_require _ _) fun _ => asks_pure _

theorem prepareBios_reads (h : Host) (m : Esp) (src : Option Esp) (a : BiosAssets) (opts : BiosOpts) :
    Reads (prepareBios env h m src a opts) :=
  asks_bind (asks_ofExcept _) fun _ => asks_bind (asks_ofExcept _) fun _ =>
    asks_bind (asks_require _ _) fun _ => asks_bind (applyInt13Chunk_reads ..) fun _ =>
      editCmdline_reads ..

theorem checkRepairSource_reads (src : Esp) : Reads (checkRepairSource env src) := by
  refine asks_bind (readNeeded_reads ..) fun raw => asks_bind (asks_ofExcept _) fun man =>
    asks_bind (readInstalledKernelInitrd_reads ..) fun p => ?_
  obtain ⟨kernel, initrd, -⟩ := p
  dsimp only
  cases PayloadSum.verify man kernel initrd with
  | nil => exact asks_pure _
  | cons err errs => exact asks_stop _

theorem installed_reads (m : Esp) : Reads (installed env uefi m : ToolM ε Bool) := by
  refine asks_ite (fun _ => ?_) fun _ => ?_
  · cases loaderPath env.arch with
    | error e => exact asks_pure _
    | ok name =>
      refine asks_bind (readContent_reads ..) fun c => ?_
      cases c <;> exact asks_pure _
  · refine asks_bind (outcome_reads (readStage2_reads ..)) fun r => ?_
    cases r <;> exact asks_pure _

theorem isSeed_reads (h : Host) (m : Esp) : Reads (isSeed env h m : ToolM ε Bool) :=
  asks_ite (fun _ => asks_pure _) fun _ => asks_ite (fun _ => asks_pure _) fun _ =>
    asks_bind (installed_reads ..) fun _ => asks_pure _

end

/-! ### Writing -/

section
variable {ε : Type} {disk : Option String}

theorem restore_tries (mp : String) (hf : f ≠ .member) (want : Option (List UInt8)) :
    Tries (OnEsp mp) (restore mp f want) := by
  cases want with
  | none | some => exact asks_perform (fun _ _ => ⟨rfl, hf⟩) fun _ _ => trivial

theorem restoreManifest_tries (mp : String) (hf : f ≠ .member)
    (want : Option (List UInt8)) (ok : Bool) : Tries (OnEsp mp) (restoreManifest mp f want ok) :=
  asks_ite (fun _ => restore_tries mp hf want) fun _ => asks_pure _

theorem rollbackPayload_tries (mp : String) (backup : PayloadBackup) :
    Tries (OnEsp mp) (rollbackPayload mp backup) := by
  refine asks_bind (restore_tries mp (by decide) _) fun _ =>
    asks_bind (restore_tries mp (by decide) _) fun _ =>
    asks_bind (restore_tries mp (by decide) _) fun _ =>
    asks_bind (restore_tries mp (by decide) _) fun _ =>
    asks_bind (restore_tries mp (by decide) _) fun _ =>
    asks_bind (restore_tries mp (by decide) _) fun _ => ?_
  exact asks_bind (restoreManifest_tries mp (by decide) _ _) fun _ =>
    restoreManifest_tries mp (by decide) _ _

theorem backupPayload_uses (mp : String) : Uses (OnEsp mp) (backupPayload mp) := by
  have hread : ∀ (f : EspFile) (e : PayloadError), f ≠ .member →
      Uses (OnEsp mp) (readFile .write mp f e) := fun f e hf =>
    asks_observe (fun _ _ => ⟨rfl, hf⟩) fun _ => rfl
  exact asks_bind (hread _ _ (by decide)) fun _ => asks_bind (hread _ _ (by decide)) fun _ =>
    asks_bind (hread _ _ (by decide)) fun _ => asks_bind (hread _ _ (by decide)) fun _ =>
    asks_bind (hread _ _ (by decide)) fun _ => asks_bind (hread _ _ (by decide)) fun _ => asks_pure _

theorem writeFile_uses (mp : String) (hf : f ≠ .member) (content : List UInt8) (e : ε) :
    Uses (OnEsp mp) (writeFile part mp f content e) :=
  asks_demand (fun _ _ => ⟨rfl, hf⟩) fun _ => rfl

theorem writeFile_writes (mp : String) (hf : f ≠ .member) (content : List UInt8) (e : ε) :
    Writes mp disk (writeFile part mp f content e) :=
  (writeFile_uses part mp hf content e).writes

theorem removeFile_uses (mp : String) (hf : f ≠ .member) (e : ε) :
    Uses (OnEsp mp) (removeFile part mp f e) :=
  asks_demand (fun _ _ => ⟨rfl, hf⟩) fun _ => rfl

theorem writeMetadata_uses (mp : String) (metadata : Except String (List UInt8)) :
    Uses (OnEsp mp) (writeMetadata mp metadata) :=
  asks_bind (asks_ofExcept _) fun _ => writeFile_uses .write mp (by decide) _ _

theorem writeManifest_uses (mp : String) (hf : f ≠ .member)
    (data : Option (List UInt8)) : Uses (OnEsp mp) (writeManifest mp f data) := by
  cases data with
  | none => exact asks_pure _
  | some content =>
    exact asks_bind (writeFile_uses .write mp hf _ _) fun _ => verifyFile_uses hf _ _

theorem replacePayload_uses (mp : String) (n : NewPayload) (metadata : Except String (List UInt8))
    (payloadSum blkSum : Option (List UInt8)) :
    Uses (OnEsp mp) (replacePayload mp n metadata payloadSum blkSum) := by
  have hne : EspFile.kernel ≠ .member ∧ EspFile.initrd ≠ .member ∧ EspFile.cmdline ≠ .member := by
    decide
  refine asks_bind (removeFile_uses .write mp (by decide) _) fun _ =>
    asks_bind (removeFile_uses .write mp (by decide) _) fun _ => asks_bind ?_ fun _ =>
    asks_bind ?_ fun _ => asks_bind (writeMetadata_uses mp metadata) fun _ =>
    asks_bind (writeManifest_uses mp (by decide) _) fun _ => writeManifest_uses mp (by decide) _
  · exact asks_bind (writeFile_uses .write mp hne.1 _ _) fun _ =>
      asks_bind (writeFile_uses .write mp hne.2.1 _ _) fun _ => writeFile_uses .write mp hne.2.2 _ _
  · exact asks_bind (verifyFile_uses hne.1 _ _) fun _ =>
      asks_bind (verifyFile_uses hne.2.1 _ _) fun _ => verifyFile_uses hne.2.2 _ _

/-- `writePayloadWithRollback` works on boot files of one ESP. -/
theorem writePayloadWithRollback_uses (makeMetadata : MetadataMaker) (mp : String) (n : NewPayload) :
    Uses (OnEsp mp) (writePayloadWithRollback makeMetadata mp n) :=
  asks_bind (backupPayload_uses mp) fun _ => asks_bind (asks_ofExcept _) fun _ =>
    asks_rescue_stops (replacePayload_uses ..) fun err =>
      stops_bind (rollbackPayload_tries ..) fun _ => stops_stop err

/-! ### The stages -/

section

variable {d : String}

theorem readDisk_uses (d : String) (off n : Nat) (e : ε) :
    Uses (OnDisk d) (readDisk part d off n e) :=
  asks_bind (asks_observe (fun _ _ => rfl) fun _ => rfl) fun _ => asks_ofExcept _

theorem checkExtent_uses (d : String) (e : StageError → ε) :
    Uses (OnDisk d) (checkExtent part d e) :=
  asks_bind (asks_observe (fun _ _ => rfl) fun _ => rfl) fun _ => asks_ofExcept _

theorem verifyStage2At_uses (d : String) (want : List UInt8) (e : StageError → ε) :
    Uses (OnDisk d) (verifyStage2At part d want e) := by
  refine asks_bind (readDisk_uses ..) fun region => asks_bind (asks_require _ _) fun _ => ?_
  cases (region.drop want.length).findIdx? (· != 0) with
  | none => exact asks_pure _
  | some i => exact asks_stop _

theorem openDisk_uses (d : String) (e : ε) :
    Uses (OnDisk d) (demand e ⟨part, .openDisk d⟩ : ToolM ε Unit) :=
  asks_demand (fun _ _ => rfl) fun _ => rfl

theorem verifyStage1_uses (d : String) (want : List UInt8) : Uses (OnDisk d) (verifyStage1 d want) :=
  asks_bind (asks_require _ _) fun _ => asks_bind (openDisk_uses ..) fun _ =>
    asks_bind (readDisk_uses ..) fun _ => asks_require _ _

theorem verifyStage2_uses (d : String) (want : List UInt8) : Uses (OnDisk d) (verifyStage2 d want) :=
  asks_bind (asks_require _ _) fun _ => asks_bind (openDisk_uses ..) fun _ => verifyStage2At_uses ..

theorem writeDisk_uses (d : String) (off : Nat) (bytes : List UInt8) (e : StageError → ε) :
    Uses (OnDisk d) (writeDisk part d off bytes e) :=
  asks_bind (asks_demand (fun _ _ => rfl) fun _ => rfl) fun _ => asks_demand (fun _ _ => rfl) fun _ => rfl

theorem writeStage1_uses (d : String) (stage1 : List UInt8) :
    Uses (OnDisk d) (writeStage1 part d stage1) :=
  asks_bind (asks_require _ _) fun _ => asks_bind (checkExtent_uses ..) fun _ =>
    asks_bind (openDisk_uses ..) fun _ => asks_bind (readDisk_uses ..) fun _ =>
    asks_bind (writeDisk_uses ..) fun _ => asks_pure _

theorem writeStage2_uses (d : String) (stage2 : List UInt8) :
    Uses (OnDisk d) (writeStage2 part d stage2) :=
  asks_bind (asks_require _ _) fun _ => asks_bind (checkExtent_uses ..) fun _ =>
    asks_bind (openDisk_uses ..) fun _ => asks_bind (readDisk_uses ..) fun _ =>
    asks_bind (writeDisk_uses ..) fun _ => asks_bind (verifyStage2At_uses ..) fun _ => asks_pure _

theorem rollbackStage_tries {write : List UInt8 → ToolM WriteFailure (List UInt8)}
    (hwrite : ∀ content, Uses (OnDisk d) (write content)) (previous : Option (List UInt8)) :
    Tries (OnDisk d) (rollbackStage write previous : ToolM ε Bool) := by
  cases previous with
  | none => exact asks_pure _
  | some content =>
    exact asks_rescue (asks_bind (hwrite content).tries fun _ => asks_pure _) (fun _ => asks_pure _)
      fun _ _ => trivial

theorem writeBiosStagesWithRollback_uses (d : String) (stage1 stage2 : List UInt8) :
    Uses (OnDisk d) (writeBiosStagesWithRollback d stage1 stage2) := by
  have hback1 : ∀ previous, Tries (OnDisk d) (rollbackStage1 d previous : ToolM StagesFailure Bool) :=
    rollbackStage_tries (writeStage1_uses .rollback d)
  have hback2 : ∀ previous, Tries (OnDisk d) (rollbackStage2 d previous : ToolM StagesFailure Bool) :=
    rollbackStage_tries (writeStage2_uses .rollback d)
  refine asks_bind (asks_rescue_stops (writeStage2_uses ..) fun f => ?_) fun prev2 =>
    asks_bind (asks_rescue_stops (verifyStage2_uses ..) fun err => ?_) fun _ =>
    asks_bind (asks_rescue_stops (writeStage1_uses ..) fun f => ?_) fun prev1 =>
    asks_rescue_stops (verifyStage1_uses ..) fun err => ?_
  · exact stops_bind (hback2 _) fun _ => stops_stop _
  · exact stops_bind (hback2 _) fun _ => stops_stop _
  · exact stops_bind (hback1 _) fun _ => stops_bind (hback2 _) fun _ => stops_stop _
  · exact stops_bind (hback1 _) fun _ => stops_bind (hback2 _) fun _ => stops_stop _

end

/-! ### The UEFI loader -/

theorem backupPrevious_writes (mp name : String) : Writes mp disk (backupPrevious mp name : ToolM ε Bool) := by
  refine writes_read (readContent_reads ..) fun c => ?_
  cases c with
  | absent => exact asks_pure _
  | unreadable => exact asks_pure _
  | bytes b =>
    refine asks_perform (fun _ _ t ht => ?_) fun _ _ t ht => ?_
    · cases ht
      exact .inl ⟨_, by simp, rfl⟩
    · cases ht
      exact .inr ⟨mp, name, rfl⟩

theorem writeUefiGenerationWithRollback_writes (mp : String) (efi : Bytes)
    (info : Cmdline.BuildInfo) :
    Writes mp disk (writeUefiGenerationWithRollback env mp efi info) := by
  have hne : ∀ name, EspFile.loader name ≠ .member := fun _ => by simp
  refine asks_bind (asks_ofExcept _) fun name => asks_bind (writes_of_reads ?_) fun backup =>
    asks_rescue_stops ?_ fun err => ?_
  · exact asks_bind (readFile_reads ..) fun _ => asks_bind (readFile_reads ..) fun _ => asks_pure _
  · exact asks_bind (backupPrevious_writes mp name) fun _ =>
      asks_bind (writeFile_writes .write mp (hne name) _ _) fun _ =>
      asks_bind (verifyFile_uses (hne name) _ _).writes fun _ => asks_bind (asks_ofExcept _) fun _ =>
      asks_bind (asks_ofExcept _) fun _ => asks_relabel (writeMetadata_uses mp _).writes
  · have hback : Tries (OnEsp mp) (rollbackUefiGeneration mp name backup) :=
      asks_bind (restore_tries mp (hne name) _) fun _ =>
        asks_bind (restore_tries mp (by decide) _) fun _ => asks_pure _
    have hwithin : Asks (Within mp disk) (fun _ => True) (rollbackUefiGeneration mp name backup) :=
      hback.mono (fun _ hev _ ht => target_onEsp hev ht) fun _ _ h => h
    exact stops_bind (asks_relabel hwithin) fun _ => stops_stop err

theorem updateUefiTarget_writes (mp : String) (a : UefiAsset) (agree seed : Bool) :
    Writes mp disk (updateUefiTarget env mp a agree seed) := by
  have hwrite : Writes mp disk (writeUefiGenerationWithRollback env mp a.bytes a.info) :=
    writeUefiGenerationWithRollback_writes ..
  refine asks_bind (asks_ofExcept _) fun name => asks_ite (fun _ => ?_) fun _ => ?_
  · exact asks_bind hwrite fun _ => asks_pure _
  · exact writes_read (readLoader_reads ..) fun _ => asks_bind (asks_require _ _) fun _ =>
      asks_ite (fun _ => asks_pure _) fun _ => asks_bind hwrite fun _ => asks_pure _

/-! ### Config, keys, lists -/

theorem syncFile_writes (src dst : Esp) (hf : f ≠ .member) :
    Writes dst.mountpoint disk (syncFile src dst f) := by
  refine writes_read (readContent_reads ..) fun want =>
    writes_read (readContent_reads ..) fun got => ?_
  cases want with
  | unreadable => exact asks_stop _
  | absent =>
    cases got with
    | bytes b => exact asks_bind (removeFile_uses .write _ hf _).writes fun _ => asks_pure _
    | absent => exact asks_pure _
    | unreadable => exact asks_pure _
  | bytes w =>
    exact asks_ite (fun _ => asks_pure _) fun _ =>
      asks_bind (writeFile_writes .write _ hf _ _) fun _ => asks_pure _

theorem syncConfig_writes (src dst : Esp) : Writes dst.mountpoint disk (syncConfig src dst) :=
  asks_bind (syncFile_writes src dst (by decide)) fun _ =>
    asks_bind (syncFile_writes src dst (by decide)) fun _ =>
    asks_bind (syncFile_writes src dst (by decide)) fun _ => asks_pure _

theorem setConfigFile_writes (mp : String) (key value : Bytes) :
    Writes mp disk (setConfigFile part mp key value) := by
  refine writes_read (readContent_reads ..) fun c => ?_
  cases c with
  | unreadable => exact asks_stop _
  | absent => exact writeFile_writes part mp (by decide) _ _
  | bytes b => exact writeFile_writes part mp (by decide) _ _

theorem growConfig_writes (h : Host) (uuids : List FatUuid) (m : Esp) :
    Writes m.mountpoint disk (growConfig h uuids m) :=
  writes_read (readContent_reads ..) fun _ =>
    asks_onlyIf fun _ => setConfigFile_writes ..

theorem growCmdline_writes (h : Host) (uuids : List FatUuid) (m : Esp) :
    Writes m.mountpoint disk (growCmdline h uuids m) := by
  refine writes_read (readContent_reads ..) fun c => ?_
  cases c with
  | absent => exact asks_pure _
  | unreadable => exact asks_pure _
  | bytes b =>
    exact asks_onlyIf fun _ => asks_bind (asks_require _ _) fun _ =>
      writeFile_writes .lists _ (by decide) _ _

theorem growLists_writes (h : Host) (uuids : List FatUuid) (m : Esp) :
    Writes m.mountpoint disk (growLists h uuids m) :=
  asks_bind (growConfig_writes ..) fun _ => asks_onlyIf fun _ => growCmdline_writes ..

/-! ### One member -/

theorem setIntegrityMode_writes (mp : String) (mode : Bytes) :
    Writes mp disk (setIntegrityMode env uefi mp mode) := by
  unfold setIntegrityMode
  cases PayloadSum.validMode mode with
  | none => exact asks_stop _
  | some m =>
    refine writes_read (readContent_reads ..) fun c => ?_
    cases c with
    | unreadable => exact asks_stop _
    | absent =>
      exact writes_read (readInstalledKernelInitrd_reads ..) fun _ =>
        asks_bind (asks_ofExcept _) fun _ => asks_bind (asks_ofExcept _) fun _ =>
        asks_bind (writeFile_writes .write mp (by decide) _ _) fun _ =>
        writeFile_writes .write mp (by decide) _ _
    | bytes raw =>
      exact asks_bind (asks_ofExcept _) fun _ => writeFile_writes .write mp (by decide) _ _

theorem setInt13Chunk_writes (mp : String) (value : Bytes) : Writes mp disk (setInt13Chunk mp value) :=
  writes_read (readNeeded_reads ..) fun _ => asks_ite (fun _ => asks_pure _) fun _ =>
    asks_bind (asks_require _ _) fun _ => writeFile_writes .write mp (by decide) _ _

theorem updateSettings_writes (h : Host) (m : Esp) (opts : BiosOpts) :
    Writes m.mountpoint disk (updateSettings env h m opts) := by
  refine asks_bind (asks_onlyIf fun _ => setIntegrityMode_writes ..) fun _ => asks_onlyIf fun _ => ?_
  exact asks_bind (asks_ofExcept _) fun _ => setInt13Chunk_writes ..

theorem updateBiosTarget_writes (h : Host) (m : Esp) (src : Option Esp) (a : BiosAssets)
    (agree : Bool) (opts : BiosOpts) (seed : Bool) :
    Writes m.mountpoint (some m.disk) (updateBiosTarget env h m src a agree opts seed) := by
  have hwrite : ∀ integrityFrom c,
      Writes m.mountpoint (some m.disk) (writeBios env m integrityFrom a opts c) := fun _ _ =>
    asks_bind (asks_relabel (writeBiosStagesWithRollback_uses ..).writes_disk) fun _ =>
      writes_read (updateIntegrityMode_reads ..) fun _ =>
      asks_relabel (writePayloadWithRollback_uses ..).writes
  refine writes_read (asks_demand (fun _ _ => rfl) fun _ => rfl) fun _ =>
    writes_read (checkExtent_reads ..) fun _ =>
    asks_bind (asks_onlyIf fun _ => asks_relabel (writes_of_reads (checkUpdateEligible_reads ..))) fun _ =>
    writes_read (checkBiosUpToDate_reads ..) fun _ => asks_ite (fun _ => ?_) fun _ => ?_
  · exact asks_bind (asks_relabel (updateSettings_writes ..)) fun _ => asks_pure _
  · exact asks_bind (asks_relabel (writes_of_reads (prepareBios_reads ..))) fun _ =>
      asks_ite (fun _ => asks_pure _) fun _ => asks_bind (hwrite _ _) fun _ => asks_pure _

/-- The disk that a member's steps may write: UEFI has none. -/
def diskOf (uefi : Bool) (m : Esp) : Option String :=
  if uefi = false ∧ HasDisk m then some m.disk else none

theorem diskOf_bios (hdisk : HasDisk m) : diskOf false m = some m.disk := if_pos ⟨rfl, hdisk⟩

/-- A member that can be written to has a disk, if that is needed. -/
theorem hasDisk_of_usable {forceAdopt uefi : Bool} (h : m.usable forceAdopt uefi = .ok ())
    (huefi : uefi = false) : HasDisk m := by
  subst huefi
  rw [Esp.usable] at h
  split at h
  · cases h
  · rename_i hmount
    split at h
    · cases h
    · split at h
      · cases h
      · rename_i hdisk
        exact ⟨by rw [Esp.mounted, hmount]; rfl, by rw [hdisk]; rfl⟩

theorem copyBootChain_writes (src m : Esp) (hdisk : uefi = false → HasDisk m) :
    Writes m.mountpoint (diskOf uefi m) (copyBootChain env uefi src m) := by
  refine asks_bind ?_ fun _ => asks_bind (syncConfig_writes src m) fun _ => asks_pure _
  cases uefi with
  | true =>
    exact asks_bind (asks_ofExcept _) fun _ => writes_read (readNeeded_reads ..) fun _ =>
      writes_read (readInstalledKernelInitrd_reads ..) fun _ =>
      writeUefiGenerationWithRollback_writes ..
  | false =>
    rw [diskOf_bios (hdisk rfl)]
    exact writes_read (readStage1_reads ..) fun _ =>
      writes_read (readStage2_reads ..) fun _ => asks_bind (asks_ofExcept _) fun _ =>
      writes_read (asks_demand (fun _ _ => rfl) fun _ => rfl) fun _ =>
      writes_read (checkExtent_reads ..) fun _ =>
      asks_bind (asks_relabel (writes_of_reads (readInstalledKernelInitrd_reads ..))) fun _ =>
      asks_bind (asks_ofExcept _) fun _ => writes_read (readNeeded_reads ..) fun _ =>
      asks_bind (asks_require _ _) fun _ =>
      asks_bind (asks_relabel (writeBiosStagesWithRollback_uses ..).writes_disk) fun _ =>
      writes_read (updateIntegrityMode_reads ..) fun _ =>
      asks_relabel (writePayloadWithRollback_uses ..).writes

theorem repairMember_writes (src m : Esp) (hdisk : uefi = false → HasDisk m) :
    Writes m.mountpoint (diskOf uefi m) (repairMember env uefi src m) := by
  refine writes_read (digestMember_reads ..) fun _ =>
    writes_read (digestMember_reads ..) fun _ => asks_ite (fun _ => asks_pure _) fun _ =>
    asks_bind (asks_onlyIf fun _ => asks_relabel (writes_of_reads (checkRepairSource_reads ..)))
      fun _ => ?_
  exact writes_read (readMemberSettings_reads ..) fun _ =>
    writes_read (readMemberSettings_reads ..) fun _ => asks_bind (asks_require _ _) fun _ =>
    asks_bind (asks_relabel (copyBootChain_writes _ _ _ _ hdisk)) fun _ => asks_pure _

theorem updateTarget_writes (o : UpdateOpts) (h : Host) (src : Option Esp) (m : Esp) (seed : Bool)
    (hdisk : h.uefi = false → HasDisk m) :
    Writes m.mountpoint (diskOf h.uefi m) (updateTarget env o h src m seed) := by
  unfold updateTarget
  cases huefi : h.uefi with
  | true => exact asks_relabel (updateUefiTarget_writes ..)
  | false =>
    rw [diskOf_bios (hdisk huefi)]
    exact updateBiosTarget_writes ..

theorem applySetting_writes (h : Host) (s : Setting) (m : Esp) :
    Writes m.mountpoint disk (applySetting env h s m) := by
  refine asks_ite (fun _ => asks_stop _) fun _ => ?_
  cases s with
  | integrity mode => exact setIntegrityMode_writes ..
  | int13chunk value => exact setInt13Chunk_writes ..

theorem dropFromConfig_writes (u : FatUuid) (m : Esp) :
    Writes m.mountpoint disk (dropFromConfig u m) :=
  writes_read (readContent_reads ..) fun _ =>
    asks_onlyIf fun _ => setConfigFile_writes ..

theorem dropFromCmdline_writes (u : FatUuid) (m : Esp) :
    Writes m.mountpoint disk (dropFromCmdline u m) :=
  writes_read (readContent_reads ..) fun _ =>
    asks_onlyIf fun _ => writeFile_writes _ _ (by decide) _ _

end

/-! ### Loops over the members -/

/-- `x` changes nothing outside `area`. -/
abbrev Stays {ε α : Type} (area : Target → Prop) (x : ToolM ε α) : Prop :=
  Asks (Confined area) (fun _ => True) x

/-- The files of the ESP, other than MEMBER, are in `area`. -/
def HasFiles (area : Target → Prop) (m : Esp) : Prop :=
  ∀ f, f ≠ .member → area (.file m.mountpoint f)

section
variable {ε ε' α : Type} {area : Target → Prop} {x : ToolM ε α}

theorem stays_of_reads (h : Reads x) : Stays area x :=
  h.mono (fun _ hev => hev.confined) fun _ _ _ => trivial

theorem stays_of_writes {mp : String} {disk : Option String} (h : Writes mp disk x)
    (harea : ∀ t, Area mp disk t → area t) : Stays area x :=
  h.mono (fun _ hev => hev.mono harea) fun _ _ _ => trivial

theorem stays_of_hasFiles (hm : HasFiles area m) (h : Writes m.mountpoint none x) :
    Stays area x := by
  refine stays_of_writes h ?_
  rintro t (⟨f, hf, rfl⟩ | ⟨d, hd, -⟩)
  · exact hm f hf
  · cases hd

theorem stays_outcome (h : Stays area x) : Stays area (x.outcome : ToolM ε' (Except ε α)) :=
  asks_outcome h fun _ _ => trivial

theorem addToLists_stays (h : Host) (uuids : List FatUuid) {ms : List Esp}
    (hms : ∀ m ∈ ms, m.foreign = false → HasFiles area m) : Stays area (addToLists h uuids ms) := by
  induction ms with
  | nil => exact asks_pure ()
  | cons m ms ih =>
    obtain ⟨hm, hms⟩ := List.forall_mem_cons.mp hms
    refine asks_bind (asks_onlyIf fun hown => asks_relabel ?_) fun _ => ih hms
    exact stays_of_hasFiles (hm (by simpa using hown.2)) (growLists_writes h uuids m)

theorem dropFromLists_stays (u : FatUuid) {ms : List Esp}
    (hms : ∀ m ∈ ms, m.foreign = false → HasFiles area m) :
    Stays area (dropFromLists uefi u ms : ToolM ε Bool) := by
  induction ms with
  | nil => exact asks_pure _
  | cons m ms ih =>
    obtain ⟨hm, hms⟩ := List.forall_mem_cons.mp hms
    rw [dropFromLists]
    refine asks_ite (fun _ => ih hms) fun hskip => ?_
    have hown : HasFiles area m := hm (by simpa using fun hforeign => hskip (.inr hforeign))
    have hconfig : Stays area (dropFromConfig u m) :=
      stays_of_hasFiles hown (dropFromConfig_writes u m)
    have hcmdline : Stays area (onlyIf (¬ uefi) (dropFromCmdline u m)) :=
      asks_onlyIf fun _ => stays_of_hasFiles hown (dropFromCmdline_writes u m)
    exact asks_bind (stays_outcome hconfig) fun _ => asks_bind (stays_outcome hcmdline) fun _ =>
      asks_bind (ih hms) fun _ => asks_pure _

/-- Only MEMBER is written. -/
theorem finalizeMember_stays {mp : String} (want : Member) (hmp : area (.file mp .member)) :
    Stays area (finalizeMember mp want) := by
  have hread : Reads (readMember mp : ToolM StepError (Option Member)) := by
    refine asks_bind (readContent_reads ..) fun c => ?_
    cases c <;> exact asks_pure _
  refine asks_bind (stays_of_reads hread) fun cur => asks_ite (fun _ => asks_pure _) fun _ =>
    asks_bind (asks_ofExcept _) fun _ => asks_demand (fun fate after t ht => ?_) fun _ => trivial
  obtain rfl := Option.some.inj ht
  exact hmp

theorem finalizeMembersAt_stays (h : Host) {ok : List Esp} (genOf : Esp → Nat) (pool : Bytes)
    (hok : ∀ m ∈ ok, area (.file m.mountpoint .member)) :
    Stays area (finalizeMembersAt env h ok genOf pool : ToolM ε _) := by
  unfold finalizeMembersAt
  cases h.ensureInstallId env with
  | error err => exact asks_pure _
  | ok id =>
    dsimp only
    induction ok with
    | nil => exact asks_pure _
    | cons m ms ih =>
      obtain ⟨hm, hms⟩ := List.forall_mem_cons.mp hok
      refine asks_bind (stays_outcome (finalizeMember_stays _ hm)) fun r =>
        asks_bind (ih hms) fun errs => ?_
      cases r <;> exact asks_pure _

end

end ZfsBoot.Proofs.Tool.Footprint
