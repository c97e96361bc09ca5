import ZfsBoot.Proofs.Tool.BiosUpdate

/-!
# `ZfsBoot.Proofs.Tool.Smooth`: an update in which nothing fails

What `updateBIOSTarget` does when every operation is carried out, one lemma for each of its parts.
A part takes the medium to the next one, so a whole update is put together from them without a look
at its journal.
-/

set_option autoImplicit false

namespace ZfsBoot.Proofs.Tool.Smooth

open Lib Lib.Halting ZfsBoot.Tool ZfsBoot.Tool.Mirror ZfsBoot.Tool.Cmdline
open ZfsBoot.Tool.PayloadSum Tool Proofs.Tool.Marker
open Tool.BiosUpdate
open Bios (PayloadSumMode)

variable {part : Part}

section
variable {ε : Type} {w : World}

/-! ### The stages -/

theorem checkExtent_runs {disk : String} {e : StageError → ε}
    (h : checkStage2ExtentFree (w.disk disk) = .ok ()) :
    Runs w (checkExtent part disk e) (.ok ()) w := by
  refine runs_bind (runs_observe _ (⟨part, .checkExtent disk⟩ : Op) _ fun _ => rfl) ?_
  rw [h]
  exact runs_ofExcept _

theorem readDisk_runs {disk : String} {off n : Nat} {bytes : List UInt8} {e : ε}
    (h : (w.disk disk).readAt off n = .ok bytes) :
    Runs w (readDisk part disk off n e) (.ok bytes) w := by
  refine runs_bind (runs_observe _ (⟨part, .readAt disk off n⟩ : Op) _ fun _ => rfl) ?_
  rw [h]
  exact runs_ofExcept _

theorem openDisk_runs (part : Part) (disk : String) (e : ε) :
    Runs w (demand e ⟨part, .openDisk disk⟩ : ToolM ε Unit) (.ok ()) w :=
  runs_demand e (⟨part, .openDisk disk⟩ : Op)

theorem writeDisk_runs (part : Part) (disk : String) (off : Nat) (bytes : List UInt8)
    (e : StageError → ε) :
    Runs w (writeDisk part disk off bytes e) (.ok ()) ((Action.writeAt disk off bytes).act w) :=
  runs_bind (runs_demand _ (⟨part, .writeAt disk off bytes⟩ : Op))
    (runs_demand _ (⟨part, .sync disk⟩ : Op))

/-- What a disk must be like to take new stages. -/
structure TakesStages (disk : String) (w : World) : Prop where
  size : stage2Offset + stage2Bytes ≤ (w.disk disk).size
  free : ∀ b, b.length = stage2Bytes →
    checkStage2ExtentFree (withStages (w.disk disk) (stage1On (w.disk disk)) b) = .ok ()

theorem TakesStages.now {disk : String} (h : TakesStages disk w) :
    checkStage2ExtentFree (w.disk disk) = .ok () := by
  have hfree := h.free (regionOn (w.disk disk)) (length_regionOn _)
  rwa [withStages_self] at hfree

variable {disk : String} {a b stage1 stage2 : List UInt8}

theorem verifyStage2At_runs {e : StageError → ε}
    (hsize : stage2Offset + stage2Bytes ≤ (w.disk disk).size) (ha : a.length = stage1Bytes)
    (h2 : stage2.length ≤ stage2Bytes) :
    Runs (World.staged disk w a (stage2Region stage2)) (verifyStage2At part disk stage2 e) (.ok ())
      (World.staged disk w a (stage2Region stage2)) := by
  have hread : ((World.staged disk w a (stage2Region stage2)).disk disk).readAt stage2Offset stage2Bytes
      = .ok (stage2Region stage2) := by
    rw [disk_staged]
    exact readAt_stage2 hsize ha (length_stage2Region h2)
  refine runs_bind (readDisk_runs hread) (runs_bind (runs_require (take_stage2Region stage2)) ?_)
  rw [findIdx?_stage2Region]
  exact runs_pure ()

theorem writeStage2_runs (htakes : TakesStages disk w) (h2 : stage2.length ≤ stage2Bytes) :
    Runs w (writeStage2 .write disk stage2) (.ok (regionOn (w.disk disk)))
      (World.staged disk w (stage1On (w.disk disk)) (stage2Region stage2)) := by
  have ha := length_stage1On (w.disk disk)
  have hread : (w.disk disk).readAt stage2Offset stage2Bytes = .ok (regionOn (w.disk disk)) := by
    rw [readAt_of_le htakes.size, regionOn_eq]
  have hwrite : Runs w (writeDisk .write disk stage2Offset (stage2Region stage2)
      (WriteFailure.mk (some (regionOn (w.disk disk))))) (.ok ())
      (World.staged disk w (stage1On (w.disk disk)) (stage2Region stage2)) := by
    rw [← act_writeAt_stage2 ha (length_regionOn (w.disk disk)) (length_stage2Region h2), staged_self]
    exact writeDisk_runs ..
  refine runs_bind (runs_require h2) (runs_bind (checkExtent_runs htakes.now) ?_)
  refine runs_bind (openDisk_runs ..) (runs_bind (readDisk_runs hread) (runs_bind hwrite ?_))
  exact runs_bind (verifyStage2At_runs htakes.size ha h2) (runs_pure _)

theorem writeStage1_runs (htakes : TakesStages disk w) (h1 : stage1.length = stage1Bytes)
    (hb : b.length = stage2Bytes) :
    Runs (World.staged disk w (stage1On (w.disk disk)) b) (writeStage1 .write disk stage1)
      (.ok (stage1On (w.disk disk))) (World.staged disk w stage1 b) := by
  have ha := length_stage1On (w.disk disk)
  have hfree : checkStage2ExtentFree ((World.staged disk w (stage1On (w.disk disk)) b).disk disk)
      = .ok () := by
    rw [disk_staged]
    exact htakes.free b hb
  have hread : ((World.staged disk w (stage1On (w.disk disk)) b).disk disk).readAt 0 stage1Bytes
      = .ok (stage1On (w.disk disk)) := by
    rw [disk_staged]
    exact readAt_stage1 htakes.size ha
  have hwrite : Runs (World.staged disk w (stage1On (w.disk disk)) b) (writeDisk .write disk 0 stage1
      (WriteFailure.mk (some (stage1On (w.disk disk))))) (.ok ()) (World.staged disk w stage1 b) := by
    rw [← act_writeAt_stage1 ha h1]
    exact writeDisk_runs ..
  refine runs_bind (runs_require h1) (runs_bind (checkExtent_runs hfree) ?_)
  refine runs_bind (openDisk_runs ..) (runs_bind (readDisk_runs hread) ?_)
  exact runs_bind hwrite (runs_pure _)

theorem verifyStage1_runs (hsize : stage2Offset + stage2Bytes ≤ (w.disk disk).size)
    (h1 : stage1.length = stage1Bytes) :
    Runs (World.staged disk w stage1 b) (verifyStage1 disk stage1) (.ok ())
      (World.staged disk w stage1 b) := by
  have hread : ((World.staged disk w stage1 b).disk disk).readAt 0 stage1Bytes = .ok stage1 := by
    rw [disk_staged]
    exact readAt_stage1 hsize h1
  refine runs_bind (runs_require h1) (runs_bind (openDisk_runs ..) ?_)
  exact runs_bind (readDisk_runs hread) (runs_require rfl)

/-- Both stages. -/
theorem writeBiosStages_runs (htakes : TakesStages disk w) (h1 : stage1.length = stage1Bytes)
    (h2 : stage2.length ≤ stage2Bytes) :
    Runs w (writeBiosStagesWithRollback disk stage1 stage2) (.ok ())
      (World.staged disk w stage1 (stage2Region stage2)) := by
  have ha := length_stage1On (w.disk disk)
  refine runs_bind (runs_rescue (writeStage2_runs htakes h2)) ?_
  refine runs_bind (runs_rescue (runs_bind (runs_require h2) (runs_bind (openDisk_runs ..)
    (verifyStage2At_runs htakes.size ha h2)))) ?_
  refine runs_bind (runs_rescue (writeStage1_runs htakes h1 (length_stage2Region h2))) ?_
  exact runs_rescue (verifyStage1_runs htakes.size h1)

/-! ### The payload -/

variable {mp : String}

theorem readFile_runs (part : Part) (f : EspFile) (e : ε) :
    Runs w (readFile part mp f e) (.ok (w.files mp f)) w :=
  runs_observe e (⟨part, .readFile mp f⟩ : Op) _ fun _ => rfl

theorem writeFile_runs (part : Part) (f : EspFile) (content : List UInt8) (e : ε) :
    Runs w (writeFile part mp f content e) (.ok ()) (w.setFile mp f (some content)) :=
  runs_demand e (⟨part, .writeFile mp f content⟩ : Op)

theorem removeFile_runs (part : Part) (f : EspFile) (e : ε) :
    Runs w (removeFile part mp f e) (.ok ()) (w.setFile mp f none) :=
  runs_demand e (⟨part, .remove mp f⟩ : Op)

theorem verifyFile_runs {f : EspFile} {want : List UInt8} {e : VerifyError → ε}
    (h : w.files mp f = some want) : Runs w (verifyFile mp f want e) (.ok ()) w := by
  refine runs_bind (readFile_runs ..) ?_
  rw [h]
  exact runs_require rfl

theorem writeManifest_runs (f : EspFile) (content : List UInt8) :
    Runs w (writeManifest mp f (some content)) (.ok ()) (w.setFile mp f (some content)) :=
  runs_bind (writeFile_runs ..) (verifyFile_runs (by simp))

theorem backupPayload_runs : ∃ backup, Runs w (backupPayload mp) (.ok backup) w :=
  ⟨_, runs_bind (readFile_runs ..) <| runs_bind (readFile_runs ..) <| runs_bind (readFile_runs ..) <|
    runs_bind (readFile_runs ..) <| runs_bind (readFile_runs ..) <| runs_bind (readFile_runs ..) <|
    runs_pure _⟩

/-- A payload with both manifests. -/
theorem replacePayload_runs (n : NewPayload) (metadata payloadSum blkSum : List UInt8) :
    ∃ w', Runs w (replacePayload mp n (.ok metadata) (some payloadSum) (some blkSum)) (.ok ()) w' :=
  ⟨_, runs_bind (removeFile_runs ..) <| runs_bind (removeFile_runs ..) <|
    runs_bind (runs_bind (writeFile_runs ..) <| runs_bind (writeFile_runs ..) <|
      writeFile_runs ..) <|
    runs_bind (runs_bind (verifyFile_runs (by simp)) <| runs_bind (verifyFile_runs (by simp)) <|
      verifyFile_runs (by simp)) <|
    runs_bind (runs_bind (runs_ofExcept _) (writeFile_runs ..)) <|
    runs_bind (writeManifest_runs ..) (writeManifest_runs ..)⟩

theorem writePayload_runs {makeMetadata : MetadataMaker} {n : NewPayload}
    {metadata payloadSum blkSum : List UInt8} (hmeta : makeMetadata n = .ok metadata)
    (hsums : n.manifests = .ok (some payloadSum, some blkSum)) :
    ∃ w', Runs w (writePayloadWithRollback makeMetadata mp n) (.ok ()) w' := by
  obtain ⟨backup, hbackup⟩ : ∃ backup, Runs w (backupPayload mp) (.ok backup) w := backupPayload_runs
  obtain ⟨w', hreplace⟩ : ∃ w', Runs w (replacePayload mp n (.ok metadata) (some payloadSum)
    (some blkSum)) (.ok ()) w' := replacePayload_runs ..
  have hmanifests : Runs w (ofExcept n.manifests : ToolM PayloadError _)
      (.ok (some payloadSum, some blkSum)) w := by
    rw [hsums]
    exact runs_ofExcept _
  rw [← hmeta] at hreplace
  exact ⟨w', runs_bind hbackup (runs_bind hmanifests (runs_rescue hreplace))⟩

end

/-! ### A release -/

/-- A release that can be installed. -/
structure Sound (env : Machine) (a : BiosAssets) : Prop where
  arch : env.arch = "x86_64"
  metadata : ∀ version stamp, ∃ raw, env.deepMetadata env.arch version stamp a.kernel a.initrd = .ok raw
  stage1 : a.stage1.length = stage1Bytes
  stage2 : a.stage2.length ≤ stage2Bytes
  pair : checkStage2 a.stage2 = .ok ()
  payloadSum : ∀ mode, ∃ raw, generate a.kernel a.initrd (modeText mode) = .ok raw
  blkSum : ∃ raw, generateBlkSum a.kernel a.initrd = .ok raw

section
variable {env : Machine} {h : Host} {m : Esp} {a : BiosAssets} {opts : BiosOpts} {w : World}
  {raw : Bytes}

/-- The CMDLINE of a member that keeps its list. -/
def keptCmdline (m : Esp) (a : BiosAssets) (raw : Bytes) : Bytes :=
  setCmdlineWord (setCmdlineWord a.cmdline espUuidsWord (cmdlineValue raw espUuidsWord)) espSelfWord
    m.info.uuid.val

theorem prepareBios_runs (hsound : Sound env a) (hchunk : opts.int13chunk = [])
    (hvalid : (validMode opts.integrity).isSome = true) (hlist : h.explicitList = none)
    (hfile : w.files m.mountpoint .cmdline = some raw) (hraw : (cmdlineInt13Chunk raw).2 = false)
    (hfits : (keptCmdline m a raw).length ≤ cmdlineMaxBytes) :
    Runs w (prepareBios env h m none a opts) (.ok (keptCmdline m a raw)) w := by
  have hread : ∀ {ε : Type}, Runs w (readContent .write m.mountpoint .cmdline : ToolM ε Content)
      (.ok (.bytes raw)) w := by
    intro ε
    have hcontent := readContent_runs (ε := ε) (w := w) .write m.mountpoint .cmdline
    rwa [hfile] at hcontent
  have hpreflight : preflightBiosMetadata env (parseText a.cmdline) a.kernel a.initrd = .ok () := by
    obtain ⟨metadata, hmeta⟩ := hsound.metadata (asciiText (parseText a.cmdline).version)
      (asciiText (parseText a.cmdline).buildStamp)
    obtain ⟨sum, hsum⟩ := hsound.payloadSum .warn
    simp only [preflightBiosMetadata, hmeta, hsum, if_pos hsound.arch]
  have hpair : checkStagePair a.stage2 opts.force = .ok () := by rw [checkStagePair, hsound.pair]
  have happly : Runs w (applyInt13Chunk m.mountpoint opts a.cmdline) (.ok a.cmdline) w := by
    rw [applyInt13Chunk, if_neg (by simp [hchunk])]
    refine runs_bind hread ?_
    simp only [Content.orEmpty, hraw, Bool.false_eq_true, if_false]
    exact runs_pure _
  have hfrom : Runs w (cmdlineFrom (otherThan m none) opts a.cmdline raw) (.ok (a.cmdline, raw)) w := by
    cases raw with
    | nil => exact runs_pure _
    | cons c raw => exact runs_pure _
  unfold prepareBios
  rw [hpreflight, hpair]
  refine runs_bind (runs_ofExcept _) (runs_bind (runs_ofExcept _) (runs_bind (runs_require hvalid) ?_))
  refine runs_bind happly (runs_bind hread (runs_bind hfrom ?_))
  simp only [hlist]
  exact runs_bind (runs_require hfits) (runs_pure _)

theorem updateIntegrityMode_runs {ε : Type} {mp : String} (hopts : opts.integritySet = false) :
    Runs w (updateIntegrityMode mp opts : ToolM ε Bytes)
      (.ok (modeText (modeOn (w.files mp .payloadSum)))) w := by
  rw [updateIntegrityMode, if_neg (by rw [hopts]; decide)]
  refine runs_bind (readContent_runs ..) ?_
  rcases w.files mp .payloadSum with _ | raw
  · exact runs_pure _
  · simp only [contentOf, modeOn]
    rcases decode raw with err | man
    · exact runs_pure _
    · exact runs_pure _

theorem writeBios_runs (hsound : Sound env a) (hopts : opts.integritySet = false)
    (htakes : TakesStages m.disk w) (mp : String) (c : Bytes) :
    ∃ w', Runs w (writeBios env m mp a opts c) (.ok ()) w' := by
  have hstages := writeBiosStages_runs htakes hsound.stage1 hsound.stage2
  obtain ⟨metadata, hmeta⟩ := hsound.metadata (asciiText (parseText a.cmdline).version)
    (asciiText (parseText a.cmdline).buildStamp)
  obtain ⟨payloadSum, hsum⟩ := hsound.payloadSum (modeOn
    ((World.staged m.disk w a.stage1 (stage2Region a.stage2)).files mp .payloadSum))
  obtain ⟨blkSum, hblk⟩ := hsound.blkSum
  have hsums : NewPayload.manifests ⟨env.arch, asciiText (parseText a.cmdline).version,
      asciiText (parseText a.cmdline).buildStamp, a.kernel, a.initrd, c, modeText (modeOn
        ((World.staged m.disk w a.stage1 (stage2Region a.stage2)).files mp .payloadSum))⟩
      = .ok (some payloadSum, some blkSum) := by
    rw [NewPayload.manifests, if_pos hsound.arch, hsum, hblk]
    rfl
  obtain ⟨w', hpayload⟩ : ∃ w', Runs (World.staged m.disk w a.stage1 (stage2Region a.stage2))
      (writePayloadWithRollback (fun n => env.deepMetadata n.arch n.version n.buildStamp n.kernel
        n.initrd) m.mountpoint _) (.ok ()) w' := writePayload_runs hmeta hsums
  exact ⟨w', runs_bind (runs_relabel hstages) (runs_bind (updateIntegrityMode_runs hopts)
    (runs_relabel hpayload))⟩

/-- An update of a member that has an older build. -/
theorem updateBiosTarget_runs (hsound : Sound env a) (hopts : opts.integritySet = false)
    (hchunk : opts.int13chunk = []) (hvalid : (validMode opts.integrity).isSome = true)
    (hlist : h.explicitList = none) (htakes : TakesStages m.disk w)
    (hversion : hasStage2Version (trimStage2 (regionOn (w.disk m.disk))) = true)
    (hfile : w.files m.mountpoint .cmdline = some raw) (hstamp : (parseText raw).buildStamp = [])
    (hraw : (cmdlineInt13Chunk raw).2 = false)
    (hfits : (keptCmdline m a raw).length ≤ cmdlineMaxBytes) :
    ∃ w', Runs w (updateBiosTarget env h m none a true opts false) (.ok true) w' := by
  obtain ⟨w', hwrite⟩ := writeBios_runs hsound hopts htakes m.mountpoint (keptCmdline m a raw)
  have hregion : Runs w (readStage2 m.disk (StepError.noStage2 m.disk))
      (.ok (trimStage2 (regionOn (w.disk m.disk)))) w := by
    have hread := readStage2_runs (w := w) m.disk (StepError.noStage2 m.disk)
    rwa [readAt_of_le htakes.size, ← regionOn_eq] at hread
  have heligible : Runs w (checkUpdateEligible m.disk) (.ok ()) w :=
    runs_bind hregion (runs_require hversion)
  have hold : Runs w (checkBiosUpToDate m.mountpoint (parseText a.cmdline).buildStamp
      : ToolM StepFailure Bool) (.ok false) w := by
    refine runs_bind (readContent_runs ..) ?_
    rw [hfile]
    simp only [contentOf, hstamp]
    exact runs_pure _
  have hlook : Runs w (demand ⟨false, .refusingUpdate (.sectorSize m.disk)⟩
      ⟨.write, .checkSectorSize m.disk⟩ : ToolM StepFailure Unit) (.ok ()) w :=
    runs_demand _ (⟨.write, .checkSectorSize m.disk⟩ : Op)
  refine ⟨w', runs_bind hlook (runs_bind (checkExtent_runs htakes.now) ?_)⟩
  refine runs_bind (runs_relabel heligible) (runs_bind hold ?_)
  exact runs_bind (runs_relabel (prepareBios_runs hsound hchunk hvalid hlist hfile hraw hfits))
    (runs_bind hwrite (runs_pure _))

end

end ZfsBoot.Proofs.Tool.Smooth
