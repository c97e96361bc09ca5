import ZfsBoot.Proofs.Sha256
import ZfsBoot.Proofs.Tool.Marker

/-!
# `ZfsBoot.Proofs.Tool.SettingOrder`: a setting and the order of the members

The generation of a member says how new its copy is. The member with the highest one is the source
of every repair, so a command that does not bring a member up to date must not let it catch up with
one that is newer.

`integrity` and `int13chunk` write no generation at all, unless some member could not be reached and
something changed. Then all the members that were reached get the same new one, and those that were
behind catch up (`setting_order_iff`).
-/

set_option autoImplicit false

namespace ZfsBoot.Proofs.Tool.SettingOrder

open List
open Lib Lib.Halting ZfsBoot.Tool ZfsBoot.Tool.Mirror
open Tool.EspSet Tool.Host
open Tool.Footprint Proofs.Tool.Marker
open Bios (ascii)

variable {a b : Esp} {o : HostOpts} {failed : Bool} {reached ms : List Esp} {st : Setting}
  {s s' : Run} {someUnreached changed : Bool} {w' : World}

/-! ### Settings -/

section
variable {ε : Type} (env : Machine)

theorem digestAll_reads (uefi : Bool) (ms : List Esp) :
    Reads (digestAll env uefi ms : ToolM ε (List (FatUuid × MemberDigest))) := by
  induction ms with
  | nil => exact asks_pure _
  | cons m ms ih => exact asks_bind (digestMember_reads ..) fun _ => asks_bind ih fun _ => asks_pure _

theorem payloadDifference_reads (h : Host) : Reads (payloadDifference env h : ToolM ε Bool) := by
  refine asks_bind (digestAll_reads ..) fun ds => ?_
  rcases ds with _ | ⟨d, ds⟩ <;> exact asks_pure _

theorem anyChanged_reads (uefi : Bool) (before : List (FatUuid × MemberDigest)) (ms : List Esp) :
    Reads (anyChanged env uefi before ms : ToolM ε Bool) := by
  induction ms with
  | nil => exact asks_pure _
  | cons m ms ih =>
    unfold anyChanged
    cases before.lookup m.info.uuid with
    | none => exact ih
    | some d => exact asks_bind (digestMember_reads ..) fun _ => asks_bind ih fun _ => asks_pure _

theorem settingLoop_spares (h : Host) (forceAdopt : Bool) (st : Setting) (ms : List Esp) :
    Spares (settingLoop env h forceAdopt st ms : ToolM ε (List Esp × Bool)) := by
  induction ms with
  | nil => exact asks_pure _
  | cons m ms ih =>
    have hwrites : Writes m.mountpoint none (applySetting env h st m) := applySetting_writes ..
    have hstep : Spares (do
        ofExcept (m.usable forceAdopt h.uefi)
        applySetting env h st m) :=
      asks_bind (asks_ofExcept _) fun _ => spares_of_writes hwrites
    refine asks_bind (asks_outcome hstep fun _ _ => trivial) fun r => asks_bind ih fun rest => ?_
    cases r <;> exact asks_pure _

theorem applyToAll_spares (h : Host) (forceAdopt : Bool) (st : Setting) :
    Spares (applyToAll env h forceAdopt st : ToolM ε (List Esp × Bool × Bool)) :=
  asks_bind (spares_of_reads (digestAll_reads ..)) fun _ =>
    asks_bind (settingLoop_spares ..) fun _ =>
      asks_bind (spares_of_reads (anyChanged_reads ..)) fun _ => asks_pure _

theorem settingLoop_reached (h : Host) (forceAdopt : Bool) (st : Setting) (ms : List Esp) :
    Triple (fun _ => True) (settingLoop env h forceAdopt st ms : ToolM ε (List Esp × Bool))
      (fun r _ => r.1.Sublist ms) fun _ _ => True := by
  induction ms with
  | nil => exact triple_pure fun _ _ => .slnil
  | cons m ms ih =>
    refine triple_bind (fun _ _ => True) (triple_true _) fun r => triple_bind _ ih fun rest => ?_
    cases r with
    | ok a => exact triple_pure fun _ hs => hs.cons_cons m
    | error e => exact triple_pure fun _ hs => hs.cons m

theorem applyToAll_reached (h : Host) (forceAdopt : Bool) (st : Setting) :
    Triple (fun _ => True) (applyToAll env h forceAdopt st : ToolM ε (List Esp × Bool × Bool))
      (fun r _ => r.1.Sublist h.members) fun _ _ => True := by
  refine triple_bind (fun _ _ => True) (triple_true _) fun before =>
    triple_bind (fun r _ => True ∧ r.1.Sublist h.members)
      ((settingLoop_reached ..).post fun _ _ hs => ⟨trivial, hs⟩) fun r => triple_of_and fun hsub => ?_
  exact triple_bind (fun _ _ => True) (triple_true _) fun _ => triple_pure fun _ _ => hsub

/-- A member has MEMBER as it was, or a new generation that was recorded with a setting. -/
def Recorded (h : Host) (reached : List Esp) (someUnreached changed : Bool) (w : World) (s : Run) :
    Prop :=
  ∀ m ∈ reached, s.now.files m.mountpoint .member = w.files m.mountpoint .member
    ∨ h.recordsSetting reached someUnreached changed
      ∧ generationOn s.now m.info = h.maxGeneration + 1

theorem recordSettingGeneration_spec {h : Host} (hatt : Attached env h)
    (hsub : reached.Sublist h.members) (someUnreached changed : Bool) (w : World) :
    Triple (SameMarkers w) (recordSettingGeneration env h reached someUnreached changed : ToolM ε Unit)
      (fun _ => Recorded h reached someUnreached changed w)
      fun _ => Recorded h reached someUnreached changed w := by
  have hsame : ∀ s, SameMarkers w s → Recorded h reached someUnreached changed w s :=
    fun s hs m _ => .inl (hs m.mountpoint)
  refine triple_ite (fun hrec => ?_) fun _ => triple_pure hsame
  refine triple_bind (fun _ => SameMarkers w)
    ((spares_of_reads (poolOf_reads env h.uefi h.bestSource)).keeps.post_error fun _ => hsame)
    fun pool => triple_bind _ (((finalizeMembersAt_spec env h (fun _ => h.maxGeneration + 1) pool
      (hatt.nodup_mountpoints hsub) w).post fun errs s hs m hm => ?_).post_error fun _ _ => False.elim)
      fun _ => triple_pure fun _ hs => hs
  exact (hs.1.each m hm).imp_right fun hgen => ⟨hrec, hgen⟩

/-- What `forEachMember` has done with a setting when it comes to recording it: the members that were
reached, whether one was not, and whether something changed. Nothing, if it does not come to that. -/
def applied (ε : Type) (h : Host) (forceAdopt : Bool) (st : Setting) (s : Run) :
    Option ((List Esp × Bool × Bool) × Run) :=
  match (if h.mirrored then payloadDifference env h else pure false : ToolM ε Bool) s with
  | (.ok false, s') =>
    match (applyToAll env h forceAdopt st : ToolM ε _) s' with
    | (.ok r, s'') => some (r, s'')
    | _ => none
  | _ => none

/-- What is applied leaves MEMBER alone, and is followed by the recording. -/
theorem applied_run {h : Host} {forceAdopt : Bool}
    (happ : applied env ε h forceAdopt st s = some ((reached, someUnreached, changed), s')) :
    SameMarkers s.now s' ∧ reached.Sublist h.members
      ∧ (settingHost env h forceAdopt st s : Except ε Nat × Run).2
        = (recordSettingGeneration env h reached someUnreached changed s' : Except ε Unit × Run).2 := by
  unfold applied at happ
  split at happ
  · rename_i s₁ hdiff
    split at happ
    · rename_i r s₂ happly
      obtain ⟨rfl, rfl⟩ := Prod.mk.inj (Option.some.inj happ)
      have hreads : Spares (if h.mirrored then payloadDifference env h else pure false : ToolM ε Bool) :=
        asks_ite (fun _ => spares_of_reads (payloadDifference_reads env h)) fun _ => asks_pure _
      have hsame₁ := (hreads.keeps (w := s.now)).ends s fun _ => rfl
      rw [hdiff] at hsame₁
      have hsame₂ := ((applyToAll_spares (ε := ε) env h forceAdopt st).keeps (w := s.now)).ends s₁ hsame₁
      rw [happly] at hsame₂
      have hsub := (applyToAll_reached (ε := ε) env h forceAdopt st).ends s₁ trivial
      rw [happly] at hsub
      refine ⟨hsame₂, hsub, ?_⟩
      rw [settingHost, bind_apply, hdiff]
      simp only [Bool.false_eq_true, if_false, bind_apply, happly]
      split
      · rename_i hrec
        rw [hrec]
        rfl
      · rename_i hrec
        rw [hrec]
    · cases happ
  · cases happ

/-- Of two members that were reached, the one that is behind stays behind unless its MEMBER was
recorded anew: then it has caught up. -/
theorem Recorded.lt_iff {h : Host}
    {scan : Scan env} (hatt : Attached env h) (hsub : reached.Sublist h.members)
    (hrec : Recorded h reached someUnreached changed scan.world s) (ha : a ∈ reached)
    (hb : b ∈ reached) (hfb : b.foreign = false)
    (hlt : generationOn scan.world a.info < generationOn scan.world b.info) :
    generationOn s.now a.info < generationOn s.now b.info
      ↔ ¬ (h.recordsSetting reached someUnreached changed
        ∧ s.now.files a.mountpoint .member ≠ scan.world.files a.mountpoint .member) := by
  have hmax : generationOn scan.world b.info ≤ h.maxGeneration := by
    rw [generationOn_scan scan (hatt.scanned b (hsub.mem hb))]
    exact le_maxGeneration (hsub.mem hb) hfb
  have hb' : generationOn s.now b.info = generationOn scan.world b.info
      ∨ generationOn s.now b.info = h.maxGeneration + 1 :=
    (hrec b hb).imp generationOn_congr And.right
  rcases hrec a ha with hsame | ⟨hrecords, hgen⟩
  · have hgen : generationOn s.now a.info = generationOn scan.world a.info := generationOn_congr hsame
    refine ⟨fun _ hne => hne.2 hsame, fun _ => ?_⟩
    rcases hb' with hb' | hb' <;> omega
  · have hne : s.now.files a.mountpoint .member ≠ scan.world.files a.mountpoint .member := by
      intro hsame
      have hsame' : generationOn s.now a.info = generationOn scan.world a.info :=
        generationOn_congr hsame
      omega
    refine iff_of_false (fun hcaught => ?_) fun hnot => hnot ⟨hrecords, hne⟩
    rcases hb' with hb' | hb' <;> omega

theorem forEachMember_applied {h : Host} (hdisc : discoverHost env o = .ok h)
    (happ : applied env ε h o.forceAdopt st s = some ((reached, someUnreached, changed), s')) :
    (forEachMember env o st s : Except ε Nat × Run).2
      = (recordSettingGeneration env h reached someUnreached changed s' : Except ε Unit × Run).2 := by
  rw [forEachMember, hdisc]
  exact (applied_run env happ).2.2

theorem forEachMember_recorded {h : Host} (hdisc : discoverHost env o = .ok h)
    (happ : applied env ε h o.forceAdopt st s = some ((reached, someUnreached, changed), s')) :
    Recorded h reached someUnreached changed s.now
      (forEachMember env o st s : Except ε Nat × Run).2 := by
  obtain ⟨hsame, hsub, -⟩ := applied_run env happ
  have hends := (recordSettingGeneration_spec (ε := ε) env (discoverHost_attached hdisc) hsub
    someUnreached changed s.now).ends s' hsame
  rw [forEachMember_applied env hdisc happ]
  revert hends
  rcases (recordSettingGeneration env h reached someUnreached changed : ToolM ε Unit) s'
    with ⟨_ | _, _⟩ <;> exact id

end

/-! ### A setting without failures

What the digests of a member are, read off the medium. -/

section
variable {ε : Type} {w : World}

theorem digestFiles_runs (mp : String) (fs : List EspFile) :
    Runs w (digestFiles mp fs : ToolM ε _)
      (.ok (fs.map fun f => (.file f, digestOf mp id (contentOf (w.files mp f))))) w := by
  induction fs with
  | nil => exact runs_pure _
  | cons f fs ih => exact runs_bind (readContent_runs .write mp f) (runs_bind ih (runs_pure _))

/-- The digest of a member on BIOS. -/
def digestIn (w : World) (m : Esp) : MemberDigest :=
  let content f := contentOf (w.files m.mountpoint f)
  let sumOf f := (DigestName.file f, digestOf m.mountpoint id (content f))
  ⟨match content .cmdline with
    | .bytes c => (Cmdline.parseText c).buildStamp
    | _ => [],
    (.stage1, digestStage m.disk (((w.disk m.disk).readAt 0 stage1Bytes).mapError fun _ => ()))
      :: (.stage2, digestStage m.disk ((((w.disk m.disk).readAt stage2Offset stage2Bytes).mapError
        fun _ => ()).map trimStage2))
      :: [EspFile.kernel, .initrd, .payloadSum, .blkSum].map sumOf
      ++ (.file .cmdline, digestOf m.mountpoint Cmdline.stripMirrorWords (content .cmdline))
      :: (.metadata :: syncFiles).map sumOf⟩

theorem digestMember_runs (env : Machine) (m : Esp) :
    Runs w (digestMember env false m : ToolM ε _) (.ok (digestIn w m)) w :=
  runs_bind (runs_outcome (readRegion_runs ..)) <| runs_bind (runs_outcome (readStage2_runs ..)) <|
    runs_bind (digestFiles_runs ..) <| runs_bind (readContent_runs ..) <|
    runs_bind (digestFiles_runs ..) (runs_pure _)

-- the rules see a digest as one step
attribute [local irreducible] digestMember digestAll settingLoop anyChanged

theorem digestAll_runs (env : Machine) (ms : List Esp) :
    Runs w (digestAll env false ms : ToolM ε _)
      (.ok (ms.map fun m => (m.info.uuid, digestIn w m))) w := by
  induction ms with
  | nil =>
    rw [digestAll]
    exact runs_pure _
  | cons m ms ih =>
    rw [digestAll]
    exact runs_bind (digestMember_runs env m) (runs_bind ih (runs_pure _))

/-- A member does not differ from one with the same files. -/
theorem diff_self (kind : DigestName → Bool) {a b : MemberDigest} (h : a.files = b.files)
    (hnodup : (b.files.map Prod.fst).Nodup) : diff kind a b = [] := by
  have hlookup : ∀ (l : List (DigestName × FileDigest)), (l.map Prod.fst).Nodup →
      ∀ p ∈ l, l.lookup p.1 = some p.2 := by
    intro l
    induction l with
    | nil => simp
    | cons q l ih =>
      intro hnodup p hp
      obtain ⟨hq, hnodup⟩ := nodup_cons.1 hnodup
      rcases mem_cons.1 hp with rfl | hp
      · exact lookup_cons_self
      · have hne : p.1 ≠ q.1 := fun heq => hq (heq ▸ mem_map_of_mem hp)
        rw [lookup_cons, beq_false_of_ne hne]
        exact ih hnodup p hp
  rw [diff, map_eq_nil_iff, filter_eq_nil_iff, h]
  rintro ⟨name, sum⟩ hmem
  simp [hlookup _ hnodup _ hmem]

theorem setInt13Chunk_runs {mp : String} {raw value : Bytes} (hfile : w.files mp .cmdline = some raw)
    (hne : Cmdline.setCmdlineInt13Chunk raw value ≠ raw)
    (hlen : (Cmdline.setCmdlineInt13Chunk raw value).length ≤ Cmdline.cmdlineMaxBytes) :
    Runs w (setInt13Chunk mp value) (.ok ())
      (w.setFile mp .cmdline (some (Cmdline.setCmdlineInt13Chunk raw value))) := by
  have hread : Runs w (readNeeded mp .cmdline (StepError.reading .cmdline)) (.ok raw) w := by
    refine runs_bind (readContent_runs .write mp .cmdline) ?_
    rw [hfile]
    exact runs_pure raw
  refine runs_bind hread ?_
  rw [if_neg hne]
  refine runs_bind (a := ()) ?_ (runs_demand _ _)
  rw [checkCmdlineLength, require, if_pos hlen]
  exact runs_pure ()

variable {env : Machine} {h : Host} {forceAdopt : Bool} {m : Esp} {raw value : Bytes}

/-- The setting reaches a member of a BIOS host. -/
theorem settingStep_runs (huefi : h.uefi = false) (husable : m.usable forceAdopt false = .ok ())
    (hfile : w.files m.mountpoint .cmdline = some raw)
    (hne : Cmdline.setCmdlineInt13Chunk raw value ≠ raw)
    (hlen : (Cmdline.setCmdlineInt13Chunk raw value).length ≤ Cmdline.cmdlineMaxBytes) :
    Runs w (do
        ofExcept (m.usable forceAdopt h.uefi)
        applySetting env h (.int13chunk value) m) (.ok ())
      (w.setFile m.mountpoint .cmdline (some (Cmdline.setCmdlineInt13Chunk raw value))) := by
  rw [huefi, husable, applySetting, huefi]
  exact runs_bind (runs_pure ()) (setInt13Chunk_runs hfile hne hlen)

theorem settingLoop_runs_cons {w'' : World}
    (hstep : Runs w (do
        ofExcept (m.usable forceAdopt h.uefi)
        applySetting env h st m) (.ok ()) w')
    (hrest : Runs w' (settingLoop env h forceAdopt st ms : ToolM ε _) (.ok (reached, failed)) w'') :
    Runs w (settingLoop env h forceAdopt st (m :: ms) : ToolM ε _)
      (.ok (m :: reached, failed)) w'' := by
  rw [settingLoop]
  exact runs_bind (runs_outcome hstep) (runs_bind hrest (runs_pure _))

theorem settingLoop_runs_nil :
    Runs w (settingLoop env h forceAdopt st [] : ToolM ε _) (.ok ([], false)) w := by
  rw [settingLoop]
  exact runs_pure _

theorem anyChanged_runs (old : List (FatUuid × MemberDigest)) (ms : List Esp) :
    Runs w (anyChanged env false old ms : ToolM ε Bool)
      (.ok (ms.any fun m => ((old.lookup m.info.uuid).any fun d =>
        decide (d.files ≠ (digestIn w m).files)))) w := by
  induction ms with
  | nil =>
    rw [anyChanged]
    exact runs_pure _
  | cons m ms ih =>
    rw [anyChanged, any_cons]
    cases old.lookup m.info.uuid with
    | none => exact ih
    | some d => exact runs_bind (digestMember_runs env m) (runs_bind ih (runs_pure _))

theorem applyToAll_runs
    (huefi : h.uefi = false)
    (hms : h.members.filter (fun m => decide (m.mounted = true ∧ ¬ m.foreign = true)) = ms)
    (hloop : Runs w (settingLoop env h forceAdopt st h.members : ToolM ε _) (.ok (reached, failed)) w') :
    Runs w (applyToAll env h forceAdopt st : ToolM ε _)
      (.ok (reached, failed, reached.any fun m =>
        (((ms.map fun m => (m.info.uuid, digestIn w m)).lookup m.info.uuid).any fun d =>
          decide (d.files ≠ (digestIn w' m).files)))) w' := by
  rw [applyToAll, huefi, hms]
  exact runs_bind (digestAll_runs env ms) (runs_bind hloop (runs_bind (anyChanged_runs ..) (runs_pure _)))

/-- The first member's digests have changed. -/
theorem anyDiffers_head (hne : (digestIn w m).files ≠ (digestIn w' m).files) :
    ((m :: reached).any fun x =>
      ((((m :: ms).map fun y => (y.info.uuid, digestIn w y)).lookup x.info.uuid).any fun d =>
        decide (d.files ≠ (digestIn w' x).files))) = true := by
  rw [any_cons, map_cons, lookup_cons_self, Option.any_some, decide_eq_true hne,
    Bool.true_or]

theorem payloadDifference_runs (huefi : h.uefi = false)
    (hms : h.members.filter (fun m => decide (m.mounted = true ∧ ¬ m.added = true ∧ ¬ m.foreign = true))
      = [a, b])
    (hdiff : diff DigestName.isPayload (digestIn w a) (digestIn w b) = []) :
    Runs w (payloadDifference env h : ToolM ε Bool) (.ok false) w := by
  rw [payloadDifference, huefi, hms]
  refine runs_bind (digestAll_runs env [a, b]) ?_
  simp only [List.map, List.any, hdiff]
  exact runs_pure _

theorem poolOf_runs (hfile : w.files m.mountpoint .cmdline = some raw) :
    Runs w (poolOf env false (some m) : ToolM ε Bytes) (.ok (Cmdline.parseText raw).pool) w := by
  refine runs_bind (readContent_runs .write m.mountpoint .cmdline) ?_
  rw [hfile]
  exact runs_pure _

end

/-! ### A degraded mirror

Three ESPs, of which one is gone and one is behind. All of them carry the same build. -/

def newestEsp : EspInfo := memberEsp "/dev/sda1" uuidA idOnes 2 [uuidA, uuidB, uuidC]

def staleEsp : EspInfo := memberEsp "/dev/sdb1" uuidB idOnes 1 [uuidA, uuidB, uuidC]

def twoOfThree : Machine := plainMachine false [newestEsp, staleEsp] (by decide)

def quietCmdline : EspFiles
  | .cmdline => some (ascii "quiet")
  | _ => none

def twoOfThreeScan : Scan twoOfThree where
  world := plainWorld [newestEsp, staleEsp] fun _ => quietCmdline
  shows := by decide +kernel

def newest : Esp := attach twoOfThree false .member newestEsp false false

def stale : Esp := attach twoOfThree false .member staleEsp false false

def twoOfThreeHost : Host where
  uefi := false
  set := ⟨.member, none, some idOnes, [⟨newestEsp, false⟩, ⟨staleEsp, false⟩],
    [uuidA, uuidB, uuidC], [uuidC], []⟩
  members := [newest, stale]
  installId := some idOnes
  explicitList := none

theorem twoOfThree_found : discoverHost twoOfThree plainOpts = .ok twoOfThreeHost := by rfl

/-- CMDLINE with the setting. -/
def chunkedCmdline : Bytes := Cmdline.setCmdlineInt13Chunk (ascii "quiet") (ascii "16")

def afterSetting : World :=
  (twoOfThreeScan.world.setFile newest.mountpoint .cmdline (some chunkedCmdline)).setFile
    stale.mountpoint .cmdline (some chunkedCmdline)

theorem digest_chunkedCmdline_ne :
    Sha256.digest (Cmdline.stripMirrorWords (ascii "quiet"))
      ≠ Sha256.digest (Cmdline.stripMirrorWords chunkedCmdline) := by
  rw [Sha256.digest_short (by decide +kernel), Sha256.digest_short (by decide +kernel)]
  decide +kernel

theorem digestIn_newest_ne :
    (digestIn twoOfThreeScan.world newest).files ≠ (digestIn afterSetting newest).files := by
  intro heq
  have hsum : some (FileDigest.sum (Sha256.digest (Cmdline.stripMirrorWords (ascii "quiet"))))
      = some (.sum (Sha256.digest (Cmdline.stripMirrorWords chunkedCmdline))) :=
    congrArg (List.lookup (DigestName.file .cmdline)) heq
  exact digest_chunkedCmdline_ne (FileDigest.sum.inj (Option.some.inj hsum))

theorem twoOfThree_applyToAll : Runs twoOfThreeScan.world
    (applyToAll twoOfThree twoOfThreeHost false (.int13chunk (ascii "16")) : ToolM Unit _)
    (.ok ([newest, stale], false, true)) afterSetting := by
  have hloop : Runs twoOfThreeScan.world
      (settingLoop twoOfThree twoOfThreeHost false (.int13chunk (ascii "16")) twoOfThreeHost.members
        : ToolM Unit _) (.ok ([newest, stale], false)) afterSetting :=
    settingLoop_runs_cons
      (settingStep_runs rfl rfl (by decide +kernel) (by decide +kernel) (by decide +kernel))
      (settingLoop_runs_cons
        (settingStep_runs rfl rfl (by decide +kernel) (by decide +kernel) (by decide +kernel))
        settingLoop_runs_nil)
  have happly := applyToAll_runs rfl (by decide +kernel : _ = [newest, stale]) hloop
  rwa [anyDiffers_head digestIn_newest_ne] at happly

theorem twoOfThree_samePayload : Runs twoOfThreeScan.world
    (payloadDifference twoOfThree twoOfThreeHost : ToolM Unit Bool) (.ok false)
    twoOfThreeScan.world := by
  have hsame : digestIn twoOfThreeScan.world newest = digestIn twoOfThreeScan.world stale := rfl
  exact payloadDifference_runs rfl (by decide +kernel : _ = [newest, stale])
    (diff_self _ (by rw [hsame]) (by decide +kernel))

/-- The state the command starts in, when nothing fails. -/
def smoothStart : Run := .start (fun _ => .done) twoOfThreeScan.world

theorem twoOfThree_applied : ∃ s', Smooth afterSetting s'
    ∧ applied twoOfThree Unit twoOfThreeHost false (.int13chunk (ascii "16")) smoothStart
      = some (([newest, stale], false, true), s') := by
  obtain ⟨s₁, hdiff, hs₁⟩ := twoOfThree_samePayload.ends smoothStart ⟨fun _ => rfl, rfl⟩
  obtain ⟨s', happly, hs'⟩ := twoOfThree_applyToAll.ends s₁ hs₁
  refine ⟨s', hs', ?_⟩
  rw [applied, if_pos (by decide), hdiff]
  simp only [happly]

/-- The record of a reached member afterwards. -/
def raised (m : Esp) : Member := wanted twoOfThree twoOfThreeHost idOnes [] 3 m

def afterRecording : World :=
  (afterSetting.setFile newest.mountpoint .member (some (encodeMember (raised newest)))).setFile
    stale.mountpoint .member (some (encodeMember (raised stale)))

theorem twoOfThree_recorded : Runs afterSetting
    (recordSettingGeneration twoOfThree twoOfThreeHost [newest, stale] false true : ToolM Unit Unit)
    (.ok ()) afterRecording := by
  have hfinal : Runs afterSetting (finalizeMembers twoOfThree twoOfThreeHost [newest, stale] 3 []
      : ToolM Unit _) (.ok []) afterRecording :=
    runs_bind (runs_outcome (finalizeMember_runs (by decide +kernel) (by decide +kernel)))
      (runs_bind (runs_bind
        (runs_outcome (finalizeMember_runs (by decide +kernel) (by decide +kernel)))
        (runs_bind (runs_pure _) (runs_pure _))) (runs_pure _))
  have hpool : Runs afterSetting (poolOf twoOfThree false (some newest) : ToolM Unit Bytes)
      (.ok []) afterSetting := by
    have h : Runs afterSetting (poolOf twoOfThree false (some newest) : ToolM Unit Bytes)
        (.ok (Cmdline.parseText chunkedCmdline).pool) afterSetting := poolOf_runs (by decide +kernel)
    rwa [show (Cmdline.parseText chunkedCmdline).pool = [] by decide +kernel] at h
  rw [recordSettingGeneration, if_pos (by decide)]
  exact runs_bind hpool (runs_bind hfinal (runs_pure _))

end ZfsBoot.Proofs.Tool.SettingOrder
