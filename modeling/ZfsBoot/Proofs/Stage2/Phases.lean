import ZfsBoot.Proofs.Blk.Check
import ZfsBoot.Proofs.Stage2.Options
import ZfsBoot.Proofs.Stage2.Steady

/-!
# `ZfsBoot.Proofs.Stage2.Phases`: the checks of a boot, phase by phase

A boot's log holds the command line and the manifest it has read. `Sound` ties the loader's
globals to the log: the manifest in use is the logged one in the effective mode, and it is out of
use only if that mode is not `enforce`. Every phase of `stage2_main` keeps it. `Enforced p` carries
what the checks passed so far have established for a boot in mode `enforce`; each check adds its
own part. `StopOk` is the other half of the gate: a boot in another mode never stops for a
mismatch.
-/

set_option autoImplicit false

namespace ZfsBoot.Proofs.Stage2

open Lib Lib.Halting Bios Fat Blk

variable {c : Prop} {file : FatFile} {vol : FatVolume} {sum : PayloadSum} {e : Stop}
  {cmd text : List UInt8} {p : PayloadSum → Prop} {files : BootFiles} {δ : Type} (pf : Platform δ)
  {s ref : Boot δ}

/-! ### Assertions -/

/-- The boot has read this command line, and this manifest from this text. -/
structure Logged (s : Boot δ) (cmd text : List UInt8) (sum : PayloadSum) : Prop where
  cmdline : s.log.cmdline = some cmd
  checksum : s.log.checksum = some (text, sum)

/-- The manifest in the mode of the boot. -/
def inMode (cmd : List UInt8) (sum : PayloadSum) : PayloadSum :=
  { sum with mode := effectiveMode cmd sum.mode }

structure Sound (s : Boot δ) : Prop where
  free : s.log.stuck = false
  mode : ∀ cmd text sum, Logged s cmd text sum → (0 : UInt8) ∉ text → sum.mode = manifestMode text
  inUse : ∀ cmd text sum, Logged s cmd text sum →
    s.g.sum = some (inMode cmd sum) ∨ s.g.sum = none ∧ effectiveMode cmd sum.mode ≠ .enforce
  blk : ∀ t, s.g.blk = some t →
    GoodVolume t.vol ∧ t.hdr.kernel.nblocks < 2 ^ 32 ∧ t.hdr.initrd.nblocks < 2 ^ 32
  alt : ∀ a, s.g.alt = some a → GoodVolume a.vol

/-- What holds of the manifest of a boot in mode `enforce`. -/
def Enforced (p : PayloadSum → Prop) (s : Boot δ) : Prop :=
  ∀ cmd text sum, Logged s cmd text sum → effectiveMode cmd sum.mode = .enforce → p sum

/-- A boot that has stopped: not in a loop, and for a mismatch only in mode `enforce`. -/
structure StopOk (e : Stop) (s : Boot δ) : Prop where
  free : s.log.stuck = false
  mode : ∀ cmd text sum, Logged s cmd text sum → (0 : UInt8) ∉ text → sum.mode = manifestMode text
  cause : ∀ cmd text sum, Logged s cmd text sum → effectiveMode cmd sum.mode ≠ .enforce →
    e.integrity = false

theorem Logged.of_log {s s' : Boot δ} (h : s'.log = s.log)
    (hl : Logged s' cmd text sum) : Logged s cmd text sum :=
  ⟨h ▸ hl.cmdline, h ▸ hl.checksum⟩

theorem Steady.refl (h : ∀ a, s.g.alt = some a → GoodVolume a.vol) : Steady s s :=
  ⟨rfl, rfl, rfl, h⟩

theorem Sound.steady (h : Sound ref) (hs : Steady ref s) : Sound s where
  free := hs.log ▸ h.free
  mode cmd text sum hl := h.mode cmd text sum (hl.of_log hs.log)
  inUse cmd text sum hl := hs.sum ▸ h.inUse cmd text sum (hl.of_log hs.log)
  blk t ht := h.blk t (hs.blk ▸ ht)
  alt := hs.alt

theorem Enforced.of_log {s' : Boot δ} (h : Enforced p s) (hs : s'.log = s.log) : Enforced p s' :=
  fun cmd text sum hl => h cmd text sum (hl.of_log hs)

/-- A stop for another reason than a mismatch. -/
theorem Sound.stopOk (h : Sound s) (he : e.integrity = false) : StopOk e s :=
  ⟨h.free, h.mode, fun _ _ _ _ _ => he⟩

/-- A stop in mode `enforce`. -/
theorem Sound.stopOk_of_enforce (h : Sound s) (hsum : s.g.sum = some sum)
    (hmode : sum.mode = .enforce) (e : Stop) : StopOk e s := by
  refine ⟨h.free, h.mode, fun cmd text logged hl hne => ?_⟩
  rcases h.inUse cmd text logged hl with hin | ⟨hnone, -⟩
  · rw [hsum] at hin
    cases hin
    exact absurd hmode hne
  · rw [hsum] at hnone
    cases hnone

/-- In mode `enforce` the manifest is in use. -/
theorem Sound.sum_of_enforce (h : Sound s)
    (hl : Logged s cmd text sum) (hmode : effectiveMode cmd sum.mode = .enforce) :
    s.g.sum = some (inMode cmd sum) :=
  (h.inUse cmd text sum hl).resolve_right fun hnone => hnone.2 hmode

/-- Assertions that a steady change keeps. -/
structure Stable (P : Boot δ → Prop) : Prop where
  alt : ∀ s, P s → ∀ a, s.g.alt = some a → GoodVolume a.vol
  keep : ∀ ref s, P ref → Steady ref s → P s

/-- A sound boot, with what it has checked. -/
structure Checked (p : PayloadSum → Prop) (s : Boot δ) : Prop where
  sound : Sound s
  enforced : Enforced p s

theorem stable_checked (p : PayloadSum → Prop) : Stable (Checked p : Boot δ → Prop) where
  alt _ h := h.sound.alt
  keep _ _ h hs := ⟨h.sound.steady hs, h.enforced.of_log hs.log⟩

/-- Assertions about a sound boot that a steady change keeps, and that do not depend on the table
of BLKSUM. -/
structure SoundStable (P : Boot δ → Prop) : Prop extends Stable P where
  sound : ∀ s, P s → Sound s
  table : ∀ s t, P s → Sound { s with g := { s.g with blk := some t } } →
    P { s with g := { s.g with blk := some t } }

theorem soundStable_checked (p : PayloadSum → Prop) :
    SoundStable (Checked p : Boot δ → Prop) where
  toStable := stable_checked p
  sound _ h := h.sound
  table _ _ h hs := ⟨hs, h.enforced.of_log rfl⟩

/-- A requirement that no mismatch can break. -/
theorem SoundStable.require {P : Boot δ → Prop} (hP : SoundStable P)
    [Decidable c] (he : e.integrity = false) :
    Triple P (require e c) (fun _ s => P s ∧ c) StopOk :=
  triple_require fun s h _ => (hP.sound s h).stopOk he

theorem Checked.require [Decidable c] (he : e.integrity = false) :
    Triple (Checked p : Boot δ → Prop) (require e c) (fun _ => Checked p) StopOk :=
  ((soundStable_checked p).require he).post fun _ _ h => h.1

section

variable {P : Boot δ → Prop} {α : Type}

/-- A step that keeps a boot steady keeps the assertion. -/
theorem Stable.after (hP : Stable P) (hs : P s) {s' : Boot δ}
    (h : Steady s s → Steady s s') : P s' :=
  hP.keep s s' hs (h (Steady.refl (hP.alt s hs)))

theorem Stable.step (hP : Stable P) {f : Boot δ → α × Boot δ} {E : Stop → Boot δ → Prop}
    (hf : ∀ ref s, P ref → Steady ref s → Steady ref (f s).2) :
    Triple P (step f) (fun _ => P) E :=
  triple_step fun s hs => hP.after hs (hf s s hs)

theorem Stable.attempt (hP : Stable P) {f : Boot δ → Option α × Boot δ}
    {E : Stop → Boot δ → Prop} (hf : ∀ ref s, P ref → Steady ref s → Steady ref (f s).2)
    (hE : ∀ s, P s → E e s) : Triple P (attempt e f) (fun _ => P) E :=
  triple_attempt (fun s hs _ _ => hP.after hs (hf s s hs))
    fun s hs _ => hE _ (hP.after hs (hf s s hs))

end

/-! ### Before the options -/

/-- Nothing has been read yet that a mismatch could be with. -/
structure Early (s : Boot δ) : Prop where
  free : s.log.stuck = false
  checksum : s.log.checksum = none
  sum : s.g.sum = none
  blk : s.g.blk = none
  alt : ∀ a, s.g.alt = some a → GoodVolume a.vol

theorem Early.not_logged (h : Early s) :
    ¬ Logged s cmd text sum := by
  intro hl
  have := hl.checksum
  rw [h.checksum] at this
  cases this

theorem stable_early : Stable (Early : Boot δ → Prop) where
  alt _ h := h.alt
  keep _ _ h hs := ⟨hs.log ▸ h.free, hs.log ▸ h.checksum, hs.sum ▸ h.sum, hs.blk ▸ h.blk, hs.alt⟩

theorem Early.stopOk (h : Early s) (e : Stop) : StopOk e s :=
  ⟨h.free, fun _ _ _ hl => absurd hl h.not_logged, fun _ _ _ hl => absurd hl h.not_logged⟩

theorem gptAttempt_steady (h : Steady ref s) : Steady ref (gptAttempt pf s).2 := by
  rw [gptAttempt]
  split
  all_goals
    rename_i heq
    have := congrArg Prod.snd heq
    dsimp only at this
    rw [← this]
    exact h.machine _

theorem findEsp_early : Triple Early (findEsp pf) (fun _ => Early) StopOk := by
  refine triple_bind (fun _ => Early)
    (stable_early.step fun ref s _ hs => hs.retry (fun _ h => h) (fun _ h => gptAttempt_steady pf h) _)
    fun header => ?_
  have hfind {α : Type} {f : δ → Option α × δ} {e : Stop} :
      Triple Early (attempt e (Loop.retry id (onDisk f) gptRetryAttempts)) (fun _ => Early) StopOk :=
    stable_early.attempt (fun ref s _ hs => hs.retry (fun _ h => h) (fun _ h => h.machine _) _)
      fun s hs => hs.stopOk _
  split
  · exact hfind
  · exact hfind

/-- The files a boot goes on with. -/
structure FilesOk (files : BootFiles) : Prop where
  vol : GoodVolume files.vol
  kernel : files.kernel.size.toNat ≤ maxKernelSize
  initrd : files.initrd.size.toNat ≤ maxInitrdSize
  cmdline : files.cmdline.size.toNat ≤ cmdlineBufSize - 1

theorem fatMountRetry_good {lba sectors : Nat}
    (h : (fatMountRetry pf lba sectors s).1 = some vol) : GoodVolume vol :=
  (Loop.retry_spec (fun _ => True) (fun vol _ => GoodVolume vol) (fun _ _ => trivial)
    (fun _ _ => ⟨fun _ h => goodVolume_mount pf h, fun _ => trivial⟩) gptRetryAttempts s trivial).1
    vol h

theorem findFiles_early (drive : Nat) :
    Triple Early (findFiles pf drive) (fun files s => Early s ∧ FilesOk files) StopOk := by
  refine triple_bind (fun _ => Early)
    (triple_modify fun s h => ⟨h.free, h.checksum, h.sum, h.blk, h.alt⟩) fun _ => ?_
  refine triple_bind (fun _ => Early) (stable_early.step fun ref s _ hs => hs.machine _)
    fun selected => ?_
  refine triple_bind (fun _ => Early)
    ((triple_require fun s h _ => h.stopOk _).post fun _ _ h => h.1) fun _ => ?_
  refine triple_bind _ (findEsp_early pf) fun esp => ?_
  refine triple_bind (fun vol s => Early s ∧ GoodVolume vol) (triple_attempt ?_ ?_) fun vol => ?_
  · intro s h vol hvol
    refine ⟨stable_early.after h fun hs => ?_, fatMountRetry_good pf hvol⟩
    exact hs.retry (fun _ h => h) (fun _ h => h.machine _) _
  · intro s h _
    refine Early.stopOk (stable_early.after h fun hs => ?_) _
    exact hs.retry (fun _ h => h) (fun _ h => h.machine _) _
  have hopen (path : String) (e : Stop) : Triple (fun s => Early s ∧ GoodVolume vol)
      (attempt e (fatOpenRetry pf vol path)) (fun _ s => Early s ∧ GoodVolume vol) StopOk := by
    have hstep {s : Boot δ} (h : Early s ∧ GoodVolume vol) : Early (fatOpenRetry pf vol path s).2 :=
      stable_early.after h.1 fun hs => hs.retry (fun _ h => h) (fun _ h' => h'.openFile pf h.2 _) _
    exact triple_attempt (fun s h _ _ => ⟨hstep h, h.2⟩) fun s h _ => (hstep h).stopOk _
  refine triple_bind _ (hopen _ _) fun kernel => ?_
  refine triple_bind _ (hopen _ _) fun initrd => ?_
  refine triple_bind _ (hopen _ _) fun cmdline => ?_
  refine triple_bind _ (triple_require fun s h _ => h.1.stopOk _) fun _ => ?_
  refine triple_bind _ (triple_require fun s h _ => h.1.1.stopOk _) fun _ => ?_
  refine triple_bind _ (triple_require fun s h _ => h.1.1.1.stopOk _) fun _ => ?_
  exact triple_pure fun s ⟨⟨⟨⟨h, hvol⟩, hk⟩, hi⟩, hc⟩ => ⟨h, hvol, hk.2, hi.2, hc.2⟩

/-! ### The command line and the manifest -/

/-- The command line of the log is the one in RAM. -/
structure Typed (s : Boot δ) : Prop where
  early : Early s
  cmdline : s.log.cmdline = some (cmdlineString pf s)

theorem readCmdline_typed (hv : GoodVolume vol) (file : FatFile) :
    Triple Early (readCmdline pf vol file) (fun _ => Typed pf) StopOk := by
  refine triple_bind (fun _ => Early) (stable_early.step fun ref s _ hs => hs.readRange pf hv _ _ _ _)
    fun ok => ?_
  refine triple_bind (fun _ => Early)
    ((triple_require fun s h _ => h.stopOk _).post fun _ _ h => h.1) fun _ => ?_
  exact triple_modify fun s h => ⟨⟨h.free, h.checksum, h.sum, h.blk, h.alt⟩, rfl⟩

theorem readChunk_typed (h : Typed pf s) : Typed pf (readChunk pf s) := by
  rw [readChunk]
  split
  · exact h
  · split
    · exact h
    · exact ⟨⟨h.early.free, h.early.checksum, h.early.sum, h.early.blk, h.early.alt⟩, h.cmdline⟩

/-- A read into the header buffer leaves the command line alone. -/
theorem cmdlineString_readRange (vol : FatVolume) (file : FatFile) (offset : Nat) {length : Nat}
    (hlen : length ≤ setupHeaderEnd) :
    cmdlineString pf (readRange pf vol file offset length pf.headerBuf s).2 = cmdlineString pf s := by
  rw [readRange]
  split
  · rename_i ok u run hr
    have hframe := readRange_sameOutside hr
    have hhdr := pf.headerBuf_le
    have hcmd := pf.cmdlineBuf_le
    have hapart := pf.header_cmdline
    have hload : kernelLoadAddr = 1048576 := rfl
    rw [UInt32.toNat_ofNat', UInt32.toNat_ofNat', Nat.mod_eq_of_lt (by omega),
      Nat.mod_eq_of_lt (by omega)] at hframe
    rw [cmdlineString, cmdlineString]
    dsimp only
    rw [hframe.ramBytes_eq]
    intro i hi j hj
    rw [u32_of_lt (by omega), u32_of_lt (by omega)]
    omega
  · rfl

theorem cmdlineString_openFile (vol : FatVolume) (path : String) :
    cmdlineString pf (openFile pf vol path s).2 = cmdlineString pf s := by
  rw [openFile]
  split
  · rename_i heq
    rw [cmdlineString, cmdlineString]
    dsimp only
    rw [ram_open _ _ heq]
  · rfl

/-- One read and parse: the boot is as before, and a manifest it gives is the text's. -/
theorem checksumAttempt_spec (hv : GoodVolume vol)
    (hsize : file.size.toNat ≤ payloadSumMaxBytes) (h : Typed pf s) :
    Typed pf (checksumAttempt pf vol file s).2 ∧
      ∀ text sum, (checksumAttempt pf vol file s).1 = some (some (text, sum)) →
        payloadSumParse pf.ro text = (.ok, some sum) := by
  have hread : Typed pf (readRange pf vol file 0 file.size.toNat pf.headerBuf s).2 := by
    have hsteady := (Steady.refl h.early.alt).readRange pf hv file 0 file.size.toNat pf.headerBuf
    refine ⟨stable_early.keep s _ h.early hsteady, ?_⟩
    rw [hsteady.log, h.cmdline, cmdlineString_readRange pf vol file 0
      (Nat.le_trans hsize (by decide))]
  rw [checksumAttempt]
  split
  · rename_i heq
    rw [heq] at hread
    exact ⟨hread, fun _ _ h' => by cases h'⟩
  · rename_i s' heq
    rw [heq] at hread
    dsimp only
    split
    · rename_i sum hparse
      refine ⟨hread, fun text sum' h' => ?_⟩
      cases h'
      exact hparse
    · exact ⟨hread, fun _ _ h' => by cases h'⟩
    · exact ⟨hread, fun _ _ h' => by cases h'⟩

/-- After `payload_sum_load`: either no manifest, or the logged one, as its text has it. -/
structure Summed (s : Boot δ) : Prop where
  free : s.log.stuck = false
  cmdline : s.log.cmdline = some (cmdlineString pf s)
  blk : s.g.blk = none
  alt : ∀ a, s.g.alt = some a → GoodVolume a.vol
  sum : (s.log.checksum = none ∧ s.g.sum = none) ∨
    ∃ text sum, s.log.checksum = some (text, sum) ∧ s.g.sum = some sum ∧
      payloadSumParse pf.ro text = (.ok, some sum)

theorem Typed.summed (h : Typed pf s) : Summed pf s :=
  ⟨h.early.free, h.cmdline, h.early.blk, h.early.alt, .inl ⟨h.early.checksum, h.early.sum⟩⟩

theorem payloadSumLoad_summed (hv : GoodVolume vol) (h : Typed pf s) :
    Summed pf (payloadSumLoad pf vol s) := by
  have hopen : Typed pf (openFile pf vol "/EFI/ALPINE/CHECKSUM" s).2 := by
    have hsteady := (Steady.refl h.early.alt).openFile pf hv "/EFI/ALPINE/CHECKSUM"
    refine ⟨stable_early.keep s _ h.early hsteady, ?_⟩
    rw [hsteady.log, h.cmdline, cmdlineString_openFile]
  rw [payloadSumLoad]
  split
  · rename_i heq
    rw [heq] at hopen
    exact hopen.summed
  · rename_i file s' heq
    rw [heq] at hopen
    split
    · exact hopen.summed
    · rename_i hsize
      rw [not_or, not_lt] at hsize
      obtain ⟨hsome, hnone⟩ := Loop.retry_spec (Typed pf)
        (fun (a : Option (List UInt8 × PayloadSum)) s => Typed pf s ∧
          ∀ text sum, a = some (text, sum) → payloadSumParse pf.ro text = (.ok, some sum))
        (show ∀ s, Typed pf s → Typed pf (id s) from fun _ h => h)
        (fun s h => ⟨fun a ha => ⟨(checksumAttempt_spec pf hv hsize.2 h).1, fun text sum hts =>
            (checksumAttempt_spec pf hv hsize.2 h).2 text sum (hts ▸ ha)⟩,
          fun _ => (checksumAttempt_spec pf hv hsize.2 h).1⟩)
        gptRetryAttempts s' hopen
      split
      · rename_i text sum s'' hr
        rw [hr] at hsome
        obtain ⟨ht, hparse⟩ := hsome _ rfl
        exact ⟨ht.early.free, ht.cmdline, ht.early.blk, ht.early.alt,
          .inr ⟨text, sum, rfl, rfl, hparse text sum rfl⟩⟩
      · rename_i a s'' _ hr
        rw [hr] at hsome hnone
        cases a with
        | none => exact (hnone rfl).summed
        | some a => exact (hsome a rfl).1.summed

theorem nul_not_mem_cmdlineString (s : Boot δ) : (0 : UInt8) ∉ cmdlineString pf s := by
  intro h
  have := List.mem_takeWhile_imp h
  simp at this

/-- The mode is settled: from here on the boot is sound. -/
theorem readIntegrity_sound (h : Summed pf s) : Sound (readIntegrity pf s) := by
  have hmode : ∀ cmd text sum, Logged s cmd text sum → (0 : UInt8) ∉ text →
      sum.mode = manifestMode text := by
    intro cmd text sum hl htext
    rcases h.sum with ⟨hnone, -⟩ | ⟨text', sum', hchecksum, -, hparse⟩
    · have := hl.checksum
      rw [hnone] at this
      cases this
    · have := hl.checksum
      rw [hchecksum] at this
      cases this
      exact mode_of_parse htext hparse
  rw [readIntegrity]
  rcases h.sum with ⟨hnone, hsum⟩ | ⟨text, sum, hchecksum, hsum, hparse⟩
  · rw [hsum]
    refine ⟨h.free, hmode, fun cmd text sum hl => ?_, fun t ht => ?_, h.alt⟩
    · have := hl.checksum
      rw [hnone] at this
      cases this
    · rw [h.blk] at ht
      cases ht
  · rw [hsum]
    dsimp only
    rw [mode_of_cmdline (nul_not_mem_cmdlineString pf s)]
    generalize hm : effectiveMode (cmdlineString pf s) sum.mode = mode
    refine ⟨h.free, fun cmd text sum hl => hmode cmd text sum (hl.of_log (by rfl)),
      fun cmd text' sum' hl => ?_, fun t ht => ?_, h.alt⟩
    · have hcmd : cmdlineString pf s = cmd := Option.some.inj (h.cmdline.symm.trans hl.cmdline)
      have htext : (text, sum) = (text', sum') :=
        Option.some.inj (hchecksum.symm.trans hl.checksum)
      subst hcmd
      cases htext
      rw [inMode, hm]
      dsimp only
      split
      · rename_i hoff
        exact .inr ⟨rfl, by rw [hoff]; decide⟩
      · exact .inl rfl
    · rw [show s.g.blk = none from h.blk] at ht
      cases ht

/-! ### The layout and the table -/

theorem layout_of_ok {e : PayloadSumEntry} {size offset : Nat}
    (h : payloadSumCheckLayout e size offset = .ok) : e.size = size ∧ e.offset = offset := by
  rw [payloadSumCheckLayout] at h
  split_ifs at h with hsize hoffset
  exact ⟨not_not.mp hsize, not_not.mp hoffset⟩

/-- `payload_sum_check_file` adds the file's size and offset to what is checked. -/
theorem payloadSumCheckFile_checked {entry : PayloadSum → PayloadSumEntry}
    {offset : PayloadSum → Nat} (size : Nat)
    (hentry : ∀ cmd sum, entry (inMode cmd sum) = entry sum)
    (hoffset : ∀ cmd sum, offset (inMode cmd sum) = offset sum) :
    Triple (Checked p : Boot δ → Prop) (payloadSumCheckFile entry size offset)
      (fun _ => Checked fun sum =>
        p sum ∧ (entry sum).size = size ∧ (entry sum).offset = offset sum) StopOk := by
  refine triple_look fun now h => ?_
  split
  · rename_i hsum
    refine triple_pure ?_
    rintro s rfl
    refine ⟨h.sound, fun cmd text sum hl hmode => ?_⟩
    have := h.sound.sum_of_enforce hl hmode
    rw [hsum] at this
    cases this
  · rename_i inUse hsum
    refine triple_ite (fun hok => triple_pure ?_) fun _ => triple_ite (fun hmode => ?_) fun hmode => ?_
    · rintro s rfl
      refine ⟨h.sound, fun cmd text sum hl hmode => ⟨h.enforced cmd text sum hl hmode, ?_⟩⟩
      have := h.sound.sum_of_enforce hl hmode
      rw [hsum] at this
      cases this
      rw [hentry, hoffset] at hok
      exact layout_of_ok hok
    · refine triple_stop ?_
      rintro s rfl
      exact h.sound.stopOk_of_enforce hsum hmode _
    · refine triple_modify ?_
      rintro s rfl
      -- the manifest goes out of use, and the mode was not enforce
      have hne {cmd text : List UInt8} {sum : PayloadSum} (hl : Logged s cmd text sum) :
          effectiveMode cmd sum.mode ≠ .enforce := by
        intro henforce
        have := h.sound.sum_of_enforce hl henforce
        rw [hsum] at this
        cases this
        exact hmode henforce
      exact ⟨⟨h.sound.free, fun cmd text sum hl => h.sound.mode cmd text sum (hl.of_log (by rfl)),
          fun cmd text sum hl => .inr ⟨rfl, hne (hl.of_log (by rfl))⟩, h.sound.blk, h.sound.alt⟩,
        fun cmd text sum hl henforce => absurd henforce (hne (hl.of_log (by rfl)))⟩

theorem nblocks_lt {sec : List UInt8} {hdr : BlksumHdr} (h : blksumParseHeader sec = .ok hdr) :
    hdr.kernel.nblocks < 2 ^ 32 ∧ hdr.initrd.nblocks < 2 ^ 32 := by
  rw [blksumParseHeader] at h
  split_ifs at h
  cases h
  exact ⟨le32_lt _ _, le32_lt _ _⟩

/-- One read of the header of BLKSUM. -/
theorem blksumHeaderAttempt_spec (hv : GoodVolume vol) (file : FatFile) (h : Steady ref s) :
    Steady ref (blksumHeaderAttempt pf vol file s).2 ∧
      ∀ hdr, (blksumHeaderAttempt pf vol file s).1 = some (some hdr) →
        hdr.kernel.nblocks < 2 ^ 32 ∧ hdr.initrd.nblocks < 2 ^ 32 := by
  have hsector := (h.sector noSector).blksumSector pf hv file 0
  rw [blksumHeaderAttempt]
  split
  · rename_i heq
    rw [heq] at hsector
    exact ⟨hsector, fun _ h' => by cases h'⟩
  · rename_i s' heq
    rw [heq] at hsector
    split
    · rename_i hdr hparse
      refine ⟨hsector, fun hdr' h' => ?_⟩
      cases h'
      exact nblocks_lt hparse
    · exact ⟨hsector, fun _ h' => by cases h'⟩
    · exact ⟨hsector, fun _ h' => by cases h'⟩

theorem Sound.withTable (h : Sound s) {t : BlkTable} (hv : GoodVolume t.vol)
    (hn : t.hdr.kernel.nblocks < 2 ^ 32 ∧ t.hdr.initrd.nblocks < 2 ^ 32) :
    Sound { s with g := { s.g with blk := some t } } := by
  refine ⟨h.free, fun cmd text sum hl => h.mode cmd text sum (hl.of_log (by rfl)),
    fun cmd text sum hl => h.inUse cmd text sum (hl.of_log (by rfl)), fun t' ht => ?_, h.alt⟩
  cases ht
  exact ⟨hv, hn⟩

theorem SoundStable.blksumLoad {P : Boot δ → Prop} (hP : SoundStable P)
    (hv : GoodVolume vol) (h : P s) : P (blksumLoad pf vol s) := by
  have hopen := (Steady.refl (hP.alt s h)).openFile pf hv "/EFI/ALPINE/BLKSUM"
  rw [Bios.blksumLoad]
  split
  · exact h
  · split
    · rename_i heq
      rw [heq] at hopen
      exact hP.keep s _ h hopen
    · rename_i file s' heq
      rw [heq] at hopen
      obtain ⟨hsome, hnone⟩ := Loop.retry_spec (Steady s)
        (fun (a : Option BlksumHdr) s' => Steady s s' ∧
          ∀ hdr, a = some hdr → hdr.kernel.nblocks < 2 ^ 32 ∧ hdr.initrd.nblocks < 2 ^ 32)
        (show ∀ s', Steady s s' → Steady s (id s') from fun _ h => h)
        (fun s' h' => ⟨fun a ha => ⟨(blksumHeaderAttempt_spec pf hv file h').1, fun hdr hhdr =>
            (blksumHeaderAttempt_spec pf hv file h').2 hdr (hhdr ▸ ha)⟩,
          fun _ => (blksumHeaderAttempt_spec pf hv file h').1⟩)
        gptRetryAttempts s' hopen
      dsimp only
      rcases hr : Loop.retry id (blksumHeaderAttempt pf vol file) gptRetryAttempts s' with
        ⟨_ | hdr, s''⟩
      all_goals rw [hr] at hsome hnone
      · exact hP.keep s _ h ((hnone rfl).sector _)
      · obtain ⟨hsteady, hn⟩ := hsome _ rfl
        have hs := hP.keep s _ h (hsteady.sector noSector)
        cases hdr with
        | none => exact hs
        | some hdr =>
          dsimp only
          split
          · exact hP.table _ _ hs ((hP.sound _ hs).withTable hv (hn hdr rfl))
          · exact hs

/-- The sizes a boot in mode `enforce` goes on with. -/
def SizesAgree (files : BootFiles) (sum : PayloadSum) : Prop :=
  sum.kernel.size = files.kernel.size.toNat ∧ sum.initrd.size = files.initrd.size.toNat

theorem readOptions_checked (hf : FilesOk files) :
    Triple (Typed pf)
      (readOptions pf files.vol files.kernel.size.toNat files.initrd.size.toNat)
      (fun _ => Checked (SizesAgree files)) StopOk := by
  refine triple_bind (fun _ => Typed pf) (triple_modify fun s h => readChunk_typed pf h) fun _ => ?_
  refine triple_bind (fun _ => Summed pf)
    (triple_modify fun s h => payloadSumLoad_summed pf hf.vol h) fun _ => ?_
  refine triple_bind (fun _ => Checked fun _ => True)
    (triple_modify fun s h => ⟨readIntegrity_sound pf h, fun _ _ _ _ _ => trivial⟩) fun _ => ?_
  refine triple_bind _ (payloadSumCheckFile_checked _ (fun _ _ => rfl) fun _ _ => rfl) fun _ => ?_
  refine triple_bind _ (payloadSumCheckFile_checked _ (fun _ _ => rfl) fun _ _ => rfl) fun _ => ?_
  refine triple_modify fun s h => ?_
  obtain ⟨hsound, henforced⟩ := (soundStable_checked _).blksumLoad pf hf.vol h
  refine ⟨hsound, fun cmd text sum hl hmode => ?_⟩
  obtain ⟨⟨-, hkernel, -⟩, hinitrd, -⟩ := henforced cmd text sum hl hmode
  exact ⟨hkernel, hinitrd⟩

/-! ### The kernel's header -/

theorem headerAttempt_steady (hv : GoodVolume vol) (file : FatFile)
    (h : Steady ref s) : Steady ref (headerAttempt pf vol file s).2 := by
  have hread := h.readRange pf hv file 0 setupHeaderEnd pf.headerBuf
  rw [headerAttempt]
  split
  · rename_i heq
    rwa [heq] at hread
  · rename_i heq
    rwa [heq] at hread

theorem SoundStable.checkLayout {P : Boot δ → Prop} (hP : SoundStable P) (hdr : SetupHeader)
    (protectedModeSize initrdSize : Nat) :
    Triple P (checkLayout pf hdr protectedModeSize initrdSize) (fun _ => P) StopOk := by
  have hrequire {e : Stop} {c : Prop} [Decidable c] (he : e.integrity = false) :
      Triple P (Halting.require e c) (fun _ => P) StopOk := (hP.require he).post fun _ _ h => h.1
  refine triple_bind _ (hrequire rfl) fun _ => ?_
  refine triple_bind _ (hrequire rfl) fun _ => ?_
  dsimp only
  split
  · refine triple_bind _ (hrequire rfl) fun _ => ?_
    exact hrequire rfl
  · exact hrequire rfl

/-- The sizes and the kernel's load offset agree. -/
def LayoutAgrees (files : BootFiles) (hdr : SetupHeader) (sum : PayloadSum) : Prop :=
  SizesAgree files sum ∧ sum.kernel.offset = hdr.realModeBytes

theorem readKernelHeader_checked (hf : FilesOk files) :
    Triple (Checked (SizesAgree files)) (readKernelHeader pf files)
      (fun hdr => Checked (LayoutAgrees files hdr)) StopOk := by
  refine triple_bind _ (Checked.require rfl) fun _ => ?_
  refine triple_bind (fun _ => Checked (SizesAgree files))
    ((stable_checked _).attempt (fun ref s _ hs =>
      hs.retry (fun _ h => h) (fun _ h => headerAttempt_steady pf hf.vol _ h) _)
      fun s h => h.sound.stopOk rfl) fun hdr => ?_
  refine triple_bind _ (Checked.require rfl) fun _ => ?_
  refine triple_bind (fun _ => Checked (LayoutAgrees files hdr))
    ((payloadSumCheckFile_checked _ (fun _ _ => rfl) fun _ _ => rfl).post fun _ s h => ?_)
    fun _ => ?_
  · refine ⟨h.sound, fun cmd text sum hl hmode => ?_⟩
    obtain ⟨hsizes, -, hoffset⟩ := h.enforced cmd text sum hl hmode
    exact ⟨hsizes, hoffset⟩
  refine triple_bind _ ((soundStable_checked _).checkLayout pf hdr _ _) fun _ => ?_
  refine triple_bind _ ((stable_checked _).step fun ref s _ hs => hs.machine _) fun a20 => ?_
  refine triple_bind _ (Checked.require rfl) fun _ => ?_
  exact triple_pure fun s h => h

/-! ### The loads -/

theorem loadInfo_eq {initrd : Bool} {fileOff : Nat}
    {g : Globals} {ld : LoadInfo} (h : loadInfo initrd vol file fileOff g = some ld) :
    g.sum = some ld.sum ∧ g.blk = some ld.table ∧ ld.vol = vol := by
  rw [loadInfo] at h
  split at h
  · rename_i hsum hblk
    cases h
    exact ⟨hsum, hblk, rfl⟩
  · cases h

theorem SoundStable.loadFile {P : Boot δ → Prop} (hP : SoundStable P) (initrd : Bool)
    (hv : GoodVolume vol) (file : FatFile) (fileOff len dst : Nat) :
    Triple P (loadFile pf initrd vol file fileOff len dst) (fun _ => P) StopOk := by
  refine triple_look fun now h => ?_
  split
  · refine triple_step ?_
    rintro s rfl
    exact hP.after h fun hs =>
      loadRun_steady pf (fun _ h => by cases h) hv file fileOff len dst (by decide) hs
  · rename_i ld hld
    -- the manifest of the load stays in use, so it is still there when the verdict falls
    refine triple_bind (fun _ s => P s ∧ s.g.sum = some ld.sum) (triple_step ?_) fun r => ?_
    · rintro s rfl
      obtain ⟨hsum, htable, hvol⟩ := loadInfo_eq hld
      obtain ⟨htv, hkernel, hinitrd⟩ := (hP.sound s h).blk _ htable
      have hn : ld.blkFile.nblocks < 2 ^ 32 := by
        rw [LoadInfo.blkFile]
        split
        · exact hinitrd
        · exact hkernel
      have hsteady := loadRun_steady pf
        (fun _ h' => Option.some.inj h' ▸ hooksKeep_steady pf ⟨hvol ▸ hv, htv⟩)
        hv file fileOff len dst hn (Steady.refl (hP.alt s h))
      exact ⟨hP.keep s _ h hsteady, hsteady.sum.trans hsum⟩
    · refine triple_ite (fun _ => ?_) fun _ => triple_pure fun s h => h.1
      refine triple_bind _ (triple_require fun s h hc => ?_) fun _ => ?_
      · rw [not_or, not_not] at hc
        exact (hP.sound s h.1).stopOk_of_enforce h.2 hc.2 _
      · exact triple_pure fun s h => h.1.1

theorem SoundStable.loadPayload {P : Boot δ → Prop} (hP : SoundStable P)
    (hf : FilesOk files) (hdr : SetupHeader) :
    Triple P (loadPayload pf files hdr) (fun _ => P) StopOk := by
  refine triple_bind _ (hP.loadFile pf false hf.vol _ _ _ _) fun ok => ?_
  refine triple_bind _ (hP.require rfl) fun _ => triple_of_and fun _ => ?_
  refine triple_bind _ (hP.require rfl) fun _ => triple_of_and fun _ => ?_
  refine triple_bind _ (hP.loadFile pf true hf.vol _ _ _ _) fun ok => ?_
  exact (hP.require rfl).post fun _ _ h => h.1

end ZfsBoot.Proofs.Stage2
