import ZfsBoot.Bios.Load
import ZfsBoot.Proofs.Blk.Frame
import ZfsBoot.Proofs.Fat.Frame

/-!
# `ZfsBoot.Proofs.Stage2.Steady`: what loading leaves alone

`Steady ref s`: the boot `s` has the log, the manifest and the table of `ref`, and its second
source, if it has one, is a volume that was mounted. Everything between two decisions of the
loader keeps it, whatever the disk does: reads and re-reads, the table, the probe for a second
source, a whole load with its callbacks. In particular the log's `stuck` stays as it was: every
loop of the model ends.
-/

set_option autoImplicit false

namespace ZfsBoot.Proofs.Stage2

open Lib Lib.Halting Bios Fat Blk

variable {δ : Type} (pf : Platform δ) {ref s : Boot δ} {vol : FatVolume}
  {hooks : Option (BlkvHooks (Boot δ))}

structure Steady (ref s : Boot δ) : Prop where
  log : s.log = ref.log
  sum : s.g.sum = ref.g.sum
  blk : s.g.blk = ref.g.blk
  alt : ∀ a, s.g.alt = some a → GoodVolume a.vol

/-- A change of the machine alone. -/
theorem Steady.machine (h : Steady ref s) (m : Machine δ) : Steady ref { s with m := m } :=
  ⟨h.log, h.sum, h.blk, h.alt⟩

theorem Steady.sector (h : Steady ref s) (idx : Nat) :
    Steady ref { s with g := { s.g with blkSecIdx := idx } } :=
  ⟨h.log, h.sum, h.blk, h.alt⟩

/-! ### The reader and the driver -/

theorem Steady.readRange (h : Steady ref s) (hv : GoodVolume vol) (file : FatFile)
    (offset length dst : Nat) : Steady ref (readRange pf vol file offset length dst s).2 := by
  obtain ⟨r, hr⟩ := hv.readRange_ends pf.drive.toBackend (κ := Unit) pf.batch_pos
    pf.batch_lt file (UInt32.ofNat offset) (UInt32.ofNat length) (UInt32.ofNat dst) none () s.m
  rw [Bios.readRange, hr]
  exact h.machine _

theorem Steady.openFile (h : Steady ref s) (hv : GoodVolume vol) (path : String) :
    Steady ref (openFile pf vol path s).2 := by
  obtain ⟨r, hr⟩ := hv.open_ends pf.drive.toBackend (ascii path) s.m
  rw [Bios.openFile, hr]
  exact h.machine _

theorem goodVolume_mount {lba sectors : Nat} (h : (mount pf lba sectors s).1 = some vol) :
    GoodVolume vol :=
  goodVolume_of_mount h

theorem Steady.startOver (h : Steady ref s) : Steady ref (startOver pf s) :=
  (h.machine _).machine _

/-! ### The table -/

theorem Steady.blksumAttempt (h : Steady ref s) (hv : GoodVolume vol) (file : FatFile)
    (idx : Nat) : Steady ref (blksumAttempt pf vol file idx s).2 := by
  have hread := h.readRange pf hv file (idx * blksumSectorSize) blksumSectorSize pf.blkSec
  rw [Bios.blksumAttempt]
  split
  · rename_i heq
    rwa [heq] at hread
  · rename_i heq
    rwa [heq] at hread

/-- Attempts that keep a boot steady, as a whole. -/
theorem Steady.retry {α : Type} {again : Boot δ → Boot δ} {attempt : Boot δ → Option α × Boot δ}
    (h : Steady ref s) (hagain : ∀ s, Steady ref s → Steady ref (again s))
    (hattempt : ∀ s, Steady ref s → Steady ref (attempt s).2) (n : Nat) :
    Steady ref (Loop.retry again attempt n s).2 :=
  Loop.retry_keeps hagain hattempt n h

theorem Steady.blksumSector (h : Steady ref s) (hv : GoodVolume vol) (file : FatFile) (idx : Nat) :
    Steady ref (blksumSector pf vol file idx s).2 := by
  have hretry : Steady ref (Loop.retry (Bios.startOver pf) (Bios.blksumAttempt pf vol file idx)
      (blkvTries + 1) s).2 :=
    h.retry (fun s hs => hs.startOver pf) (fun s hs => hs.blksumAttempt pf hv file idx) _
  rw [Bios.blksumSector]
  split
  · exact h
  · split
    · rename_i heq
      rw [heq] at hretry
      exact hretry.sector _
    · rename_i heq
      rw [heq] at hretry
      exact hretry.sector _

/-! ### The second source -/

theorem Steady.altLeave (h : Steady ref s) (chunk cap : Nat) : Steady ref (altLeave pf chunk cap s) := by
  rw [Bios.altLeave]
  split
  · exact (((h.machine _).machine _).machine _).machine _
  · exact (h.machine _).machine _

/-- A routine on the machine that leaves RAM from the kernel's load address on as it was: what it
writes is in the loader's own segment. -/
structure OnlyLow (s s' : Boot δ) : Prop where
  globals : s'.g = s.g
  log : s'.log = s.log
  high : ∀ a, kernelLoadAddr ≤ a → s'.m.ram a = s.m.ram a

theorem OnlyLow.refl (s : Boot δ) : OnlyLow s s := ⟨rfl, rfl, fun _ _ => rfl⟩

/-- A change of the machine that does not reach RAM, after `h`. -/
theorem OnlyLow.machine {m : Machine δ} (h : OnlyLow ref s) (hram : m.ram = s.m.ram) :
    OnlyLow ref { s with m := m } :=
  ⟨h.globals, h.log, fun a ha => (congrFun hram a).trans (h.high a ha)⟩

theorem Steady.onlyLow {s' : Boot δ} (h : Steady ref s) (hlow : OnlyLow s s') : Steady ref s' :=
  ⟨hlow.log.trans h.log, by rw [hlow.globals, h.sum], by rw [hlow.globals, h.blk],
    by rw [hlow.globals]; exact h.alt⟩

theorem OnlyLow.openFile (h : OnlyLow ref s) (hv : GoodVolume vol) (path : String) :
    OnlyLow ref (openFile pf vol path s).2 := by
  obtain ⟨r, hr⟩ := hv.open_ends pf.drive.toBackend (ascii path) s.m
  rw [Bios.openFile, hr]
  exact h.machine (ram_open _ _ hr)

theorem OnlyLow.readRange (h : OnlyLow ref s) (hv : GoodVolume vol) (file : FatFile) (offset : Nat)
    {length dst : Nat} (hle : dst + length ≤ kernelLoadAddr) :
    OnlyLow ref (readRange pf vol file offset length dst s).2 := by
  obtain ⟨r, hr⟩ := hv.readRange_ends pf.drive.toBackend (κ := Unit) pf.batch_pos
    pf.batch_lt file (UInt32.ofNat offset) (UInt32.ofNat length) (UInt32.ofNat dst) none () s.m
  have hsame := readRange_sameOutside hr
  rw [Bios.readRange, hr]
  refine ⟨h.globals, h.log, fun a ha => (hsame a fun i hi heq => ?_).trans (h.high a ha)⟩
  -- the last address written is below the kernel's
  rw [UInt32.toNat_ofNat'] at hi heq
  rw [u32, kernelLoadAddr] at *
  omega

theorem OnlyLow.altManifest (h : OnlyLow ref s) (hv : GoodVolume vol) (file : FatFile) :
    OnlyLow ref (altManifest pf vol file s).2 := by
  rw [Bios.altManifest]
  split
  · exact h
  · rename_i hsize
    have hfits : pf.headerBuf + file.size.toNat ≤ kernelLoadAddr := by
      have hbuf := pf.headerBuf_le
      have hmax : payloadSumMaxBytes ≤ setupHeaderEnd := by decide
      omega
    have hread := h.readRange pf hv file 0 hfits
    revert hread
    rcases Bios.readRange pf vol file 0 file.size.toNat pf.headerBuf s with ⟨_ | _, s'⟩
    · exact id
    · exact id

theorem altTry_onlyLow (sum : PayloadSum) (drive : Nat) :
    Triple (OnlyLow ref) (altTry pf sum drive)
      (fun a s => OnlyLow ref s ∧ GoodVolume a.vol) (fun _ s => OnlyLow ref s) := by
  refine triple_bind (fun _ => OnlyLow ref) (triple_step fun s h => h.machine rfl) fun selected => ?_
  refine triple_bind _ (triple_require fun s h _ => h) fun _ => ?_
  refine triple_bind (fun _ => OnlyLow ref) (triple_modify fun s h => h.1.machine rfl) fun _ => ?_
  refine triple_bind (fun _ => OnlyLow ref)
    (triple_attempt (fun s h _ _ => h.machine rfl) fun s h _ => h.machine rfl) fun esp => ?_
  -- from here on the volume is mounted
  refine triple_bind (fun vol s => OnlyLow ref s ∧ GoodVolume vol)
    (triple_attempt (fun s h _ hvol => ⟨h.machine (ram_mount _ _ _ _), goodVolume_mount pf hvol⟩)
      fun s h _ => h.machine (ram_mount _ _ _ _)) fun vol => ?_
  have hopen (path : String) : Triple (fun s => OnlyLow ref s ∧ GoodVolume vol)
      (attempt () (openFile pf vol path)) (fun _ s => OnlyLow ref s ∧ GoodVolume vol)
      (fun _ s => OnlyLow ref s) :=
    triple_attempt (fun s h _ _ => ⟨h.1.openFile pf h.2 _, h.2⟩) fun s h _ => h.1.openFile pf h.2 _
  refine triple_bind _ (hopen _) fun kernel => ?_
  refine triple_bind _ (hopen _) fun initrd => ?_
  refine triple_bind _ (hopen _) fun file => ?_
  refine triple_bind (fun _ s => OnlyLow ref s ∧ GoodVolume vol)
    (triple_attempt (fun s h _ _ => ⟨h.1.altManifest pf h.2 _, h.2⟩)
      fun s h _ => h.1.altManifest pf h.2 _) fun ps => ?_
  refine triple_bind _ (triple_require fun s h _ => h.1) fun _ => ?_
  exact triple_pure fun s h => h.1

theorem altProbe_onlyLow (sum : PayloadSum) (drives : List Nat) : ∀ s : Boot δ, OnlyLow ref s →
    OnlyLow ref (altProbe pf sum drives s).2 ∧
      ∀ a, (altProbe pf sum drives s).1 = some a → GoodVolume a.vol := by
  induction drives with
  | nil => exact fun s h => ⟨h, fun _ ha => by cases ha⟩
  | cons d ds ih =>
    intro s h
    rw [altProbe]
    split
    · exact ih s h
    · have htry := (altTry_onlyLow pf sum d).ends s h
      revert htry
      rcases altTry pf sum d s with ⟨_ | a, s'⟩
      · exact fun htry => ih s' htry
      · intro htry
        refine ⟨htry.1, fun a' ha' => ?_⟩
        cases ha'
        exact htry.2

theorem Steady.altRead (h : Steady ref s) (ld : LoadInfo) (chunk cap base off len : Nat) :
    Steady ref (altRead pf ld chunk cap base off len s).2 := by
  rw [Bios.altRead]
  split
  · exact h
  · rename_i a ha
    dsimp only
    split
    · exact (((h.machine _).machine _).readRange pf (h.alt a ha) _ _ _ _).altLeave pf _ _
    · exact (h.machine _).altLeave pf _ _

theorem Steady.hookSecond (h : Steady ref s) (ld : LoadInfo) (base off len : Nat) :
    Steady ref (hookSecond pf ld base off len s).2 := by
  rw [Bios.hookSecond]
  dsimp only
  split
  · exact h.altRead pf ld _ _ base off len
  · have hstart : Steady ref { s with g := { s.g with altProbed := true } } :=
      ⟨h.log, h.sum, h.blk, h.alt⟩
    obtain ⟨hlow, hgood⟩ := altProbe_onlyLow pf ld.sum
      (altDrives { s with g := { s.g with altProbed := true } }) _ (.refl _)
    have hprobe := hstart.onlyLow hlow
    refine Steady.altRead pf (Steady.altLeave pf ?_ _ _) ld _ _ base off len
    exact ⟨hprobe.log, hprobe.sum, hprobe.blk, hgood⟩

/-! ### A load -/

/-- The volumes of a load: the one it reads from, and the table's. -/
structure LoadInfo.Good (ld : LoadInfo) : Prop where
  vol : GoodVolume ld.vol
  table : GoodVolume ld.table.vol

theorem hooksKeep_steady {ld : LoadInfo} (hld : LoadInfo.Good ld) :
    HooksKeep (blkvHooks pf ld) (Steady ref) where
  reread base off len s h := (h.machine _).readRange pf hld.vol _ _ _ _
  second f hf base off len s h := by
    cases hf
    exact h.hookSecond pf ld base off len
  entry i s h := by
    have hsector := h.blksumSector pf hld.table ld.table.file
      (u32 (ld.blkFile.first + i / blksumPerSector))
    show Steady ref (hookEntry pf ld i s).2
    rw [hookEntry]
    split
    · rename_i heq
      rwa [heq] at hsector
    · rename_i heq
      rwa [heq] at hsector
  peek phys len s h := h.machine _
  setCap n s h := h.machine _
  reset s h := h.machine _
  report k want got t s h := h.machine _

/-- The context of a load in a steady boot. -/
structure LoadSteady (ref : Boot δ) (c : LoadCtx δ) : Prop where
  world : Steady ref c.run.w
  nblocks : c.run.b.nblocks < 2 ^ 32

theorem loadProgress_steady (hk : ∀ h, hooks = some h → HooksKeep h (Steady ref)) (n : Nat)
    (c : LoadCtx δ) (m : Machine δ) (hc : LoadSteady ref c) :
    LoadSteady ref (loadProgress hooks n c m).1 := by
  cases hooks with
  | none => exact ⟨hc.world.machine m, hc.nblocks⟩
  | some h =>
    obtain ⟨run, hrun, hw, hn⟩ := blkvLanded_keeps (hk h rfl) n
      (show Steady ref (c.onto m).w from hc.world.machine m)
      (show (c.onto m).b.nblocks < 2 ^ 32 from hc.nblocks)
    refine ⟨?_, ?_⟩
    all_goals
      rw [loadProgress]
      dsimp only
      rw [hrun]
    · exact hw
    · rw [hn]
      exact hc.nblocks

theorem loadAttempt_steady (hk : ∀ h, hooks = some h → HooksKeep h (Steady ref))
    (hv : GoodVolume vol) (file : FatFile) (fileOff len dst : Nat) (c : LoadCtx δ)
    (hc : LoadSteady ref c) :
    LoadSteady ref (loadAttempt pf hooks vol file fileOff len dst c).2 := by
  obtain ⟨r, hr⟩ := hv.readRange_ends pf.drive.toBackend pf.batch_pos pf.batch_lt file
    (UInt32.ofNat (fileOff + c.done)) (UInt32.ofNat (len + 2 ^ 32 - c.done))
    (UInt32.ofNat (dst + c.done)) (some (loadProgress hooks)) c c.run.w.m
  have hctx := readRange_ctx (loadProgress_steady hk) hc hr
  rw [loadAttempt, hr]
  exact ⟨hctx.world.machine _, hctx.nblocks⟩

theorem loadRun_steady (hk : ∀ h, hooks = some h → HooksKeep h (Steady ref)) (hv : GoodVolume vol)
    (file : FatFile) (fileOff len dst : Nat) {nblocks : Nat} (hn : nblocks < 2 ^ 32)
    (hs : Steady ref s) :
    Steady ref (loadRun pf hooks vol file fileOff len dst nblocks s).2.run.w := by
  have hagain (c : LoadCtx δ) (hc : LoadSteady ref c) : LoadSteady ref (loadAgain pf c) :=
    ⟨hc.world.startOver pf, hc.nblocks⟩
  exact (Loop.retry_keeps hagain (loadAttempt_steady pf hk hv file fileOff len dst) _
    ⟨hs, hn⟩).world

end ZfsBoot.Proofs.Stage2
