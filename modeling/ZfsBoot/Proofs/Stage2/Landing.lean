import ZfsBoot.Proofs.Fat.Bounds
import ZfsBoot.Proofs.Fat.Landing
import ZfsBoot.Proofs.Stage2.Steady

/-!
# `ZfsBoot.Proofs.Stage2.Landing`: what a load leaves in RAM

`load_file` reads a range of a file with the block verifier in the callback. From inside that
callback the verifier reads the table, reads blocks again, and asks another drive, all with the
buffers, the caches and the drive selection of the read that is under way. After a failure the read
is resumed from the first byte that has not landed.

`BootDrive` is what is assumed of the drives: the boot drive's reads fail visibly or return its
medium, and selecting it again never fails. Another drive may answer anything. `OnBoot` then holds
at every read of the boot drive, and all hooks but the second source keep `Heals`: each byte of the
range stays as it was or becomes the file's. A byte that is not the file's therefore lies in a
block that a second-source read changed (`SecondChanged`), and the log of the verifier has the
check that asked for it.
-/

set_option autoImplicit false

namespace ZfsBoot.Proofs.Stage2

open Lib Lib.Halting Bios Fat Blk

variable {j n : Nat} {initrd : Bool} {ld : LoadInfo} {d : Nat} {δ : Type} {t : BlkvRun (Boot δ)}

/-! ### The drives -/

/-- The drives of a load. While `I` holds the boot drive is selected, and reads fail visibly or
return `img`. -/
structure BootDrive (drive : Drive δ) (number : Nat) (img : Image) (I : δ → Prop) : Prop where
  faithful : drive.toBackend.Faithful img I
  reset : ∀ d, I d → I (drive.reset d)
  setChunk : ∀ n d, I d → I (drive.setChunk n d)
  setCap : ∀ n d, I d → I (drive.setCap n d)
  reselect : ∀ d, (drive.select number d).1.result = 0
  selected : ∀ d, (drive.select number d).1.result = 0 → I (drive.select number d).2

/-- The boot drive is selected, and what is cached is on it. -/
structure OnBoot (img : Image) (I : δ → Prop) (number : Nat) (s : Boot δ) : Prop where
  ready : Ready img I s.m
  boot : s.g.bootDrive = number

variable {pf : Platform δ} {img : Image} {I : δ → Prop} {number : Nat} {s : Boot δ}
  {vol : FatVolume}

theorem OnBoot.cacheInvalidate (h : OnBoot img I number s) :
    OnBoot img I number (cacheInvalidate s) :=
  ⟨⟨h.ready.disk, coherent_invalid rfl, coherent_invalid rfl⟩, h.boot⟩

theorem OnBoot.diskReset (hd : BootDrive pf.drive number img I) (h : OnBoot img I number s) :
    OnBoot img I number (diskReset pf s) :=
  ⟨⟨hd.reset _ h.ready.disk, h.ready.cache, h.ready.cache2⟩, h.boot⟩

theorem OnBoot.setChunkAndCap (hd : BootDrive pf.drive number img I) (chunk cap : Nat)
    (h : OnBoot img I number s) : OnBoot img I number (setChunkAndCap pf chunk cap s) :=
  ⟨⟨hd.setCap _ _ (hd.setChunk _ _ h.ready.disk), h.ready.cache, h.ready.cache2⟩, h.boot⟩

theorem OnBoot.startOver (hd : BootDrive pf.drive number img I) (h : OnBoot img I number s) :
    OnBoot img I number (startOver pf s) :=
  (h.diskReset hd).cacheInvalidate

theorem OnBoot.readRange (hd : BootDrive pf.drive number img I) (hv : GoodVolume vol)
    (file : FatFile) (offset length dst : Nat) (h : OnBoot img I number s) :
    OnBoot img I number (readRange pf vol file offset length dst s).2 := by
  obtain ⟨ps, hm⟩ := hv
  have hnone : Keeps img I (none : Option (Progress δ Unit)) := fun _ hf => nomatch hf
  obtain ⟨r, hr, hsafe⟩ := readRange_safe hd.faithful hm pf.batch_pos pf.batch_lt file
    (UInt32.ofNat offset) (UInt32.ofNat length) (UInt32.ofNat dst) hnone () s.m
  rw [Bios.readRange, hr]
  exact ⟨hsafe.ready h.ready, h.boot⟩

/-- A sector of the table: the read is of the boot drive, and into the loader's own buffer. -/
theorem OnBoot.blksumSector (hd : BootDrive pf.drive number img I) (hv : GoodVolume vol)
    (file : FatFile) (idx : Nat) (h : OnBoot img I number s) :
    OnBoot img I number (blksumSector pf vol file idx s).2 ∧
      ∀ a, kernelLoadAddr ≤ a → (blksumSector pf vol file idx s).2.m.ram a = s.m.ram a := by
  have hagain (t : Boot δ) (ht : OnBoot img I number t ∧ OnlyLow s t) :
      OnBoot img I number (Bios.startOver pf t) ∧ OnlyLow s (Bios.startOver pf t) :=
    ⟨ht.1.startOver hd, (ht.2.machine rfl).machine rfl⟩
  have hattempt (t : Boot δ) (ht : OnBoot img I number t ∧ OnlyLow s t) :
      OnBoot img I number (blksumAttempt pf vol file idx t).2 ∧
        OnlyLow s (blksumAttempt pf vol file idx t).2 := by
    have hboot := ht.1.readRange hd hv file (idx * blksumSectorSize) blksumSectorSize pf.blkSec
    have hlow := ht.2.readRange pf hv file (idx * blksumSectorSize) pf.blkSec_le
    rw [blksumAttempt]
    revert hboot hlow
    rcases Bios.readRange pf vol file (idx * blksumSectorSize) blksumSectorSize pf.blkSec t
      with ⟨_ | _, t'⟩
    · exact fun hboot hlow => ⟨hboot, hlow⟩
    · exact fun hboot hlow => ⟨hboot, hlow⟩
  have hretry := Loop.retry_keeps hagain hattempt (blkvTries + 1) ⟨h, OnlyLow.refl s⟩
  rw [Bios.blksumSector]
  split
  · exact ⟨h, fun _ _ => rfl⟩
  · revert hretry
    rcases Loop.retry (Bios.startOver pf) (blksumAttempt pf vol file idx) (blkvTries + 1) s
      with ⟨_ | _, t⟩
    · exact fun hretry => ⟨⟨hretry.1.ready, hretry.1.boot⟩, hretry.2.high⟩
    · exact fun hretry => ⟨⟨hretry.1.ready, hretry.1.boot⟩, hretry.2.high⟩

/-! ### The second source -/

/-- `alt_leave` selects the boot drive, and nothing of another drive stays cached. -/
theorem altLeave_onBoot (hd : BootDrive pf.drive number img I) (chunk cap : Nat)
    (hboot : s.g.bootDrive = number) : OnBoot img I number (altLeave pf chunk cap s) := by
  have hselect : (diskSelect pf s.g.bootDrive s).1 = 0 := by
    rw [hboot]
    exact hd.reselect _
  rw [altLeave, if_neg (fun hne => hne hselect)]
  refine ⟨⟨hd.setCap _ _ (hd.setChunk _ _ ?_), coherent_invalid rfl, coherent_invalid rfl⟩, hboot⟩
  show I (pf.drive.select s.g.bootDrive s.m.disk).2
  rw [hboot]
  exact hd.selected _ (hd.reselect _)

theorem ram_altLeave (chunk cap : Nat) : (altLeave pf chunk cap s).m.ram = s.m.ram := by
  rw [altLeave]
  split <;> rfl

/-- The globals and RAM after a read without a callback, on any drive. -/
theorem readRange_frame (pf : Platform δ) (vol : FatVolume) (file : FatFile)
    (offset length dst : Nat) (s : Boot δ) :
    (readRange pf vol file offset length dst s).2.g = s.g ∧
      SameOutside dst length s.m.ram (readRange pf vol file offset length dst s).2.m.ram := by
  rw [Bios.readRange]
  cases hr : fatReadRange (κ := Unit) pf.drive.toBackend vol pf.batch file (UInt32.ofNat offset)
      (UInt32.ofNat length) (UInt32.ofNat dst) none () s.m with
  | none => exact ⟨rfl, SameOutside.refl _ _ _⟩
  | some r =>
    refine ⟨rfl, fun a ha => readRange_sameOutside hr a fun i hi => ?_⟩
    rw [UInt32.toNat_ofNat'] at hi ⊢
    rw [show dst % 2 ^ 32 = u32 dst from rfl, u32_add_u32]
    exact ha i (Nat.lt_of_lt_of_le hi (Nat.mod_le _ _))

/-- `hook_second` after the probe: the boot drive is selected again, and from the kernel's load
address on only the block has changed. -/
theorem altRead_spec (hd : BootDrive pf.drive number img I) (ld : LoadInfo)
    (chunk cap base off len : Nat) (h : OnBoot img I number s) :
    OnBoot img I number (altRead pf ld chunk cap base off len s).2 ∧
      SameOutside (base + off) len s.m.ram (altRead pf ld chunk cap base off len s).2.m.ram := by
  rw [altRead]
  split
  · exact ⟨h, SameOutside.refl _ _ _⟩
  · dsimp only
    split
    · rename_i a ha hselect
      obtain ⟨hg, hram⟩ := readRange_frame pf a.vol (if ld.initrd then a.initrd else a.kernel)
        (ld.fileOff + off) len (base + off) _
      rw [ram_altLeave]
      exact ⟨altLeave_onBoot hd chunk cap (by rw [hg]; exact h.boot), hram⟩
    · rw [ram_altLeave]
      exact ⟨altLeave_onBoot hd chunk cap h.boot, SameOutside.refl _ _ _⟩

/-- `hook_second`. -/
theorem hookSecond_spec (hd : BootDrive pf.drive number img I) (ld : LoadInfo) (base off len : Nat)
    (h : OnBoot img I number s) :
    OnBoot img I number (hookSecond pf ld base off len s).2 ∧
      ∀ a, kernelLoadAddr ≤ a → (∀ i, i < len → a ≠ u32 (base + off + i)) →
        (hookSecond pf ld base off len s).2.m.ram a = s.m.ram a := by
  rw [hookSecond]
  dsimp only
  split
  · obtain ⟨hboot, hram⟩ := altRead_spec hd ld (pf.drive.getChunk s.m.disk)
      (pf.drive.getCap s.m.disk) base off len h
    exact ⟨hboot, fun a _ => hram a⟩
  · -- the probe leaves the globals and the high addresses alone
    have hlow := (altProbe_onlyLow pf ld.sum (altDrives { s with g := { s.g with altProbed := true } })
      _ (OnlyLow.refl { s with g := { s.g with altProbed := true } })).1
    revert hlow
    generalize altProbe pf ld.sum (altDrives { s with g := { s.g with altProbed := true } })
      { s with g := { s.g with altProbed := true } } = r
    intro hlow
    have hprobed : r.2.g.bootDrive = number := by
      rw [hlow.globals]
      exact h.boot
    have hleft := altLeave_onBoot (s := { r.2 with g := { r.2.g with alt := r.1 } }) hd
      (pf.drive.getChunk s.m.disk) (pf.drive.getCap s.m.disk) hprobed
    obtain ⟨hboot, hram⟩ := altRead_spec hd ld (pf.drive.getChunk s.m.disk)
      (pf.drive.getCap s.m.disk) base off len hleft
    refine ⟨hboot, fun a ha hout => ?_⟩
    rw [hram a hout, ram_altLeave]
    exact hlow.high a ha

/-! ### The other hooks -/

/-- From `w` to `w'` each byte of `range` at `dst` has stayed as it was, or it is the file's now. -/
def Heals (img : Image) (I : δ → Prop) (number : Nat) (range : List UInt8) (dst : Nat)
    (w w' : Boot δ) : Prop :=
  OnBoot img I number w → OnBoot img I number w' ∧ ∀ i b, range[i]? = some b →
    w'.m.ram (dst + i) = w.m.ram (dst + i) ∨ w'.m.ram (dst + i) = b

section Heals

variable {range : List UInt8} {dst : Nat}

theorem Heals.refl (w : Boot δ) : Heals img I number range dst w w :=
  fun h => ⟨h, fun _ _ _ => .inl rfl⟩

theorem Heals.trans {w w' w'' : Boot δ} (h₁ : Heals img I number range dst w w')
    (h₂ : Heals img I number range dst w' w'') : Heals img I number range dst w w'' := by
  intro h
  obtain ⟨hw', hbytes₁⟩ := h₁ h
  obtain ⟨hw'', hbytes₂⟩ := h₂ hw'
  refine ⟨hw'', fun i b hi => ?_⟩
  rcases hbytes₂ i b hi with hsame | hfile
  · rw [hsame]
    exact hbytes₁ i b hi
  · exact .inr hfile

/-- What leaves RAM from the kernel's load address on alone. -/
theorem heals_of_high {w w' : Boot δ} (hdst : kernelLoadAddr ≤ dst)
    (h : OnBoot img I number w → OnBoot img I number w' ∧
      ∀ a, kernelLoadAddr ≤ a → w'.m.ram a = w.m.ram a) : Heals img I number range dst w w' := by
  intro hw
  obtain ⟨hw', hram⟩ := h hw
  exact ⟨hw', fun i _ _ => .inl (hram _ (by omega))⟩

end Heals

/-- A byte of a range of the file. -/
theorem getElem?_chainRange {file : FatFile} {offset length : Nat} {b : UInt8}
    (h : (chainRange img vol file offset length)[j]? = some b) : j < length ∧
      (chainData img vol file.firstCluster.toNat (clustersFor vol file.size.toNat))[offset + j]?
        = some b := by
  rw [chainRange, List.getElem?_take] at h
  split at h
  · rename_i hj
    rw [List.getElem?_drop] at h
    exact ⟨hj, h⟩
  · cases h

/-- `hook_reread`: whatever part of the file it reads again, a byte of the range gets its own byte
of the file, because the offset in the file and the address run in step. -/
theorem hookReread_heals (hd : BootDrive pf.drive number img I) (hbatch : pf.batch < 2 ^ 16)
    (hv : GoodVolume ld.vol) {len dst : Nat} (hdst : dst + len ≤ 2 ^ 32)
    (hsize : ld.fileOff + len ≤ ld.file.size.toNat) (off n : Nat) (w : Boot δ) :
    Heals img I number (chainRange img ld.vol ld.file ld.fileOff len) dst w
      (hookReread pf ld dst off n w).2 := by
  intro hw
  obtain ⟨ps, hm⟩ := hv
  obtain ⟨r, hr, hready, hram⟩ := readRange_writes hd.faithful hm pf.batch_pos hbatch ld.file
    (UInt32.ofNat (ld.fileOff + off)) (UInt32.ofNat n) (UInt32.ofNat (dst + off)) ()
    (hw.cacheInvalidate).ready
  have hrun : hookReread pf ld dst off n w = (r.1, { cacheInvalidate w with m := r.2.2.m }) := by
    rw [hookReread, readRange, hr]
  rw [hrun]
  refine ⟨⟨hready, hw.boot⟩, fun i b hi => ?_⟩
  rcases hram with hsame | ⟨hinside, hwrites⟩
  · exact .inl (congrFun hsame _)
  · rcases hwrites (dst + i) with hsame | ⟨j, hj, hbyte⟩
    · exact .inl hsame
    · obtain ⟨hi', hfile⟩ := getElem?_chainRange hi
      obtain ⟨hj', hread⟩ := getElem?_chainRange hbyte
      have hsz := ld.file.size.toNat_lt
      rw [UInt32.toNat_ofNat'] at hj hj' hread hinside
      rw [UInt32.toNat_ofNat'] at hinside
      have hplace : (ld.fileOff + off) % 2 ^ 32 + j = ld.fileOff + i := by
        rw [u32] at hj
        omega
      rw [hplace, hfile] at hread
      exact .inr (Option.some.inj hread).symm

/-- All hooks but the second source. -/
theorem hooksRel_heals (hd : BootDrive pf.drive number img I) (hbatch : pf.batch < 2 ^ 16)
    (hld : LoadInfo.Good ld) {len dst : Nat} (hlow : kernelLoadAddr ≤ dst)
    (hdst : dst + len ≤ 2 ^ 32) (hsize : ld.fileOff + len ≤ ld.file.size.toNat) :
    HooksRel (blkvHooks pf ld) dst
      (Heals img I number (chainRange img ld.vol ld.file ld.fileOff len) dst) where
  refl := Heals.refl
  trans := Heals.trans
  reread := hookReread_heals hd hbatch hld.vol hdst hsize
  entry i w := by
    refine heals_of_high hlow fun hw => ?_
    have hsector := hw.blksumSector hd hld.table ld.table.file
      (u32 (ld.blkFile.first + i / blksumPerSector))
    show OnBoot img I number (hookEntry pf ld i w).2 ∧ _
    rw [show (blkvHooks pf ld).entry i w = hookEntry pf ld i w from rfl, hookEntry]
    revert hsector
    rcases blksumSector pf ld.table.vol ld.table.file
      (u32 (ld.blkFile.first + i / blksumPerSector)) w with ⟨_ | _, w'⟩
    · exact id
    · exact id
  peek phys len w := heals_of_high hlow fun hw =>
    ⟨⟨⟨hw.ready.disk, hw.ready.cache, hw.ready.cache2⟩, hw.boot⟩, fun _ _ => rfl⟩
  setCap n w := heals_of_high hlow fun hw => ⟨hw.setChunkAndCap hd _ _, fun _ _ => rfl⟩
  reset w := heals_of_high hlow fun hw => ⟨hw.diskReset hd, fun _ _ => rfl⟩
  report k want got t w := by
    refine heals_of_high hlow fun hw => ?_
    obtain ⟨ps, hm⟩ := hld.vol
    have hsafe := offsetLba_safe hd.faithful hm ld.file
      (UInt32.ofNat (ld.fileOff + k * blksumBlock)) (cacheInvalidate w).m
    refine ⟨⟨hsafe.ready hw.cacheInvalidate.ready, hw.boot⟩, fun a _ => ?_⟩
    exact congrFun (ram_offsetLba _ _ ld.file _ _) a

/-! ### The blocks that a second source changed -/

/-- A check in `log`, of the load of `len` bytes to `dst`, asked the second source for block `j`,
and its read changed the block. -/
def SecondChanged (pf : Platform δ) (ld : LoadInfo) (len dst : Nat)
    (log : List (CheckRecord (Boot δ))) (j : Nat) : Prop :=
  ∃ (s : BlkvRun (Boot δ)) (k : Nat) (c : BlockCheck) (w : Boot δ),
    (s.b.base = dst ∧ s.b.length = len) ∧ (checkBlock (blkvHooks pf ld) k s).log <+: log ∧
    secondCall (blkvHooks pf ld) k s = some (c, w) ∧ c.start = j * blksumBlock ∧
    ramBytes (hookSecond pf ld dst c.start c.len w).2.m.ram (dst + c.start) c.len ≠
      ramBytes w.m.ram (dst + c.start) c.len

theorem SecondChanged.mono {len dst : Nat}
    {log log' : List (CheckRecord (Boot δ))} (h : SecondChanged pf ld len dst log j)
    (hlog : log <+: log') : SecondChanged pf ld len dst log' j := by
  obtain ⟨s, k, c, w, hload, hin, hcall⟩ := h
  exact ⟨s, k, c, w, hload, hin.trans hlog, hcall⟩

/-- A block of a check starts at a multiple of its size, below 4 GiB. -/
theorem blockCheck_bounds (b : Blkv) (k : Nat) (want : Vector UInt8 32) :
    (∃ j, (blockCheck b k want).start = j * blksumBlock ∧ j < 65536) ∧
      (blockCheck b k want).len ≤ blksumBlock := by
  refine ⟨⟨k % 65536, ?_, Nat.mod_lt _ (by decide)⟩, ?_⟩
  · show k * 65536 % 2 ^ 32 = k % 65536 * 65536
    omega
  · rw [blockCheck]
    dsimp only
    split <;> omega

/-- One call of the second source: a byte of the range stays, or its block has changed. -/
theorem second_changes (hd : BootDrive pf.drive number img I) {len dst k i : Nat}
    (hlow : kernelLoadAddr ≤ dst) (hi : dst + i < 2 ^ 32) {c : BlockCheck} {w : Boot δ}
    (hcall : secondCall (blkvHooks pf ld) k t = some (c, w))
    (hload : t.b.base = dst ∧ t.b.length = len) (hw : OnBoot img I number w)
    {log : List (CheckRecord (Boot δ))} (hlog : (checkBlock (blkvHooks pf ld) k t).log <+: log) :
    (hookSecond pf ld dst c.start c.len w).2.m.ram (dst + i) = w.m.ram (dst + i) ∨
      SecondChanged pf ld len dst log (i / blksumBlock) := by
  obtain ⟨want, hc⟩ := secondCall_block hcall
  obtain ⟨⟨j, hstart, hj⟩, hlen⟩ := blockCheck_bounds t.b k want
  rw [← hc, show blksumBlock = 65536 from rfl] at hstart hlen
  by_cases hin : c.start ≤ i ∧ i < c.start + c.len
  · by_cases hsame : ramBytes (hookSecond pf ld dst c.start c.len w).2.m.ram (dst + c.start) c.len =
        ramBytes w.m.ram (dst + c.start) c.len
    · -- the block has the bytes it had
      left
      have hbyte := List.map_inj_left.mp hsame (i - c.start) (List.mem_range.mpr (by omega))
      rwa [show dst + c.start + (i - c.start) = dst + i by omega, u32_of_lt hi] at hbyte
    · refine .inr ⟨t, k, c, w, hload, hlog, hcall, ?_, hsame⟩
      rw [hstart, show blksumBlock = 65536 from rfl, show i / 65536 = j by omega]
  · -- the read does not reach the byte
    left
    refine (hookSecond_spec hd ld dst c.start c.len hw).2 (dst + i) (by omega) ?_
    intro x hx heq
    rw [u32] at heq
    omega

/-! ### The invariant of a load -/

/-- `d` bytes of `range` have landed at `dst`; each that is not in RAM has its block changed by the
second source. -/
structure LoadInv (pf : Platform δ) (img : Image) (I : δ → Prop) (number : Nat)
    (info : Option LoadInfo) (range : List UInt8) (len dst d : Nat) (t : BlkvRun (Boot δ)) :
    Prop where
  onBoot : OnBoot img I number t.w
  base : t.b.base = dst
  length : t.b.length = len
  nblocks : t.b.nblocks < 2 ^ 32
  landed : info.isSome → t.b.landed = d
  bytes : ∀ i b, i < d → range[i]? = some b → t.w.m.ram (dst + i) = b ∨
    ∃ ld, info = some ld ∧ SecondChanged pf ld len dst t.log (i / blksumBlock)

/-- What the invariant needs to know of the call: where its range goes, and the volumes of the
files it reads. -/
structure LoadRange (info : Option LoadInfo) (vol : FatVolume) (file : FatFile)
    (fileOff len dst : Nat) : Prop where
  low : kernelLoadAddr ≤ dst
  high : dst + len ≤ 2 ^ 32
  mounted : GoodVolume vol
  table : ∀ ld, info = some ld → GoodVolume ld.table.vol
  same : ∀ ld, info = some ld → ld.vol = vol ∧ ld.file = file ∧ ld.fileOff = fileOff

section Load

variable {info : Option LoadInfo} {file : FatFile} {fileOff len dst : Nat}

/-- One `check_block`. -/
theorem LoadInv.checkBlock (hd : BootDrive pf.drive number img I) (hbatch : pf.batch < 2 ^ 16)
    (hinfo : info = some ld) (hrange : LoadRange info vol file fileOff len dst)
    (hsize : fileOff + len ≤ file.size.toNat) (k : Nat)
    (h : LoadInv pf img I number info (chainRange img vol file fileOff len) len dst d t) :
    LoadInv pf img I number info (chainRange img vol file fileOff len) len dst d
      (checkBlock (blkvHooks pf ld) k t) := by
  obtain ⟨rfl, rfl, rfl⟩ := hrange.same ld hinfo
  have hR := hooksRel_heals hd hbatch ⟨hrange.mounted, hrange.table ld hinfo⟩ hrange.low hrange.high hsize
  have hreach := checkBlock_reaches hR k t h.base
  have hlog : t.log <+: (Bios.checkBlock (blkvHooks pf ld) k t).log := List.prefix_append _ _
  -- a byte that has not changed is as good as before
  have hold (i : Nat) (b : UInt8) (hi : i < d)
      (hb : (chainRange img ld.vol ld.file ld.fileOff len)[i]? = some b) :
      t.w.m.ram (dst + i) = b ∨ ∃ ld', info = some ld' ∧ SecondChanged pf ld' len dst
        (Bios.checkBlock (blkvHooks pf ld) k t).log (i / blksumBlock) :=
    (h.bytes i b hi hb).imp id fun ⟨ld', hld', hchanged⟩ => ⟨ld', hld', hchanged.mono hlog⟩
  suffices hworld : OnBoot img I number (Bios.checkBlock (blkvHooks pf ld) k t).w ∧
      ∀ i b, (chainRange img ld.vol ld.file ld.fileOff len)[i]? = some b →
        (Bios.checkBlock (blkvHooks pf ld) k t).w.m.ram (dst + i) = t.w.m.ram (dst + i) ∨
        (Bios.checkBlock (blkvHooks pf ld) k t).w.m.ram (dst + i) = b ∨
        SecondChanged pf ld len dst (Bios.checkBlock (blkvHooks pf ld) k t).log (i / blksumBlock) by
    refine ⟨hworld.1, hreach.load.base.trans h.base, hreach.load.length.trans h.length, ?_, ?_, ?_⟩
    · rw [hreach.load.nblocks]
      exact h.nblocks
    · intro hsome
      exact hreach.load.landed.trans (h.landed hsome)
    · intro i b hi hb
      rcases hworld.2 i b hb with hsame | hfile | hchanged
      · rw [hsame]
        exact hold i b hi hb
      · exact .inl hfile
      · exact .inr ⟨ld, hinfo, hchanged⟩
  rcases hreach.world with hheals | ⟨c, w, f, hcall, hsecond, hbefore, hafter⟩
  · obtain ⟨hboot, hbytes⟩ := hheals h.onBoot
    exact ⟨hboot, fun i b hb => (hbytes i b hb).imp id .inl⟩
  · obtain rfl : hookSecond pf ld = f := Option.some.inj hsecond
    obtain ⟨hw, hbytes₁⟩ := hbefore h.onBoot
    obtain ⟨hboot, hbytes₂⟩ := hafter (hookSecond_spec hd ld dst c.start c.len hw).1
    refine ⟨hboot, fun i b hb => ?_⟩
    have haddr : dst + i < 2 ^ 32 := by
      have hi := (getElem?_chainRange hb).1
      have hhigh := hrange.high
      omega
    have hlogged : (Bios.checkBlock (blkvHooks pf ld) k { t with compares := [] }).log <+:
        (Bios.checkBlock (blkvHooks pf ld) k t).log := List.prefix_refl _
    rcases hbytes₂ i b hb with hsame | hfile
    · rw [hsame]
      rcases second_changes hd hrange.low haddr hcall ⟨h.base, h.length⟩ hw hlogged
        with hkept | hchanged
      · rw [hkept]
        exact (hbytes₁ i b hb).imp id .inl
      · exact .inr (.inr hchanged)
    · exact .inr (.inl hfile)

/-- What the driver does between two landings. -/
theorem LoadInv.quiet {range : List UInt8} (h : LoadInv pf img I number info range len dst d t)
    {m : Machine δ} (hram : m.ram = t.w.m.ram) (hready : Ready img I m) :
    LoadInv pf img I number info range len dst d { t with w := { t.w with m := m } } := by
  refine ⟨⟨hready, h.onBoot.boot⟩, h.base, h.length, h.nblocks, h.landed, ?_⟩
  show ∀ i b, i < d → range[i]? = some b → m.ram (dst + i) = b ∨ _
  rw [hram]
  exact h.bytes

/-- The next `n` bytes land, before the verifier sees them. -/
theorem LoadInv.land {range : List UInt8} (h : LoadInv pf img I number info range len dst d t)
    (hle : d + n ≤ range.length) (hlen : range.length < 2 ^ 32)
    (hhigh : dst + range.length ≤ 2 ^ 32) (b' : Blkv) (hbase : b'.base = t.b.base)
    (hlength : b'.length = t.b.length) (hnblocks : b'.nblocks = t.b.nblocks)
    (hlanded : info.isSome → b'.landed = u32 (t.b.landed + n)) :
    LoadInv pf img I number info range len dst (d + n)
      { t with
        b := b'
        w := { t.w with m := unrealCopy (u32 (dst + d)) ((range.drop d).take n) t.w.m } } := by
  have hpart : ((range.drop d).take n).length = n := by
    rw [List.length_take, List.length_drop]
    omega
  refine ⟨⟨⟨h.onBoot.ready.disk, h.onBoot.ready.cache, h.onBoot.ready.cache2⟩, h.onBoot.boot⟩,
    hbase.trans h.base, hlength.trans h.length, hnblocks ▸ h.nblocks, ?_, ?_⟩
  · intro hsome
    rw [hlanded hsome, h.landed hsome]
    exact u32_of_lt (by omega)
  · intro i b hi hb
    by_cases hold : i < d
    · -- below the landing
      have hsame : (unrealCopy (u32 (dst + d)) ((range.drop d).take n) t.w.m).ram (dst + i) =
          t.w.m.ram (dst + i) := by
        refine sameOutside_unrealCopy t.w.m (Nat.le_of_eq hpart) _ fun j hj heq => ?_
        rw [u32_add_u32, u32] at heq
        omega
      show (unrealCopy _ _ _).ram (dst + i) = b ∨ _
      rw [hsame]
      exact h.bytes i b hold hb
    · left
      obtain ⟨j, rfl⟩ := Nat.exists_eq_add_of_le (Nat.le_of_not_lt hold)
      have hbyte := ram_unrealCopy (u32 (dst + d)) t.w.m
        (hpart.symm ▸ (by omega) : j < ((range.drop d).take n).length) (by omega)
      have haddr : u32 (u32 (dst + d) + j) = dst + (d + j) := by
        rw [u32_add_u32, Nat.add_assoc]
        exact u32_of_lt (by omega)
      rw [haddr, List.getD_eq_getElem?_getD, List.getElem?_take_of_lt (by omega),
        List.getElem?_drop, hb] at hbyte
      exact hbyte

/-- The callback of the load, after the next `n` bytes have landed. -/
theorem LoadInv.progress (hd : BootDrive pf.drive number img I) (hbatch : pf.batch < 2 ^ 16)
    (hrange : LoadRange info vol file fileOff len dst) (hlen : len < 2 ^ 32)
    (hsize : fileOff + len ≤ file.size.toNat) {c c' : LoadCtx δ} {m m' : Machine δ}
    (h : LoadInv pf img I number info (chainRange img vol file fileOff len) len dst d (c.onto m))
    (hdone : c.done = d) (hle : d + n ≤ len)
    (hcall : loadProgress (info.map (blkvHooks pf)) n c (unrealCopy (u32 (dst + d))
      (((chainRange img vol file fileOff len).drop d).take n) m) = (c', m')) :
    c'.done = d + n ∧ c'.onto m' = c'.run ∧
      LoadInv pf img I number info (chainRange img vol file fileOff len) len dst (d + n) c'.run := by
  have hlength : (chainRange img vol file fileOff len).length = len := by
    obtain ⟨ps, hm⟩ := hrange.mounted
    exact length_chainRange img hm.spc_pos hsize
  have hhigh := hrange.high
  have hland := h.land (n := n) (by omega) (by omega) (by omega)
  have hdone' : u32 (c.done + n) = d + n := by
    rw [hdone]
    exact u32_of_lt (by omega)
  cases info with
  | none =>
    obtain ⟨rfl, rfl⟩ := Prod.mk.inj hcall
    exact ⟨hdone', rfl, hland c.run.b rfl rfl rfl (by simp)⟩
  | some ld =>
    obtain ⟨run, hrun, hinv, -⟩ := blkvLanded_rule (h := blkvHooks pf ld)
      (s := c.onto (unrealCopy (u32 (dst + d))
        (((chainRange img vol file fileOff len).drop d).take n) m))
      (LoadInv pf img I number (some ld) (chainRange img vol file fileOff len) len dst (d + n)) n
      h.nblocks (hland { c.run.b with landed := u32 (c.run.b.landed + n) } rfl rfl rfl fun _ => rfl)
      (fun t ht _ _ => LoadInv.checkBlock hd hbatch rfl hrange hsize _
        ⟨ht.onBoot, ht.base, ht.length, ht.nblocks, ht.landed, ht.bytes⟩)
    have hstep : loadProgress (some (blkvHooks pf ld)) n c (unrealCopy (u32 (dst + d))
        (((chainRange img vol file fileOff len).drop d).take n) m) =
        (⟨u32 (c.done + n), run⟩, run.w.m) := by
      rw [loadProgress, hrun]
    obtain ⟨rfl, rfl⟩ := Prod.mk.inj (hstep.symm.trans hcall)
    exact ⟨hdone', rfl, hinv⟩

/-! ### An attempt -/

/-- The log of the read that one attempt of `load_file` makes. -/
def attemptEvents (pf : Platform δ) (hooks : Option (BlkvHooks (Boot δ))) (vol : FatVolume)
    (file : FatFile) (fileOff len dst : Nat) (c : LoadCtx δ) : List FatEvent :=
  match fatReadRange pf.drive.toBackend vol pf.batch file (UInt32.ofNat (fileOff + c.done))
      (UInt32.ofNat (len + 2 ^ 32 - c.done)) (UInt32.ofNat (dst + c.done))
      (some (loadProgress hooks)) c c.run.w.m with
  | some (_, _, run) => run.events
  | none => []

/-- A load between two attempts. That its first bytes have landed means that the range is in the
file. -/
structure Loading (pf : Platform δ) (img : Image) (I : δ → Prop) (number : Nat)
    (info : Option LoadInfo) (vol : FatVolume) (file : FatFile) (fileOff len dst : Nat)
    (c : LoadCtx δ) : Prop where
  le : c.done ≤ len
  inside : 0 < c.done → fileOff + len ≤ file.size.toNat
  inv : LoadInv pf img I number info (chainRange img vol file fileOff len) len dst c.done c.run

/-- The rest of a range is a range. -/
theorem chainRange_drop (img : Image) (vol : FatVolume) (file : FatFile) (fileOff len d : Nat) :
    (chainRange img vol file fileOff len).drop d =
      chainRange img vol file (fileOff + d) (len - d) := by
  rw [chainRange, chainRange, List.drop_take, List.drop_drop]

/-- The invariant during an attempt that began with `done` bytes landed. -/
def AttemptInv (pf : Platform δ) (img : Image) (I : δ → Prop) (number : Nat)
    (info : Option LoadInfo) (range : List UInt8) (len dst done : Nat) (c : LoadCtx δ)
    (m : Machine δ) (d : Nat) : Prop :=
  c.done = done + d ∧ LoadInv pf img I number info range len dst (done + d) (c.onto m)

theorem attemptInv_quiet (range : List UInt8) (done : Nat) :
    KeptQuietly img I (AttemptInv pf img I number info range len dst done) := by
  intro c m m' d h hram hready
  exact ⟨h.1, h.2.quiet hram hready⟩

theorem attemptInv_landings (hd : BootDrive pf.drive number img I) (hbatch : pf.batch < 2 ^ 16)
    (hrange : LoadRange info vol file fileOff len dst) (hlen : len < 2 ^ 32)
    (hsize : fileOff + len ≤ file.size.toNat) {done : Nat} (hdone : done ≤ len) :
    KeptByLandings img I (some (loadProgress (info.map (blkvHooks pf))))
      ((chainRange img vol file fileOff len).drop done) (u32 (dst + done))
      (AttemptInv pf img I number info (chainRange img vol file fileOff len) len dst done) := by
  intro c m d n c' m' h hready hn hle hcall
  have hlength : (chainRange img vol file fileOff len).length = len := by
    obtain ⟨ps, hm⟩ := hrange.mounted
    exact length_chainRange img hm.spc_pos hsize
  rw [List.length_drop, hlength] at hle
  rw [u32_add_u32, List.drop_drop, Nat.add_assoc] at hcall
  obtain ⟨hdone', honto, hinv⟩ := h.2.progress hd hbatch hrange hlen hsize h.1 (by omega) hcall
  rw [Nat.add_assoc] at hdone' hinv
  refine ⟨⟨hdone', honto.symm ▸ hinv⟩, ?_⟩
  rw [← honto] at hinv
  exact hinv.onBoot.ready

/-- One attempt of `load_file`: it goes on from where the one before it stopped. -/
theorem loadAttempt_lands (hd : BootDrive pf.drive number img I) (hbatch : pf.batch < 2 ^ 16)
    (hrange : LoadRange info vol file fileOff len dst) (hoff : fileOff < 2 ^ 32)
    (hlen : len < 2 ^ 32) {c : LoadCtx δ}
    (hc : Loading pf img I number info vol file fileOff len dst c) :
    let r := loadAttempt pf (info.map (blkvHooks pf)) vol file fileOff len dst c
    let events := attemptEvents pf (info.map (blkvHooks pf)) vol file fileOff len dst c
    Loading pf img I number info vol file fileOff len dst r.2 ∧
      (r.1.isSome → r.2.done = len) ∧
      LogOk ((chainRange img vol file fileOff len).drop c.done) (u32 (dst + c.done)) events ∧
      c.done + reported events = r.2.done := by
  obtain ⟨ps, hm⟩ := hrange.mounted
  have hle := hc.le
  have hsz := file.size.toNat_lt
  -- the arguments of the call do not wrap, but for the address of an empty rest
  have hoff' : (UInt32.ofNat (fileOff + c.done)).toNat = fileOff + c.done := by
    rw [UInt32.toNat_ofNat']
    rcases Nat.eq_zero_or_pos c.done with h0 | hpos
    · omega
    · have hin := hc.inside hpos
      omega
  have hlen' : (UInt32.ofNat (len + 2 ^ 32 - c.done)).toNat = len - c.done := by
    rw [UInt32.toNat_ofNat']
    omega
  have hdst' : (UInt32.ofNat (dst + c.done)).toNat = u32 (dst + c.done) := UInt32.toNat_ofNat' ..
  have hlands : (UInt32.ofNat (fileOff + c.done)).toNat +
      (UInt32.ofNat (len + 2 ^ 32 - c.done)).toNat ≤ file.size.toNat →
      KeptByLandings img I (some (loadProgress (info.map (blkvHooks pf))))
        (chainRange img vol file (UInt32.ofNat (fileOff + c.done)).toNat
          (UInt32.ofNat (len + 2 ^ 32 - c.done)).toNat) (UInt32.ofNat (dst + c.done)).toNat
        (AttemptInv pf img I number info (chainRange img vol file fileOff len) len dst c.done) := by
    rw [hoff', hlen', hdst', ← chainRange_drop]
    intro hin
    exact attemptInv_landings hd hbatch hrange hlen (by omega) hle
  obtain ⟨⟨ok, c', run⟩, hr, landed, hlanded, hinside⟩ := readRange_lands
    (attemptInv_quiet _ c.done) hlands hd.faithful hm pf.batch_pos hbatch hc.inv.onBoot.ready
    ⟨rfl, hc.inv⟩
  rw [hoff', hlen'] at hinside
  rw [hoff', hlen', hdst', ← chainRange_drop] at hlanded
  obtain ⟨hdone, hinv⟩ := hlanded.inv
  obtain ⟨hlog, hreported⟩ := hlanded.log rfl
  have hlanded_le := hlanded.le
  dsimp only at hdone hinv hinside hlog hreported
  dsimp only
  rw [loadAttempt, attemptEvents, hr]
  refine ⟨⟨?_, ?_, ?_⟩, ?_, hlog, ?_⟩
  · show c'.done ≤ len
    omega
  · show 0 < c'.done → fileOff + len ≤ file.size.toNat
    intro hpos
    rcases Nat.eq_zero_or_pos c.done with h0 | hpos'
    · have hin := hinside (.inr (by omega))
      omega
    · exact hc.inside hpos'
  · show LoadInv _ _ _ _ _ _ _ _ c'.done (c'.onto run.m)
    rw [hdone]
    exact hinv
  · show (if ok then some () else none).isSome = true → c'.done = len
    intro hok
    have hsuccess := hlanded.success (by cases ok <;> simp_all)
    omega
  · show c.done + reported run.events = c'.done
    omega

/-! ### A whole load -/

/-- `loadRun` with the logs of its reads put together. -/
def loggedRun (pf : Platform δ) (hooks : Option (BlkvHooks (Boot δ))) (vol : FatVolume)
    (file : FatFile) (fileOff len dst nblocks : Nat) (s : Boot δ) :
    Option Unit × LoadCtx δ × List FatEvent :=
  Loop.retry (fun c => (loadAgain pf c.1, c.2))
    (fun c =>
      let r := loadAttempt pf hooks vol file fileOff len dst c.1
      (r.1, r.2, c.2 ++ attemptEvents pf hooks vol file fileOff len dst c.1))
    gptRetryAttempts
    (⟨0, ⟨blkvStart dst len nblocks pf.ioBufSize pf.ioBufSize_pos, s, [], []⟩⟩, [])

/-- The reads of a load: what landed and what the callback was told, over all attempts. -/
def loadEvents (pf : Platform δ) (hooks : Option (BlkvHooks (Boot δ))) (vol : FatVolume)
    (file : FatFile) (fileOff len dst nblocks : Nat) (s : Boot δ) : List FatEvent :=
  (loggedRun pf hooks vol file fileOff len dst nblocks s).2.2

theorem loggedRun_eq (hooks : Option (BlkvHooks (Boot δ))) (nblocks : Nat) :
    ((loggedRun pf hooks vol file fileOff len dst nblocks s).1,
      (loggedRun pf hooks vol file fileOff len dst nblocks s).2.1) =
      loadRun pf hooks vol file fileOff len dst nblocks s :=
  Loop.retry_map Prod.fst (fun _ => rfl) (fun _ => rfl) gptRetryAttempts _

/-- How a load ends that has read everything. -/
structure LoadEnds (pf : Platform δ) (img : Image) (I : δ → Prop) (number : Nat)
    (info : Option LoadInfo) (vol : FatVolume) (file : FatFile) (fileOff len dst : Nat)
    (c : LoadCtx δ) (events : List FatEvent) : Prop where
  inv : LoadInv pf img I number info (chainRange img vol file fileOff len) len dst len c.run
  log : LogOk (chainRange img vol file fileOff len) dst events
  reported : reported events = len

theorem loadRun_lands (hd : BootDrive pf.drive number img I) (hbatch : pf.batch < 2 ^ 16)
    (hrange : LoadRange info vol file fileOff len dst) (hoff : fileOff < 2 ^ 32)
    (hlen : len < 2 ^ 32) {nblocks : Nat} (hn : nblocks < 2 ^ 32) (hs : OnBoot img I number s)
    (hok : (loadRun pf (info.map (blkvHooks pf)) vol file fileOff len dst nblocks s).1.isSome) :
    LoadEnds pf img I number info vol file fileOff len dst
      (loadRun pf (info.map (blkvHooks pf)) vol file fileOff len dst nblocks s).2
      (loadEvents pf (info.map (blkvHooks pf)) vol file fileOff len dst nblocks s) := by
  rw [← loggedRun_eq] at hok ⊢
  obtain ⟨a, ha⟩ := Option.isSome_iff_exists.mp hok
  refine (Loop.retry_spec
    (fun c : LoadCtx δ × List FatEvent =>
      Loading pf img I number info vol file fileOff len dst c.1 ∧
        LogOk (chainRange img vol file fileOff len) dst c.2 ∧ reported c.2 = c.1.done)
    (fun _ c => LoadEnds pf img I number info vol file fileOff len dst c.1 c.2)
    ?_ ?_ gptRetryAttempts _ ⟨⟨Nat.zero_le _, ?_, ?_⟩, logOk_nil _ _, rfl⟩).1 a ha
  · rintro ⟨c, es⟩ ⟨hc, hlog⟩
    exact ⟨⟨hc.le, hc.inside, hc.inv.onBoot.startOver hd, hc.inv.base, hc.inv.length, hc.inv.nblocks,
      hc.inv.landed, hc.inv.bytes⟩, hlog⟩
  · rintro ⟨c, es⟩ ⟨hc, hlog, hreported⟩
    obtain ⟨hc', hall, hnew, hsum⟩ := loadAttempt_lands hd hbatch hrange hoff hlen hc
    dsimp only at hlog hreported hsum ⊢
    have hlog' := hlog.resume (by rw [hreported]; exact hnew)
    rw [← hreported, ← reported_append] at hsum
    refine ⟨fun a ha => ?_, fun _ => ⟨hc', hlog', hsum⟩⟩
    have hdone := hall (by rw [ha]; rfl)
    have hinv := hc'.inv
    rw [hdone] at hinv
    exact ⟨hinv, hlog', hsum.trans hdone⟩
  · exact fun h => absurd h (Nat.lt_irrefl 0)
  · exact ⟨hs, rfl, rfl, hn, fun _ => rfl, fun i b hi => absurd hi (Nat.not_lt_zero i)⟩

/-- The bytes of RAM, block by block. -/
theorem LoadInv.block {range : List UInt8} (hlen : range.length = len) (hhigh : dst + len ≤ 2 ^ 32)
    (h : LoadInv pf img I number info range len dst len t) (k : Nat) :
    ramBytes t.w.m.ram (dst + k * blksumBlock) (min blksumBlock (len - k * blksumBlock)) =
        (range.drop (k * blksumBlock)).take blksumBlock ∨
      ∃ ld, info = some ld ∧ SecondChanged pf ld len dst t.log k := by
  by_cases hchanged : ∃ ld, info = some ld ∧ SecondChanged pf ld len dst t.log k
  · exact .inr hchanged
  · left
    refine List.ext_getElem? fun i => ?_
    rw [ramBytes, List.getElem?_map, List.getElem?_take, List.getElem?_drop]
    by_cases hi : i < min blksumBlock (len - k * blksumBlock)
    · rw [List.getElem?_range hi, if_pos (by omega), List.getElem?_eq_getElem (by omega)]
      have hblock : (k * blksumBlock + i) / blksumBlock = k := by
        rw [show blksumBlock = 65536 from rfl] at *
        omega
      have hbyte := h.bytes (k * blksumBlock + i) _ (by omega) (List.getElem?_eq_getElem (by omega))
      rw [hblock] at hbyte
      rw [Option.map_some, Nat.add_assoc, u32_of_lt (by omega)]
      exact congrArg some (hbyte.resolve_right hchanged)
    · rw [List.getElem?_eq_none (by rw [List.length_range]; omega)]
      split
      · rw [List.getElem?_eq_none (by omega), Option.map_none]
      · rfl

end Load

/-- The boot when `load_file` is called: the boot drive is selected, `vol` has been mounted, and the
table in use, if there is one, is of a mounted volume and counts its blocks in 32 bits. -/
structure AtLoad (img : Image) (I : δ → Prop) (number : Nat) (vol : FatVolume) (s : Boot δ) :
    Prop where
  onBoot : OnBoot img I number s
  mounted : GoodVolume vol
  blk : ∀ t, s.g.blk = some t →
    GoodVolume t.vol ∧ t.hdr.kernel.nblocks < 2 ^ 32 ∧ t.hdr.initrd.nblocks < 2 ^ 32

/-- The hooks of a load, and the number of blocks that its table has for it. -/
theorem loadInfo_of_some {file : FatFile} {fileOff : Nat}
    (h : loadInfo initrd vol file fileOff s.g = some ld) :
    s.g.blk = some ld.table ∧ ld.vol = vol ∧ ld.file = file ∧ ld.fileOff = fileOff := by
  rw [loadInfo] at h
  split at h
  · rename_i hsum hblk
    cases h
    exact ⟨hblk, rfl, rfl, rfl⟩
  · cases h

/-- `load_file` succeeds only if its loop does, and leaves the boot as the loop left it. -/
theorem loadFile_ok {file : FatFile} {fileOff len dst : Nat} {s' : Boot δ}
    (h : loadFile pf initrd vol file fileOff len dst s = (.ok true, s')) :
    let info := loadInfo initrd vol file fileOff s.g
    let r := loadRun pf (info.map (blkvHooks pf)) vol file fileOff len dst
      (info.elim 0 fun ld => ld.blkFile.nblocks) s
    r.1.isSome ∧ s' = r.2.run.w := by
  rw [loadFile] at h
  simp only [bind_apply, look_apply] at h
  cases hinfo : loadInfo initrd vol file fileOff s.g with
  | none =>
    rw [hinfo] at h
    obtain ⟨hok, hs'⟩ := Prod.mk.inj h
    exact ⟨Except.ok.inj hok, hs'.symm⟩
  | some ld =>
    rw [hinfo] at h
    simp only [bind_apply, step] at h
    split at h
    · rename_i hok
      refine ⟨hok, ?_⟩
      -- the verdict on the blocks changes nothing
      simp only [bind_apply, require] at h
      split_ifs at h
      · exact (Prod.mk.inj h).2.symm
      · cases h
    · cases h

/-- A platform whose one drive serves every read, with the loader's buffers from 4 KiB on. -/
def samplePlatform (img : Image) : Platform Unit where
  drive :=
    { img.backend with
      reset := id
      select := fun _ d => (⟨0, []⟩, d)
      getChunk := fun _ => 36
      setChunk := fun _ d => d
      getCap := fun _ => 36
      setCap := fun _ d => d }
  batch := 36
  batch_pos := by decide
  batch_lt := by decide
  ro := fun _ => []
  headerBuf := 0x1000
  cmdlineBuf := 0x2000
  blkSec := 0x3000
  lowProbe := 0x4000
  headerBuf_le := by decide
  cmdlineBuf_le := by decide
  blkSec_le := by decide
  lowProbe_le := by decide
  header_cmdline := by decide
  header_blkSec := by decide
  e820 := fun _ _ => ⟨true, 0, 0, 0, ⟨0, 0, 0⟩⟩
  a20 := true

theorem bootDrive_sample (img : Image) :
    BootDrive (samplePlatform img).drive 0 img (fun _ => True) where
  faithful := faithful_backend img
  reset _ h := h
  setChunk _ _ h := h
  setCap _ _ h := h
  reselect _ := rfl
  selected _ _ := trivial

end ZfsBoot.Proofs.Stage2
