import Mathlib.Logic.Function.Iterate
import ZfsBoot.Bios.Fat

/-!
# `ZfsBoot.Proofs.Fat.Volume`: mounted volumes, FAT lookups and the chain walk

Three layers, each with one lemma that its callers use in place of the code:

* `mounted_of_fatMountSector`: what the checks of `fat_mount` establish about the geometry;
* `lookup_spec`: a FAT lookup reads at most one sector of the FAT, and returns the entry
  that is on the disk if the caches hold what is on the disk;
* `advance_spec` and `advanceN_spec`: the protected walk hops along the FAT chain, and stops
  only at a failed read or at a hop that `HopOk` rejects.

Every lemma is stated for a disk that may answer anything: the part about contents has the
premise `Ready`, the part about requests has none.
-/

set_option autoImplicit false

namespace ZfsBoot.Proofs.Fat

open List
open Lib Bios

variable {j lba : Nat} {w : FatChainWalk} {c pl n : Nat} {sector : List UInt8} {δ : Type}
  {bk : Backend δ} {img : Image} {I : δ → Prop} {vol : FatVolume} {ps : Nat} {st : FatRun δ}

/-! ### The geometry of a mounted volume -/

/-- What `fat_mount` has checked, in sectors from the start of the partition: the FAT holds
an entry for every cluster, and both the FATs and the clusters end within the `ps` sectors of
the partition. -/
structure Mounted (vol : FatVolume) (ps : Nat) : Prop where
  bps : vol.bytesPerSector = 512
  spc_pos : 1 ≤ vol.sectorsPerCluster
  spc_lt : vol.sectorsPerCluster < 256
  clusters_lt : vol.totalClusters + 2 < 2 ^ 32
  regions : ∃ fat data, vol.fatStartLba = u64 (vol.partitionLba + fat) ∧
    vol.dataStartLba = u64 (vol.partitionLba + data) ∧ fat + vol.sectorsPerFat ≤ data ∧
    data + vol.totalClusters * vol.sectorsPerCluster ≤ ps
  fat_fits : 4 * (vol.totalClusters + 2) ≤ 512 * vol.sectorsPerFat

/-- The FATs fit between the reserved sectors and the end of the volume, by the check that
divides instead of multiplying. -/
theorem fats_le_of_div {total reserved numFats fatSize : Nat} (hn : numFats ≠ 0)
    (hr : reserved < total) (h : ¬ fatSize > (total - reserved) / numFats) :
    reserved + numFats * fatSize ≤ total := by
  have hle : fatSize * numFats ≤ total - reserved :=
    (Nat.le_div_iff_mul_le (Nat.pos_of_ne_zero hn)).mp (Nat.le_of_not_gt h)
  rw [Nat.mul_comm] at hle
  omega

theorem totalSectors_lt (sector : List UInt8) : (fat32Bpb sector).totalSectors < 2 ^ 32 := by
  have h32 := le32_lt sector 32
  have h16 := le16_lt sector 19
  unfold Fat32Bpb.totalSectors fat32Bpb
  split
  · exact h32
  · exact Nat.lt_trans h16 (by decide)

/-- The checks of `fat_mount` that its geometry rests on. -/
structure Accepted (bpb : Fat32Bpb) (ps : Nat) : Prop where
  bps : bpb.bytesPerSector = diskSectorSize
  spc : bpb.sectorsPerCluster ≠ 0
  numFats : bpb.numFats ≠ 0
  reserved : bpb.reservedSectorCount ≠ 0
  fatSize : bpb.fatSize32 ≠ 0
  partition : bpb.totalSectors ≤ ps
  reserved_lt : bpb.reservedSectorCount < bpb.totalSectors
  divided : ¬ bpb.fatSize32 > (bpb.totalSectors - bpb.reservedSectorCount) / bpb.numFats
  data : bpb.reservedPlusFats < bpb.totalSectors
  required : bpb.requiredFatSectors ≤ bpb.fatSize32

theorem accepted_of_fatMountSector (h : fatMountSector sector pl ps = some vol) :
    vol = (fat32Bpb sector).volume pl ∧ Accepted (fat32Bpb sector) ps := by
  unfold fatMountSector at h
  generalize fat32Bpb sector = bpb at h ⊢
  simp only [Option.ite_none_left_eq_some, Option.some.injEq] at h
  obtain ⟨-, hbps, hspc, -, hnf, -, hfs, -, -, hpart, hres, hdiv, hrpf, -, hfat, -, hvol⟩ := h
  rw [not_or] at hnf hfs
  exact ⟨hvol.symm, not_not.mp hbps, hspc, hnf.1, hnf.2, hfs.1, Nat.le_of_not_gt hpart,
    Nat.lt_of_not_le hres, hdiv, Nat.lt_of_not_le hrpf, Nat.le_of_not_lt hfat⟩

theorem Accepted.mounted {bpb : Fat32Bpb} (ha : Accepted bpb ps) (pl : Nat)
    (htotal : bpb.totalSectors < 2 ^ 32) (hspc : bpb.sectorsPerCluster < 256) :
    Mounted (bpb.volume pl) ps := by
  have hfats := fats_le_of_div ha.numFats ha.reserved_lt ha.divided
  have hle : bpb.fatSize32 ≤ bpb.numFats * bpb.fatSize32 :=
    Nat.le_mul_of_pos_left _ (Nat.pos_of_ne_zero ha.numFats)
  have hfs := Nat.pos_of_ne_zero ha.fatSize
  have hres := Nat.pos_of_ne_zero ha.reserved
  -- with the product bounded, neither 32-bit sum wraps
  have hrpf : bpb.reservedPlusFats
      = bpb.reservedSectorCount + bpb.numFats * bpb.fatSize32 := by
    have hprod : u32 (bpb.numFats * bpb.fatSize32) = bpb.numFats * bpb.fatSize32 :=
      u32_of_lt (by omega)
    rw [Fat32Bpb.reservedPlusFats, hprod]
    exact u32_of_lt (Nat.lt_of_le_of_lt hfats htotal)
  have hclusters : bpb.clusterCount * bpb.sectorsPerCluster
      ≤ bpb.totalSectors - bpb.reservedPlusFats := Nat.div_mul_le_self _ _
  have hcount : bpb.clusterCount ≤ bpb.totalSectors - bpb.reservedPlusFats :=
    Nat.div_le_self _ _
  have hpart := ha.partition
  have hlt : bpb.clusterCount + 2 < 2 ^ 32 := by omega
  have hreq := ha.required
  rw [Fat32Bpb.requiredFatSectors, u32_of_lt hlt, ha.bps, diskSectorSize,
    u64_of_lt (by omega)] at hreq
  exact
    { bps := ha.bps
      spc_pos := Nat.pos_of_ne_zero ha.spc
      spc_lt := hspc
      clusters_lt := hlt
      regions := ⟨bpb.reservedSectorCount,
        bpb.reservedSectorCount + bpb.numFats * bpb.fatSize32, rfl,
        by rw [← Nat.add_assoc]; exact u64_add_u64 _ _, Nat.add_le_add_left hle _,
        by show _ + bpb.clusterCount * bpb.sectorsPerCluster ≤ ps; omega⟩
      fat_fits := by show 4 * (bpb.clusterCount + 2) ≤ 512 * bpb.fatSize32; omega }

/-- A volume that `fat_mount` accepts has the geometry of `Mounted`. -/
theorem mounted_of_fatMountSector
    (h : fatMountSector sector pl ps = some vol) : Mounted vol ps := by
  obtain ⟨rfl, ha⟩ := accepted_of_fatMountSector h
  exact ha.mounted pl (totalSectors_lt sector) (byteAt_lt sector 13)

theorem root_inRange_of_fatMountSector
    (h : fatMountSector sector pl ps = some vol) : fatClusterInRange vol vol.rootCluster := by
  unfold fatMountSector at h
  simp only [Option.ite_none_left_eq_some, Option.some.injEq] at h
  obtain ⟨-, -, -, -, -, -, -, -, -, -, -, -, -, -, -, hroot, rfl⟩ := h
  exact not_not.mp hroot

/-- In a mounted volume `total_clusters + 2` does not wrap. -/
theorem inRange_iff (hm : Mounted vol ps) (c : Nat) :
    fatClusterInRange vol c ↔ 2 ≤ c ∧ c < vol.totalClusters + 2 := by
  rw [fatClusterInRange, u32_of_lt hm.clusters_lt]

/-- A request for `n` sectors from `lba` stays within the `ps` sectors of the partition. -/
def Inside (vol : FatVolume) (ps lba n : Nat) : Prop :=
  ∃ k, lba = u64 (vol.partitionLba + k) ∧ k + n ≤ ps

/-- The FAT sector of a cluster in range is in the FAT. A product that wraps only lands
further to the front. -/
theorem inside_fatEntrySector (hm : Mounted vol ps) (hc : fatClusterInRange vol c) :
    Inside vol ps (fatEntrySector vol c) 1 := by
  obtain ⟨fat, data, hfat, -, hle, hend⟩ := hm.regions
  rw [inRange_iff hm] at hc
  have hwrap := u32_le (c * 4)
  have hfits := hm.fat_fits
  refine ⟨fat + u32 (c * 4) / 512, ?_, by omega⟩
  rw [fatEntrySector, hm.bps, hfat, u64_add_u64, Nat.add_assoc]

theorem clusterToLba_eq (hm : Mounted vol ps) (hc : fatClusterInRange vol c) :
    clusterToLba vol c = u64 (vol.dataStartLba + (c - 2) * vol.sectorsPerCluster) := by
  have hlt := hm.clusters_lt
  rw [inRange_iff hm] at hc
  have : u32 (c + 2 ^ 32 - 2) = c - 2 := by unfold u32; omega
  rw [clusterToLba, this]

/-- Consecutive clusters follow each other on the disk. -/
theorem clusterToLba_add (hm : Mounted vol ps) {r : Nat} (hc : fatClusterInRange vol c)
    (hj : fatClusterInRange vol (c + j)) :
    u64 (clusterToLba vol (c + j) + r)
      = u64 (clusterToLba vol c + (j * vol.sectorsPerCluster + r)) := by
  rw [clusterToLba_eq hm hj, clusterToLba_eq hm hc, u64_add_u64, u64_add_u64]
  rw [inRange_iff hm] at hc
  rw [show c + j - 2 = c - 2 + j by omega, Nat.add_mul]
  congr 1
  omega

/-- A run of sectors that starts `s` sectors into cluster `c` and ends within `c + j` is
inside the partition. -/
theorem inside_dataRun (hm : Mounted vol ps) {s : Nat} (hc : fatClusterInRange vol c)
    (hj : fatClusterInRange vol (c + j)) (hn : s + n ≤ (j + 1) * vol.sectorsPerCluster) :
    Inside vol ps (u64 (clusterToLba vol c + s)) n := by
  obtain ⟨fat, data, -, hdata, -, hend⟩ := hm.regions
  refine ⟨data + (c - 2) * vol.sectorsPerCluster + s, ?_, ?_⟩
  · rw [clusterToLba_eq hm hc, u64_add_u64, hdata, Nat.add_assoc, u64_add_u64]
    congr 1
    omega
  · rw [inRange_iff hm] at hc hj
    have hle : (c - 2 + (j + 1)) * vol.sectorsPerCluster
        ≤ vol.totalClusters * vol.sectorsPerCluster := Nat.mul_le_mul_right _ (by omega)
    rw [Nat.add_mul] at hle
    omega

/-! ### What a call may do to the machine -/

/-- From `st` to `st'` the call only read, inside the partition: RAM and the staging buffer
are as they were. -/
structure Reads (vol : FatVolume) (ps : Nat) (st st' : FatRun δ) : Prop where
  ram : st'.m.ram = st.m.ram
  ioBuf : st'.m.ioBuf = st.m.ioBuf
  log : ∃ new, st'.events = st.events ++ new ∧
    ∀ e ∈ new, ∃ lba n ok, e = .read lba n ok ∧ Inside vol ps lba n

theorem Reads.refl (st : FatRun δ) : Reads vol ps st st := ⟨rfl, rfl, [], by simp, by simp⟩

theorem Reads.trans {st st' st'' : FatRun δ} (h : Reads vol ps st st')
    (h' : Reads vol ps st' st'') : Reads vol ps st st'' := by
  obtain ⟨new, hnew, hin⟩ := h.log
  obtain ⟨new', hnew', hin'⟩ := h'.log
  refine ⟨h'.ram.trans h.ram, h'.ioBuf.trans h.ioBuf, new ++ new', ?_, ?_⟩
  · rw [hnew', hnew, append_assoc]
  · intro e he
    exact (mem_append.mp he).elim (hin e) (hin' e)

theorem Reads.fail {st st' : FatRun δ} (h : Reads vol ps st st') (reason : FatErr)
    (cluster value lba : Nat) : Reads vol ps st (st'.fail reason cluster value lba) :=
  ⟨h.ram, h.ioBuf, h.log⟩

theorem Reads.setSlot {st st' : FatRun δ} (h : Reads vol ps st st') (b : Bool) (c : FatCache) :
    Reads vol ps st (st'.setSlot b c) := by
  cases b <;> exact ⟨h.ram, h.ioBuf, h.log⟩

theorem reads_read (bk : Backend δ) (hin : Inside vol ps lba n) (st : FatRun δ) :
    Reads vol ps st (st.read bk lba n).2 := by
  refine ⟨rfl, rfl, _, rfl, ?_⟩
  intro e he
  rw [mem_singleton.mp he]
  exact ⟨lba, n, _, rfl, hin⟩

/-- Some request of the log failed. -/
def ReadFailed (events : List FatEvent) : Prop := ∃ lba n, FatEvent.read lba n false ∈ events

/-- A request of the log failed, so the disk is not one that never fails. -/
structure DiskFailed (bk : Backend δ) (I : δ → Prop) (events : List FatEvent) : Prop where
  logged : ReadFailed events
  fallible : ¬ bk.NeverFails I

theorem diskFailed_read (hdisk : I st.m.disk) (h : (st.read bk lba n).1.ok = false) :
    DiskFailed bk I (st.read bk lba n).2.events := by
  refine ⟨⟨lba, n, mem_append_right _ ?_⟩, fun hnever => ?_⟩
  · rw [mem_singleton, ← h]
    rfl
  · rw [show (st.read bk lba n).1.ok = true from hnever _ lba n hdisk] at h
    cases h

theorem Reads.diskFailed {st st' : FatRun δ} (h : Reads vol ps st st')
    (hfail : DiskFailed bk I st.events) : DiskFailed bk I st'.events := by
  obtain ⟨new, hnew, -⟩ := h.log
  obtain ⟨lba, n, hmem⟩ := hfail.logged
  exact ⟨⟨lba, n, by rw [hnew]; exact mem_append_left _ hmem⟩, hfail.fallible⟩

/-- A cache slot that is in use holds the sector it says it holds. -/
def Coherent (img : Image) (c : FatCache) : Prop := c.valid = true → c.data = img.sector c.lba

/-- The disk behind the machine holds `img`, and so do both caches. -/
structure Ready (img : Image) (I : δ → Prop) (m : Machine δ) : Prop where
  disk : I m.disk
  cache : Coherent img m.cache
  cache2 : Coherent img m.cache2

theorem Ready.read (hf : bk.Faithful img I) (h : Ready img I st.m) (lba n : Nat) :
    Ready img I (st.read bk lba n).2.m :=
  ⟨hf.keeps _ _ _ h.disk, h.cache, h.cache2⟩

theorem Ready.fail (h : Ready img I st.m) (reason : FatErr) (cluster value lba : Nat) :
    Ready img I (st.fail reason cluster value lba).m :=
  ⟨h.disk, h.cache, h.cache2⟩

theorem Ready.setRemaining (h : Ready img I st.m) (n : Nat) :
    Ready img I (st.setRemaining n).m := ⟨h.disk, h.cache, h.cache2⟩

theorem Ready.stage (h : Ready img I st.m) (data : List UInt8) :
    Ready img I (st.stage data).m := ⟨h.disk, h.cache, h.cache2⟩

theorem Ready.setSlot (h : Ready img I st.m) (b : Bool) {c : FatCache} (hc : Coherent img c) :
    Ready img I (st.setSlot b c).m := by
  cases b
  · exact ⟨h.disk, hc, h.cache2⟩
  · exact ⟨h.disk, h.cache, hc⟩

theorem Ready.slot (h : Ready img I st.m) (b : Bool) : Coherent img (st.slot b) := by
  cases b
  · exact h.cache
  · exact h.cache2

theorem Image.read_one (img : Image) (lba : Nat) : img.read lba 1 = img.sector (u64 lba) := by
  simp [Image.read, range_succ]

/-! ### One FAT lookup -/

/-- The successor of a cluster, by the FAT on the disk. -/
def fatNext (img : Image) (vol : FatVolume) (c : Nat) : Nat :=
  fatClusterMask (le32 (img.sector (fatEntrySector vol c)) (fatEntryOffset vol c))

/-- What a FAT lookup of a cluster in range does. -/
structure LookupPost (bk : Backend δ) (img : Image) (I : δ → Prop) (vol : FatVolume) (ps c : Nat)
    (st : FatRun δ) (r : Option Nat × FatRun δ) : Prop where
  reads : Reads vol ps st r.2
  ready : Ready img I st.m → Ready img I r.2.m
  value : Ready img I st.m → ∀ n, r.1 = some n → n = fatNext img vol c
  failed : Ready img I st.m → r.1 = none → DiskFailed bk I r.2.events

/-- The sector that a successful read of one sector returns. -/
theorem read_sector (hf : bk.Faithful img I) (hdisk : I st.m.disk)
    (hok : (st.read bk (fatEntrySector vol c) 1).1.ok = true) :
    (st.read bk (fatEntrySector vol c) 1).1.data = img.sector (fatEntrySector vol c) := by
  rw [show (st.read bk (fatEntrySector vol c) 1).1.data = _ from
    hf.truthful _ _ _ (by decide) hdisk hok, Image.read_one]
  congr 1
  exact u64_of_lt (u64_lt _)

/-- A lookup keeps the caches in step with the disk, and returns what is on the disk. -/
theorem lookup_coherent (hf : bk.Faithful img I) (vol : FatVolume) (c : Nat) (b : Bool)
    (st : FatRun δ) (hr : Ready img I st.m) :
    Ready img I (fatGetNextClusterSlot bk vol c b st).2.m ∧
    ∀ n, (fatGetNextClusterSlot bk vol c b st).1 = some n →
      fatClusterInRange vol c ∧ n = fatNext img vol c := by
  unfold fatGetNextClusterSlot
  split
  · exact ⟨hr.fail _ _ _ _, by simp⟩
  · rename_i hc
    rw [not_not] at hc
    dsimp only
    split
    · rename_i hhit
      refine ⟨hr, fun n hn => ⟨hc, ?_⟩⟩
      have hdata := hr.slot b hhit.1
      rw [hhit.2] at hdata
      rw [← Option.some.inj hn, hdata, fatNext]
    · split
      · rename_i hok
        have hdata := read_sector hf hr.disk hok
        refine ⟨(hr.read hf _ _).setSlot b fun _ => hdata, fun n hn => ⟨hc, ?_⟩⟩
        rw [← Option.some.inj hn, hdata, fatNext]
      · exact ⟨((hr.read hf _ _).setSlot b (by simp [Coherent])).fail _ _ _ _, by simp⟩

theorem lookup_spec (hf : bk.Faithful img I) (hm : Mounted vol ps)
    (hc : fatClusterInRange vol c) (b : Bool) (st : FatRun δ) :
    LookupPost bk img I vol ps c st (fatGetNextClusterSlot bk vol c b st) := by
  have hcoherent := lookup_coherent hf vol c b st
  suffices hrest : Reads vol ps st (fatGetNextClusterSlot bk vol c b st).2 ∧
      (Ready img I st.m → (fatGetNextClusterSlot bk vol c b st).1 = none →
        DiskFailed bk I (fatGetNextClusterSlot bk vol c b st).2.events) from
    ⟨hrest.1, fun hr => (hcoherent hr).1, fun hr n hn => ((hcoherent hr).2 n hn).2, hrest.2⟩
  have hreads := reads_read bk (inside_fatEntrySector hm hc) st
  unfold fatGetNextClusterSlot
  rw [if_neg (not_not.mpr hc)]
  dsimp only
  split
  · exact ⟨.refl st, by simp⟩
  · split
    · exact ⟨hreads.setSlot b _, by simp⟩
    · rename_i hfail
      refine ⟨(hreads.setSlot b _).fail _ _ _ _, fun hr _ => ?_⟩
      have hread : DiskFailed bk I (st.read bk (fatEntrySector vol c) 1).2.events :=
        diskFailed_read hr.disk (by simpa using hfail)
      have hrefl : Reads vol ps (st.read bk (fatEntrySector vol c) 1).2 _ := .refl _
      exact ((hrefl.setSlot b _).fail _ _ _ _).diskFailed hread

/-! ### The protected walk -/

/-- Both pointers of a walk are on clusters of the volume. -/
structure WalkIn (vol : FatVolume) (w : FatChainWalk) : Prop where
  cluster : fatClusterInRange vol w.cluster
  tortoise : fatClusterInRange vol w.tortoise

/-- The walk one hop further along the FAT of `img`. -/
def walkNext (img : Image) (vol : FatVolume) (w : FatChainWalk) : FatChainWalk :=
  { cluster := fatNext img vol w.cluster
    tortoise := if w.tortoiseDue then w.tortoise else fatNext img vol w.tortoise
    hops := w.hops + 1
    tortoiseDue := !w.tortoiseDue }

/-- The hop from `w` is one that `fat_chain_advance` lets pass. -/
structure HopOk (img : Image) (vol : FatVolume) (w : FatChainWalk) : Prop where
  hops : w.hops ≤ vol.totalClusters
  cluster : fatClusterInRange vol (fatNext img vol w.cluster)
  tortoise : w.tortoiseDue = false → fatClusterInRange vol (fatNext img vol w.tortoise) ∧
    fatNext img vol w.tortoise ≠ fatNext img vol w.cluster

/-- What `n` hops of the protected walk do, up to the first that fails. -/
structure WalkPost (bk : Backend δ) (img : Image) (I : δ → Prop) (vol : FatVolume) (ps n : Nat)
    (w : FatChainWalk) (st : FatRun δ) (r : Bool × FatChainWalk × FatRun δ) : Prop where
  reads : Reads vol ps st r.2.2
  ready : Ready img I st.m → Ready img I r.2.2.m
  walkIn : r.1 = true → WalkIn vol r.2.1
  counted : r.1 = true → r.2.1.hops = w.hops + n ∧ (n = 0 ∨ r.2.1.hops ≤ vol.totalClusters + 1)
  passed : Ready img I st.m → r.1 = true →
    r.2.1 = (walkNext img vol)^[n] w ∧ ∀ i < n, HopOk img vol ((walkNext img vol)^[i] w)
  stopped : Ready img I st.m → r.1 = false →
    DiskFailed bk I r.2.2.events ∨ ∃ i < n, ¬ HopOk img vol ((walkNext img vol)^[i] w)

/-- The tortoise's half of a hop, from the walk `w` whose head has already moved. -/
theorem tortoise_spec (hf : bk.Faithful img I) (hm : Mounted vol ps) (hw : WalkIn vol w)
    (st : FatRun δ) {r : Bool × FatChainWalk × FatRun δ} (h : fatTortoiseAdvance bk vol w st = r) :
    Reads vol ps st r.2.2 ∧ (Ready img I st.m → Ready img I r.2.2.m) ∧
    (r.1 = true → r.2.1 = { w with tortoise := r.2.1.tortoise } ∧ WalkIn vol r.2.1) ∧
    (Ready img I st.m → r.1 = true → r.2.1.tortoise = fatNext img vol w.tortoise ∧
      fatNext img vol w.tortoise ≠ w.cluster) ∧
    (Ready img I st.m → r.1 = false → DiskFailed bk I r.2.2.events ∨
      ¬ fatClusterInRange vol (fatNext img vol w.tortoise) ∨
      fatNext img vol w.tortoise = w.cluster) := by
  have hl := lookup_spec hf hm hw.tortoise true st
  unfold fatTortoiseAdvance at h
  rcases hget : fatGetNextClusterSlot bk vol w.tortoise true st with ⟨_ | next, st1⟩
  all_goals
    rw [hget] at hl h
    dsimp only at h
  · subst h
    exact ⟨hl.reads, hl.ready, by simp, by simp, fun hr _ => .inl (hl.failed hr rfl)⟩
  · have hval (hr : Ready img I st.m) : next = fatNext img vol w.tortoise :=
      hl.value hr next rfl
    split at h
    · rename_i hout
      subst h
      refine ⟨hl.reads.fail _ _ _ _, fun hr => (hl.ready hr).fail _ _ _ _, by simp, by simp,
        fun hr _ => .inr (.inl ?_)⟩
      rwa [← hval hr]
    · rename_i hin
      split at h
      · rename_i heq
        subst h
        refine ⟨hl.reads.fail _ _ _ _, fun hr => (hl.ready hr).fail _ _ _ _, by simp, by simp,
          fun hr _ => .inr (.inr ?_)⟩
        rw [← hval hr, heq]
      · rename_i hne
        subst h
        refine ⟨hl.reads, hl.ready, fun _ => ⟨rfl, hw.cluster, not_not.mp hin⟩,
          fun hr _ => ⟨hval hr, ?_⟩, by simp⟩
        rwa [← hval hr]

/-- One hop of the protected walk. -/
theorem advance_spec (hf : bk.Faithful img I) (hm : Mounted vol ps)
    (hw : WalkIn vol w) (st : FatRun δ) :
    WalkPost bk img I vol ps 1 w st (fatChainAdvance bk vol w st) := by
  have hlt := hm.clusters_lt
  have hl := lookup_spec hf hm hw.cluster false st
  unfold fatChainAdvance
  dsimp only
  split
  · rename_i hlong
    refine ⟨(Reads.refl st).fail _ _ _ _, fun hr => hr.fail _ _ _ _, by simp, by simp, by simp,
      fun _ _ => .inr ⟨0, by simp, fun hop => ?_⟩⟩
    exact absurd hop.hops (Nat.not_le_of_lt hlong)
  · rename_i hhops
    have hcount : u32 (w.hops + 1) = w.hops + 1 := u32_of_lt (by omega)
    rw [fatGetNextCluster]
    rcases hget : fatGetNextClusterSlot bk vol w.cluster false st with ⟨_ | next, st1⟩
    all_goals
      rw [hget] at hl
      dsimp only
    · exact ⟨hl.reads, hl.ready, by simp, by simp, by simp,
        fun hr _ => .inl (hl.failed hr rfl)⟩
    · have hval (hr : Ready img I st.m) : next = fatNext img vol w.cluster :=
        hl.value hr next rfl
      split
      · rename_i hout
        refine ⟨hl.reads.fail _ _ _ _, fun hr => (hl.ready hr).fail _ _ _ _, by simp, by simp,
          by simp, fun hr _ => .inr ⟨0, by simp, fun hop => hout ?_⟩⟩
        rw [hval hr]
        exact hop.cluster
      · rename_i hin
        rw [not_not] at hin
        cases hdue : w.tortoiseDue with
        | true =>
          simp only [Bool.not_true, Bool.false_eq_true, if_false, hcount]
          refine ⟨hl.reads, hl.ready, fun _ => ⟨hin, hw.tortoise⟩,
            fun _ => ⟨rfl, .inr (by dsimp only; omega)⟩, ?_, by simp⟩
          intro hr _
          refine ⟨?_, ?_⟩
          · simp [walkNext, hdue, hval hr]
          · intro i hi
            obtain rfl : i = 0 := by omega
            refine ⟨by simpa using hhops, by simpa [hval hr] using hin, by simp [hdue]⟩
        | false =>
          -- the head has moved, so the tortoise is compared with its new place
          have ht := tortoise_spec hf hm (w := { w with
            hops := u32 (w.hops + 1), cluster := next, tortoiseDue := true })
            ⟨hin, hw.tortoise⟩ st1 rfl
          simp only [Bool.not_false, if_true]
          obtain ⟨hreads, hready, hkeep, hpass, hstop⟩ := ht
          refine ⟨hl.reads.trans hreads, fun hr => hready (hl.ready hr),
            fun h => (hkeep h).2, ?_, ?_, ?_⟩
          · intro h
            rw [(hkeep h).1]
            exact ⟨hcount, .inr (by simp only [hcount]; omega)⟩
          · intro hr h
            obtain ⟨htort, hne⟩ := hpass (hl.ready hr) h
            refine ⟨?_, ?_⟩
            · rw [(hkeep h).1, htort]
              simp [walkNext, hdue, hcount, hval hr]
            · intro i hi
              obtain rfl : i = 0 := by omega
              refine ⟨by simpa using hhops, by simpa [hval hr] using hin, fun _ => ⟨?_, ?_⟩⟩
              · have := (hkeep h).2.tortoise
                rwa [htort] at this
              · rw [hval hr] at hne
                exact hne
          · intro hr h
            rcases hstop (hl.ready hr) h with hfail | hout | heq
            · exact .inl hfail
            · exact .inr ⟨0, by simp, fun hop => hout (hop.tortoise hdue).1⟩
            · refine .inr ⟨0, by simp, fun hop => (hop.tortoise hdue).2 ?_⟩
              rw [hval hr] at heq
              exact heq

/-- Any number of hops. -/
theorem advanceN_spec (hf : bk.Faithful img I) (hm : Mounted vol ps) (n : Nat) :
    ∀ {w : FatChainWalk}, WalkIn vol w → ∀ st : FatRun δ,
      WalkPost bk img I vol ps n w st (fatChainAdvanceN bk vol n w st) := by
  induction n with
  | zero =>
    intro w hw st
    exact ⟨.refl st, id, fun _ => hw, fun _ => ⟨rfl, .inl rfl⟩, fun _ _ => ⟨rfl, by simp⟩,
      by simp [fatChainAdvanceN]⟩
  | succ n ih =>
    intro w hw st
    have h1 := advance_spec hf hm hw st
    rw [fatChainAdvanceN]
    rcases hstep : fatChainAdvance bk vol w st with ⟨ok, w1, st1⟩
    rw [hstep] at h1
    cases ok with
    | false =>
      refine ⟨h1.reads, h1.ready, by simp, by simp, by simp, fun hr _ => ?_⟩
      rcases h1.stopped hr rfl with hfail | ⟨i, hi, hbad⟩
      · exact .inl hfail
      · exact .inr ⟨i, by omega, hbad⟩
    | true =>
      have h2 := ih (h1.walkIn rfl) st1
      obtain ⟨hhops, hbound⟩ := h1.counted rfl
      refine ⟨h1.reads.trans h2.reads, fun hr => h2.ready (h1.ready hr), h2.walkIn, ?_, ?_,
        ?_⟩
      · intro h
        obtain ⟨hhops', hbound'⟩ := h2.counted h
        dsimp only at hhops hbound hhops' hbound' ⊢
        omega
      · intro hr h
        obtain ⟨hw1, hok1⟩ := h1.passed hr rfl
        obtain ⟨hw2, hok2⟩ := h2.passed (h1.ready hr) h
        obtain rfl : w1 = walkNext img vol w := hw1
        refine ⟨hw2, fun i hi => ?_⟩
        cases i with
        | zero => exact hok1 0 (by omega)
        | succ i => exact hok2 i (by omega)
      · intro hr h
        obtain rfl : w1 = walkNext img vol w := (h1.passed hr rfl).1
        rcases h2.stopped (h1.ready hr) h with hfail | ⟨i, hi, hbad⟩
        · exact .inl hfail
        · exact .inr ⟨i + 1, by omega, hbad⟩

/-! ### A volume to compute with -/

/-- The boot sector of a volume with one FAT of 512 sectors and 65525 clusters, the fewest
`fat_mount` accepts, of `spc` sectors each. -/
def sampleBoot (spc : Nat) : Nat → UInt8
  | 12 => 2
  | 13 => UInt8.ofNat spc
  | 14 => 1
  | 16 => 1
  | 32 => UInt8.ofNat (513 + 65525 * spc)
  | 33 => UInt8.ofNat ((513 + 65525 * spc) / 2 ^ 8)
  | 34 => UInt8.ofNat ((513 + 65525 * spc) / 2 ^ 16)
  | 35 => UInt8.ofNat ((513 + 65525 * spc) / 2 ^ 24)
  | 37 => 2
  | 44 => 2
  | 82 => 0x46 | 83 => 0x41 | 84 => 0x54 | 85 => 0x33 | 86 => 0x32
  | 87 => 0x20 | 88 => 0x20 | 89 => 0x20
  | 510 => 0x55
  | 511 => 0xAA
  | _ => 0

/-- That volume at the start of a disk, with the entries `next` in its FAT and the byte
`data` everywhere after it. -/
def sampleImage (spc : Nat) (next : Nat → Nat) (data : UInt8) : Image :=
  .ofBytes fun p =>
    if p < 512 then sampleBoot spc p
    else if p < 512 * 513 then UInt8.ofNat (next ((p - 512) / 4) / 2 ^ (8 * (p % 4)))
    else data

/-- What `fat_mount` makes of it. -/
def sampleVolume (spc : Nat) : FatVolume where
  partitionLba := 0
  bytesPerSector := 512
  sectorsPerCluster := spc
  numFats := 1
  sectorsPerFat := 512
  rootCluster := 2
  totalClusters := 65525
  fatStartLba := 1
  dataStartLba := 513

/-- A machine before its first call. -/
def blankMachine (ioBuf : List UInt8) : Machine Unit where
  disk := ()
  ram _ := 0
  ioBuf := ioBuf
  cache := ⟨false, 0, []⟩
  cache2 := ⟨false, 0, []⟩
  err := ⟨.none, 0, 0, 0, 0⟩

theorem sampleImage_sector_zero (spc : Nat) (next : Nat → Nat) (data : UInt8) :
    (sampleImage spc next data).sector 0 = (List.range 512).map (sampleBoot spc) := by
  have hsize : diskSectorSize = 512 := rfl
  unfold sampleImage Image.ofBytes
  dsimp only
  simp only [hsize]
  refine map_congr_left (fun i hi => ?_)
  have hlt := mem_range.mp hi
  rw [Nat.mul_zero, Nat.zero_add, if_pos hlt]

theorem sampleMount {spc : Nat} {sectors : UInt64} (next : Nat → Nat) (data : UInt8)
    (ioBuf : List UInt8)
    (h : fatMountSector ((List.range 512).map (sampleBoot spc)) 0 sectors.toNat
      = some (sampleVolume spc)) :
    ∃ st, fatMount (sampleImage spc next data).backend 0 sectors (blankMachine ioBuf)
      = (some (sampleVolume spc), st) := by
  refine ⟨(fatMount (sampleImage spc next data).backend 0 sectors (blankMachine ioBuf)).2,
    Prod.ext ?_ rfl⟩
  have hzero : u64 (UInt64.toNat 0) = 0 := by decide
  simp only [fatMount, FatRun.read, Image.backend, if_true, Image.read_one, hzero,
    sampleImage_sector_zero]
  exact h

theorem sampleMount_one : fatMountSector ((List.range 512).map (sampleBoot 1)) 0
    (66038 : UInt64).toNat = some (sampleVolume 1) := by
  decide +kernel

theorem sampleMount_128 : fatMountSector ((List.range 512).map (sampleBoot 128)) 0
    (8387713 : UInt64).toNat = some (sampleVolume 128) := by
  decide +kernel

end ZfsBoot.Proofs.Fat
