import ZfsBoot.Proofs.Fat.Delivery

/-!
# `ZfsBoot.Proofs.Fat.Cache`: what a FAT lookup returns

A lookup goes through one of two one-sector caches, and the sector it reads is the one that a 32-bit
product addresses. The caches do no harm: whatever lookups, mounts and invalidations came before, and
however many reads have failed in between, a lookup that succeeds returns what one with an empty
cache reads off the disk (`lookups_uncached`). A read that fails leaves a buffer of any content
behind, and the flag that would vouch for it is cleared.

The product does harm. `fat_mount` lets more than `2 ^ 30` clusters through, and from there on four
times the number of a cluster does not fit in 32 bits (`lookup_exact_iff`).
-/

set_option autoImplicit false

namespace ZfsBoot.Proofs.Fat

open Lib Bios

variable {δ : Type} {bk : Backend δ} {img : Image} {I : δ → Prop} {vol : FatVolume} {ps batch : Nat}

/-! ### The caches -/

/-- A call that uses the caches or clears them. -/
inductive CacheCall where
  | lookup (vol : FatVolume) (cluster : Nat) (useSlot2 : Bool)
  | invalidate
  | mount (partitionLba partitionSectors : UInt64)

/-- The machine after a call, and what a lookup returned. -/
def CacheCall.run (bk : Backend δ) (m : Machine δ) : CacheCall → Option Nat × Machine δ
  | .lookup vol cluster useSlot2 =>
    let r := fatGetNextClusterSlot bk vol cluster useSlot2 m.start
    (r.1, r.2.m)
  | .invalidate => (none, fatCacheInvalidate m)
  | .mount partitionLba partitionSectors =>
    (none, (fatMount bk partitionLba partitionSectors m).2.m)

/-- The machine after some calls. -/
def afterCalls (bk : Backend δ) : List CacheCall → Machine δ → Machine δ
  | [], m => m
  | call :: calls, m => afterCalls bk calls (call.run bk m).2

/-- A lookup on a disk that holds `img` and never fails, with nothing in the caches. -/
def uncachedLookup (img : Image) (vol : FatVolume) (cluster : Nat) : Option Nat :=
  (fatGetNextClusterSlot img.backend vol cluster false (blankMachine []).start).1

theorem uncachedLookup_eq {c : Nat} (hc : fatClusterInRange vol c) :
    uncachedLookup img vol c = some (fatNext img vol c) := by
  have hread : img.read (fatEntrySector vol c) 1 = img.sector (fatEntrySector vol c) := by
    rw [Image.read_one, u64_of_lt]
    exact u64_lt _
  rw [uncachedLookup, fatGetNextClusterSlot, if_neg (not_not.mpr hc)]
  simp only [FatRun.slot, Machine.start, blankMachine, FatRun.read, Image.backend, hread, fatNext]
  rfl

theorem ready_call (hf : bk.Faithful img I) {m : Machine δ} (hr : Ready img I m) (call : CacheCall) :
    Ready img I (call.run bk m).2 := by
  cases call with
  | lookup vol c b => exact (lookup_coherent hf vol c b m.start hr).1
  | invalidate => exact ⟨hr.disk, coherent_invalid rfl, coherent_invalid rfl⟩
  | mount pl sectors => exact ready_fatMount hf pl sectors hr.disk

theorem ready_afterCalls (hf : bk.Faithful img I) (calls : List CacheCall) :
    ∀ {m : Machine δ}, Ready img I m → Ready img I (afterCalls bk calls m) := by
  induction calls with
  | nil => exact id
  | cons call calls ih => exact fun hr => ih (ready_call hf hr call)

/-- From a machine with empty caches on: a lookup that succeeds returns what one with empty caches
would read, whichever calls came before it and whichever of their reads failed. -/
theorem lookups_uncached (hf : bk.Faithful img I) {m : Machine δ} (hdisk : I m.disk)
    (hcold : m.cache.valid = false ∧ m.cache2.valid = false) (calls : List CacheCall)
    (vol : FatVolume) (cluster value : Nat) (useSlot2 : Bool)
    (hlookup : ((CacheCall.lookup vol cluster useSlot2).run bk (afterCalls bk calls m)).1
      = some value) :
    uncachedLookup img vol cluster = some value := by
  have hready : Ready img I m := ⟨hdisk, coherent_invalid hcold.1, coherent_invalid hcold.2⟩
  obtain ⟨hc, rfl⟩ := (lookup_coherent hf vol cluster useSlot2
    (afterCalls bk calls m).start (ready_afterCalls hf calls hready)).2 value hlookup
  exact uncachedLookup_eq hc

/-- A disk whose first read fails, with 512 ones in the buffer. -/
def flakyDisk (img : Image) : Backend Bool where
  read warm lba count :=
    if warm then (⟨true, img.read lba count⟩, true) else (⟨false, List.replicate 512 1⟩, true)

theorem flakyDisk_faithful (img : Image) : (flakyDisk img).Faithful img fun _ => True where
  keeps _ _ _ _ := trivial
  truthful warm lba n _ _ hok := by
    cases warm with
    | false => cases hok
    | true => rfl

/-- The second lookup returns the entry, after a first that failed. -/
theorem lookups_uncached_flaky :
    ((CacheCall.lookup (sampleVolume 1) 3 false).run (flakyDisk (sampleImage 1 id 0))
        (afterCalls (flakyDisk (sampleImage 1 id 0)) [.lookup (sampleVolume 1) 3 false]
          { blankMachine [] with disk := false })).1 = some 3 ∧
      uncachedLookup (sampleImage 1 id 0) (sampleVolume 1) 3 = some 3 := by
  have hlookup : ((CacheCall.lookup (sampleVolume 1) 3 false).run (flakyDisk (sampleImage 1 id 0))
      (afterCalls (flakyDisk (sampleImage 1 id 0)) [.lookup (sampleVolume 1) 3 false]
        { blankMachine [] with disk := false })).1 = some 3 := by decide +kernel
  exact ⟨hlookup, lookups_uncached (flakyDisk_faithful _) trivial ⟨rfl, rfl⟩
    [.lookup (sampleVolume 1) 3 false] (sampleVolume 1) 3 3 false hlookup⟩

/-! ### The address of an entry -/

/-- The entry that a lookup reads: the number of the cluster loses its two highest bits. -/
theorem fatNext_eq (hm : Mounted vol ps) (c : Nat) :
    fatNext img vol c = fatEntry img vol (c % 2 ^ 30) := by
  have hwrap : u32 (c * 4) = 4 * (c % 2 ^ 30) := by
    unfold u32
    omega
  rw [fatNext, fatEntry, fatEntrySector, fatEntryOffset, hm.bps, hwrap, fatClusterMask]

/-- On a disk that never fails, from any state after the mount, through either slot: a lookup returns
the entry at four times the number of the cluster, unless that number has more than 30 bits and the
entry at its lower 30 bits is another. -/
theorem lookup_exact_iff (hf : bk.Faithful img I) (hnever : bk.NeverFails I) {pl sectors : UInt64}
    {m : Machine δ} {st : FatRun δ} (hdisk : I m.disk)
    (hmount : fatMount bk pl sectors m = (some vol, st)) (calls : List CacheCall) {cluster : Nat}
    (hcluster : fatClusterInRange vol cluster) (useSlot2 : Bool) :
    (fatGetNextClusterSlot bk vol cluster useSlot2 (afterCalls bk calls st.m).start).1
        = some (fatEntry img vol cluster) ↔
      cluster < 2 ^ 30 ∨ fatEntry img vol (cluster % 2 ^ 30) = fatEntry img vol cluster := by
  have hm := (mounted_of_fatMount hmount).1
  have hready : Ready img I (afterCalls bk calls st.m) := by
    refine ready_afterCalls hf calls ?_
    have hready := ready_fatMount hf pl sectors hdisk
    rwa [hmount] at hready
  have hlookup := lookup_spec hf hm hcluster useSlot2 (afterCalls bk calls st.m).start
  have hvalue : (fatGetNextClusterSlot bk vol cluster useSlot2 (afterCalls bk calls st.m).start).1
      = some (fatEntry img vol (cluster % 2 ^ 30)) := by
    cases hres : (fatGetNextClusterSlot bk vol cluster useSlot2 (afterCalls bk calls st.m).start).1 with
    | none => exact absurd hnever (hlookup.failed hready hres).fallible
    | some n => rw [hlookup.value hready n hres, fatNext_eq hm]
  rw [hvalue, Option.some.injEq]
  refine ⟨.inr, fun h => h.elim (fun hlt => ?_) id⟩
  rw [Nat.mod_eq_of_lt hlt]

/-! ### A volume with more than `2 ^ 30` clusters -/

/-- The boot sector of a volume of `2 ^ 32 - 1` sectors, one to a cluster, with one FAT of `2 ^ 25`
sectors. -/
def hugeBoot : Nat → UInt8
  | 12 => 2
  | 13 => 1
  | 14 => 1
  | 16 => 1
  | 32 => 0xFF | 33 => 0xFF | 34 => 0xFF | 35 => 0xFF
  | 39 => 2
  | 44 => 2
  | 82 => 0x46 | 83 => 0x41 | 84 => 0x54 | 85 => 0x33 | 86 => 0x32
  | 87 => 0x20 | 88 => 0x20 | 89 => 0x20
  | 510 => 0x55
  | 511 => 0xAA
  | _ => 0

/-- That volume at the start of a disk. Entry 0 of its FAT is 7, all others are 0. -/
def hugeImage : Image :=
  .ofBytes fun p => if p < 512 then hugeBoot p else if p = 512 then 7 else 0

def hugeVolume : FatVolume where
  partitionLba := 0
  bytesPerSector := 512
  sectorsPerCluster := 1
  numFats := 1
  sectorsPerFat := 2 ^ 25
  rootCluster := 2
  totalClusters := 4261412862
  fatStartLba := 1
  dataStartLba := 2 ^ 25 + 1

/-- The state after the mount. -/
def hugeStart : FatRun Unit := (fatMount hugeImage.backend 0 0xFFFFFFFF (blankMachine [])).2

theorem hugeMount : fatMount hugeImage.backend 0 0xFFFFFFFF (blankMachine [])
    = (some hugeVolume, hugeStart) := by
  have hvolume : (fatMount hugeImage.backend 0 0xFFFFFFFF (blankMachine [])).1
      = some hugeVolume := by decide +kernel
  exact Prod.ext hvolume rfl

/-- The lookup of cluster `2 ^ 30` returns entry 0. -/
theorem lookup_wraps :
    fatMount hugeImage.backend 0 0xFFFFFFFF (blankMachine []) = (some hugeVolume, hugeStart) ∧
    hugeImage.backend.NeverFails (fun _ => True) ∧ fatClusterInRange hugeVolume (2 ^ 30) ∧
    fatEntry hugeImage hugeVolume (2 ^ 30) = 0 ∧
    (fatGetNextClusterSlot hugeImage.backend hugeVolume (2 ^ 30) false hugeStart.m.start).1
      = some 7 ∧
    (fatGetNextClusterSlot hugeImage.backend hugeVolume (2 ^ 30) true hugeStart.m.start).1
      = some 7 :=
  ⟨hugeMount, fun _ _ _ _ => rfl, by decide, by decide +kernel, by decide +kernel,
    by decide +kernel⟩

/-- Of the same volume, a cluster whose entry has an address of 32 bits. -/
theorem lookup_exact_iff_huge :
    fatClusterInRange hugeVolume 2 ∧
    ((fatGetNextClusterSlot hugeImage.backend hugeVolume 2 false (afterCalls hugeImage.backend []
        hugeStart.m).start).1 = some (fatEntry hugeImage hugeVolume 2) ↔
      2 < 2 ^ 30 ∨ fatEntry hugeImage hugeVolume (2 % 2 ^ 30) = fatEntry hugeImage hugeVolume 2) :=
  ⟨by decide, lookup_exact_iff (faithful_backend _) (fun _ _ _ _ => rfl) trivial hugeMount []
    (by decide) false⟩

end ZfsBoot.Proofs.Fat
