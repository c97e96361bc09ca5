import ZfsBoot.Bios.Disk

/-!
# `ZfsBoot.Bios.Fat`: the FAT32 reader

The model of `bios/fat.c`. The functions of the source keep their names, their order of
checks and the values they leave in `g_fat_error`. All the globals a call can touch are in
`Machine`: the driver and the disk, RAM, the staging buffer, the two one-sector caches and
the error record. `FatRun` adds the log of the call in progress, which nothing in the source
reads: every disk request, every copy to RAM and every call of the progress callback, in
order.

A progress callback runs on the machine and on a context of its own. It may do anything to
them, a read of its own included, but the log belongs to the call that made the callback.

`FAT_IO_BATCH_SECTORS` is the build's choice, so it is a parameter (`batch`). The loops are
bounded by what the source bounds them with: the batch for the look-ahead, the bytes left for
the main loop, the hop ceiling for the directory walk.
-/

set_option autoImplicit false

namespace ZfsBoot.Bios

open Lib

/-! ### Data -/

/-- `enum fat_err`. -/
inductive FatErr where
  | none | geometry | range | startCluster | chainEnd | chainCycle | chainLong | fatRead
  | dataRead
  deriving DecidableEq, Repr

/-- `struct fat_error`. -/
structure FatError where
  reason : FatErr
  cluster : Nat
  value : Nat
  remaining : Nat
  lba : Nat

/-- `struct fat_volume`. -/
structure FatVolume where
  partitionLba : Nat
  bytesPerSector : Nat
  sectorsPerCluster : Nat
  numFats : Nat
  sectorsPerFat : Nat
  rootCluster : Nat
  totalClusters : Nat
  fatStartLba : Nat
  dataStartLba : Nat
  deriving DecidableEq

/-- `struct fat_file`. -/
structure FatFile where
  firstCluster : UInt32
  size : UInt32

/-- `g_fat_table_cache` with its LBA and valid flag; the second slot has the same shape. -/
structure FatCache where
  valid : Bool
  lba : Nat
  data : List UInt8

/-- The globals that `fat.c` reads and writes, the driver and RAM. -/
structure Machine (δ : Type) where
  disk : δ
  ram : Nat → UInt8
  /-- `g_fat_io_buf` -/
  ioBuf : List UInt8
  cache : FatCache
  cache2 : FatCache
  /-- `g_fat_error` -/
  err : FatError

/-- `unreal_copy`: the bytes to consecutive physical addresses from `dst` on, in a 32-bit
address space. -/
def unrealCopy {δ : Type} (dst : Nat) (bytes : List UInt8) (m : Machine δ) : Machine δ :=
  { m with
    ram := fun a =>
      let i := u32 (a + 2 ^ 32 - u32 dst)
      if a < 2 ^ 32 ∧ i < bytes.length then bytes.getD i 0 else m.ram a }

/-- What a call into `fat.c` does to the outside world. -/
inductive FatEvent where
  | read (lba count : Nat) (ok : Bool)
  | copy (dst : Nat) (bytes : List UInt8)
  | progress (bytesDone : Nat)

/-- A call into `fat.c` in progress: the machine, and the log of the call. -/
structure FatRun (δ : Type) where
  m : Machine δ
  events : List FatEvent

namespace FatRun

variable {δ : Type}

/-- `disk_read_lba`, logged. -/
def read (bk : Backend δ) (lba count : Nat) (st : FatRun δ) : ReadAnswer × FatRun δ :=
  let r := bk.read st.m.disk lba count
  (r.1, { m := { st.m with disk := r.2 }
          events := st.events ++ [.read lba count r.1.ok] })

/-- `fat_fail`: everything but `remaining`. -/
def fail (reason : FatErr) (cluster value lba : Nat) (st : FatRun δ) : FatRun δ :=
  { st with
    m := { st.m with
      err := { st.m.err with reason := reason, cluster := cluster, value := value, lba := lba } } }

/-- `g_fat_error.remaining = n`. -/
def setRemaining (n : Nat) (st : FatRun δ) : FatRun δ :=
  { st with m := { st.m with err := { st.m.err with remaining := n } } }

/-- The cache slot a lookup uses. -/
def slot (useSlot2 : Bool) (st : FatRun δ) : FatCache :=
  if useSlot2 then st.m.cache2 else st.m.cache

def setSlot (useSlot2 : Bool) (c : FatCache) (st : FatRun δ) : FatRun δ :=
  if useSlot2 then { st with m := { st.m with cache2 := c } }
  else { st with m := { st.m with cache := c } }

end FatRun

/-- A call into `fat.c` starts with an empty log. -/
def Machine.start {δ : Type} (m : Machine δ) : FatRun δ := ⟨m, []⟩

/-! ### Cluster arithmetic and the FAT -/

section

variable {δ : Type} (bk : Backend δ) (vol : FatVolume)

/-- `cluster_to_lba`. The subtraction is in `uint32_t`, the rest in `uint64_t`. -/
def clusterToLba (cluster : Nat) : Nat :=
  u64 (vol.dataStartLba + u32 (cluster + 2 ^ 32 - 2) * vol.sectorsPerCluster)

/-- `fat_cluster_in_range`. -/
def fatClusterInRange (cluster : Nat) : Prop :=
  2 ≤ cluster ∧ cluster < u32 (vol.totalClusters + 2)

instance (cluster : Nat) : Decidable (fatClusterInRange vol cluster) :=
  inferInstanceAs (Decidable (_ ∧ _))

/-- `FAT_CLUSTER_MASK`: the low 28 bits of a FAT entry. -/
def fatClusterMask (raw : Nat) : Nat := raw % 2 ^ 28

/-- The FAT sector a lookup of `cluster` reads; `cluster * 4` is a 32-bit product. -/
def fatEntrySector (cluster : Nat) : Nat :=
  u64 (vol.fatStartLba + u32 (cluster * 4) / vol.bytesPerSector)

/-- The byte offset of the entry within that sector. -/
def fatEntryOffset (cluster : Nat) : Nat := u32 (cluster * 4) % vol.bytesPerSector

/-- `fat_get_next_cluster_slot`: the masked FAT entry of `cluster`, or nothing with the
reason in `g_fat_error`. -/
def fatGetNextClusterSlot (cluster : Nat) (useSlot2 : Bool) (st : FatRun δ) :
    Option Nat × FatRun δ :=
  if ¬ fatClusterInRange vol cluster then
    (none, st.fail .chainEnd cluster cluster 0)
  else
    let fatSector := fatEntrySector vol cluster
    let offset := fatEntryOffset vol cluster
    let c := st.slot useSlot2
    if c.valid ∧ c.lba = fatSector then
      (some (fatClusterMask (le32 c.data offset)), st)
    else
      let r := st.read bk fatSector 1
      if r.1.ok then
        (some (fatClusterMask (le32 r.1.data offset)),
          r.2.setSlot useSlot2 ⟨true, fatSector, r.1.data⟩)
      else
        (none, (r.2.setSlot useSlot2 ⟨false, c.lba, r.1.data⟩).fail .fatRead cluster 0 fatSector)

/-- `fat_get_next_cluster`: the first cache slot. -/
def fatGetNextCluster (cluster : Nat) (st : FatRun δ) : Option Nat × FatRun δ :=
  fatGetNextClusterSlot bk vol cluster false st

/-! ### The protected chain walk -/

/-- `struct fat_chain_walk`. -/
structure FatChainWalk where
  cluster : Nat
  tortoise : Nat
  hops : Nat
  tortoiseDue : Bool

/-- `fat_chain_walk_init`. -/
def fatChainWalkInit (firstCluster : Nat) : FatChainWalk :=
  { cluster := firstCluster, tortoise := firstCluster, hops := 0, tortoiseDue := true }

/-- The tortoise's half of `fat_chain_advance`, made on every second hop. -/
def fatTortoiseAdvance (w : FatChainWalk) (st : FatRun δ) : Bool × FatChainWalk × FatRun δ :=
  match fatGetNextClusterSlot bk vol w.tortoise true st with
  | (none, st) => (false, w, st)
  | (some next, st) =>
    if ¬ fatClusterInRange vol next then (false, w, st.fail .chainEnd w.tortoise next 0)
    else if next = w.cluster then
      (false, { w with tortoise := next }, st.fail .chainCycle w.cluster 0 0)
    else (true, { w with tortoise := next }, st)

/-- `fat_chain_advance`: one hop, `true` for 0 and `false` for -1. -/
def fatChainAdvance (w : FatChainWalk) (st : FatRun δ) : Bool × FatChainWalk × FatRun δ :=
  let w1 := { w with hops := u32 (w.hops + 1) }
  if w.hops > vol.totalClusters then (false, w1, st.fail .chainLong w.cluster 0 0)
  else
    match fatGetNextCluster bk vol w.cluster st with
    | (none, st) => (false, w1, st)
    | (some next, st) =>
      if ¬ fatClusterInRange vol next then (false, w1, st.fail .chainEnd w.cluster next 0)
      else
        let w2 := { w1 with cluster := next, tortoiseDue := !w.tortoiseDue }
        if w2.tortoiseDue then fatTortoiseAdvance bk vol w2 st
        else (true, w2, st)

/-- `n` advances in a row, up to the first that fails. -/
def fatChainAdvanceN : Nat → FatChainWalk → FatRun δ → Bool × FatChainWalk × FatRun δ
  | 0, w, st => (true, w, st)
  | n + 1, w, st =>
    match fatChainAdvance bk vol w st with
    | (true, w, st) => fatChainAdvanceN n w st
    | r => r

end

/-! ### Mounting -/

/-- The fields of `struct fat32_bpb` that the driver reads, at their offsets. -/
structure Fat32Bpb where
  bytesPerSector : Nat
  sectorsPerCluster : Nat
  reservedSectorCount : Nat
  numFats : Nat
  rootEntryCount : Nat
  totalSectors16 : Nat
  fatSize16 : Nat
  totalSectors32 : Nat
  fatSize32 : Nat
  rootCluster : Nat
  fsType : List UInt8

def fat32Bpb (sector : List UInt8) : Fat32Bpb where
  bytesPerSector := le16 sector 11
  sectorsPerCluster := byteAt sector 13
  reservedSectorCount := le16 sector 14
  numFats := byteAt sector 16
  rootEntryCount := le16 sector 17
  totalSectors16 := le16 sector 19
  fatSize16 := le16 sector 22
  totalSectors32 := le32 sector 32
  fatSize32 := le32 sector 36
  rootCluster := le32 sector 44
  fsType := (sector.drop 82).take 8

/-- `expect_fs_type`: "FAT32" and three blanks, with no terminator. -/
def expectFsType : List UInt8 := [0x46, 0x41, 0x54, 0x33, 0x32, 0x20, 0x20, 0x20]

/-- `total_sectors`: the 32-bit field, or the 16-bit one when it is 0. -/
def Fat32Bpb.totalSectors (bpb : Fat32Bpb) : Nat :=
  if bpb.totalSectors32 ≠ 0 then bpb.totalSectors32 else bpb.totalSectors16

/-- `reserved_plus_fats`, in `uint32_t`. -/
def Fat32Bpb.reservedPlusFats (bpb : Fat32Bpb) : Nat :=
  u32 (bpb.reservedSectorCount + u32 (bpb.numFats * bpb.fatSize32))

/-- `cluster_count`. -/
def Fat32Bpb.clusterCount (bpb : Fat32Bpb) : Nat :=
  (bpb.totalSectors - bpb.reservedPlusFats) / bpb.sectorsPerCluster

/-- `required_fat_sectors`. -/
def Fat32Bpb.requiredFatSectors (bpb : Fat32Bpb) : Nat :=
  u64 (u32 (bpb.clusterCount + 2) * 4 + bpb.bytesPerSector - 1) / bpb.bytesPerSector

/-- The volume `fat_mount` fills in once every check has passed. -/
def Fat32Bpb.volume (bpb : Fat32Bpb) (partitionLba : Nat) : FatVolume where
  partitionLba := partitionLba
  bytesPerSector := bpb.bytesPerSector
  sectorsPerCluster := bpb.sectorsPerCluster
  numFats := bpb.numFats
  sectorsPerFat := bpb.fatSize32
  rootCluster := bpb.rootCluster
  totalClusters := bpb.clusterCount
  fatStartLba := u64 (partitionLba + bpb.reservedSectorCount)
  dataStartLba :=
    u64 (u64 (partitionLba + bpb.reservedSectorCount) + bpb.numFats * bpb.fatSize32)

/-- `fat_mount` from the boot sector on: its checks in the source's order. -/
def fatMountSector (sector : List UInt8) (partitionLba partitionSectors : Nat) :
    Option FatVolume :=
  let bpb := fat32Bpb sector
  if byteAt sector 510 ≠ 0x55 ∨ byteAt sector 511 ≠ 0xAA then none
  else if bpb.bytesPerSector ≠ diskSectorSize then none
  else if bpb.sectorsPerCluster = 0 then none
  else if bpb.sectorsPerCluster &&& (bpb.sectorsPerCluster - 1) ≠ 0 then none
  else if bpb.numFats = 0 ∨ bpb.reservedSectorCount = 0 then none
  else if bpb.rootEntryCount ≠ 0 ∨ bpb.fatSize16 ≠ 0 then none
  else if bpb.fatSize32 = 0 ∨ bpb.rootCluster < 2 then none
  else if bpb.fsType ≠ expectFsType then none
  else if bpb.totalSectors = 0 then none
  else if bpb.totalSectors > partitionSectors then none
  else if bpb.reservedSectorCount ≥ bpb.totalSectors then none
  else if bpb.fatSize32 > (bpb.totalSectors - bpb.reservedSectorCount) / bpb.numFats then none
  else if bpb.reservedPlusFats ≥ bpb.totalSectors then none
  else if bpb.clusterCount < 65525 then none
  else if bpb.fatSize32 < bpb.requiredFatSectors then none
  else if ¬ fatClusterInRange (bpb.volume partitionLba) bpb.rootCluster then none
  else some (bpb.volume partitionLba)

/-- `fat_cache_invalidate`. -/
def fatCacheInvalidate {δ : Type} (m : Machine δ) : Machine δ :=
  { m with cache := { m.cache with valid := false }, cache2 := { m.cache2 with valid := false } }

/-- `fat_mount`. -/
def fatMount {δ : Type} (bk : Backend δ) (partitionLba partitionSectors : UInt64)
    (m : Machine δ) : Option FatVolume × FatRun δ :=
  let r := (fatCacheInvalidate m).start.read bk partitionLba.toNat 1
  if r.1.ok then (fatMountSector r.1.data partitionLba.toNat partitionSectors.toNat, r.2)
  else (none, r.2)

/-! ### Directories -/

/-- The fields of `struct fat_dirent` that the driver reads. -/
structure FatDirent where
  name : List UInt8
  attr : Nat
  firstCluster : Nat
  fileSize : Nat

/-- The `e`-th 32-byte entry of a directory sector. `first_cluster_hi` is at offset 20 and
`first_cluster_lo` at offset 26. -/
def fatDirent (sector : List UInt8) (e : Nat) : FatDirent where
  name := (sector.drop (32 * e)).take 11
  attr := byteAt sector (32 * e + 11)
  firstCluster := 2 ^ 16 * le16 sector (32 * e + 20) + le16 sector (32 * e + 26)
  fileSize := le32 sector (32 * e + 28)

/-- `ent->attr & FAT_ATTR_DIRECTORY`. -/
def FatDirent.isDirectory (ent : FatDirent) : Bool := ent.attr &&& 0x10 ≠ 0

/-- `FAT_MAX_COMPONENT_LEN`. -/
def fatMaxComponentLen : Nat := 8

/-- `fat_pack_name`: the first eight characters, padded with blanks to eleven. -/
def fatPackName (component : List UInt8) : List UInt8 :=
  let c := component.take fatMaxComponentLen
  c ++ List.replicate (11 - c.length) 0x20

/-- What the scan of some entries says: go on, give up, or the entry's first cluster and
size. -/
inductive DirScan where
  | more
  | missing
  | found (cluster size : Nat)
  deriving DecidableEq

/-- One entry of `fat_find_in_dir`'s inner loop. -/
def scanEntry (ent : FatDirent) (packedName : List UInt8) (wantDir : Bool) : DirScan :=
  if byteAt ent.name 0 = 0x00 then .missing
  else if byteAt ent.name 0 = 0xE5 then .more
  else if ent.attr = 0x0F then .more
  else if ent.attr &&& 0x08 ≠ 0 then .more
  else if ent.name ≠ packedName then .more
  else if wantDir ≠ ent.isDirectory then .missing
  else .found ent.firstCluster ent.fileSize

/-- The entries of a list, up to the first that does not say `more`. -/
def scanEntries (packedName : List UInt8) (wantDir : Bool) : List FatDirent → DirScan
  | [] => .more
  | ent :: rest =>
    match scanEntry ent packedName wantDir with
    | .more => scanEntries packedName wantDir rest
    | r => r

/-- `entries_per_sector` entries of a directory sector. -/
def fatDirents (sector : List UInt8) : List FatDirent :=
  (List.range (diskSectorSize / 32)).map (fatDirent sector)

section

variable {δ : Type} (bk : Backend δ) (vol : FatVolume)

/-- The `count` sectors of one directory cluster from `lba` on. A read error ends the
search. -/
def scanSectors (packedName : List UInt8) (wantDir : Bool) (lba : Nat) :
    Nat → FatRun δ → DirScan × FatRun δ
  | 0, st => (.more, st)
  | count + 1, st =>
    let r := st.read bk lba 1
    if r.1.ok then
      match scanEntries packedName wantDir (fatDirents r.1.data) with
      | .more => scanSectors packedName wantDir (u64 (lba + 1)) count r.2
      | d => (d, r.2)
    else (.missing, r.2)

/-- One cluster of the directory, and the hop to the next. -/
def findBody (packedName : List UInt8) (wantDir : Bool) (s : FatChainWalk × FatRun δ) :
    Loop.Step (FatChainWalk × FatRun δ) (Option (Nat × Nat) × FatRun δ) :=
  match scanSectors bk packedName wantDir (clusterToLba vol s.1.cluster) vol.sectorsPerCluster
      s.2 with
  | (.found cluster size, st) => .done (some (cluster, size), st)
  | (.missing, st) => .done (none, st)
  | (.more, st) =>
    match fatChainAdvance bk vol s.1 st with
    | (true, w, st) => .next (w, st)
    | (false, _, st) => .done (none, st)

/-- `fat_find_in_dir`: the first cluster and size of the entry, or nothing. The outer
`none` would say that the walk is still going after more hops than the ceiling in
`fat_chain_advance` allows. -/
def fatFindInDir (dirCluster : Nat) (packedName : List UInt8) (wantDir : Bool)
    (st : FatRun δ) : Option (Option (Nat × Nat) × FatRun δ) :=
  if ¬ fatClusterInRange vol dirCluster then some (none, st)
  else
    Loop.run (findBody bk vol packedName wantDir) (vol.totalClusters + 3)
      (fatChainWalkInit dirCluster, st)

/-- The components of `fat_open`'s path from `p` on, searched from `dirCluster`. `fuel` is
one more than the characters left: each component uses up at least one. -/
def fatOpenFrom : Nat → Nat → List UInt8 → FatRun δ → Option (Option FatFile × FatRun δ)
  | 0, _, _, _ => none
  | fuel + 1, dirCluster, p, st =>
    let component := p.takeWhile (· ≠ 0x2F)
    let rest := p.dropWhile (· ≠ 0x2F)
    if component.length > fatMaxComponentLen then some (none, st)
    else if component = [] then some (none, st)
    else
      let isLast := rest.isEmpty
      match fatFindInDir bk vol dirCluster (fatPackName component) (!isLast) st with
      | none => none
      | some (none, st) => some (none, st)
      | some (some (cluster, size), st) =>
        if isLast then some (some ⟨UInt32.ofNat cluster, UInt32.ofNat size⟩, st)
        else if ¬ fatClusterInRange vol cluster then some (none, st)
        else fatOpenFrom fuel cluster rest.tail st

/-- `fat_open`. The path is the bytes of the C string before its terminator. -/
def fatOpen (path : List UInt8) (m : Machine δ) : Option (Option FatFile × FatRun δ) :=
  match path.takeWhile (· ≠ 0) with
  | 0x2F :: p => fatOpenFrom bk vol (p.length + 1) vol.rootCluster p m.start
  | _ => some (none, m.start)

/-! ### Reading -/

/-- `fat_offset_lba`. -/
def fatOffsetLba (file : FatFile) (offset : UInt32) (m : Machine δ) : Option Nat × FatRun δ :=
  if vol.sectorsPerCluster = 0 ∨ vol.bytesPerSector = 0 ∨ offset ≥ file.size ∨
      ¬ fatClusterInRange vol file.firstCluster.toNat then (none, m.start)
  else
    let clusterBytes := u32 (vol.bytesPerSector * vol.sectorsPerCluster)
    match fatChainAdvanceN bk vol (offset.toNat / clusterBytes)
        (fatChainWalkInit file.firstCluster.toNat) m.start with
    | (true, w, st) =>
      (some (u64 (clusterToLba vol w.cluster
        + offset.toNat % clusterBytes / vol.bytesPerSector)), st)
    | (false, _, st) => (none, st)

/-- The look-ahead of `fat_read_range`: the run grows by whole clusters that follow each
other on the disk, up to `batch` sectors. The lookups are not cycle-protected. The result
is `run_sectors`. -/
def fatLookAhead (batch : Nat) : Nat → Nat → Nat → FatRun δ → Nat × FatRun δ
  | 0, runSectors, _, st => (runSectors, st)
  | fuel + 1, runSectors, probe, st =>
    if u32 (runSectors + vol.sectorsPerCluster) ≤ batch then
      match fatGetNextCluster bk vol probe st with
      | (none, st) => (runSectors, st)
      | (some next, st) =>
        if next ≠ u32 (probe + 1) ∨ ¬ fatClusterInRange vol next then (runSectors, st)
        else fatLookAhead batch fuel (u32 (runSectors + vol.sectorsPerCluster)) next st
    else (runSectors, st)

/-- The buffer after `data` was read into its start. -/
def overlay (data buf : List UInt8) : List UInt8 := data ++ buf.drop data.length

/-- The run with `data` read into the staging buffer. -/
def FatRun.stage (data : List UInt8) (st : FatRun δ) : FatRun δ :=
  { st with m := { st.m with ioBuf := overlay data st.m.ioBuf } }

/-- A progress callback: a byte count, on its own context and the machine. -/
abbrev Progress (δ κ : Type) := Nat → κ → Machine δ → κ × Machine δ

/-- The state of `fat_read_range`'s main loop. -/
structure RangeLoop (δ κ : Type) where
  w : FatChainWalk
  remaining : Nat
  sectorInCluster : Nat
  sectorOff : Nat
  dstPhys : Nat
  ctx : κ
  st : FatRun δ

variable {κ : Type}

/-- `if (progress) progress(ctx, n)`. -/
def callProgress (progress : Option (Progress δ κ)) (n : Nat) (ctx : κ) (st : FatRun δ) :
    κ × FatRun δ :=
  match progress with
  | none => (ctx, st)
  | some f =>
    let r := f n ctx st.m
    (r.1, ⟨r.2, st.events ++ [.progress n]⟩)

/-- `run_sectors` after the look-ahead and the clamp to the batch size. -/
def runSectors (batch : Nat) (s : RangeLoop δ κ) : Nat × FatRun δ :=
  let r := fatLookAhead bk vol batch batch (vol.sectorsPerCluster - s.sectorInCluster)
    s.w.cluster s.st
  (if r.1 > batch then batch else r.1, r.2)

/-- `bytes_this_run` for a run of `run` sectors. -/
def bytesThisRun (run : Nat) (s : RangeLoop δ κ) : Nat :=
  let maxBytes := u32 (u32 (run * vol.bytesPerSector) + 2 ^ 32 - s.sectorOff)
  if s.remaining < maxBytes then s.remaining else maxBytes

/-- `sectors_needed` for `bytes` bytes from `sector_off` on. -/
def sectorsNeeded (bytes : Nat) (s : RangeLoop δ κ) : Nat :=
  u32 (s.sectorOff + bytes + vol.bytesPerSector - 1) / vol.bytesPerSector

/-- The copy to the destination and the progress call for `bytes` bytes of the buffer. -/
def deliver (progress : Option (Progress δ κ)) (bytes : Nat) (s : RangeLoop δ κ)
    (st : FatRun δ) : κ × FatRun δ :=
  let data := (st.m.ioBuf.drop s.sectorOff).take bytes
  callProgress progress bytes s.ctx
    ⟨unrealCopy s.dstPhys data st.m, st.events ++ [.copy s.dstPhys data]⟩

/-- The request of one pass, its delivery, and the protected walk over the clusters it used
up. -/
def rangeRequest (progress : Option (Progress δ κ)) (bytes needed : Nat) (s : RangeLoop δ κ)
    (st : FatRun δ) : Loop.Step (RangeLoop δ κ) (Bool × κ × FatRun δ) :=
  let runLba := u64 (clusterToLba vol s.w.cluster + s.sectorInCluster)
  -- `disk_read_lba` takes a `uint16_t` count
  let r := st.read bk runLba (u16 needed)
  let st := r.2.stage r.1.data
  if ¬ r.1.ok then
    .done (false, s.ctx, (st.setRemaining s.remaining).fail .dataRead s.w.cluster 0 runLba)
  else
    let d := deliver progress bytes s st
    let remaining := s.remaining - bytes
    let pos := s.sectorInCluster + needed
    let hops := if remaining > 0 then pos / vol.sectorsPerCluster else 0
    match fatChainAdvanceN bk vol hops s.w d.2 with
    | (false, _, st) => .done (false, d.1, st.setRemaining remaining)
    | (true, w, st) =>
      .next { w := w, remaining := remaining
              sectorInCluster := pos % vol.sectorsPerCluster, sectorOff := 0
              dstPhys := u32 (s.dstPhys + bytes), ctx := d.1, st := st }

/-- One pass of `fat_read_range`'s main loop: a run of sectors in one request. -/
def rangeBody (batch : Nat) (progress : Option (Progress δ κ)) (s : RangeLoop δ κ) :
    Loop.Step (RangeLoop δ κ) (Bool × κ × FatRun δ) :=
  if s.remaining = 0 then .done (true, s.ctx, s.st)
  else
    let run := runSectors bk vol batch s
    let bytes := bytesThisRun vol run.1 s
    rangeRequest bk vol progress bytes (sectorsNeeded vol bytes s) s run.2

/-- `g_fat_error` reset at the start of every `fat_read_range`. -/
def FatRun.clearError (st : FatRun δ) : FatRun δ :=
  { st with m := { st.m with err := ⟨.none, 0, 0, 0, 0⟩ } }

/-- `fat_read_range`: `true` for 0 and `false` for -1. The outer `none` would say that the
main loop has made a pass for every byte of the range and is still going. -/
def fatReadRange (batch : Nat) (file : FatFile) (offset length dstPhys : UInt32)
    (progress : Option (Progress δ κ)) (ctx : κ) (m : Machine δ) :
    Option (Bool × κ × FatRun δ) :=
  let st := m.start.clearError
  let clusterBytes := u32 (vol.bytesPerSector * vol.sectorsPerCluster)
  if vol.sectorsPerCluster = 0 ∨ vol.bytesPerSector = 0 then
    some (false, ctx, st.fail .geometry 0 0 0)
  else if offset > file.size ∨ length > file.size - offset then
    some (false, ctx, (st.setRemaining length.toNat).fail .range 0 0 0)
  else if length = 0 then some (true, ctx, st)
  else if ¬ fatClusterInRange vol file.firstCluster.toNat then
    some (false, ctx,
      (st.setRemaining length.toNat).fail .startCluster file.firstCluster.toNat 0 0)
  else
    match fatChainAdvanceN bk vol (offset.toNat / clusterBytes)
        (fatChainWalkInit file.firstCluster.toNat) st with
    | (false, _, st) => some (false, ctx, st.setRemaining length.toNat)
    | (true, w, st) =>
      Loop.run (rangeBody bk vol batch progress) (length.toNat + 1)
        { w := w, remaining := length.toNat
          sectorInCluster := offset.toNat % clusterBytes / vol.bytesPerSector
          sectorOff := offset.toNat % vol.bytesPerSector
          dstPhys := dstPhys.toNat, ctx := ctx, st := st }

end

end ZfsBoot.Bios
