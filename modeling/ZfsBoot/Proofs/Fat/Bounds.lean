import ZfsBoot.Proofs.Fat.Range

/-!
# `ZfsBoot.Proofs.Fat.Bounds`: calls that leave the volume in order

Two things hold of every call of the reader, whatever is in the FAT and in the directories.
Its requests stay in the partition: each is for the FAT sector of a cluster in range, or for
sectors of consecutive clusters that are all in range. And it leaves the caches with what is
on the disk. `Safe` states both of a call in progress, and every function keeps it.

The first part needs nothing of the disk. It is obtained from the same lemmas by taking an
empty set of states in which the disk is faithful.
-/

set_option autoImplicit false

namespace ZfsBoot.Proofs.Fat

open List
open Lib Bios

variable {bytes needed : Nat} {pl sectors : UInt64} {δ κ : Type} {bk : Backend δ} {img : Image}
  {I : δ → Prop} {vol : FatVolume} {ps batch : Nat} {m : Machine δ} {st : FatRun δ}
  {s : RangeLoop δ κ} {progress : Option (Progress δ κ)}

/-- Every request of the log is inside the partition. -/
def LogInside (vol : FatVolume) (ps : Nat) (events : List FatEvent) : Prop :=
  ∀ lba n ok, FatEvent.read lba n ok ∈ events → Inside vol ps lba n

theorem Inside.mono {lba n n' : Nat} (h : Inside vol ps lba n) (hn : n' ≤ n) :
    Inside vol ps lba n' := by
  obtain ⟨k, hk, hle⟩ := h
  exact ⟨k, hk, by omega⟩

theorem Reads.logInside {st st' : FatRun δ} (h : Reads vol ps st st')
    (hst : LogInside vol ps st.events) : LogInside vol ps st'.events := by
  obtain ⟨new, hnew, hin⟩ := h.log
  intro lba n ok hmem
  rw [hnew, mem_append] at hmem
  rcases hmem with hmem | hmem
  · exact hst lba n ok hmem
  · obtain ⟨lba', n', ok', heq, hin'⟩ := hin _ hmem
    cases heq
    exact hin'

/-- A call that was entered on the machine `m` and has come to `st`. -/
structure Safe (img : Image) (I : δ → Prop) (vol : FatVolume) (ps : Nat) (m : Machine δ)
    (st : FatRun δ) : Prop where
  inside : LogInside vol ps st.events
  ready : Ready img I m → Ready img I st.m

theorem safe_start (m : Machine δ) : Safe img I vol ps m m.start :=
  ⟨fun _ _ _ h => absurd h (by simp [Machine.start]), id⟩

theorem Safe.step {st st' : FatRun δ} (h : Safe img I vol ps m st) (hr : Reads vol ps st st')
    (hready : Ready img I st.m → Ready img I st'.m) : Safe img I vol ps m st' :=
  ⟨hr.logInside h.inside, fun hm => hready (h.ready hm)⟩

theorem Safe.fail (h : Safe img I vol ps m st) (reason : FatErr) (cluster value lba : Nat) :
    Safe img I vol ps m (st.fail reason cluster value lba) :=
  ⟨h.inside, fun hm => (h.ready hm).fail _ _ _ _⟩

theorem Safe.setRemaining (h : Safe img I vol ps m st) (n : Nat) :
    Safe img I vol ps m (st.setRemaining n) := ⟨h.inside, fun hm => (h.ready hm).setRemaining n⟩

/-! ### `fat_read_range` -/

/-- A request that keeps within its plan is inside the partition. -/
theorem Plan.inside (hm : Mounted vol ps) {j : Nat}
    (hp : Plan bk img I vol ps batch s bytes needed st j) :
    Inside vol ps (requestLba vol s) (u16 needed) :=
  (inside_dataRun hm (hp.inRange 0 (Nat.zero_le j)) (hp.inRange j (Nat.le_refl j))
    hp.within).mono (u16_le needed)

theorem Delivered.safe {st st' : FatRun δ} {data : List UInt8}
    (hd : Delivered img I vol progress s bytes needed st st' data) (hk : Keeps img I progress)
    (hin : Inside vol ps (requestLba vol s) (u16 needed)) (hst : Safe img I vol ps m st) :
    Safe img I vol ps m st' := by
  refine ⟨?_, fun hm => hd.ready hk (hst.ready hm)⟩
  intro lba n ok hmem
  rw [hd.log, mem_append] at hmem
  rcases hmem with hmem | hmem
  · exact hst.inside lba n ok hmem
  · have hlog : ∀ e ∈ progressLog progress bytes, e = FatEvent.progress bytes := by
      unfold progressLog
      split <;> simp
    simp only [mem_cons, FatEvent.read.injEq, reduceCtorEq, false_or] at hmem
    rcases hmem with ⟨rfl, rfl, -⟩ | hmem
    · exact hin
    · exact absurd (hlog _ hmem) (by simp)

/-- The main loop's invariant for this module. -/
structure SafeLoop (img : Image) (I : δ → Prop) (vol : FatVolume) (ps : Nat) (m : Machine δ)
    (s : RangeLoop δ κ) : Prop where
  placed : Placed vol s
  safe : Safe img I vol ps m s.st

/-- What one pass of the main loop does to the invariant and to the bytes left. -/
def SafeStep (img : Image) (I : δ → Prop) (vol : FatVolume) (ps : Nat) (m : Machine δ)
    (s : RangeLoop δ κ) : Loop.Step (RangeLoop δ κ) (Bool × κ × FatRun δ) → Prop
  | .next s' => SafeLoop img I vol ps m s' ∧ s'.remaining < s.remaining
  | .done r => Safe img I vol ps m r.2.2

theorem safeStep_body (hf : bk.Faithful img I) (hm : Mounted vol ps) (h1 : 1 ≤ batch)
    (hbatch : batch * 512 < 2 ^ 32) (hk : Keeps img I progress) (hs : SafeLoop img I vol ps m s) :
    SafeStep img I vol ps m s (rangeBody bk vol batch progress s) := by
  by_cases hrem : s.remaining = 0
  · rw [rangeBody, if_pos hrem]
    exact hs.safe
  · obtain ⟨bytes, needed, st, j, hp, hr⟩ := rangeBody_pass hf hm h1 hbatch progress hs.placed hrem
    have hin := hp.inside hm
    have hst := hs.safe.step hp.reads hp.ready
    generalize rangeBody bk vol batch progress s = step at hr ⊢
    cases hr with
    | readFailed st' log ready cause left ram =>
      refine ⟨?_, fun hm => ready (hst.ready hm)⟩
      intro lba n ok hmem
      rw [log, mem_append, mem_singleton, FatEvent.read.injEq] at hmem
      rcases hmem with hmem | ⟨rfl, rfl, -⟩
      · exact hst.inside lba n ok hmem
      · exact hin
    | stopped st' data w delivered walk =>
      exact ((delivered.safe hk hin hst).step walk.reads walk.ready).setRemaining _
    | next data s' delivered walk remaining sector offset dst ctx =>
      have hpos := hp.bytes_pos
      refine ⟨⟨⟨walk.walkIn rfl, ?_, ?_⟩, ?_⟩, ?_⟩
      · rw [sector]
        exact Nat.mod_lt _ hm.spc_pos
      · rw [offset]
        decide
      · exact (delivered.safe hk hin hst).step walk.reads walk.ready
      · rw [remaining]
        omega

theorem readRange_safe (hf : bk.Faithful img I) (hm : Mounted vol ps) (h1 : 1 ≤ batch)
    (hbatch : batch * 512 < 2 ^ 32) (file : FatFile) (offset length dst : UInt32)
    (hk : Keeps img I progress) (ctx : κ) (m : Machine δ) :
    ∃ r, fatReadRange bk vol batch file offset length dst progress ctx m = some r ∧
      Safe img I vol ps m r.2.2 := by
  have hstart : Safe img I vol ps m m.start.clearError :=
    ⟨fun _ _ _ h => absurd h (by simp [Machine.start, FatRun.clearError]),
      fun h => ⟨h.disk, h.cache, h.cache2⟩⟩
  have hcb : u32 (vol.bytesPerSector * vol.sectorsPerCluster) = 512 * vol.sectorsPerCluster := by
    have := hm.spc_lt
    rw [hm.bps]
    exact u32_of_lt (by omega)
  unfold fatReadRange
  dsimp only
  rw [hcb, hm.bps]
  split
  · exact ⟨_, rfl, hstart.fail _ _ _ _⟩
  · split
    · exact ⟨_, rfl, (hstart.setRemaining _).fail _ _ _ _⟩
    · split
      · exact ⟨_, rfl, hstart⟩
      · split
        · exact ⟨_, rfl, (hstart.setRemaining _).fail _ _ _ _⟩
        · rename_i hrange
          rw [not_not] at hrange
          have hw := advanceN_spec hf hm (offset.toNat / (512 * vol.sectorsPerCluster))
            (w := fatChainWalkInit file.firstCluster.toNat) ⟨hrange, hrange⟩ m.start.clearError
          rcases hadv : fatChainAdvanceN bk vol (offset.toNat / (512 * vol.sectorsPerCluster))
            (fatChainWalkInit file.firstCluster.toNat) m.start.clearError with ⟨ok, w, st⟩
          rw [hadv] at hw
          have hst := hstart.step hw.reads hw.ready
          cases ok with
          | false => exact ⟨_, rfl, hst.setRemaining _⟩
          | true =>
            refine Loop.run_spec (SafeLoop img I vol ps m)
              (fun r : Bool × κ × FatRun δ => Safe img I vol ps m r.2.2)
              RangeLoop.remaining ?_ ?_ _ _ ⟨⟨hw.walkIn rfl, ?_, ?_⟩, hst⟩
              (Nat.lt_succ_self _)
            · intro s s' hs hb
              have := safeStep_body hf hm h1 hbatch hk hs
              rwa [hb] at this
            · intro s r hs hb
              have := safeStep_body hf hm h1 hbatch hk hs
              rwa [hb] at this
            · rw [Nat.div_lt_iff_lt_mul (by decide), Nat.mul_comm vol.sectorsPerCluster]
              exact Nat.mod_lt _ (by omega)
            · exact Nat.mod_lt _ (by decide)

/-! ### `fat_open` and `fat_offset_lba` -/

/-- The sectors of one directory cluster, from sector `k` of the cluster on. -/
theorem scanSectors_safe (hf : bk.Faithful img I) (hm : Mounted vol ps) {c : Nat}
    (hc : fatClusterInRange vol c) (packedName : List UInt8) (wantDir : Bool) (count : Nat) :
    ∀ {k : Nat} {st : FatRun δ}, k + count ≤ vol.sectorsPerCluster → Safe img I vol ps m st →
      Safe img I vol ps m
        (scanSectors bk packedName wantDir (u64 (clusterToLba vol c + k)) count st).2 := by
  induction count with
  | zero => exact fun _ h => h
  | succ count ih =>
    intro k st hk hst
    have hread : Safe img I vol ps m (st.read bk (u64 (clusterToLba vol c + k)) 1).2 :=
      hst.step (reads_read bk (inside_dataRun hm hc hc (j := 0) (by omega)) st)
        (fun h => h.read hf _ _)
    have hnext : u64 (u64 (clusterToLba vol c + k) + 1) = u64 (clusterToLba vol c + (k + 1)) := by
      rw [u64_add_u64, Nat.add_assoc]
    rw [scanSectors]
    split
    · split
      · rw [hnext]
        exact ih (by omega) hread
      · exact hread
    · exact hread

/-- What one cluster of the directory search does to the walk and the log. -/
def FindStep (img : Image) (I : δ → Prop) (vol : FatVolume) (ps : Nat) (m : Machine δ)
    (s : FatChainWalk × FatRun δ) :
    Loop.Step (FatChainWalk × FatRun δ) (Option (Nat × Nat) × FatRun δ) → Prop
  | .next s' => (WalkIn vol s'.1 ∧ Safe img I vol ps m s'.2) ∧
      s'.1.hops = s.1.hops + 1 ∧ s'.1.hops ≤ vol.totalClusters + 1
  | .done r => Safe img I vol ps m r.2

theorem findStep_body (hf : bk.Faithful img I) (hm : Mounted vol ps) (packedName : List UInt8)
    (wantDir : Bool) {w : FatChainWalk} (hw : WalkIn vol w) (hst : Safe img I vol ps m st) :
    FindStep img I vol ps m (w, st) (findBody bk vol packedName wantDir (w, st)) := by
  have hscanned := scanSectors_safe hf hm hw.cluster packedName wantDir
    vol.sectorsPerCluster (k := 0) (by omega) hst
  rw [Nat.add_zero, show u64 (clusterToLba vol w.cluster) = clusterToLba vol w.cluster from
    u64_of_lt (u64_lt _)] at hscanned
  unfold findBody
  rcases hscan : scanSectors bk packedName wantDir (clusterToLba vol w.cluster)
    vol.sectorsPerCluster st with ⟨_ | _ | ⟨cluster, size⟩, st1⟩
  all_goals rw [hscan] at hscanned
  · have hadv := advance_spec hf hm hw st1
    rcases hres : fatChainAdvance bk vol w st1 with ⟨_ | _, w', st'⟩
    all_goals
      rw [hres] at hadv
      simp only [hres]
    · exact hscanned.step hadv.reads hadv.ready
    · obtain ⟨hhops, hbound⟩ := hadv.counted rfl
      exact ⟨⟨hadv.walkIn rfl, hscanned.step hadv.reads hadv.ready⟩, hhops,
        hbound.resolve_left (by simp)⟩
  · exact hscanned
  · exact hscanned

/-- The directory search ends: every further cluster is a hop, and hops are bounded. -/
theorem findInDir_safe (hf : bk.Faithful img I) (hm : Mounted vol ps) (dirCluster : Nat)
    (packedName : List UInt8) (wantDir : Bool) (hst : Safe img I vol ps m st) :
    ∃ r, fatFindInDir bk vol dirCluster packedName wantDir st = some r ∧
      Safe img I vol ps m r.2 := by
  unfold fatFindInDir
  split
  · exact ⟨_, rfl, hst⟩
  · rename_i hrange
    rw [not_not] at hrange
    refine Loop.run_spec
      (fun s : FatChainWalk × FatRun δ => (WalkIn vol s.1 ∧ Safe img I vol ps m s.2) ∧
        s.1.hops ≤ vol.totalClusters + 1)
      (fun r : Option (Nat × Nat) × FatRun δ => Safe img I vol ps m r.2)
      (fun s => vol.totalClusters + 2 - s.1.hops) ?_ ?_ _ _
      ⟨⟨⟨hrange, hrange⟩, hst⟩, Nat.zero_le _⟩ ?_
    · rintro ⟨w, st⟩ s' hs hb
      have hstep := findStep_body hf hm packedName wantDir hs.1.1 hs.1.2
      rw [hb] at hstep
      obtain ⟨hkeep, hhops, hbound⟩ := hstep
      dsimp only at hhops hs ⊢
      exact ⟨⟨hkeep, hbound⟩, by omega⟩
    · rintro ⟨w, st⟩ r hs hb
      have hstep := findStep_body hf hm packedName wantDir hs.1.1 hs.1.2
      rwa [hb] at hstep
    · show vol.totalClusters + 2 - 0 < _
      omega

theorem openFrom_safe (hf : bk.Faithful img I) (hm : Mounted vol ps) (fuel : Nat) :
    ∀ (dirCluster : Nat) (p : List UInt8) (st : FatRun δ), p.length < fuel →
      Safe img I vol ps m st →
      ∃ r, fatOpenFrom bk vol fuel dirCluster p st = some r ∧ Safe img I vol ps m r.2 := by
  induction fuel with
  | zero => intro _ _ _ h; omega
  | succ fuel ih =>
    intro dirCluster p st hp hst
    rw [fatOpenFrom]
    dsimp only
    split
    · exact ⟨_, rfl, hst⟩
    · split
      · exact ⟨_, rfl, hst⟩
      · rename_i hne
        obtain ⟨⟨found, st1⟩, hfind, hst1⟩ := findInDir_safe hf hm dirCluster
          (fatPackName (p.takeWhile (· ≠ 0x2F))) (!(p.dropWhile (· ≠ 0x2F)).isEmpty) hst
        rw [hfind]
        rcases found with _ | ⟨cluster, size⟩
        · exact ⟨_, rfl, hst1⟩
        · dsimp only
          split
          · exact ⟨_, rfl, hst1⟩
          · split
            · exact ⟨_, rfl, hst1⟩
            · -- a component that is not empty shortens the path
              refine ih _ _ _ ?_ hst1
              have hsplit := congrArg List.length
                (takeWhile_append_dropWhile (p := (· ≠ 0x2F)) (l := p))
              have hpos := length_pos_iff.mpr hne
              rw [length_append] at hsplit
              rw [length_tail]
              omega

theorem open_safe (hf : bk.Faithful img I) (hm : Mounted vol ps) (path : List UInt8)
    (m : Machine δ) : ∃ r, fatOpen bk vol path m = some r ∧ Safe img I vol ps m r.2 := by
  unfold fatOpen
  split
  · exact openFrom_safe hf hm _ _ _ _ (Nat.lt_succ_self _) (safe_start m)
  · exact ⟨_, rfl, safe_start m⟩

theorem offsetLba_safe (hf : bk.Faithful img I) (hm : Mounted vol ps) (file : FatFile)
    (offset : UInt32) (m : Machine δ) :
    Safe img I vol ps m (fatOffsetLba bk vol file offset m).2 := by
  unfold fatOffsetLba
  split
  · exact safe_start m
  · rename_i hcond
    have hrange : fatClusterInRange vol file.firstCluster.toNat := by
      by_contra hout
      exact hcond (.inr (.inr (.inr hout)))
    dsimp only
    have hw := advanceN_spec hf hm
      (offset.toNat / u32 (vol.bytesPerSector * vol.sectorsPerCluster))
      (w := fatChainWalkInit file.firstCluster.toNat) ⟨hrange, hrange⟩ m.start
    split
    · rename_i w st heq
      rw [heq] at hw
      exact (safe_start m).step hw.reads hw.ready
    · rename_i w st heq
      rw [heq] at hw
      exact (safe_start m).step hw.reads hw.ready

/-! ### Every request is inside the partition -/

/-- Every sector that the requests of a log ask for is in `[lba, lba + sectors)`. -/
def AsksWithin (lba sectors : Nat) (events : List FatEvent) : Prop :=
  ∀ at_ n ok, FatEvent.read at_ n ok ∈ events → ∀ i < n, lba ≤ at_ + i ∧ at_ + i < lba + sectors

theorem LogInside.asksWithin {events : List FatEvent} (h : LogInside vol ps events)
    (hwrap : vol.partitionLba + ps < 2 ^ 64) : AsksWithin vol.partitionLba ps events := by
  intro lba n ok hmem i hi
  obtain ⟨k, hk, hle⟩ := h lba n ok hmem
  rw [u64_of_lt (by omega)] at hk
  omega

/-- A disk of which nothing is known is faithful to any image in no state. -/
theorem faithful_false (bk : Backend δ) (img : Image) : bk.Faithful img fun _ => False :=
  ⟨fun _ _ _ h => h, fun _ _ _ _ h => h.elim⟩

theorem mounted_of_fatMount {m : Machine δ} (h : fatMount bk pl sectors m = (some vol, st)) :
    Mounted vol sectors.toNat ∧ vol.partitionLba = pl.toNat := by
  unfold fatMount at h
  dsimp only at h
  split at h
  · have hsome := congrArg Prod.fst h
    refine ⟨mounted_of_fatMountSector hsome, ?_⟩
    rw [(accepted_of_fatMountSector hsome).1]
    rfl
  · exact absurd (congrArg Prod.fst h) (by simp)

theorem root_inRange_of_fatMount {m : Machine δ} (h : fatMount bk pl sectors m = (some vol, st)) :
    fatClusterInRange vol vol.rootCluster := by
  unfold fatMount at h
  dsimp only at h
  split at h
  · exact root_inRange_of_fatMountSector (congrArg Prod.fst h)
  · exact absurd (congrArg Prod.fst h) (by simp)

/-- The machines a boot goes through once it has mounted the volume: it makes calls into the
reader, and between them does anything that touches neither the disk nor the caches. -/
inductive Session (bk : Backend δ) (img : Image) (I : δ → Prop) (vol : FatVolume)
    (batch : Nat) : Machine δ → Prop where
  | mounted {pl sectors : UInt64} {m : Machine δ} {st : FatRun δ} (hdisk : I m.disk)
      (h : fatMount bk pl sectors m = (some vol, st)) : Session bk img I vol batch st.m
  | opened {m : Machine δ} {path : List UInt8} {r : Option FatFile × FatRun δ}
      (hm : Session bk img I vol batch m) (h : fatOpen bk vol path m = some r) :
      Session bk img I vol batch r.2.m
  | located {m : Machine δ} (file : FatFile) (offset : UInt32)
      (hm : Session bk img I vol batch m) :
      Session bk img I vol batch (fatOffsetLba bk vol file offset m).2.m
  | read {κ : Type} {m : Machine δ} {file : FatFile} {offset length dst : UInt32}
      {progress : Option (Progress δ κ)} {ctx : κ} {r : Bool × κ × FatRun δ}
      (hm : Session bk img I vol batch m) (hk : Keeps img I progress)
      (h : fatReadRange bk vol batch file offset length dst progress ctx m = some r) :
      Session bk img I vol batch r.2.2.m
  | invalidated {m : Machine δ} (hm : Session bk img I vol batch m) :
      Session bk img I vol batch (fatCacheInvalidate m)
  | other {m m' : Machine δ} (hm : Session bk img I vol batch m) (hdisk : m'.disk = m.disk)
      (hcache : m'.cache = m.cache) (hcache2 : m'.cache2 = m.cache2) :
      Session bk img I vol batch m'

theorem coherent_invalid {c : FatCache} (h : c.valid = false) : Coherent img c := by
  intro hv
  rw [h] at hv
  cases hv

theorem ready_fatMount (hf : bk.Faithful img I) (pl sectors : UInt64) {m : Machine δ}
    (hdisk : I m.disk) : Ready img I (fatMount bk pl sectors m).2.m := by
  have hstart : Ready img I (fatCacheInvalidate m).start.m :=
    ⟨hdisk, coherent_invalid rfl, coherent_invalid rfl⟩
  unfold fatMount
  dsimp only
  split
  · exact hstart.read hf _ _
  · exact hstart.read hf _ _

/-- In every machine of a session the volume is mounted, and the caches hold what is on the
disk. -/
theorem session_ready (hf : bk.Faithful img I) (h1 : 1 ≤ batch) (hbatch : batch * 512 < 2 ^ 32)
    {m : Machine δ} (h : Session bk img I vol batch m) :
    (∃ ps, Mounted vol ps) ∧ Ready img I m := by
  induction h with
  | @mounted pl sectors m st hdisk h =>
    refine ⟨⟨_, (mounted_of_fatMount h).1⟩, ?_⟩
    have hready := ready_fatMount hf pl sectors hdisk
    rwa [h] at hready
  | opened hm h ih =>
    obtain ⟨⟨ps, hvol⟩, hready⟩ := ih
    obtain ⟨r, hr, hsafe⟩ := open_safe hf hvol _ _
    cases hr.symm.trans h
    exact ⟨⟨ps, hvol⟩, hsafe.ready hready⟩
  | located file offset hm ih =>
    obtain ⟨⟨ps, hvol⟩, hready⟩ := ih
    exact ⟨⟨ps, hvol⟩, (offsetLba_safe hf hvol file offset _).ready hready⟩
  | read hm hk h ih =>
    obtain ⟨⟨ps, hvol⟩, hready⟩ := ih
    obtain ⟨r, hr, hsafe⟩ := readRange_safe hf hvol h1 hbatch _ _ _ _ hk _ _
    cases hr.symm.trans h
    exact ⟨⟨ps, hvol⟩, hsafe.ready hready⟩
  | invalidated hm ih => exact ⟨ih.1, ih.2.disk, coherent_invalid rfl, coherent_invalid rfl⟩
  | other hm hdisk hcache hcache2 ih =>
    exact ⟨ih.1, by rw [hdisk]; exact ih.2.disk, by rw [hcache]; exact ih.2.cache,
      by rw [hcache2]; exact ih.2.cache2⟩

/-- On a mounted volume `fat_open`, `fat_offset_lba` and `fat_read_range` end, and ask the
disk for sectors of the partition only. The machine and the answers of the disk are
arbitrary. The bound on `batch` says that the staging buffer fits the 32-bit address
space. -/
theorem requests_stay_in_partition {pl sectors : UInt64} {m₀ : Machine δ} {st₀ : FatRun δ}
    (hwrap : pl.toNat + sectors.toNat < 2 ^ 64)
    (hmount : fatMount bk pl sectors m₀ = (some vol, st₀)) (h1 : 1 ≤ batch)
    (hbatch : batch * 512 < 2 ^ 32) (m : Machine δ) :
    (∀ path, ∃ r, fatOpen bk vol path m = some r ∧
      AsksWithin pl.toNat sectors.toNat r.2.events) ∧
    (∀ file offset,
      AsksWithin pl.toNat sectors.toNat (fatOffsetLba bk vol file offset m).2.events) ∧
    (∀ file offset length dst (progress : Option (Progress δ κ)) ctx,
      ∃ r, fatReadRange bk vol batch file offset length dst progress ctx m = some r ∧
        AsksWithin pl.toNat sectors.toNat r.2.2.events) := by
  obtain ⟨hm, hpl⟩ := mounted_of_fatMount hmount
  have hf := faithful_false bk (Image.ofBytes fun _ => 0)
  rw [← hpl] at hwrap ⊢
  refine ⟨?_, ?_, ?_⟩
  · intro path
    obtain ⟨r, hr, hsafe⟩ := open_safe hf hm path m
    exact ⟨r, hr, hsafe.inside.asksWithin hwrap⟩
  · intro file offset
    exact (offsetLba_safe hf hm file offset m).inside.asksWithin hwrap
  · intro file offset length dst progress ctx
    have hk : Keeps (Image.ofBytes fun _ => 0) (fun _ => False) progress :=
      fun _ _ _ _ _ h => h.disk.elim
    obtain ⟨r, hr, hsafe⟩ := readRange_safe hf hm h1 hbatch file offset length dst hk ctx m
    exact ⟨r, hr, hsafe.inside.asksWithin hwrap⟩

/-- The volume of `sampleImage`, with a FAT in which every cluster points to itself. -/
theorem requests_stay_in_partition_sample :
    (∃ st, fatMount (sampleImage 1 id 0).backend 0 66038 (blankMachine [])
      = (some (sampleVolume 1), st)) ∧
    (∀ path, ∃ r, fatOpen (sampleImage 1 id 0).backend (sampleVolume 1) path (blankMachine [])
      = some r ∧ AsksWithin 0 66038 r.2.events) := by
  obtain ⟨st, hst⟩ := sampleMount id 0 [] sampleMount_one
  exact ⟨⟨st, hst⟩, (requests_stay_in_partition (κ := Unit) (by decide) hst
    (show 1 ≤ 36 by decide) (by decide) (blankMachine [])).1⟩

end ZfsBoot.Proofs.Fat
