import ZfsBoot.Proofs.Fat.Landing

/-!
# `ZfsBoot.Proofs.Fat.Sector`: one sector of a file, on a disk that may lie about it

`Faithful` asks of a disk that every read it serves returns what is on it. Here only the lookups
of the FAT are trusted (`FatTrue`), and the data of the file may come back as anything. The walk
and the look-ahead of `fat_read_range` read nothing but the FAT, so they run as they do on
`fatOnly`, a disk that refuses all other reads and is faithful for that reason. What is left of a
read of one sector is then a single request, at the file's own sector (`readSector_spec`).
-/

set_option autoImplicit false

namespace ZfsBoot.Proofs.Fat

open Lib Bios

variable {file : FatFile} {dst k : Nat} {δ κ : Type} {bk : Backend δ} {img : Image} {I : δ → Prop}
  {vol : FatVolume} {ps batch : Nat} {s : RangeLoop δ κ}

/-! ### A disk that serves the FAT -/

/-- The FAT lookups that the disk serves return what is on it. Of the other reads only `I` is
known. -/
structure FatTrue (bk : Backend δ) (img : Image) (I : δ → Prop) (vol : FatVolume) : Prop where
  keeps : ∀ d lba n, I d → I (bk.read d lba n).2
  truthful : ∀ d c, I d → fatClusterInRange vol c →
    (bk.read d (fatEntrySector vol c) 1).1.ok = true →
      (bk.read d (fatEntrySector vol c) 1).1.data = img.sector (fatEntrySector vol c)

theorem FatTrue.of_faithful (hf : bk.Faithful img I) (vol : FatVolume) : FatTrue bk img I vol where
  keeps := hf.keeps
  truthful d c hd _ hok := by
    rw [hf.truthful d _ 1 (by decide) hd hok, Image.read_one, fatEntrySector, u64_of_lt (u64_lt _)]

open Classical in
/-- The same disk for the sectors of the FAT; it refuses every other read. -/
noncomputable def fatOnly (bk : Backend δ) (vol : FatVolume) : Backend δ where
  read d lba n :=
    if n = 1 ∧ ∃ c, fatClusterInRange vol c ∧ lba = fatEntrySector vol c then bk.read d lba n
    else (⟨false, []⟩, d)

theorem faithful_fatOnly (hf : FatTrue bk img I vol) : (fatOnly bk vol).Faithful img I where
  keeps d lba n hd := by
    unfold fatOnly
    dsimp only
    split
    · exact hf.keeps d lba n hd
    · exact hd
  truthful d lba n _ hd := by
    unfold fatOnly
    dsimp only
    split
    · rename_i h
      obtain ⟨rfl, c, hc, rfl⟩ := h
      intro hok
      rw [hf.truthful d c hd hc hok, Image.read_one, fatEntrySector, u64_of_lt (u64_lt _)]
    · intro hok
      cases hok

theorem read_fatOnly {c : Nat} (hc : fatClusterInRange vol c) (st : FatRun δ) :
    st.read (fatOnly bk vol) (fatEntrySector vol c) 1 = st.read bk (fatEntrySector vol c) 1 := by
  have hread : (fatOnly bk vol).read st.m.disk (fatEntrySector vol c) 1
      = bk.read st.m.disk (fatEntrySector vol c) 1 := if_pos ⟨rfl, c, hc, rfl⟩
  unfold FatRun.read
  rw [hread]

/-! ### The walk reads the FAT only -/

theorem lookup_fatOnly (c : Nat) (b : Bool) (st : FatRun δ) :
    fatGetNextClusterSlot (fatOnly bk vol) vol c b st = fatGetNextClusterSlot bk vol c b st := by
  unfold fatGetNextClusterSlot
  by_cases hc : fatClusterInRange vol c
  · dsimp only
    rw [read_fatOnly hc]
  · rw [if_pos hc, if_pos hc]

theorem advance_fatOnly (w : FatChainWalk) (st : FatRun δ) :
    fatChainAdvance (fatOnly bk vol) vol w st = fatChainAdvance bk vol w st := by
  simp only [fatChainAdvance, fatTortoiseAdvance, fatGetNextCluster, lookup_fatOnly]

theorem advanceN_fatOnly (n : Nat) : ∀ (w : FatChainWalk) (st : FatRun δ),
    fatChainAdvanceN (fatOnly bk vol) vol n w st = fatChainAdvanceN bk vol n w st := by
  induction n with
  | zero =>
    intro w st
    rfl
  | succ n ih =>
    intro w st
    simp only [fatChainAdvanceN, advance_fatOnly, ih]

theorem lookAhead_fatOnly (fuel : Nat) : ∀ (size c : Nat) (st : FatRun δ),
    fatLookAhead (fatOnly bk vol) vol batch fuel size c st
      = fatLookAhead bk vol batch fuel size c st := by
  induction fuel with
  | zero =>
    intro size c st
    rfl
  | succ fuel ih =>
    intro size c st
    simp only [fatLookAhead, fatGetNextCluster, lookup_fatOnly, ih]

theorem runSectors_fatOnly (s : RangeLoop δ κ) :
    runSectors (fatOnly bk vol) vol batch s = runSectors bk vol batch s := by
  simp only [runSectors, lookAhead_fatOnly]

/-! ### One sector -/

/-- The sector of the disk that holds sector `k` of the file. -/
def fileLba (img : Image) (vol : FatVolume) (file : FatFile) (k : Nat) : Nat :=
  u64 (clusterToLba vol (chainAt img vol file.firstCluster.toNat (k * 512 / clusterBytes vol))
    + k * 512 % clusterBytes vol / 512)

/-- A pass has at least the rest of the current cluster before it. -/
theorem one_le_runSectors (hf : bk.Faithful img I) (hm : Mounted vol ps) (h1 : 1 ≤ batch)
    (hbatch : batch * 512 < 2 ^ 32) (hs : Placed vol s) :
    1 ≤ (runSectors bk vol batch s).1 ∧ (runSectors bk vol batch s).1 * 512 < 2 ^ 32 := by
  have hsector := hs.sector
  have hspc := hm.spc_lt
  obtain ⟨j, hj⟩ := lookAhead_spec hf hm hbatch batch
    (vol.sectorsPerCluster - s.sectorInCluster) s.st (by omega) hs.walk.cluster
  have htotal := hj.total
  unfold runSectors
  dsimp only
  split <;> omega

/-- From the start of a sector, with 512 bytes to go, a pass is one request for one sector, and
nothing is left after it. -/
theorem rangeBody_sector (hf : FatTrue bk img I vol) (hm : Mounted vol ps) (h1 : 1 ≤ batch)
    (hbatch : batch * 512 < 2 ^ 32) (hs : Placed vol s) (hrem : s.remaining = 512)
    (hoff : s.sectorOff = 0) :
    rangeBody bk vol batch none s
      = rangeRequest bk vol none 512 1 s (runSectors bk vol batch s).2 := by
  obtain ⟨hone, hlt⟩ := one_le_runSectors (faithful_fatOnly hf) hm h1 hbatch hs
  rw [runSectors_fatOnly] at hone hlt
  have hbytes : bytesThisRun vol (runSectors bk vol batch s).1 s = 512 := by
    rw [bytesThisRun_eq hm hs.offset hone hlt, hrem, hoff]
    omega
  have hneeded : sectorsNeeded vol 512 s = 1 := by
    rw [sectorsNeeded_eq hm hlt (by omega), hoff]
  rw [rangeBody, if_neg (by omega)]
  dsimp only
  rw [hbytes, hneeded]

/-- What a read of sector `k` of a file leaves behind. If it succeeds, the destination holds what
the disk answered to one read of that sector. -/
structure SectorRead (bk : Backend δ) (img : Image) (I : δ → Prop) (vol : FatVolume)
    (file : FatFile) (k dst : Nat) (r : Bool × κ × FatRun δ) : Prop where
  ready : Ready img I r.2.2.m
  data : r.1 = true → ∃ d, I d ∧ (bk.read d (fileLba img vol file k) 1).1.ok = true ∧
    ((bk.read d (fileLba img vol file k) 1).1.data.length = 512 →
      ramBytes r.2.2.m.ram dst 512 = (bk.read d (fileLba img vol file k) 1).1.data)

/-- A copy of 512 bytes lands where it should. -/
theorem ramBytes_unrealCopy {n : Nat} {bytes : List UInt8} (m : Machine δ)
    (h : bytes.length = n) (hn : n ≤ 2 ^ 32) :
    ramBytes (unrealCopy dst bytes m).ram dst n = bytes := by
  refine List.ext_getElem (by rw [length_ramBytes, h]) fun i hi hi' => ?_
  rw [length_ramBytes] at hi
  simp only [ramBytes, List.getElem_map, List.getElem_range]
  rw [ram_unrealCopy dst m (by omega) (by omega)]
  exact List.getD_eq_getElem _ _ hi'

/-- The one request of a read of one sector. -/
theorem request_sector (hf : FatTrue bk img I vol) {st : FatRun δ} (hready : Ready img I st.m)
    (hrem : s.remaining = 512) (hoff : s.sectorOff = 0) (hdst : s.dstPhys = dst)
    (hlba : u64 (clusterToLba vol s.w.cluster + s.sectorInCluster) = fileLba img vol file k) :
    (rangeRequest bk vol none 512 1 s st).Sat
      (fun s' => s'.remaining = 0 ∧ SectorRead bk img I vol file k dst (true, s'.ctx, s'.st))
      (SectorRead bk img I vol file k dst) := by
  have hkeep : I (bk.read st.m.disk (fileLba img vol file k) 1).2 := hf.keeps _ _ _ hready.disk
  unfold rangeRequest
  dsimp only [FatRun.read]
  rw [hlba, show u16 1 = 1 from rfl]
  by_cases hok : (bk.read st.m.disk (fileLba img vol file k) 1).1.ok = true
  · -- with nothing left the walk makes no hop
    rw [if_neg (not_not.mpr hok), hrem, if_neg (by decide)]
    dsimp only [fatChainAdvanceN, Loop.Step.Sat]
    refine ⟨rfl, ⟨hkeep, hready.cache, hready.cache2⟩, fun _ => ⟨_, hready.disk, hok, ?_⟩⟩
    intro hlen
    rw [deliver, hoff, hdst]
    refine (ramBytes_unrealCopy _ ?_ (by decide)).trans ?_
    all_goals simp only [FatRun.stage, overlay, List.drop_zero]
    · rw [List.length_take, List.length_append]
      omega
    · exact List.take_left' hlen
  · rw [if_pos hok]
    exact ⟨⟨hkeep, hready.cache, hready.cache2⟩, fun h => absurd h Bool.false_ne_true⟩

/-- The main loop over one sector: the first pass makes the request, the second finds nothing
left. -/
theorem run_sector (hf : FatTrue bk img I vol) (hm : Mounted vol ps) (h1 : 1 ≤ batch)
    (hbatch : batch * 512 < 2 ^ 32) (hs : Placed vol s) (hready : Ready img I s.st.m)
    (hrem : s.remaining = 512) (hoff : s.sectorOff = 0) (hdst : s.dstPhys = dst)
    (hlba : u64 (clusterToLba vol s.w.cluster + s.sectorInCluster) = fileLba img vol file k)
    (fuel : Nat) :
    ∃ r, Loop.run (rangeBody bk vol batch none) (fuel + 2) s = some r ∧
      SectorRead bk img I vol file k dst r := by
  obtain ⟨j, hplan⟩ := plan_spec (faithful_fatOnly hf) hm h1 hbatch hs (by omega)
  have hrun := hplan.ready hready
  rw [runSectors_fatOnly] at hrun
  have hpass := request_sector hf hrun hrem hoff hdst hlba
  rw [← rangeBody_sector hf hm h1 hbatch hs hrem hoff] at hpass
  rcases hbody : rangeBody bk vol batch none s with s' | r
  all_goals rw [hbody] at hpass
  · have hdone : rangeBody bk vol batch none s' = .done (true, s'.ctx, s'.st) := by
      rw [rangeBody, if_pos hpass.1]
    exact ⟨_, by rw [Loop.run_next hbody, Loop.run_done hdone], hpass.2⟩
  · exact ⟨_, by rw [Loop.run_done hbody], hpass⟩

/-- `fat_read_range` of one sector, on a disk whose FAT can be trusted. -/
theorem readSector_spec (hf : FatTrue bk img I vol) (hm : Mounted vol ps) (h1 : 1 ≤ batch)
    (hbatch : batch * 512 < 2 ^ 32) (file : FatFile) (hk : k * 512 < 2 ^ 32)
    (dst : UInt32) (ctx : κ) {m : Machine δ} (hready : Ready img I m) :
    ∃ r, fatReadRange bk vol batch file (UInt32.ofNat (k * 512)) (UInt32.ofNat 512) dst none ctx m
        = some r ∧ SectorRead bk img I vol file k dst.toNat r := by
  have hclear : Ready img I m.start.clearError.m := ⟨hready.disk, hready.cache, hready.cache2⟩
  have hoffset : (UInt32.ofNat (k * 512)).toNat = k * 512 := UInt32.toNat_ofNat_of_lt' hk
  have hlen : (UInt32.ofNat 512).toNat = 512 := rfl
  have hrefused : ∀ {st : FatRun δ}, Ready img I st.m →
      SectorRead bk img I vol file k dst.toNat (false, ctx, st) :=
    fun h => ⟨h, fun h => nomatch h⟩
  unfold fatReadRange
  dsimp only
  rw [hoffset, hlen, clusterBytes_eq hm]
  split_ifs with hgeom hrange hzero hfirst
  · exact ⟨_, rfl, hrefused (hclear.fail _ _ _ _)⟩
  · exact ⟨_, rfl, hrefused ((hclear.setRemaining _).fail _ _ _ _)⟩
  · exact absurd hzero (by decide)
  swap
  · exact ⟨_, rfl, hrefused ((hclear.setRemaining _).fail _ _ _ _)⟩
  rw [walkInit_eq img vol, ← advanceN_fatOnly]
  have hw := advanceN_spec (faithful_fatOnly hf) hm (k * 512 / clusterBytes vol)
    (w := walkAt img vol file.firstCluster.toNat 0) ⟨hfirst, hfirst⟩ m.start.clearError
  rcases hadv : fatChainAdvanceN (fatOnly bk vol) vol (k * 512 / clusterBytes vol)
    (walkAt img vol file.firstCluster.toNat 0) m.start.clearError with ⟨_ | _, w, st⟩
  all_goals rw [hadv] at hw
  · exact ⟨_, rfl, hrefused ((hw.ready hclear).setRemaining _)⟩
  have hwalk : w = walkAt img vol file.firstCluster.toNat (k * 512 / clusterBytes vol) := by
    have hpassed : w = _ := (hw.passed hclear rfl).1
    rwa [iterate_walkNext, Nat.zero_add] at hpassed
  rw [hm.bps, Nat.mul_mod_left k 512]
  refine run_sector hf hm h1 hbatch ⟨hw.walkIn rfl, ?_, ?_⟩ (hw.ready hclear) rfl rfl rfl ?_ 511
  · show k * 512 % clusterBytes vol / 512 < vol.sectorsPerCluster
    rw [Nat.div_lt_iff_lt_mul (by decide), Nat.mul_comm vol.sectorsPerCluster]
    exact Nat.mod_lt _ (by unfold clusterBytes; omega)
  · show 0 < 512
    decide
  · rw [hwalk]
    rfl

end ZfsBoot.Proofs.Fat
