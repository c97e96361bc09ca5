import ZfsBoot.Proofs.Fat.Volume

/-!
# `ZfsBoot.Proofs.Fat.Range`: one pass of `fat_read_range`

The main loop reads a run of sectors, copies the part of it that was asked for and walks
over the clusters it used up. `plan_spec` says which run: from the current sector over `j`
further clusters that follow each other both in the chain and on the disk. `request_spec`
says what the request leaves behind: a failed read, a walk that stopped, or the loop's next
state. Everything later about `fat_read_range` (where its requests go, what it delivers, when
it notices a cycle) is an invariant over these two lemmas.
-/

set_option autoImplicit false

namespace ZfsBoot.Proofs.Fat

open Lib Bios

variable {bytes : Nat} {run needed : Nat} {δ κ : Type} {bk : Backend δ} {img : Image} {I : δ → Prop}
  {vol : FatVolume} {ps batch : Nat} {s : RangeLoop δ κ}

/-! ### The look-ahead -/

/-- What the look-ahead from cluster `c` with `size` sectors in hand does: it adds the `j`
clusters after `c`, and stops at the batch limit, at a failed read, or where the chain does
not go on to the next cluster on the disk. -/
structure LookAheadPost (bk : Backend δ) (img : Image) (I : δ → Prop) (vol : FatVolume) (ps batch fuel size c : Nat)
    (st : FatRun δ) (r : Nat × FatRun δ) (j : Nat) : Prop where
  reads : Reads vol ps st r.2
  ready : Ready img I st.m → Ready img I r.2.m
  total : r.1 = size + j * vol.sectorsPerCluster
  cap : j = 0 ∨ r.1 ≤ batch
  inRange : ∀ i ≤ j, fatClusterInRange vol (c + i)
  chain : Ready img I st.m → ∀ i < j, fatNext img vol (c + i) = c + (i + 1)
  maximal : Ready img I st.m → j < fuel → batch < r.1 + vol.sectorsPerCluster ∨
    DiskFailed bk I r.2.events ∨ fatNext img vol (c + j) ≠ c + (j + 1) ∨
    ¬ fatClusterInRange vol (c + (j + 1))

theorem lookAhead_spec (hf : bk.Faithful img I) (hm : Mounted vol ps)
    (hbatch : batch * 512 < 2 ^ 32) (fuel : Nat) :
    ∀ (size : Nat) {c : Nat} (st : FatRun δ), size < 2 ^ 31 → fatClusterInRange vol c →
      ∃ j, LookAheadPost bk img I vol ps batch fuel size c st
        (fatLookAhead bk vol batch fuel size c st) j := by
  have hspc := hm.spc_lt
  have hclusters := hm.clusters_lt
  induction fuel with
  | zero =>
    intro size c st hsize hc
    refine ⟨0, .refl st, id, by simp [fatLookAhead], .inl rfl, ?_, by simp, by simp⟩
    intro i hi
    rwa [Nat.le_zero.mp hi]
  | succ fuel ih =>
    intro size c st hsize hc
    have hl := lookup_spec hf hm hc false st
    have honly : ∀ i ≤ 0, fatClusterInRange vol (c + i) := by
      intro i hi
      rwa [Nat.le_zero.mp hi]
    have hnowrap : u32 (size + vol.sectorsPerCluster) = size + vol.sectorsPerCluster :=
      u32_of_lt (by omega)
    have hsucc : u32 (c + 1) = c + 1 := by
      have := (inRange_iff hm c).mp hc
      exact u32_of_lt (by omega)
    rw [fatLookAhead, hnowrap, hsucc]
    split
    · rename_i hfits
      rw [fatGetNextCluster]
      rcases hget : fatGetNextClusterSlot bk vol c false st with ⟨_ | next, st1⟩
      all_goals
        rw [hget] at hl
        dsimp only
      · exact ⟨0, hl.reads, hl.ready, by simp, .inl rfl, honly, by simp,
          fun hr _ => .inr (.inl (hl.failed hr rfl))⟩
      · split
        · rename_i hstop
          refine ⟨0, hl.reads, hl.ready, by simp, .inl rfl, honly, by simp, fun hr _ => ?_⟩
          rw [hl.value hr next rfl] at hstop
          by_cases heq : fatNext img vol c = c + 1
          · rw [heq] at hstop
            exact .inr (.inr (.inr (by simpa using hstop)))
          · exact .inr (.inr (.inl heq))
        · rename_i hgo
          rw [not_or, not_not, not_not] at hgo
          obtain ⟨rfl, hin⟩ := hgo
          obtain ⟨j, hj⟩ := ih (size + vol.sectorsPerCluster) st1 (by omega) hin
          have hshift (i : Nat) : c + 1 + i = c + (i + 1) := by omega
          refine ⟨j + 1, hl.reads.trans hj.reads, fun hr => hj.ready (hl.ready hr), ?_, ?_, ?_,
            ?_, ?_⟩
          · rw [hj.total, Nat.succ_mul]
            omega
          · have htotal := hj.total
            rcases hj.cap with rfl | hle
            · exact .inr (by omega)
            · exact .inr hle
          · intro i hi
            cases i with
            | zero => exact hc
            | succ i =>
              rw [← hshift]
              exact hj.inRange i (by omega)
          · intro hr i hi
            cases i with
            | zero => exact (hl.value hr _ rfl).symm
            | succ i =>
              rw [← hshift i, ← hshift (i + 1)]
              exact hj.chain (hl.ready hr) i (by omega)
          · intro hr hlt
            have := hj.maximal (hl.ready hr) (by omega)
            rwa [hshift, hshift] at this
    · rename_i hfull
      exact ⟨0, .refl st, id, by simp, .inl rfl, honly, by simp,
        fun _ _ => .inl (Nat.lt_of_not_le hfull)⟩

/-! ### The run of one pass -/

/-- The loop state stands inside a cluster of the volume. -/
structure Placed (vol : FatVolume) (s : RangeLoop δ κ) : Prop where
  walk : WalkIn vol s.w
  sector : s.sectorInCluster < vol.sectorsPerCluster
  offset : s.sectorOff < 512

/-- The run a pass asks for: `needed` sectors from the current one, within the `j` clusters
after the current one, of which it copies `bytes`. -/
structure Plan (bk : Backend δ) (img : Image) (I : δ → Prop) (vol : FatVolume) (ps batch : Nat)
    (s : RangeLoop δ κ) (bytes needed : Nat) (st : FatRun δ) (j : Nat) : Prop where
  reads : Reads vol ps s.st st
  ready : Ready img I s.st.m → Ready img I st.m
  inRange : ∀ i ≤ j, fatClusterInRange vol (s.w.cluster + i)
  chain : Ready img I s.st.m → ∀ i < j,
    fatNext img vol (s.w.cluster + i) = s.w.cluster + (i + 1)
  maximal : Ready img I s.st.m →
    batch < vol.sectorsPerCluster - s.sectorInCluster + (j + 1) * vol.sectorsPerCluster ∨
    DiskFailed bk I st.events ∨ fatNext img vol (s.w.cluster + j) ≠ s.w.cluster + (j + 1) ∨
    ¬ fatClusterInRange vol (s.w.cluster + (j + 1))
  bytes_pos : 1 ≤ bytes
  bytes_le : bytes ≤ s.remaining
  covers : s.sectorOff + bytes ≤ needed * 512
  tight : needed * 512 < s.sectorOff + bytes + 512
  within : s.sectorInCluster + needed ≤ (j + 1) * vol.sectorsPerCluster
  needed_le : needed ≤ batch
  full : bytes < s.remaining → s.sectorOff + bytes = needed * 512 ∧
    (s.sectorInCluster + needed = (j + 1) * vol.sectorsPerCluster ∨ j = 0 ∧ needed = batch ∧
      s.sectorInCluster + needed < vol.sectorsPerCluster)
  last : bytes = s.remaining → s.sectorOff + s.remaining ≤
    (vol.sectorsPerCluster - s.sectorInCluster + j * vol.sectorsPerCluster) * 512
  spread : j = 0 ∨ vol.sectorsPerCluster - s.sectorInCluster + j * vol.sectorsPerCluster ≤ batch

theorem bytesThisRun_eq (hm : Mounted vol ps) (hoff : s.sectorOff < 512) (h1 : 1 ≤ run)
    (hrun : run * 512 < 2 ^ 32) :
    bytesThisRun vol run s = min s.remaining (run * 512 - s.sectorOff) := by
  have hmax : u32 (u32 (run * 512) + 2 ^ 32 - s.sectorOff) = run * 512 - s.sectorOff := by
    rw [u32_of_lt hrun]
    unfold u32
    omega
  rw [bytesThisRun, hm.bps, hmax]
  split <;> omega

theorem sectorsNeeded_eq (hm : Mounted vol ps) (hrun : run * 512 < 2 ^ 32)
    (hle : s.sectorOff + bytes ≤ run * 512) :
    sectorsNeeded vol bytes s = (s.sectorOff + bytes + 511) / 512 := by
  rw [sectorsNeeded, hm.bps, u32_of_lt (by omega)]
  rfl

/-- Rounding a number of bytes up to whole sectors. -/
theorem sectors_of_bytes {n : Nat} (h : needed = (n + 511) / 512)
    (hle : n ≤ run * 512) : n ≤ needed * 512 ∧ needed * 512 < n + 512 ∧ needed ≤ run := by
  omega

/-- The run of a pass that has bytes left to read. -/
theorem plan_spec (hf : bk.Faithful img I) (hm : Mounted vol ps) (h1 : 1 ≤ batch)
    (hbatch : batch * 512 < 2 ^ 32) (hs : Placed vol s) (hrem : s.remaining ≠ 0) :
    ∃ j, Plan bk img I vol ps batch s (bytesThisRun vol (runSectors bk vol batch s).1 s)
      (sectorsNeeded vol (bytesThisRun vol (runSectors bk vol batch s).1 s) s)
      (runSectors bk vol batch s).2 j := by
  have hspc := hm.spc_lt
  have hsec := hs.sector
  have hoff := hs.offset
  obtain ⟨j, hj⟩ := lookAhead_spec hf hm hbatch batch
    (vol.sectorsPerCluster - s.sectorInCluster) s.st (by omega) hs.walk.cluster
  generalize hlook : fatLookAhead bk vol batch batch
    (vol.sectorsPerCluster - s.sectorInCluster) s.w.cluster s.st = r at hj
  have hrs : runSectors bk vol batch s = (if r.1 > batch then batch else r.1, r.2) := by
    rw [runSectors, hlook]
  -- the sectors from the current one to the end of the last cluster of the run
  obtain ⟨avail, havail⟩ : ∃ avail, avail = r.1 := ⟨_, rfl⟩
  have hend : s.sectorInCluster + avail = (j + 1) * vol.sectorsPerCluster := by
    rw [havail, hj.total, Nat.succ_mul]
    omega
  have hcap : j = 0 ∨ avail ≤ batch := havail ▸ hj.cap
  have havail1 : 1 ≤ avail := by
    have := hj.total
    omega
  have hfuel : j < batch := by
    have : j ≤ j * vol.sectorsPerCluster := Nat.le_mul_of_pos_right j (by omega)
    have := hj.total
    omega
  obtain ⟨run, hrun⟩ : ∃ run, run = if r.1 > batch then batch else r.1 := ⟨_, rfl⟩
  rw [hrs, ← hrun]
  rw [← havail] at hrun
  have hmin : run ≤ batch ∧ run ≤ avail ∧ (run = batch ∨ run = avail) := by
    split at hrun <;> omega
  have hruncap : run * 512 < 2 ^ 32 :=
    Nat.lt_of_le_of_lt (Nat.mul_le_mul_right 512 hmin.1) hbatch
  obtain ⟨bytes, hbytes⟩ : ∃ bytes, bytes = min s.remaining (run * 512 - s.sectorOff) := ⟨_, rfl⟩
  rw [bytesThisRun_eq hm hoff (by omega) hruncap, ← hbytes,
    sectorsNeeded_eq hm hruncap (by omega)]
  obtain ⟨needed, hneeded⟩ : ∃ needed, needed = (s.sectorOff + bytes + 511) / 512 := ⟨_, rfl⟩
  rw [← hneeded]
  have hcases : bytes = s.remaining ∧ s.sectorOff + bytes ≤ run * 512 ∨
      bytes ≤ s.remaining ∧ s.sectorOff + bytes = run * 512 := by omega
  obtain ⟨hcovers, htight, hneeded_le⟩ :=
    sectors_of_bytes hneeded (hcases.elim And.right fun h => Nat.le_of_eq h.2)
  refine ⟨j, hj.reads, hj.ready, hj.inRange, hj.chain, ?_, by omega, by omega, hcovers, htight,
    ?_, by omega, ?_, ?_, ?_⟩
  · intro hr
    rcases hj.maximal hr hfuel with hcap' | hstop
    · rw [hj.total] at hcap'
      exact .inl (by rw [Nat.succ_mul]; omega)
    · exact .inr hstop
  · rw [← hend]
    omega
  · intro hlt
    refine ⟨by omega, ?_⟩
    rcases hmin.2.2 with hb | ha
    · rcases hcap with rfl | hle
      · rw [Nat.zero_add, Nat.one_mul] at hend ⊢
        omega
      · exact .inl (by omega)
    · exact .inl (by omega)
  · intro _
    rw [← hj.total, ← havail]
    omega
  · rw [← hj.total, ← havail]
    exact hcap

/-! ### The request of one pass -/

/-- The callback leaves the disk in order and the caches with what is on it. -/
def Keeps (img : Image) (I : δ → Prop) (progress : Option (Progress δ κ)) : Prop :=
  ∀ f, progress = some f → ∀ n ctx m, Ready img I m → Ready img I (f n ctx m).2

/-- What the call of the callback adds to the log. -/
def progressLog (progress : Option (Progress δ κ)) (n : Nat) : List FatEvent :=
  if progress.isSome then [.progress n] else []

theorem Ready.deliver {progress : Option (Progress δ κ)} (hk : Keeps img I progress)
    {st : FatRun δ} (h : Ready img I st.m) (bytes : Nat) (s : RangeLoop δ κ) :
    Ready img I (deliver progress bytes s st).2.m := by
  unfold Bios.deliver callProgress
  cases progress with
  | none => exact ⟨h.disk, h.cache, h.cache2⟩
  | some f => exact hk f rfl _ _ _ ⟨h.disk, h.cache, h.cache2⟩

theorem events_deliver (progress : Option (Progress δ κ)) (bytes : Nat) (s : RangeLoop δ κ)
    (st : FatRun δ) : (deliver progress bytes s st).2.events = st.events ++
      (.copy s.dstPhys ((st.m.ioBuf.drop s.sectorOff).take bytes) ::
        progressLog progress bytes) := by
  unfold deliver callProgress
  cases progress with
  | none => rfl
  | some f => simp [progressLog]

/-- The sector a pass starts its request at. -/
def requestLba (vol : FatVolume) (s : RangeLoop δ κ) : Nat :=
  u64 (clusterToLba vol s.w.cluster + s.sectorInCluster)

/-- The machine after a request that succeeded and was handed on: `data` is the part of the
staging buffer that was copied. -/
structure Delivered (img : Image) (I : δ → Prop) (vol : FatVolume)
    (progress : Option (Progress δ κ)) (s : RangeLoop δ κ) (bytes needed : Nat)
    (st st' : FatRun δ) (data : List UInt8) : Prop where
  log : st'.events = st.events ++ (.read (requestLba vol s) (u16 needed) true ::
    .copy s.dstPhys data :: progressLog progress bytes)
  ready : Keeps img I progress → Ready img I st.m → Ready img I st'.m
  data : Ready img I st.m → data = ((overlay (img.read (requestLba vol s) (u16 needed))
    st.m.ioBuf).drop s.sectorOff).take bytes

/-- The hops a pass makes once `remaining` bytes are left. -/
def hopsAfter (vol : FatVolume) (s : RangeLoop δ κ) (bytes needed : Nat) : Nat :=
  if s.remaining - bytes > 0 then (s.sectorInCluster + needed) / vol.sectorsPerCluster else 0

/-- The run with the sectors of the request in the staging buffer. -/
def staged (bk : Backend δ) (vol : FatVolume) (needed : Nat) (s : RangeLoop δ κ) (st : FatRun δ) :
    FatRun δ :=
  let r := st.read bk (requestLba vol s) (u16 needed)
  r.2.stage r.1.data

/-- The three ends of a request, with the context and RAM that each leaves. -/
inductive RequestEnds (bk : Backend δ) (img : Image) (I : δ → Prop) (vol : FatVolume) (ps : Nat)
    (progress : Option (Progress δ κ)) (s : RangeLoop δ κ) (bytes needed : Nat)
    (st : FatRun δ) : Loop.Step (RangeLoop δ κ) (Bool × κ × FatRun δ) → Prop where
  | readFailed (st' : FatRun δ)
      (log : st'.events = st.events ++ [.read (requestLba vol s) (u16 needed) false])
      (ready : Ready img I st.m → Ready img I st'.m)
      (cause : Ready img I st.m → DiskFailed bk I st'.events)
      (left : st'.m.err.remaining = s.remaining) (ram : st'.m.ram = st.m.ram) :
      RequestEnds bk img I vol ps progress s bytes needed st (.done (false, s.ctx, st'))
  | stopped (st' : FatRun δ) (data : List UInt8) (w : FatChainWalk)
      (delivered : Delivered img I vol progress s bytes needed st
        (deliver progress bytes s (staged bk vol needed s st)).2 data)
      (walk : WalkPost bk img I vol ps (hopsAfter vol s bytes needed) s.w
        (deliver progress bytes s (staged bk vol needed s st)).2 (false, w, st')) :
      RequestEnds bk img I vol ps progress s bytes needed st
        (.done (false, (deliver progress bytes s (staged bk vol needed s st)).1,
          st'.setRemaining (s.remaining - bytes)))
  | next (data : List UInt8) (s' : RangeLoop δ κ)
      (delivered : Delivered img I vol progress s bytes needed st
        (deliver progress bytes s (staged bk vol needed s st)).2 data)
      (walk : WalkPost bk img I vol ps (hopsAfter vol s bytes needed) s.w
        (deliver progress bytes s (staged bk vol needed s st)).2 (true, s'.w, s'.st))
      (remaining : s'.remaining = s.remaining - bytes)
      (sector : s'.sectorInCluster = (s.sectorInCluster + needed) % vol.sectorsPerCluster)
      (offset : s'.sectorOff = 0)
      (dst : s'.dstPhys = u32 (s.dstPhys + bytes))
      (ctx : s'.ctx = (deliver progress bytes s (staged bk vol needed s st)).1) :
      RequestEnds bk img I vol ps progress s bytes needed st (.next s')

theorem delivered_staged (hf : bk.Faithful img I) (progress : Option (Progress δ κ))
    (s : RangeLoop δ κ) (bytes : Nat) {st : FatRun δ}
    (hok : (st.read bk (requestLba vol s) (u16 needed)).1.ok = true) :
    Delivered img I vol progress s bytes needed st
      (deliver progress bytes s (staged bk vol needed s st)).2
      (((overlay (st.read bk (requestLba vol s) (u16 needed)).1.data st.m.ioBuf).drop
        s.sectorOff).take bytes) := by
  refine ⟨?_, fun hk hr => Ready.deliver hk ((hr.read hf _ _).stage _) _ _, fun hr => ?_⟩
  · rw [events_deliver, ← hok]
    simp [staged, FatRun.read, FatRun.stage]
  · rw [show (st.read bk (requestLba vol s) (u16 needed)).1.data = _ from
      hf.truthful _ _ _ (u16_lt _) hr.disk hok]

theorem request_ends (hf : bk.Faithful img I) (hm : Mounted vol ps)
    (progress : Option (Progress δ κ)) (hs : Placed vol s) (bytes needed : Nat) (st : FatRun δ) :
    RequestEnds bk img I vol ps progress s bytes needed st
      (rangeRequest bk vol progress bytes needed s st) := by
  rw [rangeRequest]
  dsimp only
  rw [← requestLba]
  split
  · rename_i hfail
    rw [Bool.not_eq_true] at hfail
    refine .readFailed _ ?_ (fun hr => ?_) (fun hr => diskFailed_read hr.disk hfail) rfl rfl
    · rw [← hfail]
      rfl
    · exact (((hr.read hf _ _).stage _).setRemaining _).fail _ _ _ _
  · rename_i hok
    rw [not_not] at hok
    have hdel := delivered_staged hf progress s bytes hok
    have hwalk := advanceN_spec hf hm (hopsAfter vol s bytes needed) hs.walk
      (deliver progress bytes s (staged bk vol needed s st)).2
    have hstaged : (st.read bk (requestLba vol s) (u16 needed)).2.stage
        (st.read bk (requestLba vol s) (u16 needed)).1.data = staged bk vol needed s st := rfl
    rw [← hopsAfter, hstaged]
    revert hwalk
    split
    · rename_i w st' heq
      intro hwalk
      rw [heq] at hwalk
      exact .stopped _ _ _ hdel hwalk
    · rename_i w st' heq
      intro hwalk
      rw [heq] at hwalk
      exact .next _ _ hdel hwalk rfl rfl rfl rfl rfl

/-- A pass with something left is one planned request. -/
theorem rangeBody_pass (hf : bk.Faithful img I) (hm : Mounted vol ps) (h1 : 1 ≤ batch)
    (hbatch : batch * 512 < 2 ^ 32) (progress : Option (Progress δ κ)) (hs : Placed vol s)
    (hrem : s.remaining ≠ 0) :
    ∃ bytes needed st j, Plan bk img I vol ps batch s bytes needed st j ∧
      RequestEnds bk img I vol ps progress s bytes needed st (rangeBody bk vol batch progress s) := by
  obtain ⟨j, hp⟩ := plan_spec hf hm h1 hbatch hs hrem
  refine ⟨_, _, _, j, hp, ?_⟩
  rw [rangeBody, if_neg hrem]
  exact request_ends hf hm progress hs _ _ _

end ZfsBoot.Proofs.Fat
