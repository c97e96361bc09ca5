import ZfsBoot.Lib.Chain
import ZfsBoot.Proofs.Fat.Delivery

/-!
# `ZfsBoot.Proofs.Fat.Cycle`: when a read notices that its chain is cyclic

`fat_chain_advance` compares the head of the walk with a tortoise at half its speed. The two
meet only some way into the cycle, and a read that is over before they meet is reported as a
success, whatever clusters it has visited twice by then. Two numbers decide it: the position
at which they meet (`Chain.meet`, from the tail and the cycle of the chain), and the last
position the protected walk goes to. The second is not the last cluster of the range: the
walk stops at the cluster in which the last request starts, and the request itself runs over
consecutive clusters without it (`requestStart`).

`readRange_success_iff` is the exact condition for success on a disk that does not fail, and
`cycle_caught_iff` compares it with the clusters visited twice.
-/

set_option autoImplicit false

namespace ZfsBoot.Proofs.Fat

open Lib Bios

variable {sic tail cycle : Nat} {file : FatFile} {δ κ : Type} {bk : Backend δ} {img : Image}
  {I : δ → Prop} {vol : FatVolume} {ps batch : Nat}

/-! ### How consecutive clusters are cut into requests -/

section Requests

variable {chain : Nat → Nat} {first sector spc batch q l s x : Nat}

/-- The start of the run of consecutive clusters that position `l` is in, from `first` on. -/
def runStart (chain : Nat → Nat) (first : Nat) : Nat → Nat
  | 0 => 0
  | l + 1 => if first ≤ l ∧ chain (l + 1) = chain l + 1 then runStart chain first l else l + 1

/-- The clusters a request covers that starts `x` sectors into a cluster: as many as end
within the batch, and at least the one it starts in. -/
def clustersPerRequest (spc batch x : Nat) : Nat := max 1 ((batch + x) / spc)

/-- In a run that starts at position `s`, `x` sectors into the cluster, the position at which
the request starts that covers position `l`. -/
def requestInRun (spc batch s x l : Nat) : Nat :=
  if l < s + clustersPerRequest spc batch x then s
  else s + clustersPerRequest spc batch x + clustersPerRequest spc batch 0
    * ((l - s - clustersPerRequest spc batch x) / clustersPerRequest spc batch 0)

/-- Only a read's first run can start in the middle of a cluster. -/
def runSector (first sector s : Nat) : Nat := if s = first then sector else 0

/-- The position at which the request starts that covers position `l`, in a read that begins
`sector` sectors into the cluster at position `first`. -/
def requestStart (chain : Nat → Nat) (first sector spc batch l : Nat) : Nat :=
  requestInRun spc batch (runStart chain first l)
    (runSector first sector (runStart chain first l)) l

theorem clustersPerRequest_pos (spc batch x : Nat) : 1 ≤ clustersPerRequest spc batch x := Nat.le_max_left _ _

theorem le_runStart (h : first ≤ l) : first ≤ runStart chain first l := by
  induction l with
  | zero => exact h
  | succ l ih =>
    rw [runStart]
    split
    · rename_i hcond
      exact ih hcond.1
    · exact h

theorem runStart_le (chain : Nat → Nat) (first l : Nat) : runStart chain first l ≤ l := by
  induction l with
  | zero => exact Nat.le_refl 0
  | succ l ih =>
    rw [runStart]
    split
    · omega
    · exact Nat.le_refl _

theorem runStart_first : runStart chain first first = first := by
  cases first with
  | zero => rfl
  | succ n => rw [runStart, if_neg (by omega)]

/-- Consecutive clusters are in one run. -/
theorem runStart_of_consecutive (hq : first ≤ q) (hl : q ≤ l)
    (h : ∀ i, q ≤ i → i < l → chain (i + 1) = chain i + 1) :
    runStart chain first l = runStart chain first q := by
  induction l with
  | zero => rw [Nat.le_zero.mp hl]
  | succ l ih =>
    by_cases heq : q = l + 1
    · rw [heq]
    · rw [runStart, if_pos ⟨by omega, h l (by omega) (by omega)⟩]
      exact ih (by omega) (fun i h1 h2 => h i h1 (by omega))

/-- A later position is in the same run, or in one that starts later. -/
theorem runStart_eq_or_lt (chain : Nat → Nat) (first : Nat) (hl : q ≤ l) :
    runStart chain first l = runStart chain first q ∨ q < runStart chain first l := by
  induction l with
  | zero => exact .inl (by rw [Nat.le_zero.mp hl])
  | succ l ih =>
    by_cases heq : q = l + 1
    · exact .inl (by rw [heq])
    · rw [runStart]
      split
      · exact ih (by omega)
      · exact .inr (by omega)

theorem requestInRun_self : requestInRun spc batch s x s = s := by
  have := clustersPerRequest_pos spc batch x
  rw [requestInRun, if_pos (by omega)]

theorem le_requestInRun : s ≤ requestInRun spc batch s x l := by
  unfold requestInRun
  split <;> omega

theorem requestInRun_mono (h : q ≤ l) :
    requestInRun spc batch s x q ≤ requestInRun spc batch s x l := by
  unfold requestInRun
  split
  · split <;> omega
  · rw [if_neg (by omega)]
    refine Nat.add_le_add_left (Nat.mul_le_mul_left _ (Nat.div_le_div_right ?_)) _
    omega

/-- The clusters the request covers that starts at `q`. -/
def covered (spc batch s x q : Nat) : Nat :=
  if q = s then clustersPerRequest spc batch x else clustersPerRequest spc batch 0

theorem requestInRun_of_lt (hq : requestInRun spc batch s x q = q) (hl : q ≤ l)
    (hlt : l < q + covered spc batch s x q) : requestInRun spc batch s x l = q := by
  have hk := clustersPerRequest_pos spc batch 0
  unfold covered at hlt
  unfold requestInRun at hq ⊢
  split at hlt
  · rename_i heq
    rw [if_pos (by omega), heq]
  · rename_i hne
    generalize clustersPerRequest spc batch x = a at hq ⊢
    generalize clustersPerRequest spc batch 0 = b at hq hlt hk ⊢
    split at hq
    · omega
    · rename_i hge
      rw [if_neg (by omega)]
      generalize hd : (q - s - a) / b = d at hq
      have hdiv : (l - s - a) / b = d := by
        refine Nat.div_eq_of_lt_le ?_ ?_
        · rw [Nat.mul_comm]
          omega
        · rw [Nat.succ_mul, Nat.mul_comm]
          omega
      rw [hdiv, hq]

theorem requestInRun_next (hq : requestInRun spc batch s x q = q) :
    requestInRun spc batch s x (q + covered spc batch s x q) = q + covered spc batch s x q := by
  have hk := clustersPerRequest_pos spc batch 0
  unfold covered
  split
  · rename_i heq
    rw [requestInRun, if_neg (by omega), heq, Nat.add_sub_cancel_left, Nat.sub_self, Nat.zero_div,
      Nat.mul_zero, Nat.add_zero]
  · rename_i hne
    unfold requestInRun at hq ⊢
    generalize clustersPerRequest spc batch x = a at hq ⊢
    generalize clustersPerRequest spc batch 0 = b at hq hk ⊢
    split at hq
    · omega
    · rename_i hge
      rw [if_neg (by omega)]
      generalize hd : (q - s - a) / b = d at hq
      have hdiv : (q + b - s - a) / b = d + 1 := by
        rw [show q + b - s - a = q - s - a + b by omega, Nat.add_div_right _ hk, hd]
      rw [hdiv, Nat.mul_add, Nat.mul_one]
      omega

/-- A request that starts at `q` starts no later than one that covers a later position. -/
theorem le_requestStart (hq : requestStart chain first sector spc batch q = q) (hl : q ≤ l) :
    q ≤ requestStart chain first sector spc batch l := by
  unfold requestStart at hq ⊢
  rcases runStart_eq_or_lt chain first hl with heq | hlt
  · rw [heq]
    exact Nat.le_trans (Nat.le_of_eq hq.symm) (requestInRun_mono hl)
  · exact Nat.le_trans (Nat.le_of_lt hlt) le_requestInRun

/-- When the batch holds a whole cluster, the sector a request starts at says how many
clusters it covers. -/
theorem covered_eq (h : sic = if q = s then x else 0) :
    covered spc batch s x q = clustersPerRequest spc batch sic := by
  rw [covered, h]
  split <;> rfl

/-- A run of `j` further clusters that the batch has room for is within one request. -/
theorem le_covered {j : Nat} (hsic : sic < spc) (hsec : spc ≤ batch → sic = if q = s then x else 0)
    (hroom : j = 0 ∨ spc - sic + j * spc ≤ batch) : j + 1 ≤ covered spc batch s x q := by
  rcases hroom with rfl | hroom
  · unfold covered
    split <;> exact clustersPerRequest_pos _ _ _
  · have hzero : j = 0 → j * spc = 0 := by
      rintro rfl
      exact Nat.zero_mul _
    have hle : 1 ≤ j → spc ≤ j * spc := fun h => Nat.le_mul_of_pos_left _ h
    by_cases hj : j = 0
    · rw [hj]
      unfold covered
      split <;> exact clustersPerRequest_pos _ _ _
    · rw [covered_eq (hsec (by omega))]
      refine Nat.le_trans ?_ (Nat.le_max_right _ _)
      rw [Nat.le_div_iff_mul_le (by omega), Nat.succ_mul]
      omega

/-- A run that stops for want of room is as long as a request can be. -/
theorem covered_le {j : Nat} (hsic : sic < spc) (hx : x < spc)
    (hsec : spc ≤ batch → sic = if q = s then x else 0)
    (hfull : batch < spc - sic + (j + 1) * spc) : covered spc batch s x q ≤ j + 1 := by
  rw [Nat.succ_mul] at hfull
  by_cases hb : spc ≤ batch
  · rw [covered_eq (hsec hb), clustersPerRequest]
    refine Nat.max_le.mpr ⟨by omega, Nat.lt_succ_iff.mp ?_⟩
    rw [Nat.div_lt_iff_lt_mul (by omega), Nat.succ_mul, Nat.succ_mul]
    omega
  · have hone (y : Nat) (hy : y < spc) : clustersPerRequest spc batch y ≤ j + 1 := by
      refine Nat.max_le.mpr ⟨by omega, Nat.le_trans (Nat.lt_succ_iff.mp ?_) (Nat.le_add_left 1 j)⟩
      rw [Nat.div_lt_iff_lt_mul (by omega)]
      omega
    unfold covered
    split
    · exact hone x hx
    · exact hone 0 (by omega)

end Requests

/-! ### The loop on a disk that does not fail -/

section Loop

variable {c offset length dst bytes needed j : Nat} {s s' : RangeLoop δ κ} {st : FatRun δ}

/-- The position of the first cluster of a range. -/
def firstPosition (vol : FatVolume) (offset : Nat) : Nat := offset / clusterBytes vol

/-- The position of the last cluster of a range of at least one byte. -/
def lastPosition (vol : FatVolume) (offset length : Nat) : Nat :=
  (offset + length - 1) / clusterBytes vol

/-- The position at which the last request of a read starts. -/
def lastRequest (img : Image) (vol : FatVolume) (batch c offset length : Nat) : Nat :=
  requestStart (chainAt img vol c) (firstPosition vol offset)
    (offset % clusterBytes vol / 512) vol.sectorsPerCluster batch
    (lastPosition vol offset length)

/-- The clusters of the range are in range, and the protected walk to the start of the last
request passes. -/
structure Passes (img : Image) (vol : FatVolume) (batch c offset length : Nat) : Prop where
  inRange : ∀ i ≤ lastPosition vol offset length, fatClusterInRange vol (chainAt img vol c i)
  hops : ∀ i < lastRequest img vol batch c offset length, HopOk img vol (walkAt img vol c i)

/-- The loop's position in the chain. -/
def positionOf (vol : FatVolume) (offset length : Nat) (s : RangeLoop δ κ) : Nat :=
  (offset + (length - s.remaining)) / clusterBytes vol

/-- With bytes left, the walk has passed every hop so far and stands where a request starts;
with none left, the read has passed as a whole. -/
structure CycleInv (img : Image) (vol : FatVolume) (batch c offset length : Nat)
    (s : RangeLoop δ κ) : Prop where
  hops : 0 < s.remaining → ∀ i < positionOf vol offset length s,
    HopOk img vol (walkAt img vol c i)
  start : 0 < s.remaining → requestStart (chainAt img vol c) (firstPosition vol offset)
    (offset % clusterBytes vol / 512) vol.sectorsPerCluster batch
    (positionOf vol offset length s) = positionOf vol offset length s
  sector : 0 < s.remaining → vol.sectorsPerCluster ≤ batch → s.sectorInCluster =
    if positionOf vol offset length s = runStart (chainAt img vol c)
      (firstPosition vol offset) (positionOf vol offset length s)
    then runSector (firstPosition vol offset) (offset % clusterBytes vol / 512)
      (runStart (chainAt img vol c) (firstPosition vol offset) (positionOf vol offset length s))
    else 0
  done : s.remaining = 0 → Passes img vol batch c offset length

theorem runSector_lt (hm : Mounted vol ps) (first p : Nat) :
    runSector first (offset % clusterBytes vol / 512) p < vol.sectorsPerCluster := by
  have hspc := hm.spc_pos
  unfold runSector
  split
  · rw [Nat.div_lt_iff_lt_mul (by decide), Nat.mul_comm vol.sectorsPerCluster]
    exact Nat.mod_lt _ (Nat.mul_pos (by decide) hspc)
  · exact hspc

/-- The clusters before and at the loop's position are in range. -/
theorem CycleInv.inRange (hi : CycleInv img vol batch c offset length s)
    (hfirst : fatClusterInRange vol c) (hrem : 0 < s.remaining) :
    ∀ i ≤ positionOf vol offset length s, fatClusterInRange vol (chainAt img vol c i) := by
  intro i hle
  cases i with
  | zero => exact hfirst
  | succ i => exact ((hopOk_walkAt c i).mp (hi.hops hrem i (by omega))).2.1

theorem firstPosition_le (vol : FatVolume) (offset length : Nat) (s : RangeLoop δ κ) :
    firstPosition vol offset ≤ positionOf vol offset length s :=
  Nat.div_le_div_right (Nat.le_add_right _ _)

/-- A pass that delivers all that was left: the read has passed. -/
theorem passes_of_last (hm : Mounted vol ps) (hs : OnChain img I vol c offset length dst s)
    (hi : CycleInv img vol batch c offset length s)
    (hp : Plan bk img I vol ps batch s bytes needed st j) (hfirst : fatClusterInRange vol c)
    (hrem : 0 < s.remaining) (hall : bytes = s.remaining) :
    Passes img vol batch c offset length := by
  have hspc : 0 < vol.sectorsPerCluster := hm.spc_pos
  have hcb : 0 < clusterBytes vol := Nat.mul_pos (by decide) hspc
  have hleft := hs.left
  obtain ⟨q, hq⟩ : ∃ q, q = positionOf vol offset length s := ⟨_, rfl⟩
  obtain ⟨l, hl⟩ : ∃ l, l = lastPosition vol offset length := ⟨_, rfl⟩
  have hqrange := hi.inRange hfirst hrem
  have hhops := hi.hops hrem
  have hstart := hi.start hrem
  have hsec := hi.sector hrem
  have hfq := firstPosition_le vol offset length s
  have hcons := hs.consecutive hp hrem
  have hpos := hs.position hrem
  rw [show (offset + (length - s.remaining)) / clusterBytes vol = q from hq.symm] at hcons hpos
  rw [← hq] at hqrange hhops hstart hsec hfq
  have hql : q ≤ l := by
    rw [hq, hl]
    exact Nat.div_le_div_right (by omega)
  have hlj : l < q + (j + 1) := by
    have hend := hp.last hall
    have hsic := hs.placed.sector
    rw [hl, lastPosition, Nat.div_lt_iff_lt_mul hcb, clusterBytes]
    have hexp : (q + (j + 1)) * (512 * vol.sectorsPerCluster)
        = (q * vol.sectorsPerCluster + j * vol.sectorsPerCluster + vol.sectorsPerCluster) * 512 := by
      ring
    rw [hexp]
    generalize q * vol.sectorsPerCluster = a at hpos ⊢
    generalize j * vol.sectorsPerCluster = b at hend ⊢
    omega
  -- the range ends in the run of this request, so the last request is this one
  have hrun : runStart (chainAt img vol c) (firstPosition vol offset) l
      = runStart (chainAt img vol c) (firstPosition vol offset) q := by
    refine runStart_of_consecutive hfq hql (fun i h1 h2 => ?_)
    obtain ⟨d, rfl⟩ := Nat.exists_eq_add_of_le h1
    rw [Nat.add_assoc, hcons d (by omega), hcons (d + 1) (by omega), Nat.add_assoc]
  have hlast : lastRequest img vol batch c offset length = q := by
    rw [lastRequest, ← hl, requestStart, hrun]
    have hcov := le_covered hs.placed.sector hsec hp.spread
    exact requestInRun_of_lt hstart hql (by omega)
  refine ⟨?_, ?_⟩
  · intro i hle
    rw [← hl] at hle
    by_cases hiq : i ≤ q
    · exact hqrange i hiq
    · obtain ⟨d, rfl⟩ := Nat.exists_eq_add_of_le (Nat.le_of_not_le hiq)
      rw [hcons d (by omega)]
      exact hp.inRange d (by omega)
  · rw [hlast]
    exact hhops

/-- A pass with more to come, on a disk that does not fail: the next cluster is out of range,
or a request starts at it. -/
theorem start_of_more (hm : Mounted vol ps) (hnever : bk.NeverFails I)
    (hs : OnChain img I vol c offset length dst s)
    (hi : CycleInv img vol batch c offset length s)
    (hp : Plan bk img I vol ps batch s bytes needed st j) (hmore : bytes < s.remaining)
    {q' : Nat} (hq' : q' = positionOf vol offset length s
      + (s.sectorInCluster + needed) / vol.sectorsPerCluster) :
    ¬ fatClusterInRange vol (chainAt img vol c q') ∨
    requestStart (chainAt img vol c) (firstPosition vol offset)
      (offset % clusterBytes vol / 512) vol.sectorsPerCluster batch q' = q' ∧
    (vol.sectorsPerCluster ≤ batch → (s.sectorInCluster + needed) % vol.sectorsPerCluster =
      if q' = runStart (chainAt img vol c) (firstPosition vol offset) q'
      then runSector (firstPosition vol offset) (offset % clusterBytes vol / 512)
        (runStart (chainAt img vol c) (firstPosition vol offset) q')
      else 0) := by
  have hspc : 0 < vol.sectorsPerCluster := hm.spc_pos
  have hrem : 0 < s.remaining := by omega
  have hstart := hi.start hrem
  have hsec := hi.sector hrem
  have hfq := firstPosition_le vol offset length s
  have hcons := hs.consecutive hp hrem
  obtain ⟨q, hq⟩ : ∃ q, q = positionOf vol offset length s := ⟨_, rfl⟩
  rw [show (offset + (length - s.remaining)) / clusterBytes vol = q from hq.symm] at hcons
  rw [← hq] at hstart hsec hfq hq'
  rcases (hp.full hmore).2 with hend | ⟨-, hneeded, hlt⟩
  · -- the request ended with cluster `q + j`
    rw [hend, Nat.mul_div_cancel _ hspc] at hq'
    rw [hend, Nat.mul_mod_left, hq']
    have hrs := runStart_le (chainAt img vol c) (firstPosition vol offset) q
    by_cases hnext : chainAt img vol c (q + j + 1) = chainAt img vol c (q + j) + 1
    · -- the run goes on, so it was the batch that ended the request
      rcases hp.maximal hs.ready with hcap | hfail | hbreak | hout
      · right
        have hcov : covered vol.sectorsPerCluster batch
            (runStart (chainAt img vol c) (firstPosition vol offset) q)
            (runSector (firstPosition vol offset) (offset % clusterBytes vol / 512)
              (runStart (chainAt img vol c) (firstPosition vol offset) q)) q = j + 1 :=
          Nat.le_antisymm
            (covered_le hs.placed.sector (runSector_lt hm _ _) hsec hcap)
            (le_covered hs.placed.sector hsec hp.spread)
        have hrun : runStart (chainAt img vol c) (firstPosition vol offset) (q + (j + 1))
            = runStart (chainAt img vol c) (firstPosition vol offset) q := by
          refine runStart_of_consecutive hfq (by omega) (fun i h1 h2 => ?_)
          obtain ⟨d, rfl⟩ := Nat.exists_eq_add_of_le h1
          by_cases hd : d = j
          · rw [hd]
            exact hnext
          · rw [Nat.add_assoc, hcons d (by omega), hcons (d + 1) (by omega), Nat.add_assoc]
        refine ⟨?_, fun _ => ?_⟩
        · have hreq := requestInRun_next hstart
          rw [hcov] at hreq
          rw [requestStart, hrun]
          exact hreq
        · rw [hrun, if_neg (by omega)]
      · exact absurd hnever hfail.fallible
      · rw [chainAt_succ, hcons j (Nat.le_refl j)] at hnext
        exact absurd hnext hbreak
      · left
        rwa [← Nat.add_assoc, hnext, hcons j (Nat.le_refl j), Nat.add_assoc]
    · -- a new run starts here
      right
      have hrun : runStart (chainAt img vol c) (firstPosition vol offset) (q + (j + 1))
          = q + (j + 1) := by
        rw [← Nat.add_assoc, runStart, if_neg (fun h => hnext h.2)]
      refine ⟨by rw [requestStart, hrun, requestInRun_self], fun _ => ?_⟩
      rw [hrun, if_pos rfl, runSector, if_neg (by omega)]
  · -- the batch is smaller than a cluster, and the request stayed within it
    rw [Nat.div_eq_of_lt hlt, Nat.add_zero] at hq'
    rw [hq']
    exact .inr ⟨hstart, fun hle => absurd hle (by omega)⟩

/-- The loop's position after a pass with more to come. -/
theorem position_of_more (hm : Mounted vol ps) (hs : OnChain img I vol c offset length dst s)
    (hp : Plan bk img I vol ps batch s bytes needed st j) (hmore : bytes < s.remaining) :
    (offset + (length - (s.remaining - bytes))) / clusterBytes vol = positionOf vol offset length s
      + (s.sectorInCluster + needed) / vol.sectorsPerCluster := by
  rw [hs.advanced hp hmore]
  exact (position_split hm.spc_pos (by decide)).1

/-- The walk to the start of the last request goes over the first cluster of the range. -/
theorem firstPosition_le_lastRequest (hlen : 0 < length) :
    firstPosition vol offset ≤ lastRequest img vol batch c offset length :=
  Nat.le_trans (le_runStart (Nat.div_le_div_right (by omega))) le_requestInRun

end Loop

/-- On a disk that does not fail, a read of at least one byte within the file succeeds exactly
if it passes. -/
theorem readRange_success_iff (hf : bk.Faithful img I) (hm : Mounted vol ps) (h1 : 1 ≤ batch)
    (hbatch : batch * 512 < 2 ^ 32) (hnever : bk.NeverFails I)
    {offset length : UInt32} {progress : Option (Progress δ κ)} {m : Machine δ}
    (hk : Keeps img I progress) (hready : Ready img I m)
    (hsize : offset.toNat + length.toNat ≤ file.size.toNat) (hlen : 0 < length.toNat)
    (hfirst : fatClusterInRange vol file.firstCluster.toNat) (dst : UInt32) (ctx : κ) :
    ∃ r, fatReadRange bk vol batch file offset length dst progress ctx m = some r ∧
      (r.1 = true ↔
        Passes img vol batch file.firstCluster.toNat offset.toNat length.toNat) := by
  have hclear : Ready img I m.start.clearError.m := ⟨hready.disk, hready.cache, hready.cache2⟩
  refine readRange_rule hf hm h1 hbatch hready hsize hlen hfirst
    (CycleInv img vol batch file.firstCluster.toNat offset.toNat length.toNat)
    (fun r => r.1 = true ↔
      Passes img vol batch file.firstCluster.toNat offset.toNat length.toNat) ?_ ?_ ?_ hk ?_
  · intro w st hw
    refine ⟨by simp, fun hpass => ?_⟩
    rcases hw.stopped hclear rfl with hfail | ⟨i, hi, hbad⟩
    · exact absurd hnever hfail.fallible
    · rw [iterate_walkNext, Nat.zero_add] at hbad
      exact absurd (hpass.hops i (Nat.lt_of_lt_of_le hi (firstPosition_le_lastRequest hlen))) hbad
  · intro s hs hrem _ hw
    have hpos : positionOf vol offset.toNat length.toNat s = firstPosition vol offset.toNat := by
      rw [positionOf, hrem, Nat.sub_self, Nat.add_zero, firstPosition]
    refine ⟨fun _ i hi => ?_, fun _ => ?_, fun _ _ => ?_, fun h0 => ?_⟩
    · rw [hpos] at hi
      have := (hw.passed hclear rfl).2 i hi
      rwa [iterate_walkNext, Nat.zero_add] at this
    · rw [hpos, requestStart, runStart_first, requestInRun_self]
    · rw [hpos, runStart_first, if_pos rfl, runSector, if_pos rfl, hs.sector (by omega), hrem,
        Nat.sub_self, Nat.add_zero]
    · omega
  · intro s hs hi h0
    exact ⟨fun _ => hi.done h0, fun _ => rfl⟩
  · intro s bytes needed st j step hs hi hrem hp hr
    have hready1 := hp.ready hs.ready
    have hle := hp.bytes_le
    have hwalk := hs.walk hrem
    cases hr with
    | readFailed st' log ready cause left ram =>
      exact absurd hnever (cause hready1).fallible
    | stopped st' data w delivered walk =>
      refine ⟨by simp, fun hpass => ?_⟩
      rcases walk.stopped (delivered.ready hk hready1) rfl with hfail | ⟨i, hlt, hbad⟩
      · exact absurd hnever hfail.fallible
      · rw [hopsAfter] at hlt
        split at hlt
        · rename_i hmore
          rw [hwalk, iterate_walkNext] at hbad
          have hmore' : bytes < s.remaining := by omega
          have hposition := position_of_more hm hs hp hmore'
          have hlast : positionOf vol offset.toNat length.toNat s
              + (s.sectorInCluster + needed) / vol.sectorsPerCluster
              ≤ lastPosition vol offset.toNat length.toNat := by
            rw [← hposition]
            exact Nat.div_le_div_right (by omega)
          rcases start_of_more hm hnever hs hi hp hmore' rfl with hout | ⟨hstart, -⟩
          · exact absurd (hpass.inRange _ hlast) hout
          · refine absurd (hpass.hops _ ?_) hbad
            exact Nat.lt_of_lt_of_le (Nat.add_lt_add_left hlt _) (le_requestStart hstart hlast)
        · exact absurd hlt (by omega)
    | next data s' delivered walk remaining sector hoffset hdst hctx =>
      have hpassed := (walk.passed (delivered.ready hk hready1) rfl).2
      by_cases hmore : bytes < s.remaining
      · have hposition := position_of_more hm hs hp hmore
        have hhops : hopsAfter vol s bytes needed
            = (s.sectorInCluster + needed) / vol.sectorsPerCluster := if_pos (by omega)
        rw [← remaining] at hposition
        -- the hops of this pass extend the ones before it
        have hall : ∀ i < positionOf vol offset.toNat length.toNat s',
            HopOk img vol (walkAt img vol file.firstCluster.toNat i) := by
          intro i hlt
          rw [show positionOf vol offset.toNat length.toNat s' = _ from hposition] at hlt
          by_cases hold : i < positionOf vol offset.toNat length.toNat s
          · exact hi.hops hrem i hold
          · obtain ⟨d, rfl⟩ := Nat.exists_eq_add_of_le (Nat.le_of_not_lt hold)
            have := hpassed d (by omega)
            rwa [hwalk, iterate_walkNext] at this
        have hin : fatClusterInRange vol (chainAt img vol file.firstCluster.toNat
            (positionOf vol offset.toNat length.toNat s')) := by
          cases hq : positionOf vol offset.toNat length.toNat s' with
          | zero => exact hfirst
          | succ n => exact ((hopOk_walkAt _ n).mp (hall n (by omega))).2.1
        rcases start_of_more hm hnever hs hi hp hmore hposition with hout | ⟨hstart, hsec⟩
        · exact absurd hin hout
        · exact ⟨fun _ => hall, fun _ => hstart, fun _ hb => sector.trans (hsec hb),
            fun h0 => absurd h0 (by omega)⟩
      · have hzero : s'.remaining = 0 := by omega
        refine ⟨fun h => ?_, fun h => ?_, fun h => ?_, fun _ => ?_⟩
        · omega
        · omega
        · omega
        · exact passes_of_last hm hs hi hp hfirst hrem (by omega)

/-! ### The result -/

/-- Some cluster is at two different positions of the part of the chain that a read of
`length` bytes from `offset` delivers. -/
def Revisits (img : Image) (vol : FatVolume) (file : FatFile) (offset length : Nat) : Prop :=
  0 < length ∧ ∃ i j, firstPosition vol offset ≤ i ∧ i < j ∧ j ≤ lastPosition vol offset length ∧
    chainAt img vol file.firstCluster.toNat i = chainAt img vol file.firstCluster.toNat j

/-- The chain is not cyclic within the range, or the walk goes far enough to notice: for a
chain with a tail of `tail` and a cycle of `cycle` clusters, a read within the file that goes
a whole cycle past the tail starts its last request at or after the meeting point of the two
pointers, or after more hops than the volume has clusters. -/
def NoticedInTime (img : Image) (vol : FatVolume) (batch : Nat) (file : FatFile)
    (offset length : Nat) : Prop :=
  ∀ tail cycle, 0 < length → offset + length ≤ file.size.toNat →
    Chain.Rho (fatNext img vol) file.firstCluster.toNat tail cycle →
    (∀ i ≤ lastPosition vol offset length,
      fatClusterInRange vol (chainAt img vol file.firstCluster.toNat i)) →
    max (firstPosition vol offset) tail + cycle ≤ lastPosition vol offset length →
    2 * Chain.meet tail cycle
        ≤ lastRequest img vol batch file.firstCluster.toNat offset length ∨
      vol.totalClusters + 1 < lastRequest img vol batch file.firstCluster.toNat offset length

theorem lastRequest_le (img : Image) (vol : FatVolume) (batch c offset length : Nat) :
    lastRequest img vol batch c offset length ≤ lastPosition vol offset length := by
  unfold lastRequest requestStart requestInRun
  have hle := runStart_le (chainAt img vol c) (firstPosition vol offset)
    (lastPosition vol offset length)
  split
  · exact hle
  · have := Nat.mul_div_le (lastPosition vol offset length
      - runStart (chainAt img vol c) (firstPosition vol offset) (lastPosition vol offset length)
      - clustersPerRequest vol.sectorsPerCluster batch (runSector (firstPosition vol offset)
        (offset % clusterBytes vol / 512) (runStart (chainAt img vol c)
          (firstPosition vol offset) (lastPosition vol offset length))))
      (clustersPerRequest vol.sectorsPerCluster batch 0)
    omega

/-- A read that passes goes neither past the meeting point nor past the hop limit. -/
theorem Passes.before_meet {c offset length : Nat}
    (hp : Passes img vol batch c offset length) (hr : Chain.Rho (fatNext img vol) c tail cycle) :
    lastRequest img vol batch c offset length < 2 * Chain.meet tail cycle ∧
      lastRequest img vol batch c offset length ≤ vol.totalClusters + 1 := by
  refine ⟨?_, ?_⟩
  · by_contra hge
    obtain ⟨t, h1, hle, heq⟩ := (Chain.exists_meet_le_iff hr).mpr (Nat.le_of_not_lt hge)
    have hop := (hopOk_walkAt c (2 * t - 1)).mp (hp.hops (2 * t - 1) (by omega))
    refine (hop.2.2 (by omega)).2 ?_
    rw [show (2 * t - 1) / 2 + 1 = t by omega, show 2 * t - 1 + 1 = 2 * t by omega]
    exact heq
  · by_contra hgt
    have hop := (hopOk_walkAt c (vol.totalClusters + 1)).mp (hp.hops _ (by omega))
    exact absurd hop.1 (by omega)

/-- A read that stays before the meeting point and within the hop limit passes. -/
theorem passes_of_before_meet {c offset length : Nat}
    (hrange : ∀ i ≤ lastPosition vol offset length, fatClusterInRange vol (chainAt img vol c i))
    (hr : Chain.Rho (fatNext img vol) c tail cycle)
    (hmeet : lastRequest img vol batch c offset length < 2 * Chain.meet tail cycle)
    (hhops : lastRequest img vol batch c offset length ≤ vol.totalClusters + 1) :
    Passes img vol batch c offset length := by
  have hle := lastRequest_le img vol batch c offset length
  refine ⟨hrange, fun i hi => (hopOk_walkAt c i).mpr ⟨by omega, hrange _ (by omega), ?_⟩⟩
  intro hodd
  refine ⟨hrange _ (by omega), fun heq => ?_⟩
  have hmet := (Chain.exists_meet_le_iff hr).mp ⟨i / 2 + 1, by omega,
    show 2 * (i / 2 + 1) ≤ i + 1 by omega, by
      rw [show 2 * (i / 2 + 1) = i + 1 by omega]
      exact heq⟩
  omega

/-- Outside the file, or without a first cluster, a read that asks for bytes fails. -/
theorem readRange_rejects (bk : Backend δ) (batch : Nat) (hm : Mounted vol ps)
    {offset length : UInt32} (hlen : 0 < length.toNat)
    (h : ¬ (offset.toNat + length.toNat ≤ file.size.toNat ∧
      fatClusterInRange vol file.firstCluster.toNat)) (dst : UInt32)
    (progress : Option (Progress δ κ)) (ctx : κ) (m : Machine δ) :
    ∃ r, fatReadRange bk vol batch file offset length dst progress ctx m = some r ∧
      r.1 = false := by
  have hspc := hm.spc_pos
  have hne : ¬ length = 0 := by
    rintro rfl
    exact absurd hlen (by decide)
  unfold fatReadRange
  dsimp only
  rw [if_neg (by rw [hm.bps]; omega), if_neg hne]
  split
  · exact ⟨_, rfl, rfl⟩
  · rename_i hrange
    rw [if_pos (fun hin => h ⟨inside_iff.mp hrange, hin⟩)]
    exact ⟨_, rfl, rfl⟩

/-- On a mounted volume and a disk that never fails, a successful read delivers no cluster at
two positions of the chain, if and only if the chain's cycle is noticed in time. -/
theorem cycle_caught_iff (hf : bk.Faithful img I) (hnever : bk.NeverFails I) (h1 : 1 ≤ batch)
    (hbatch : batch * 512 < 2 ^ 32) {m : Machine δ} (hm : Session bk img I vol batch m)
    (file : FatFile) (offset length dst : UInt32) {progress : Option (Progress δ κ)}
    (hk : Keeps img I progress) (ctx : κ) :
    ∃ ok ctx' st, fatReadRange bk vol batch file offset length dst progress ctx m
        = some (ok, ctx', st) ∧
      ((ok = true → ¬ Revisits img vol file offset.toNat length.toNat) ↔
        NoticedInTime img vol batch file offset.toNat length.toNat) := by
  obtain ⟨⟨ps, hvol⟩, hready⟩ := session_ready hf h1 hbatch hm
  by_cases hlen : 0 < length.toNat
  · by_cases hvalid : offset.toNat + length.toNat ≤ file.size.toNat ∧
        fatClusterInRange vol file.firstCluster.toNat
    · obtain ⟨⟨ok, ctx', st⟩, hres, hiff⟩ := readRange_success_iff hf hvol h1 hbatch hnever hk
        hready hvalid.1 hlen hvalid.2 dst ctx
      refine ⟨ok, ctx', st, hres, ?_, ?_⟩
      · intro hprop tail cycle _ _ hr hrange hfits
        by_contra hlate
        rw [not_or, Nat.not_le, Nat.not_lt] at hlate
        have hpass := passes_of_before_meet hrange hr hlate.1 hlate.2
        exact hprop (hiff.mpr hpass) ⟨hlen, (Chain.exists_repeat_iff hr).mpr hfits⟩
      · rintro hnoticed hok ⟨-, i, j, hfi, hij, hjl, heq⟩
        have hpass := hiff.mp hok
        obtain ⟨tail, cycle, hr⟩ := Chain.rho_of_repeat hij heq
        have hfits := (Chain.exists_repeat_iff hr).mp ⟨i, j, hfi, hij, hjl, heq⟩
        obtain ⟨hmeet, hhops⟩ := hpass.before_meet hr
        rcases hnoticed tail cycle hlen hvalid.1 hr hpass.inRange hfits with hlate | hlate
        · omega
        · omega
    · obtain ⟨⟨ok, ctx', st⟩, hres, hfalse⟩ := readRange_rejects bk batch hvol hlen hvalid
        dst progress ctx m
      refine ⟨ok, ctx', st, hres, fun _ => ?_, fun _ hok => ?_⟩
      · intro tail cycle _ hsize _ hrange _
        exact absurd ⟨hsize, hrange 0 (Nat.zero_le _)⟩ hvalid
      · rw [hok] at hfalse
        cases hfalse
  · obtain ⟨⟨ok, ctx', st⟩, hres, -⟩ := readRange_safe hf hvol h1 hbatch file offset length dst
      hk ctx m
    exact ⟨ok, ctx', st, hres, fun _ _ _ hpos => absurd hpos hlen,
      fun _ _ hrev => absurd hrev.1 hlen⟩

/-- A disk whose FAT links every cluster to itself. -/
def selfLoopImage : Image := sampleImage 1 id 0

theorem session_selfLoop : ∃ m, Session selfLoopImage.backend selfLoopImage (fun _ => True)
    (sampleVolume 1) 36 m := by
  obtain ⟨st, hmount⟩ := sampleMount id 0 [] sampleMount_one
  exact ⟨st.m, .mounted trivial hmount⟩

/-- A file of one cluster on that disk. -/
theorem cycle_caught_iff_sample :
    ∃ m ok ctx' st, Session selfLoopImage.backend selfLoopImage (fun _ => True)
        (sampleVolume 1) 36 m ∧
      fatReadRange selfLoopImage.backend (sampleVolume 1) 36 ⟨3, 512⟩ 0 512 0x100000
        (some idle) () m = some (ok, ctx', st) ∧
      ((ok = true → ¬ Revisits selfLoopImage (sampleVolume 1) ⟨3, 512⟩ 0 512) ↔
        NoticedInTime selfLoopImage (sampleVolume 1) 36 ⟨3, 512⟩ 0 512) := by
  obtain ⟨m, hm⟩ := session_selfLoop
  obtain ⟨ok, ctx', st, hres, hiff⟩ := cycle_caught_iff (faithful_backend selfLoopImage)
    (neverFails_backend selfLoopImage) (by decide) (by decide) hm ⟨3, 512⟩ 0 512 0x100000
    (keeps_idle selfLoopImage) ()
  exact ⟨m, ok, ctx', st, hm, hres, hiff⟩

theorem chainAt_selfLoop (i : Nat) : chainAt selfLoopImage (sampleVolume 1) 3 i = 3 := by
  induction i with
  | zero => rfl
  | succ i ih =>
    rw [chainAt_succ, ih, fatNext_eq_fatEntry (mounted_of_fatMountSector sampleMount_one)
      (by decide), selfLoopImage, fatEntry_sample _ _ _ (by decide)]
    rfl

/-- A file of two clusters on that disk: the same cluster is delivered twice, and the read is
reported as a success. -/
theorem self_loop_delivered_twice :
    ∃ m ctx' st, selfLoopImage.backend.Faithful selfLoopImage (fun _ => True) ∧
      selfLoopImage.backend.NeverFails (fun _ => True) ∧
      Session selfLoopImage.backend selfLoopImage (fun _ => True) (sampleVolume 1) 36 m ∧
      fatReadRange selfLoopImage.backend (sampleVolume 1) 36 ⟨3, 1024⟩ 0 1024 0x100000
        (some idle) () m = some (true, ctx', st) ∧
      Revisits selfLoopImage (sampleVolume 1) ⟨3, 1024⟩ 0 1024 := by
  obtain ⟨m, hm⟩ := session_selfLoop
  have hf := faithful_backend selfLoopImage
  have hin : fatClusterInRange (sampleVolume 1) 3 := by decide
  have hsize : (0 : UInt32).toNat + (1024 : UInt32).toNat
      ≤ (⟨3, 1024⟩ : FatFile).size.toNat := by decide
  obtain ⟨⟨ok, ctx', st⟩, hres, hiff⟩ := readRange_success_iff hf
    (mounted_of_fatMountSector sampleMount_one) (show 1 ≤ 36 by decide) (by decide)
    (neverFails_backend selfLoopImage) (keeps_idle selfLoopImage)
    (session_ready hf (by decide) (by decide) hm).2 hsize (by decide) hin 0x100000 ()
  have hpass : Passes selfLoopImage (sampleVolume 1) 36 3 0 1024 := by
    have hle := lastRequest_le selfLoopImage (sampleVolume 1) 36 3 0 1024
    have hlast : lastPosition (sampleVolume 1) 0 1024 = 1 := rfl
    refine ⟨fun i _ => by rw [chainAt_selfLoop]; exact hin, fun i hi => ?_⟩
    rw [hopOk_walkAt, chainAt_selfLoop]
    exact ⟨by rw [show (sampleVolume 1).totalClusters = 65525 from rfl]; omega, hin, by omega⟩
  refine ⟨m, ctx', st, hf, neverFails_backend selfLoopImage, hm, ?_, by decide, 0, 1, by decide,
    by decide, by decide, ?_⟩
  · rw [hres, show ok = true from hiff.mpr hpass]
  · exact (chainAt_selfLoop 0).trans (chainAt_selfLoop 1).symm

end ZfsBoot.Proofs.Fat
