import Mathlib.Tactic.Ring
import ZfsBoot.Lib.Bytes
import ZfsBoot.Proofs.Fat.Range

/-!
# `ZfsBoot.Proofs.Fat.Position`: where in the chain the main loop stands

A file is a chain of clusters, numbered from 0. The main loop of `fat_read_range` keeps its
place as a cluster, a sector in it and an offset in that. `OnChain` ties the three to one
number, the position in the file, and to the walk that has made exactly the hops to it.
`OnChain.next` carries this through a pass.
-/

set_option autoImplicit false

namespace ZfsBoot.Proofs.Fat

open Lib Bios

variable {δ κ : Type} {bk : Backend δ} {img : Image} {I : δ → Prop} {vol : FatVolume}
  {ps batch : Nat}

/-- The cluster at position `i` of the chain from `c`, as the FAT on the disk links it. -/
def chainAt (img : Image) (vol : FatVolume) (c i : Nat) : Nat := (fatNext img vol)^[i] c

@[simp] theorem chainAt_zero (c : Nat) : chainAt img vol c 0 = c := rfl

theorem chainAt_succ (c i : Nat) :
    chainAt img vol c (i + 1) = fatNext img vol (chainAt img vol c i) :=
  Function.iterate_succ_apply' _ _ _

/-- The bytes of a cluster, as the driver computes them. -/
def clusterBytes (vol : FatVolume) : Nat := 512 * vol.sectorsPerCluster

/-- A walk that has made `i` hops from `c`: the tortoise is at half the position, and is due
after an even number of hops. -/
def walkAt (img : Image) (vol : FatVolume) (c i : Nat) : FatChainWalk where
  cluster := chainAt img vol c i
  tortoise := chainAt img vol c (i / 2)
  hops := i
  tortoiseDue := decide (i % 2 = 0)

theorem walkNext_walkAt (c i : Nat) :
    walkNext img vol (walkAt img vol c i) = walkAt img vol c (i + 1) := by
  unfold walkNext walkAt
  dsimp only
  rcases Nat.mod_two_eq_zero_or_one i with h | h
  · rw [show (i + 1) / 2 = i / 2 by omega, show (i + 1) % 2 = 1 by omega, h, chainAt_succ]
    rfl
  · rw [show (i + 1) / 2 = i / 2 + 1 by omega, show (i + 1) % 2 = 0 by omega, h, chainAt_succ,
      chainAt_succ]
    rfl

theorem iterate_walkNext (c i n : Nat) :
    (walkNext img vol)^[n] (walkAt img vol c i) = walkAt img vol c (i + n) := by
  induction n with
  | zero => rfl
  | succ n ih => rw [Function.iterate_succ_apply', ih, walkNext_walkAt, Nat.add_assoc]

/-- What `HopOk` asks of the hop from position `i`: the next cluster is in range, and after
an even number of hops it is not the one at half the position. -/
theorem hopOk_walkAt (c i : Nat) : HopOk img vol (walkAt img vol c i) ↔
    i ≤ vol.totalClusters ∧ fatClusterInRange vol (chainAt img vol c (i + 1)) ∧
    (i % 2 = 1 → fatClusterInRange vol (chainAt img vol c (i / 2 + 1)) ∧
      chainAt img vol c (i / 2 + 1) ≠ chainAt img vol c (i + 1)) := by
  have hdue : decide (i % 2 = 0) = false ↔ i % 2 = 1 := by
    rw [decide_eq_false_iff_not]
    omega
  rw [chainAt_succ, chainAt_succ]
  constructor
  · intro h
    exact ⟨h.hops, h.cluster, fun hodd => h.tortoise (hdue.mpr hodd)⟩
  · rintro ⟨hhops, hcluster, htortoise⟩
    exact ⟨hhops, hcluster, fun hd => htortoise (hdue.mp hd)⟩

/-- The main loop, `length - remaining` bytes into its range, stands at the byte `offset`
plus that of the chain. With nothing left to read the walk may lag behind. -/
structure OnChain (img : Image) (I : δ → Prop) (vol : FatVolume)
    (c offset length dst : Nat) (s : RangeLoop δ κ) : Prop where
  placed : Placed vol s
  ready : Ready img I s.st.m
  left : s.remaining ≤ length
  dst : s.dstPhys = u32 (dst + (length - s.remaining))
  walk : 0 < s.remaining →
    s.w = walkAt img vol c ((offset + (length - s.remaining)) / clusterBytes vol)
  sector : 0 < s.remaining →
    s.sectorInCluster = (offset + (length - s.remaining)) % clusterBytes vol / 512
  offset : 0 < s.remaining → s.sectorOff = (offset + (length - s.remaining)) % 512

/-- A position of a file split into cluster, sector and byte, put together again. -/
theorem position_eq (spc pos : Nat) :
    pos = (pos / (512 * spc) * spc + pos % (512 * spc) / 512) * 512 + pos % 512 := by
  have h1 := Nat.div_add_mod pos (512 * spc)
  have h4 : 512 * spc * (pos / (512 * spc)) = pos / (512 * spc) * spc * 512 := by ring
  omega

/-- Sector `k` after the start of cluster `q`, byte `r`, has these coordinates. -/
theorem position_split {spc q k r : Nat} (hspc : 0 < spc) (hr : r < 512) :
    ((q * spc + k) * 512 + r) / (512 * spc) = q + k / spc ∧
    ((q * spc + k) * 512 + r) % (512 * spc) = k % spc * 512 + r := by
  have hdm := Nat.div_add_mod k spc
  have hlt := Nat.mod_lt k hspc
  have hsum : (q * spc + k) * 512 + r = 512 * spc * (q + k / spc) + (k % spc * 512 + r) := by
    have : (q * spc + k) * 512 = (q * spc + (spc * (k / spc) + k % spc)) * 512 := by rw [hdm]
    rw [this]
    ring
  have hsmall : k % spc * 512 + r < 512 * spc := by omega
  rw [hsum]
  exact ⟨by rw [Nat.mul_add_div (by omega), Nat.div_eq_of_lt hsmall, Nat.add_zero],
    by rw [Nat.mul_add_mod, Nat.mod_eq_of_lt hsmall]⟩

section Pass

variable {c offset length dst bytes needed j : Nat} {s s' : RangeLoop δ κ} {st : FatRun δ}

/-- The byte the loop stands at, from its three coordinates. -/
theorem OnChain.position (hs : OnChain img I vol c offset length dst s)
    (hrem : 0 < s.remaining) : offset + (length - s.remaining) =
      ((offset + (length - s.remaining)) / clusterBytes vol * vol.sectorsPerCluster
        + s.sectorInCluster) * 512 + s.sectorOff := by
  rw [hs.sector hrem, hs.offset hrem]
  exact position_eq _ _

/-- The clusters of a run follow each other in the chain as they do on the disk. -/
theorem OnChain.consecutive (hs : OnChain img I vol c offset length dst s)
    (hp : Plan bk img I vol ps batch s bytes needed st j) (hrem : 0 < s.remaining) :
    ∀ i ≤ j, chainAt img vol c ((offset + (length - s.remaining)) / clusterBytes vol + i)
      = s.w.cluster + i := by
  intro i
  induction i with
  | zero =>
    intro _
    rw [hs.walk hrem]
    rfl
  | succ i ih =>
    intro hi
    rw [← Nat.add_assoc, chainAt_succ, ih (by omega)]
    exact hp.chain hs.ready i (by omega)

/-- After a pass with more to come, the next byte is the first of a sector. -/
theorem OnChain.advanced (hs : OnChain img I vol c offset length dst s)
    (hp : Plan bk img I vol ps batch s bytes needed st j) (hmore : bytes < s.remaining) :
    offset + (length - (s.remaining - bytes)) =
      ((offset + (length - s.remaining)) / clusterBytes vol * vol.sectorsPerCluster
        + (s.sectorInCluster + needed)) * 512 + 0 := by
  have hpos := hs.position (by omega)
  have hfull := (hp.full hmore).1
  have hleft := hs.left
  generalize (offset + (length - s.remaining)) / clusterBytes vol * vol.sectorsPerCluster = q
    at hpos ⊢
  omega

/-- The invariant goes through a pass. -/
theorem OnChain.next (hm : Mounted vol ps) (hs : OnChain img I vol c offset length dst s)
    (hp : Plan bk img I vol ps batch s bytes needed st j) {mid : FatRun δ}
    (hready : Ready img I mid.m)
    (hw : WalkPost bk img I vol ps (hopsAfter vol s bytes needed) s.w mid (true, s'.w, s'.st))
    (hremaining : s'.remaining = s.remaining - bytes)
    (hsector : s'.sectorInCluster = (s.sectorInCluster + needed) % vol.sectorsPerCluster)
    (hoffset : s'.sectorOff = 0) (hdst : s'.dstPhys = u32 (s.dstPhys + bytes)) :
    OnChain img I vol c offset length dst s' := by
  have hspc := hm.spc_pos
  have hle := hp.bytes_le
  have hleft := hs.left
  have hsplit := position_split (r := 0)
    (q := (offset + (length - s.remaining)) / clusterBytes vol)
    (k := s.sectorInCluster + needed) hspc (by decide)
  refine ⟨⟨hw.walkIn rfl, ?_, ?_⟩, hw.ready hready, by omega, ?_, ?_, ?_, ?_⟩
  · rw [hsector]
    exact Nat.mod_lt _ hspc
  · rw [hoffset]
    decide
  · rw [hdst, hs.dst, u32_add_u32, hremaining]
    congr 1
    omega
  all_goals
    intro hrem
    rw [hremaining] at hrem ⊢
    rw [hs.advanced hp (by omega)]
  · have hwalk : s'.w = _ := (hw.passed hready rfl).1
    rw [hwalk, hs.walk (by omega), iterate_walkNext, hopsAfter, if_pos hrem]
    congr 1
    exact hsplit.1.symm
  · rw [hsector]
    refine (Nat.div_eq_of_lt_le ?_ ?_).symm
    all_goals
      rw [show _ % clusterBytes vol = _ from hsplit.2]
      omega
  · rw [hoffset]
    omega

end Pass

/-! ### The rule for `fat_read_range` -/

theorem walkInit_eq (img : Image) (vol : FatVolume) (c : Nat) : fatChainWalkInit c = walkAt img vol c 0 := rfl

theorem clusterBytes_eq (hm : Mounted vol ps) :
    u32 (vol.bytesPerSector * vol.sectorsPerCluster) = clusterBytes vol := by
  have := hm.spc_lt
  rw [hm.bps]
  exact u32_of_lt (by omega)

/-- The range check of `fat_read_range`, in numbers. -/
theorem inside_iff {size offset length : UInt32} :
    ¬ (offset > size ∨ length > size - offset) ↔
      offset.toNat + length.toNat ≤ size.toNat := by
  rw [not_or, UInt32.not_lt, UInt32.not_lt, UInt32.le_iff_toNat_le, UInt32.le_iff_toNat_le]
  constructor
  · rintro ⟨hle, hfits⟩
    rw [UInt32.toNat_sub_of_le _ _ (UInt32.le_iff_toNat_le.mpr hle)] at hfits
    omega
  · intro h
    have hle : offset ≤ size := UInt32.le_iff_toNat_le.mpr (by omega)
    rw [UInt32.toNat_sub_of_le _ _ hle]
    omega

/-- What a pass has to establish: the invariant, or the postcondition. -/
def PassPost (Inv : RangeLoop δ κ → Prop) (Post : Bool × κ × FatRun δ → Prop) :
    Loop.Step (RangeLoop δ κ) (Bool × κ × FatRun δ) → Prop
  | .next s' => Inv s'
  | .done r => Post r

section Rule

variable {file : FatFile} {offset length dst : UInt32} {progress : Option (Progress δ κ)} {ctx : κ}
  {m : Machine δ} (hf : bk.Faithful img I) (hm : Mounted vol ps) (h1 : 1 ≤ batch)
  (hbatch : batch * 512 < 2 ^ 32) (hready : Ready img I m)
  (hsize : offset.toNat + length.toNat ≤ file.size.toNat) (hlen : 0 < length.toNat)
  (hfirst : fatClusterInRange vol file.firstCluster.toNat)
  (Inv : RangeLoop δ κ → Prop) (Post : Bool × κ × FatRun δ → Prop)
  (hskip : ∀ w st, WalkPost bk img I vol ps (offset.toNat / clusterBytes vol)
    (walkAt img vol file.firstCluster.toNat 0) m.start.clearError (false, w, st) →
    Post (false, ctx, st.setRemaining length.toNat))
  (hstart : ∀ s, OnChain img I vol file.firstCluster.toNat offset.toNat length.toNat
    dst.toNat s → s.remaining = length.toNat → s.ctx = ctx →
    WalkPost bk img I vol ps (offset.toNat / clusterBytes vol)
      (walkAt img vol file.firstCluster.toNat 0) m.start.clearError (true, s.w, s.st) → Inv s)
  (hdone : ∀ s, OnChain img I vol file.firstCluster.toNat offset.toNat length.toNat
    dst.toNat s → Inv s → s.remaining = 0 → Post (true, s.ctx, s.st))

include hf hm h1 hbatch hready hsize hlen hfirst hskip hstart hdone

/-- Total correctness of `fat_read_range` on a range of at least one byte within the file,
from what the walk to the first cluster and each pass establish. That the loop stands on the
chain comes for free, as long as each callback leaves the machine in order (`hcalls`). -/
theorem readRange_passes
    (hcalls : ∀ s bytes needed st j data, OnChain img I vol file.firstCluster.toNat
      offset.toNat length.toNat dst.toNat s → Inv s → 0 < s.remaining →
      Plan bk img I vol ps batch s bytes needed st j →
      Delivered img I vol progress s bytes needed st
        (deliver progress bytes s (staged bk vol needed s st)).2 data →
      Ready img I (deliver progress bytes s (staged bk vol needed s st)).2.m)
    (hpass : ∀ s bytes needed st j step, OnChain img I vol file.firstCluster.toNat
      offset.toNat length.toNat dst.toNat s → Inv s → 0 < s.remaining →
      Plan bk img I vol ps batch s bytes needed st j →
      RequestEnds bk img I vol ps progress s bytes needed st step → PassPost Inv Post step) :
    ∃ r, fatReadRange bk vol batch file offset length dst progress ctx m = some r ∧ Post r := by
  have hspc := hm.spc_pos
  have hgeom : ¬ (vol.sectorsPerCluster = 0 ∨ vol.bytesPerSector = 0) := by
    rw [hm.bps]
    omega
  have hne : ¬ length = 0 := by
    rintro rfl
    exact absurd hlen (by decide)
  unfold fatReadRange
  dsimp only
  rw [if_neg hgeom, if_neg (inside_iff.mpr hsize), if_neg hne, if_neg (not_not.mpr hfirst), clusterBytes_eq hm,
    walkInit_eq img vol]
  have hw := advanceN_spec hf hm (offset.toNat / clusterBytes vol)
    (w := walkAt img vol file.firstCluster.toNat 0) ⟨hfirst, hfirst⟩ m.start.clearError
  rcases hadv : fatChainAdvanceN bk vol (offset.toNat / clusterBytes vol)
    (walkAt img vol file.firstCluster.toNat 0) m.start.clearError with ⟨ok, w, st⟩
  rw [hadv] at hw
  have hclear : Ready img I m.start.clearError.m := ⟨hready.disk, hready.cache, hready.cache2⟩
  cases ok with
  | false => exact ⟨_, rfl, hskip w st hw⟩
  | true =>
    have hwalk : w = _ := (hw.passed hclear rfl).1
    rw [iterate_walkNext, Nat.zero_add] at hwalk
    refine Loop.run_spec
      (fun s => OnChain img I vol file.firstCluster.toNat offset.toNat length.toNat
        dst.toNat s ∧ Inv s) Post RangeLoop.remaining ?_ ?_ _ _ ?_ (Nat.lt_succ_self _)
    · rintro s s' ⟨hs, hinv⟩ hb
      have hrem : s.remaining ≠ 0 := by
        intro h0
        simp [rangeBody, h0] at hb
      obtain ⟨bytes, needed, st, j, hp, hr⟩ := rangeBody_pass hf hm h1 hbatch progress hs.placed hrem
      rw [hb] at hr
      have hnext := hpass s _ _ _ j _ hs hinv (Nat.pos_of_ne_zero hrem) hp hr
      have hpos := hp.bytes_pos
      cases hr with
      | next data _ delivered walk remaining sector offset dst _ =>
        have hmid := hcalls s _ _ _ j data hs hinv (Nat.pos_of_ne_zero hrem) hp delivered
        exact ⟨⟨hs.next hm hp hmid walk remaining sector offset dst, hnext⟩, by omega⟩
    · rintro s r ⟨hs, hinv⟩ hb
      by_cases hrem : s.remaining = 0
      · rw [rangeBody, if_pos hrem] at hb
        cases hb
        exact hdone s hs hinv hrem
      · obtain ⟨bytes, needed, st, j, hp, hr⟩ := rangeBody_pass hf hm h1 hbatch progress hs.placed hrem
        rw [hb] at hr
        exact hpass s _ _ _ j _ hs hinv (Nat.pos_of_ne_zero hrem) hp hr
    · have hon : OnChain img I vol file.firstCluster.toNat offset.toNat length.toNat dst.toNat
          (⟨w, length.toNat, offset.toNat % clusterBytes vol / vol.bytesPerSector,
            offset.toNat % vol.bytesPerSector, dst.toNat, ctx, st⟩ : RangeLoop δ κ) := by
        rw [hm.bps]
        refine ⟨⟨hw.walkIn rfl, ?_, ?_⟩, hw.ready hclear, Nat.le_refl _, ?_, ?_, ?_, ?_⟩
        · rw [Nat.div_lt_iff_lt_mul (by decide), Nat.mul_comm vol.sectorsPerCluster]
          exact Nat.mod_lt _ (by unfold clusterBytes; omega)
        · exact Nat.mod_lt _ (by decide)
        · rw [Nat.sub_self, Nat.add_zero]
          exact (u32_of_lt dst.toNat_lt).symm
        · intro _
          rw [Nat.sub_self, Nat.add_zero]
          exact hwalk
        · intro _
          rw [Nat.sub_self, Nat.add_zero]
        · intro _
          rw [Nat.sub_self, Nat.add_zero]
      exact ⟨hon, hstart _ hon rfl rfl hw⟩

/-- The rule for a callback that leaves every machine in order. -/
theorem readRange_rule (hk : Keeps img I progress)
    (hpass : ∀ s bytes needed st j step, OnChain img I vol file.firstCluster.toNat
      offset.toNat length.toNat dst.toNat s → Inv s → 0 < s.remaining →
      Plan bk img I vol ps batch s bytes needed st j →
      RequestEnds bk img I vol ps progress s bytes needed st step → PassPost Inv Post step) :
    ∃ r, fatReadRange bk vol batch file offset length dst progress ctx m = some r ∧ Post r :=
  readRange_passes hf hm h1 hbatch hready hsize hlen hfirst Inv Post hskip hstart hdone
    (fun _ _ _ _ _ _ hs _ _ hp hd => hd.ready hk (hp.ready hs.ready)) hpass

end Rule

end ZfsBoot.Proofs.Fat
