import ZfsBoot.Proofs.Blk.Check

/-!
# `ZfsBoot.Proofs.Blk.Run`: a whole load under the block verifier

A load is a list of landings: something happens to the world (the bytes arrive in RAM), and
`blkv_landed` is told how many bytes there are now. `Upto` is the invariant between landings:
the blocks before `next` have been checked, once each and in order, and the running hash is at
block `next`. `check_step` keeps it for one check, `blkvLanded_spec` for one landing,
`runLandings_spec` for the load.

RAM is a separate matter, because landings may write anywhere. `Kept` says that every block
checked so far still holds what it held when its check ended. It is kept where the hooks and the
landings write only what they are meant to.
-/

set_option autoImplicit false

namespace ZfsBoot.Proofs.Blk

open List
open Lib Lib.Sha256 Bios Sha256

variable {ω : Type} {h : BlkvHooks ω} {ram : ω → Nat → UInt8} {p : Payload} {s : BlkvRun ω}

/-! ### Landings -/

/-- What happens to the world before a call of `blkv_landed`, and the bytes of the call. -/
abbrev Landing (ω : Type) := (ω → ω) × Nat

/-- The bytes of all landings. -/
def landedBytes (ls : List (Landing ω)) : Nat := (ls.map Prod.snd).sum

/-- The landings, one after the other. -/
def runLandings (h : BlkvHooks ω) : List (Landing ω) → BlkvRun ω → Option (BlkvRun ω)
  | [], s => some s
  | (env, n) :: ls, s => (blkvLanded h n { s with w := env s.w }).bind (runLandings h ls)

/-- The engine at the start of a load. -/
def startRun (p : Payload) (scratch : Nat) (hs : 0 < scratch) (w : ω) : BlkvRun ω where
  b := blkvStart p.base p.length p.nblocks scratch hs
  w := w
  compares := []
  log := []

/-! ### The invariant -/

/-- One finished check: all the block's bytes had landed, the first comparison was right, a good
end is a match, and the transfer cap is as the end says. -/
structure RecordOk (h : BlkvHooks ω) (ram : ω → Nat → UInt8) (p : Payload) (r : CheckRecord ω) :
    Prop where
  landed : p.blockEnd r.k ≤ r.landed
  first : ∃ w ok cs, r.compares = (w, ok) :: cs ∧ (ok = true ↔ p.Matches r.k (ram w))
  settled : nBad r.how = 0 → p.Matches r.k (ram r.after)
  cap : HookLaws h ram → h.getCap r.after = capAfter (h.getCap r.before) r.how

/-- The blocks before `next` have been checked, and block `next` is the next. -/
structure Upto (h : BlkvHooks ω) (ram : ω → Nat → UInt8) (p : Payload) (s : BlkvRun ω) : Prop where
  range : OnRange p s.b
  on : s.b.off = false
  next_le : s.b.next ≤ p.nblocks
  chained : s.b.next < p.nblocks → Chained p s.b.next s.b.sha
  landed : ∀ k, k < s.b.next → p.blockEnd k ≤ s.b.landed
  ks : s.log.map (·.k) = List.range s.b.next
  each : ∀ r ∈ s.log, RecordOk h ram p r
  sum : s.b.mismatches = s.b.healed + s.b.second + s.b.bad
  sum_le : s.b.healed + s.b.second + s.b.bad ≤ s.b.next
  good : s.b.bad = 0 → ∀ r ∈ s.log, nBad r.how = 0

/-- Every block checked so far holds what it held when its check ended. -/
def Kept (ram : ω → Nat → UInt8) (p : Payload) (s : BlkvRun ω) : Prop :=
  ∀ r ∈ s.log, p.block r.k (ram s.w) = p.block r.k (ram r.after)

theorem upto_start (scratch : Nat) (hs : 0 < scratch) (w : ω) :
    Upto h ram p (startRun p scratch hs w) where
  range := ⟨rfl, rfl, rfl⟩
  on := rfl
  next_le := Nat.zero_le _
  chained := fun _ => chained_init p
  landed := fun k hk => absurd hk (Nat.not_lt_zero k)
  ks := rfl
  each := fun r hr => by cases hr
  sum := rfl
  sum_le := Nat.le_refl _
  good := fun _ r hr => by cases hr

theorem Upto.k_lt (hu : Upto h ram p s) {r : CheckRecord ω} (hr : r ∈ s.log) : r.k < s.b.next := by
  have hmem : r.k ∈ s.log.map (·.k) := mem_map_of_mem hr
  rwa [hu.ks, mem_range] at hmem

theorem Upto.room (hu : Upto h ram p s) (hlt : s.b.next < p.nblocks) : Room s.b := by
  have := hu.sum
  have := hu.sum_le
  have := p.nblocks_le
  constructor <;> omega

theorem wrong_eq {how : CheckEnd} (hc : how ≠ .unchecked) :
    wrong how = nHealed how + nSecond how + nBad how := by
  cases how with
  | unchecked => exact absurd rfl hc
  | _ => rfl

theorem wrong_le (how : CheckEnd) : wrong how ≤ 1 := by
  cases how <;> simp [wrong]

/-! ### One check -/

/-- A write to one block leaves the others alone. -/
theorem block_of_sameOutside {j k : Nat} (hj : j < p.nblocks) (hk : k < p.nblocks) (hjk : j ≠ k)
    {r r' : Nat → UInt8} (ho : SameOutside (p.base + k * blksumBlock) (p.blockLen k) r r') :
    p.block j r' = p.block j r := by
  refine ramBytes_congr fun i hi => ho _ fun i' hi' heq => ?_
  have hend := Payload.start_add_blockLen_le hj
  have hend' := Payload.start_add_blockLen_le hk
  have hle := p.length_le
  -- two offsets in the range with one 32-bit address are the same
  have hsame : j * blksumBlock + i = k * blksumBlock + i' := by
    unfold u32 at heq
    omega
  have hlt : i < blksumBlock := by
    unfold Payload.blockLen at hi
    omega
  have hlt' : i' < blksumBlock := by
    unfold Payload.blockLen at hi'
    omega
  unfold blksumBlock at *
  omega

theorem check_step (hp : Peeks h ram) (hread : Readable h p) (hu : Upto h ram p s)
    (hlt : s.b.next < p.nblocks) (hland : p.blockEnd s.b.next ≤ s.b.landed) :
    ∀ s', s' = checkBlock h s.b.next { s with b := { s.b with next := u32 (s.b.next + 1) } } →
      Upto h ram p s' ∧ s'.b.next = s.b.next + 1 ∧ s'.b.landed = s.b.landed ∧
      (HookLaws h ram → Kept ram p s → Kept ram p s') := by
  intro s' hs'
  have hn := p.nblocks_le
  have hnext : u32 (s.b.next + 1) = s.b.next + 1 := u32_of_lt (by omega)
  have hroom := hu.room hlt
  have hpost := checkBody_spec hp hread hlt
    { s with b := { s.b with next := u32 (s.b.next + 1) }, compares := [] }
    ⟨hu.range.base, hu.range.length, hu.range.nblocks⟩ hu.on (hu.chained hlt)
    ⟨hroom.mismatches, hroom.healed, hroom.second, hroom.bad⟩ rfl
  rw [checkBlock] at hs'
  dsimp only at hs' hpost
  rw [hnext] at hs' hpost
  generalize checkBody h s.b.next
    { s with b := { s.b with next := s.b.next + 1 }, compares := [] } = r at hs' hpost
  obtain ⟨how, s₁⟩ := r
  dsimp only at hs' hpost
  subst hs'
  have hcount := hpost.counted
  have hwrong := wrong_eq hpost.checked
  have hle := wrong_le how
  have hsum := hu.sum
  have hsumle := hu.sum_le
  have hrec : RecordOk h ram p ⟨s.b.next, s.b.landed, s.w, s₁.compares, how, s₁.w⟩ :=
    ⟨hland, hpost.first, hpost.settled, hpost.cap⟩
  refine ⟨?_, hcount.next, hcount.landed, fun hl hkept r hr => ?_⟩
  · constructor
    · exact ⟨hcount.base.trans hu.range.base, hcount.length.trans hu.range.length,
        hcount.nblocks.trans hu.range.nblocks⟩
    · exact hcount.off.trans hu.on
    · exact hcount.next.trans_le hlt
    · intro hk
      rw [show s₁.b.next = s.b.next + 1 from hcount.next] at hk ⊢
      exact hpost.chained hk
    · intro k hk
      rw [show s₁.b.next = s.b.next + 1 from hcount.next] at hk
      rw [show s₁.b.landed = s.b.landed from hcount.landed]
      rcases Nat.lt_succ_iff_lt_or_eq.mp hk with hk | rfl
      · exact hu.landed k hk
      · exact hland
    · rw [show s₁.b.next = s.b.next + 1 from hcount.next, map_append, hu.ks, range_succ]
      rfl
    · intro r hr
      rcases mem_append.mp hr with hr | hr
      · exact hu.each r hr
      · rw [mem_singleton.mp hr]
        exact hrec
    · have := hcount.mismatches
      have := hcount.healed
      have := hcount.second
      have := hcount.bad
      dsimp only at *
      omega
    · have := hcount.healed
      have := hcount.second
      have := hcount.bad
      have := hcount.next
      dsimp only at *
      omega
    · intro hbad r hr
      have hb := hcount.bad
      dsimp only at hb hbad
      rcases mem_append.mp hr with hr | hr
      · exact hu.good (by omega) r hr
      · rw [mem_singleton.mp hr]
        show nBad how = 0
        omega
  · rcases mem_append.mp hr with hr | hr
    · have hk := hu.k_lt hr
      rw [← hkept r hr]
      exact block_of_sameOutside (by omega) hlt (by omega) (hpost.outside hl)
    · rw [mem_singleton.mp hr]

/-! ### One landing -/

/-- The check waits for the end of block `next`. -/
def Waiting (p : Payload) (b : Blkv) : Prop := b.next < p.nblocks → b.landed < p.blockEnd b.next

/-- The end of block `next`, as `blkv_landed` computes it. -/
theorem stop_eq {b : Blkv} (hb : OnRange p b) (hlt : b.next < p.nblocks) :
    blockStop b = p.blockEnd b.next := by
  have hn := p.nblocks_le
  have hsize : blksumBlock = 65536 := rfl
  rw [blockStop, u32_of_lt (show b.next + 1 < 2 ^ 32 by omega), hsize,
    u32_of_lt (show (b.next + 1) * 65536 < 2 ^ 32 by omega), hb.length, Payload.blockEnd, hsize]
  split_ifs <;> omega

theorem blkvLanded_spec (hp : Peeks h ram) (hread : Readable h p) (hu : Upto h ram p s) {n : Nat}
    (hn : s.b.landed + n ≤ p.length) :
    ∃ s', blkvLanded h n s = some s' ∧ Upto h ram p s' ∧ s'.b.landed = s.b.landed + n ∧
      Waiting p s'.b ∧ (HookLaws h ram → Kept ram p s → Kept ram p s') := by
  have hle := p.length_le
  have hland : u32 (s.b.landed + n) = s.b.landed + n := u32_of_lt (by omega)
  have hstart : Upto h ram p { s with b := { s.b with landed := u32 (s.b.landed + n) } } := by
    refine ⟨⟨hu.range.base, hu.range.length, hu.range.nblocks⟩, hu.on, hu.next_le, hu.chained,
      fun k hk => ?_, hu.ks, hu.each, hu.sum, hu.sum_le, hu.good⟩
    have := hu.landed k hk
    show _ ≤ u32 (s.b.landed + n)
    omega
  refine Loop.run_spec
    (fun t => Upto h ram p t ∧ t.b.landed = s.b.landed + n ∧
      (HookLaws h ram → Kept ram p s → Kept ram p t))
    _ (fun t => p.nblocks - t.b.next) ?_ ?_ _ _ ⟨hstart, hland, fun _ hk => hk⟩ ?_
  · rintro t t' ⟨hut, htl, hkept⟩ hbody
    rw [landedBody] at hbody
    split_ifs at hbody with hlt hwait
    rw [hut.range.nblocks] at hlt
    rw [stop_eq hut.range hlt] at hwait
    obtain ⟨hu', hnext, hland', hkept'⟩ := check_step hp hread hut hlt (by omega) t'
      (Loop.Step.next.inj hbody).symm
    refine ⟨⟨hu', hland'.trans htl, fun hl hk => hkept' hl (hkept hl hk)⟩, ?_⟩
    omega
  · rintro t t' ⟨hut, htl, hkept⟩ hbody
    rw [landedBody] at hbody
    split_ifs at hbody with hlt hwait
    · cases hbody
      rw [hut.range.nblocks] at hlt
      rw [stop_eq hut.range hlt] at hwait
      exact ⟨hut, htl, fun _ => hwait, hkept⟩
    · cases hbody
      rw [hut.range.nblocks] at hlt
      exact ⟨hut, htl, fun h' => absurd h' hlt, hkept⟩
  · show p.nblocks - s.b.next < s.b.nblocks + 1
    rw [hu.range.nblocks]
    omega

/-! ### The load -/

/-- Each landing leaves the RAM bytes that landed before it as they are. -/
def KeepsLanded (ram : ω → Nat → UInt8) (p : Payload) : Nat → List (Landing ω) → Prop
  | _, [] => True
  | at_, (env, n) :: ls =>
    (∀ w i, i < at_ → ram (env w) (u32 (p.base + i)) = ram w (u32 (p.base + i))) ∧
      KeepsLanded ram p (at_ + n) ls

theorem kept_of_keepsLanded (hu : Upto h ram p s) (hk : Kept ram p s) {env : ω → ω}
    (henv : ∀ w i, i < s.b.landed → ram (env w) (u32 (p.base + i)) = ram w (u32 (p.base + i))) :
    Kept ram p { s with w := env s.w } := by
  intro r hr
  have hlt := hu.k_lt hr
  have hend := hu.landed _ hlt
  have hnext := hu.next_le
  rw [← hk r hr]
  refine ramBytes_congr fun i hi => ?_
  rw [Nat.add_assoc]
  refine henv _ _ ?_
  have hle := Payload.start_add_blockLen_le (show r.k < p.nblocks by omega)
  unfold Payload.blockLen at hi hle
  unfold Payload.blockEnd at hend
  unfold blksumBlock at *
  omega

theorem runLandings_spec (hp : Peeks h ram) (hread : Readable h p) (ls : List (Landing ω)) :
    ∀ s : BlkvRun ω, Upto h ram p s → Waiting p s.b → s.b.landed + landedBytes ls ≤ p.length →
      ∃ s', runLandings h ls s = some s' ∧ Upto h ram p s' ∧ Waiting p s'.b ∧
        s'.b.landed = s.b.landed + landedBytes ls ∧
        (HookLaws h ram → KeepsLanded ram p s.b.landed ls → Kept ram p s → Kept ram p s') := by
  induction ls with
  | nil => exact fun s hu hw _ => ⟨s, rfl, hu, hw, rfl, fun _ _ hk => hk⟩
  | cons l ls ih =>
    intro s hu hw hsum
    obtain ⟨env, n⟩ := l
    have hbytes : landedBytes ((env, n) :: ls) = n + landedBytes ls := by
      simp [landedBytes]
    rw [hbytes] at hsum
    have hu₁ : Upto h ram p { s with w := env s.w } :=
      ⟨hu.range, hu.on, hu.next_le, hu.chained, hu.landed, hu.ks, hu.each, hu.sum, hu.sum_le,
        hu.good⟩
    obtain ⟨s₁, hrun, hu₂, hland, hwait, hkept⟩ := blkvLanded_spec hp hread hu₁
      (n := n) (by show s.b.landed + n ≤ _; omega)
    dsimp only at hland
    obtain ⟨s', hrun', hu', hwait', hland', hkept'⟩ := ih s₁ hu₂ hwait (by omega)
    refine ⟨s', ?_, hu', hwait', by omega, fun hl hkl hk => ?_⟩
    · rw [runLandings, hrun]
      exact hrun'
    · refine hkept' hl (by rw [hland]; exact hkl.2) ?_
      exact hkept hl (kept_of_keepsLanded hu hk hkl.1)

/-- Once every byte has landed, every block has been checked. -/
theorem next_of_landed (hu : Upto h ram p s) (hw : Waiting p s.b) (hl : s.b.landed = p.length) :
    s.b.next = p.nblocks := by
  by_contra hne
  have hlt : s.b.next < p.nblocks := lt_of_le_of_ne hu.next_le hne
  have := hw hlt
  unfold Payload.blockEnd at this
  omega

theorem waiting_start (scratch : Nat) (hs : 0 < scratch) (w : ω) :
    Waiting p (startRun p scratch hs w).b := by
  intro hlt
  have := Payload.start_lt hlt
  show 0 < p.blockEnd 0
  unfold Payload.blockEnd blksumBlock
  omega

/-- The whole load: every block has been checked, and the invariant holds. -/
theorem load_spec (hp : Peeks h ram) (hread : Readable h p) {ls : List (Landing ω)}
    (hsum : landedBytes ls = p.length) (scratch : Nat) (hs : 0 < scratch) (w : ω) :
    ∃ s, runLandings h ls (startRun p scratch hs w) = some s ∧ Upto h ram p s ∧
      s.b.next = p.nblocks ∧ (HookLaws h ram → KeepsLanded ram p 0 ls → Kept ram p s) := by
  obtain ⟨s, hrun, hu, hw, hland, hkept⟩ := runLandings_spec hp hread ls _
    (upto_start scratch hs w) (waiting_start scratch hs w)
    (by show 0 + landedBytes ls ≤ _; omega)
  have hall : s.b.landed = p.length := by
    rw [hland, hsum]
    exact Nat.zero_add _
  exact ⟨s, hrun, hu, next_of_landed hu hw hall,
    fun hl hk => hkept hl hk fun r hr => by cases hr⟩

/-- For every table that can be read, every way of splitting the landed bytes into calls, every
scratch size and whatever the re-reads and the second source do: once all bytes have landed, each
block has been checked exactly once, in ascending order, not before its last byte had landed. The
first comparison of a block succeeds iff the block's RAM bytes lead from the table's entry before
it to its own. -/
theorem blocks_checked_in_order (hp : Peeks h ram) (p : Payload) (hread : Readable h p)
    (ls : List (Landing ω)) (hsum : landedBytes ls = p.length) (scratch : Nat)
    (hs : 0 < scratch) (w : ω) :
    ∃ s, runLandings h ls (startRun p scratch hs w) = some s ∧
      s.log.map (·.k) = List.range p.nblocks ∧
      ∀ r ∈ s.log, p.blockEnd r.k ≤ r.landed ∧
        ∃ w ok cs, r.compares = (w, ok) :: cs ∧ (ok = true ↔ p.Matches r.k (ram w)) := by
  obtain ⟨s, hrun, hu, hnext, -⟩ := load_spec hp hread hsum scratch hs w
  refine ⟨s, hrun, ?_, fun r hr => ⟨(hu.each r hr).landed, (hu.each r hr).first⟩⟩
  rw [hu.ks, hnext]

/-- Blocks that all match make up the digest, in any RAM that still holds them. -/
theorem digest_of_log (hpos : 0 < p.length) (hks : s.log.map (·.k) = List.range p.nblocks)
    (hgood : ∀ r ∈ s.log, p.Matches r.k (ram r.after)) {ram' : Nat → UInt8}
    (hkept : ∀ r ∈ s.log, p.block r.k ram' = p.block r.k (ram r.after)) :
    digest (ramBytes ram' p.base p.length) = p.table (p.nblocks - 1) := by
  refine Payload.digest_of_matches hpos fun k hk => ?_
  have hmem : k ∈ s.log.map (·.k) := by
    rw [hks]
    exact mem_range.mpr hk
  obtain ⟨r, hr, rfl⟩ := mem_map.mp hmem
  have hm := hgood r hr
  rw [Payload.Matches, Payload.entry] at hm ⊢
  rw [hkept r hr]
  exact hm

/-- For every load of at least one byte, with a table that can be read, a transfer cap that is what
`set_cap` was last given, and re-reads that write only their own block: the counters add up. If no
block stayed wrong, every block matched when its check ended, and where RAM still holds those
bytes its SHA-256 is the last entry. Each check leaves the transfer cap as it was, unless a re-read
healed the block. -/
theorem load_verified (hp : Peeks h ram) (hl : HookLaws h ram) (p : Payload)
    (hpos : 0 < p.length) (hread : Readable h p) (ls : List (Landing ω))
    (hsum : landedBytes ls = p.length) (scratch : Nat) (hs : 0 < scratch) (w : ω) :
    ∃ s, runLandings h ls (startRun p scratch hs w) = some s ∧
      s.log.map (·.k) = List.range p.nblocks ∧
      s.b.mismatches = s.b.healed + s.b.second + s.b.bad ∧
      (s.b.bad = 0 →
        (∀ r ∈ s.log, p.Matches r.k (ram r.after)) ∧
        (KeepsLanded ram p 0 ls →
          digest (ramBytes (ram s.w) p.base p.length) = p.table (p.nblocks - 1)) ∧
        ∀ ram' : Nat → UInt8, (∀ r ∈ s.log, p.block r.k ram' = p.block r.k (ram r.after)) →
          digest (ramBytes ram' p.base p.length) = p.table (p.nblocks - 1)) ∧
      ∀ r ∈ s.log, h.getCap r.after = capAfter (h.getCap r.before) r.how := by
  obtain ⟨s, hrun, hu, hnext, hkept⟩ := load_spec hp hread hsum scratch hs w
  have hks : s.log.map (·.k) = List.range p.nblocks := by rw [hu.ks, hnext]
  refine ⟨s, hrun, hks, hu.sum, fun hbad => ?_, fun r hr => (hu.each r hr).cap hl⟩
  have hgood : ∀ r ∈ s.log, p.Matches r.k (ram r.after) :=
    fun r hr => (hu.each r hr).settled (hu.good hbad r hr)
  exact ⟨hgood, fun hk => digest_of_log hpos hks hgood (hkept hl hk),
    fun ram' hram' => digest_of_log hpos hks hgood hram'⟩

/-! ### A load that meets the assumptions -/

/-- RAM and the transfer cap. -/
structure PlainWorld where
  ram : Nat → UInt8
  cap : UInt16

/-- Hooks over `PlainWorld`: a fixed table, re-reads that fail, no second source. -/
def plainHooks (table : Nat → Digest) : BlkvHooks PlainWorld where
  reread _ _ _ w := (false, w)
  second := none
  entry i w := (some (table i), w)
  peek phys len w := (ramBytes w.ram phys len, w)
  getCap w := w.cap.toNat
  setCap n w := { w with cap := UInt16.ofNat n }
  reset w := w
  report _ _ _ _ w := w

theorem peeks_plainHooks (table : Nat → Digest) : Peeks (plainHooks table) PlainWorld.ram :=
  ⟨fun _ _ _ => rfl, fun _ _ _ => rfl⟩

theorem hookLaws_plainHooks (table : Nat → Digest) : HookLaws (plainHooks table) PlainWorld.ram where
  cap_lt w := w.cap.toNat_lt
  cap_setCap n w hn := by
    show (UInt16.ofNat n).toNat = n
    rw [UInt16.toNat_ofNat', Nat.mod_eq_of_lt hn]
  ram_setCap _ _ := rfl
  cap_peek _ _ _ := rfl
  cap_entry _ _ := rfl
  ram_entry _ _ := rfl
  cap_reset _ := rfl
  ram_reset _ := rfl
  cap_reread _ _ _ _ := rfl
  ram_reread _ _ _ _ := .refl _ _ _
  cap_second _ hf := by cases hf
  ram_second _ hf := by cases hf
  cap_report _ _ _ _ _ := rfl
  ram_report _ _ _ _ _ := rfl

/-- Two blocks, the second of 4464 bytes, and a table of zeros. -/
def plainPayload : Payload where
  base := 0x100000
  length := 70000
  table _ := .replicate 32 0
  length_le := by decide

/-- The bytes arrive in three calls, of which the second ends inside the first block. -/
def plainLandings : List (Landing PlainWorld) := [(id, 512), (id, 36864), (id, 32624)]

theorem blocks_checked_in_order_plain :
    ∃ s, runLandings (plainHooks plainPayload.table) plainLandings
        (startRun plainPayload 8192 (by decide) ⟨fun _ => 0, 16⟩) = some s ∧
      s.log.map (·.k) = List.range plainPayload.nblocks ∧
      ∀ r ∈ s.log, plainPayload.blockEnd r.k ≤ r.landed ∧
        ∃ w ok cs, r.compares = (w, ok) :: cs ∧
          (ok = true ↔ plainPayload.Matches r.k (PlainWorld.ram w)) :=
  blocks_checked_in_order (peeks_plainHooks _) plainPayload (fun _ _ _ => rfl) plainLandings rfl
    8192 (by decide) ⟨fun _ => 0, 16⟩

theorem load_verified_plain :
    ∃ s, runLandings (plainHooks plainPayload.table) plainLandings
        (startRun plainPayload 8192 (by decide) ⟨fun _ => 0, 16⟩) = some s ∧
      s.b.mismatches = s.b.healed + s.b.second + s.b.bad := by
  obtain ⟨s, hrun, -, hsum, -⟩ := load_verified (peeks_plainHooks _) (hookLaws_plainHooks _)
    plainPayload (by decide) (fun _ _ _ => rfl) plainLandings rfl 8192 (by decide) ⟨fun _ => 0, 16⟩
  exact ⟨s, hrun, hsum⟩

end ZfsBoot.Proofs.Blk
