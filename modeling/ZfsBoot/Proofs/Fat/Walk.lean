import ZfsBoot.Lib.Chain
import ZfsBoot.Proofs.Fat.Cache

/-!
# `ZfsBoot.Proofs.Fat.Walk`: the protected walk on a cycle, and on a chain without one

`fat_chain_advance` moves along a chain and compares every second position with the one at half of
it. On a chain that runs into a cycle it stops within twice the number of clusters that the chain has,
tail and cycle together. On a chain that does not, it reports neither a cycle nor a chain that is too
long, however far it goes: clusters that are all different are no more than the volume has, so the
ceiling on the hops is never reached either.

The chain is the one that lookups return. Up to cluster `2 ^ 30` it is the chain of the FAT
(`fatNext_eq`).
-/

set_option autoImplicit false

namespace ZfsBoot.Proofs.Fat

open Lib Bios

variable {δ : Type} {bk : Backend δ} {img : Image} {I : δ → Prop} {vol : FatVolume} {ps : Nat}

/-- A lookup of a cluster in range fails for one reason. -/
theorem lookup_reason {c : Nat} (hc : fatClusterInRange vol c) (b : Bool) (st : FatRun δ)
    (h : (fatGetNextClusterSlot bk vol c b st).1 = none) :
    (fatGetNextClusterSlot bk vol c b st).2.m.err.reason = .fatRead := by
  unfold fatGetNextClusterSlot at h ⊢
  rw [if_neg (not_not.mpr hc)] at h ⊢
  dsimp only at h ⊢
  split at h
  · cases h
  · split at h
    · cases h
    · rename_i hmiss hfail
      rw [if_neg hmiss, if_neg hfail]
      rfl

/-- The tortoise's half of a hop that the chain allows fails for one reason: the disk. -/
theorem tortoise_reason (hf : bk.Faithful img I) {w : FatChainWalk}
    (hw : fatClusterInRange vol w.tortoise) {st : FatRun δ} (hr : Ready img I st.m)
    (hin : fatClusterInRange vol (fatNext img vol w.tortoise))
    (hne : fatNext img vol w.tortoise ≠ w.cluster)
    (h : (fatTortoiseAdvance bk vol w st).1 = false) :
    (fatTortoiseAdvance bk vol w st).2.2.m.err.reason = .fatRead := by
  have hvalue := (lookup_coherent hf vol w.tortoise true st hr).2
  have hreason := @lookup_reason _ bk _ _ hw true st
  unfold fatTortoiseAdvance at h ⊢
  rcases hget : fatGetNextClusterSlot bk vol w.tortoise true st with ⟨_ | next, st1⟩
  · rw [hget] at hreason
    exact hreason rfl
  · rw [hget] at hvalue h
    obtain ⟨-, rfl⟩ := hvalue next rfl
    simp [hin, hne] at h

/-- A hop that the chain allows fails for one reason: the disk. -/
theorem advance_reason (hf : bk.Faithful img I) {w : FatChainWalk} (hw : WalkIn vol w)
    {st : FatRun δ} (hr : Ready img I st.m) (hop : HopOk img vol w)
    (h : (fatChainAdvance bk vol w st).1 = false) :
    (fatChainAdvance bk vol w st).2.2.m.err.reason = .fatRead := by
  have hlookup := lookup_coherent hf vol w.cluster false st hr
  have hreason := @lookup_reason _ bk _ _ hw.cluster false st
  unfold fatChainAdvance at h ⊢
  rw [if_neg (Nat.not_lt.mpr hop.hops), fatGetNextCluster] at h ⊢
  rcases hget : fatGetNextClusterSlot bk vol w.cluster false st with ⟨_ | next, st1⟩
  · rw [hget] at hreason
    exact hreason rfl
  · rw [hget] at hlookup h
    obtain ⟨-, rfl⟩ := hlookup.2 next rfl
    dsimp only at h ⊢
    rw [if_neg (not_not.mpr hop.cluster)] at h ⊢
    cases hdue : w.tortoiseDue with
    | true => simp [hdue] at h
    | false =>
      obtain ⟨hin, hne⟩ := hop.tortoise hdue
      simp only [hdue, Bool.not_false, if_true] at h ⊢
      exact tortoise_reason hf (w := ⟨fatNext img vol w.cluster, w.tortoise, u32 (w.hops + 1), true⟩)
        hw.tortoise hlookup.1 hin hne h

/-- So do any number of them. -/
theorem advanceN_reason (hf : bk.Faithful img I) (hm : Mounted vol ps) (n : Nat) :
    ∀ {w : FatChainWalk} {st : FatRun δ}, WalkIn vol w → Ready img I st.m →
      (∀ i < n, HopOk img vol ((walkNext img vol)^[i] w)) →
      (fatChainAdvanceN bk vol n w st).1 = false →
      (fatChainAdvanceN bk vol n w st).2.2.m.err.reason = .fatRead := by
  induction n with
  | zero =>
    intro w st _ _ _ h
    cases h
  | succ n ih =>
    intro w st hw hr hops h
    have hstep := advance_spec hf hm hw st
    have hreason := advance_reason hf hw hr (hops 0 (by omega))
    rw [fatChainAdvanceN] at h ⊢
    rcases hadv : fatChainAdvance bk vol w st with ⟨_ | _, w1, st1⟩
    · rw [hadv] at hreason
      exact hreason rfl
    · rw [hadv] at hstep h
      obtain rfl : w1 = walkNext img vol w := (hstep.passed hr rfl).1
      exact ih (hstep.walkIn rfl) (hstep.ready hr) (fun i hi => hops (i + 1) (by omega)) h

/-! ### Cycles and chains -/

/-- Twice around is too far: one of the hops up to there is not allowed. -/
theorem exists_not_hopOk {c tail cycle : Nat} (hr : Chain.Rho (fatNext img vol) c tail cycle) :
    ∃ i < 2 * (tail + cycle), ¬ HopOk img vol (walkAt img vol c i) := by
  obtain ⟨t, h1, hle, heq⟩ := (Chain.exists_meet_le_iff hr (n := 2 * (tail + cycle))).mpr
    (Nat.mul_le_mul_left 2 (Chain.meet_le_add hr.cycle_pos))
  refine ⟨2 * t - 1, by omega, fun hop => ?_⟩
  have hne := (((hopOk_walkAt c (2 * t - 1)).mp hop).2.2 (by omega)).2
  rw [show (2 * t - 1) / 2 + 1 = t by omega, show 2 * t - 1 + 1 = 2 * t by omega] at hne
  exact hne heq

/-- Every hop along clusters that are in range and all different is allowed. -/
theorem hopOk_of_distinct (hm : Mounted vol ps) {c n : Nat}
    (hin : ∀ i ≤ n, fatClusterInRange vol (chainAt img vol c i))
    (hne : ∀ i j, i < j → j ≤ n → chainAt img vol c i ≠ chainAt img vol c j) :
    ∀ i < n, HopOk img vol (walkAt img vol c i) := by
  have hle : n + 1 ≤ vol.totalClusters :=
    distinct_le_clusters hm (fun i hi => hin i (by omega)) fun i j hij hj => hne i j hij (by omega)
  intro i hi
  rw [hopOk_walkAt]
  exact ⟨by omega, hin _ (by omega), fun _ => ⟨hin _ (by omega), hne _ _ (by omega) (by omega)⟩⟩

end ZfsBoot.Proofs.Fat
