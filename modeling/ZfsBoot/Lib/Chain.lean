import Mathlib.Dynamics.PeriodicPts.Defs
import Mathlib.Tactic.Common

/-!
# `ZfsBoot.Lib.Chain`: a chain that runs into a cycle, and the half-speed pointer

A linked chain is the iteration of a successor function from a first element. A chain that
repeats an element is a tail followed by a cycle (`Rho`). Cycle detection with a second
pointer at half speed compares the elements at positions `t` and `2 * t`; `meet` is the
first `t` at which they agree. It depends on the tail and the cycle alone, and with a long
tail it lies well after the first element has been visited for the second time.
-/

set_option autoImplicit false

namespace ZfsBoot.Lib.Chain

open Function

variable {α : Type} {f : α → α} {x : α} {tail cycle : Nat}

/-- The chain from `x` is a tail of `tail` elements that leads into a cycle of `cycle`
elements: two positions hold the same element exactly if both are past the tail and their
distance is a multiple of the cycle. -/
structure Rho (f : α → α) (x : α) (tail cycle : Nat) : Prop where
  cycle_pos : 0 < cycle
  eq_iff : ∀ i j, i < j → (f^[i] x = f^[j] x ↔ tail ≤ i ∧ cycle ∣ j - i)

/-- An element met again after `d` steps has the period `d`. -/
theorem isPeriodicPt_of_repeat {i d : Nat} (h : f^[i] x = f^[i + d] x) :
    IsPeriodicPt f d (f^[i] x) := by
  rw [IsPeriodicPt, IsFixedPt, ← iterate_add_apply, Nat.add_comm d i]
  exact h.symm

/-- A chain that repeats an element is a tail and a cycle. -/
theorem rho_of_repeat {i j : Nat} (hij : i < j) (h : f^[i] x = f^[j] x) :
    ∃ tail cycle, Rho f x tail cycle := by
  classical
  have hex : ∃ a, ∃ d, 0 < d ∧ f^[a] x = f^[a + d] x :=
    ⟨i, j - i, by omega, by rw [h]; congr 1; omega⟩
  obtain ⟨d, hd, hrep⟩ := Nat.find_spec hex
  -- the tail is the first position met again, the cycle the period of its element
  let a := Nat.find hex
  let y := f^[a] x
  have hy : IsPeriodicPt f d y := isPeriodicPt_of_repeat hrep
  refine ⟨a, minimalPeriod f y, hy.minimalPeriod_pos hd, ?_⟩
  intro k l hkl
  constructor
  · intro heq
    have hka : a ≤ k := by
      refine Nat.find_le ⟨l - k, by omega, ?_⟩
      rw [heq]
      congr 1
      omega
    refine ⟨hka, ?_⟩
    have hk : IsPeriodicPt f (l - k) (f^[k] x) :=
      isPeriodicPt_of_repeat (by rw [heq]; congr 1; omega)
    have hfk : f^[k] x = f^[k - a] y := by
      rw [← iterate_add_apply]
      congr 1
      omega
    have hdvd := hk.minimalPeriod_dvd
    rwa [hfk, minimalPeriod_apply_iterate ⟨d, hd, hy⟩] at hdvd
  · rintro ⟨hka, hdvd⟩
    have hper : IsPeriodicPt f (l - k) y := (isPeriodicPt_minimalPeriod f y).trans_dvd hdvd
    have hk := hper.apply_iterate (k - a)
    rw [← iterate_add_apply, show k - a + a = k by omega, IsPeriodicPt, IsFixedPt,
      ← iterate_add_apply] at hk
    rw [← hk]
    congr 1
    omega

/-- The first position, from 1 on, at which the pointer at half speed stands on the element
that the chain's head has reached. -/
def meet (tail cycle : Nat) : Nat := cycle * ((max tail 1 + cycle - 1) / cycle)

theorem one_le_meet (tail : Nat) (hc : 0 < cycle) : 1 ≤ meet tail cycle :=
  Nat.mul_pos hc (Nat.div_pos (by omega) hc)

theorem tail_le_meet (hc : 0 < cycle) : tail ≤ meet tail cycle := by
  have hlt := Nat.lt_mul_div_succ (max tail 1 + cycle - 1) hc
  rw [Nat.mul_add, Nat.mul_one] at hlt
  unfold meet
  omega

/-- `meet` is the least multiple of the cycle past the tail. -/
theorem meet_le {t : Nat} (hc : 0 < cycle) (ht : 1 ≤ t) (htail : tail ≤ t)
    (hdvd : cycle ∣ t) : meet tail cycle ≤ t := by
  obtain ⟨q, rfl⟩ := hdvd
  refine Nat.mul_le_mul_left cycle (Nat.lt_succ_iff.mp ?_)
  rw [Nat.div_lt_iff_lt_mul hc, Nat.succ_mul, Nat.mul_comm q]
  omega

theorem meet_le_add (hc : 0 < cycle) : meet tail cycle ≤ tail + cycle := by
  have hle := Nat.mul_div_le (max tail 1 + cycle - 1) cycle
  unfold meet
  omega

/-- The pointers meet within the first `n` positions exactly if twice `meet` is among
them. -/
theorem exists_meet_le_iff (hr : Rho f x tail cycle) {n : Nat} :
    (∃ t, 1 ≤ t ∧ 2 * t ≤ n ∧ f^[t] x = f^[2 * t] x) ↔ 2 * meet tail cycle ≤ n := by
  constructor
  · rintro ⟨t, h1, hn, heq⟩
    obtain ⟨htail, hdvd⟩ := (hr.eq_iff t (2 * t) (by omega)).mp heq
    rw [show 2 * t - t = t by omega] at hdvd
    have := meet_le hr.cycle_pos h1 htail hdvd
    omega
  · intro hn
    have h1 := one_le_meet tail hr.cycle_pos
    refine ⟨meet tail cycle, h1, hn, (hr.eq_iff _ _ (by omega)).mpr
      ⟨tail_le_meet hr.cycle_pos, ?_⟩⟩
    rw [show 2 * meet tail cycle - meet tail cycle = meet tail cycle by omega]
    exact Nat.dvd_mul_right _ _

/-- Some element stands at two of the positions from `a` to `b` exactly if a whole cycle
fits in past the tail. -/
theorem exists_repeat_iff (hr : Rho f x tail cycle) {a b : Nat} :
    (∃ i j, a ≤ i ∧ i < j ∧ j ≤ b ∧ f^[i] x = f^[j] x) ↔ max a tail + cycle ≤ b := by
  have hpos := hr.cycle_pos
  constructor
  · rintro ⟨i, j, ha, hij, hb, heq⟩
    obtain ⟨htail, hdvd⟩ := (hr.eq_iff i j hij).mp heq
    have := Nat.le_of_dvd (by omega) hdvd
    omega
  · intro h
    refine ⟨max a tail, max a tail + cycle, by omega, by omega, h,
      (hr.eq_iff _ _ (by omega)).mpr ⟨by omega, ?_⟩⟩
    rw [Nat.add_sub_cancel_left]

end ZfsBoot.Lib.Chain
