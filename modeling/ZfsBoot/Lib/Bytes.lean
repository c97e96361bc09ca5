import Mathlib.Data.List.Basic
import Mathlib.Tactic.Common

/-!
# `ZfsBoot.Lib.Bytes`: blocks of equal size, one after the other

A disk delivers its contents in sectors, a file in clusters, a hash takes its input in
blocks. The concatenation of blocks of one size is addressed by a division:
`getElem?_blocks`.
-/

set_option autoImplicit false

namespace ZfsBoot.Lib

open List

variable {k a m : Nat} {β : Type} {l : List β} {size n : Nat} {α : Type} (f : Nat → List α)

/-- The blocks `f 0`, …, `f (n - 1)`, one after the other. -/
def blocks (f : Nat → List α) (n : Nat) : List α := (List.range n).flatMap f

theorem blocks_succ (n : Nat) : blocks f (n + 1) = blocks f n ++ f n := by
  simp [blocks, range_succ]

theorem blocks_succ_left (n : Nat) : blocks f (n + 1) = f 0 ++ blocks (fun i => f (i + 1)) n := by
  simp [blocks, range_succ_eq_map, flatMap_map]

theorem blocks_add (n m : Nat) :
    blocks f (n + m) = blocks f n ++ blocks (fun i => f (n + i)) m := by
  simp [blocks, range_add, flatMap_append, flatMap_map]

theorem length_blocks {f : Nat → List α} (hf : ∀ i, (f i).length = size) (n : Nat) :
    (blocks f n).length = n * size := by
  induction n with
  | zero => simp [blocks]
  | succ n ih => rw [blocks_succ, length_append, ih, hf, Nat.succ_mul]

/-- Byte `k` of the blocks is byte `k % size` of block `k / size`. -/
theorem getElem?_blocks {f : Nat → List α} (hf : ∀ i, (f i).length = size)
    (hk : k < n * size) : (blocks f n)[k]? = (f (k / size))[k % size]? := by
  induction n with
  | zero => omega
  | succ n ih =>
    have hlen := length_blocks hf n
    rw [Nat.succ_mul] at hk
    rw [blocks_succ]
    by_cases hlt : k < n * size
    · rw [List.getElem?_append_left (by omega), ih hlt]
    · have hdiv : k / size = n := by
        refine Nat.div_eq_of_lt_le (by omega) ?_
        rw [Nat.succ_mul]
        omega
      have hmod : k % size = k - n * size := by
        have := Nat.div_add_mod k size
        rw [hdiv, Nat.mul_comm size n] at this
        omega
      rw [List.getElem?_append_right (by omega), hlen, hdiv, hmod]

/-- Blocks that are made of `k` smaller ones each are all of those, one after the other. -/
theorem blocks_regroup {f g : Nat → List α}
    (h : ∀ i < n, f i = blocks (fun j => g (i * k + j)) k) : blocks f n = blocks g (n * k) := by
  induction n with
  | zero => simp [blocks]
  | succ n ih =>
    rw [blocks_succ, Nat.succ_mul, blocks_add, ih fun i hi => h i (by omega),
      h n (Nat.lt_succ_self n)]

/-- The blocks `a`, …, `a + m - 1`, cut out of the bytes. -/
theorem take_drop_blocks {f : Nat → List α} (hf : ∀ i, (f i).length = size)
    (h : a + m ≤ n) (rest : List α) :
    ((blocks f n ++ rest).drop (a * size)).take (m * size) = blocks (fun i => f (a + i)) m := by
  obtain ⟨k, rfl⟩ := Nat.exists_eq_add_of_le h
  rw [blocks_add, blocks_add, append_assoc, append_assoc,
    drop_left' (length_blocks hf a), take_left' (length_blocks (fun i => hf _) m)]

/-- A list in slices of one size. -/
theorem blocks_slices (l : List α) (size n : Nat) :
    blocks (fun i => (l.drop (i * size)).take size) n = l.take (n * size) := by
  induction n with
  | zero => simp [blocks]
  | succ n ih => rw [blocks_succ, ih, Nat.succ_mul, take_add]

/-- The blocks are the same if each one is. -/
theorem blocks_congr {f g : Nat → List α} (h : ∀ i < n, f i = g i) :
    blocks f n = blocks g n :=
  flatMap_congr fun i hi => h i (mem_range.mp hi)

/-- The `r`-th of pieces of one size. -/
theorem take_drop_flatMap {f : β → List α}
    (hf : ∀ x ∈ l, (f x).length = size) {r : Nat} {x : β} (hx : l[r]? = some x) :
    ((l.flatMap f).drop (r * size)).take size = f x := by
  induction l generalizing r with
  | nil => simp at hx
  | cons y l ih =>
    have hy : (f y).length = size := hf y mem_cons_self
    rw [flatMap_cons]
    cases r with
    | zero =>
      obtain rfl : y = x := by simpa using hx
      rw [Nat.zero_mul, drop_zero, take_append_of_le_length (Nat.le_of_eq hy.symm),
        take_of_length_le (Nat.le_of_eq hy)]
    | succ r =>
      rw [Nat.succ_mul, Nat.add_comm, ← hy, ← drop_drop, drop_left, hy]
      exact ih (fun z hz => hf z (mem_cons_of_mem y hz)) (by simpa using hx)

theorem length_flatMap_of_size {f : β → List α}
    (hf : ∀ x ∈ l, (f x).length = size) : (l.flatMap f).length = l.length * size := by
  induction l with
  | nil => simp
  | cons y l ih =>
    rw [flatMap_cons, length_append, hf y mem_cons_self,
      ih fun z hz => hf z (mem_cons_of_mem y hz), length_cons, Nat.succ_mul, Nat.add_comm]

/-- A part of a part. -/
theorem take_drop_take_drop {l : List α} {b : Nat} (h : b + m ≤ n) :
    (((l.drop a).take n).drop b).take m = (l.drop (a + b)).take m := by
  rw [drop_take, drop_drop, take_take, Nat.min_eq_left (by omega)]

end ZfsBoot.Lib
