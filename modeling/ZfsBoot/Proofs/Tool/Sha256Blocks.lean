import ZfsBoot.Proofs.Sha256
import ZfsBoot.Tool.BlkSum

/-!
# `ZfsBoot.Proofs.Tool.Sha256Blocks`: one hash, three times

The loader hashes what it loads with its own SHA-256, the tool records chaining words that a loop of
its own computes, and the standard says what both should be. The loader's schedule is sixteen words
that are overwritten as the rounds go on. The tool's is an array of 64, the standard's a recurrence.
`ZfsBoot.Proofs.Sha256` compares the first with the last. Here the second is compared, and the three
are put together: however the loader's input arrives, the digest is the standard's and the chaining
words at the end of each block are the tool's.
-/

set_option autoImplicit false

namespace ZfsBoot.Proofs.Tool.Sha256Blocks

open List hiding Vector
open Lib Lib.Sha256 Bios ZfsBoot.Tool.PayloadSum
open Sha256 (Holds holds_nil update_holds final_eq)

variable {m : Nat → UInt32} {n : Nat} {w : Vector UInt32 64}

/-! ### The tool's schedule -/

/-- The first `n` words of the array are those of the standard. -/
def Loaded (m : Nat → UInt32) (n : Nat) (w : Vector UInt32 64) : Prop :=
  ∀ t < n, w.toList.getD t 0 = schedule m t

theorem Loaded.set (h : Loaded m n w)
    (hn : n < 64) {x : UInt32} (hx : x = schedule m n) : Loaded m (n + 1) (w.setIfInBounds n x) := by
  intro t ht
  have hset : (w.setIfInBounds n x).toList = w.toList.set n x := by
    simp [Vector.toList, Vector.setIfInBounds]
  rw [hset]
  rcases Nat.lt_succ_iff_lt_or_eq.mp ht with hlt | rfl
  · rw [← h t hlt]
    simp [List.getD, List.getElem?_set_ne (Nat.ne_of_gt hlt)]
  · simp [List.getD, hn, hx]

theorem rotateLeft32_neg (x : UInt32) :
    rotateLeft32 x (-7) ^^^ rotateLeft32 x (-18) ^^^ (x >>> 3) = smallSigma0 x ∧
      rotateLeft32 x (-17) ^^^ rotateLeft32 x (-19) ^^^ (x >>> 10) = smallSigma1 x ∧
      rotateLeft32 x (-2) ^^^ rotateLeft32 x (-13) ^^^ rotateLeft32 x (-22) = bigSigma0 x ∧
      rotateLeft32 x (-6) ^^^ rotateLeft32 x (-11) ^^^ rotateLeft32 x (-25) = bigSigma1 x := by
  -- a rotation to the left by a negative count and one to the right are the same two shifts
  have hrot : ∀ (k : Int) (n : UInt32), UInt32.ofNat (k % 32).toNat = 32 - n → 32 - (32 - n) = n →
      rotateLeft32 x k = rotr x n := by
    intro k n hk hn
    rw [rotateLeft32, rotr, hk, hn, UInt32.or_comm]
  rw [smallSigma0, smallSigma1, bigSigma0, bigSigma1, hrot (-7) 7 rfl rfl, hrot (-18) 18 rfl rfl,
    hrot (-17) 17 rfl rfl, hrot (-19) 19 rfl rfl, hrot (-2) 2 rfl rfl, hrot (-13) 13 rfl rfl,
    hrot (-22) 22 rfl rfl, hrot (-6) 6 rfl rfl, hrot (-11) 11 rfl rfl, hrot (-25) 25 rfl rfl]
  exact ⟨rfl, rfl, rfl, rfl⟩

/-- The 16 words that are loaded. -/
theorem loaded_loadWord (p : List UInt8) (w : Vector UInt32 64) (hn : n ≤ 16) :
    Loaded (blockWord p) n ((List.range n).foldl (loadWord p) w) := by
  induction n with
  | zero => exact fun t ht => absurd ht (Nat.not_lt_zero t)
  | succ n ih =>
    rw [range_succ, foldl_append]
    have hword : blockWord p n = schedule (blockWord p) n := (schedule_of_lt _ hn).symm
    exact (ih (Nat.le_of_succ_le hn)).set (by omega) hword

/-- The words that are computed from those before them. -/
theorem loaded_extendWord (h : Loaded m 16 w)
    (hn : n ≤ 48) : Loaded m (16 + n) ((List.range' 16 n).foldl extendWord w) := by
  induction n with
  | zero => exact h
  | succ n ih =>
    have hw := ih (by omega)
    rw [List.range'_1_concat, foldl_append]
    refine hw.set (by omega) ?_
    dsimp only
    rw [hw (16 + n - 16) (by omega), hw (16 + n - 15) (by omega), hw (16 + n - 7) (by omega),
      hw (16 + n - 2) (by omega), (rotateLeft32_neg _).1, (rotateLeft32_neg _).2.1,
      show 16 + n - 16 = n by omega, show 16 + n - 15 = n + 1 by omega,
      show 16 + n - 7 = n + 9 by omega, show 16 + n - 2 = n + 14 by omega, Nat.add_comm 16 n,
      schedule_add_sixteen]
    -- the recurrence of the standard, with its four terms in the order of the source
    ac_rfl

theorem loaded_goSchedule (w : Vector UInt32 64) (p : List UInt8) :
    Loaded (blockWord p) 64 (goSchedule w p) :=
  loaded_extendWord (loaded_loadWord p w (Nat.le_refl 16)) (Nat.le_refl 48)

/-! ### Its rounds -/

/-- The locals, under the standard's names. -/
def varsOfLocals (v : Locals) : Vars := ⟨v.a, v.b, v.c, v.d, v.e, v.f, v.g, v.hh⟩

theorem varsOf_goRound (hw : Loaded m 64 w) {i : Nat}
    (hi : i < 64) (v : Locals) : varsOfLocals (goRound w v i)
      = round (roundConstants.getD i 0) (schedule m i) (varsOfLocals v) := by
  rw [goRound, hw i hi, (rotateLeft32_neg v.e).2.2.2, (rotateLeft32_neg v.a).2.2.1]
  rfl

theorem foldl_goRound (hw : Loaded m 64 w) (v : Locals) (hn : n ≤ 64) :
    varsOfLocals ((List.range n).foldl (goRound w) v) = rounds m (varsOfLocals v) n := by
  induction n with
  | zero => rfl
  | succ n ih =>
    rw [range_succ, foldl_append, foldl_cons, foldl_nil, rounds,
      varsOf_goRound hw hn, ih (Nat.le_of_succ_le hn)]

theorem addWords_eq (h : State) (v : Locals) : addWords h v = feedForward (varsOfLocals v) h := by
  simp only [addWords, feedForward, varsOfLocals, UInt32.add_comm]

/-- A block has only sixteen words: what comes after it in the input does not matter. -/
theorem schedule_take (p : List UInt8) (t : Nat) :
    schedule (blockWord p) t = schedule (blockWord (p.take 64)) t := by
  induction t using Nat.strongRecOn with
  | ind t ih =>
    by_cases ht : t < 16
    · rw [schedule_of_lt _ ht, schedule_of_lt _ ht]
      have hbyte : ∀ j < 64, byteAt (p.take 64) j = byteAt p j := by
        intro j hj
        simp [byteAt, List.getD, hj]
      rw [blockWord, blockWord, be32, be32, hbyte _ (by omega), hbyte _ (by omega),
        hbyte _ (by omega), hbyte _ (by omega)]
    · obtain ⟨u, rfl⟩ : ∃ u, t = u + 16 := ⟨t - 16, by omega⟩
      rw [schedule_add_sixteen, schedule_add_sixteen, ih _ (by omega), ih _ (by omega),
        ih _ (by omega), ih u (by omega)]

/-- One turn of the loop is the compression function on the first 64 bytes. -/
theorem block_eq_compress (w : Vector UInt32 64) (h : State) (p : List UInt8) :
    addWords h ((List.range 64).foldl (goRound (goSchedule w p))
      ⟨h.get 0, h.get 1, h.get 2, h.get 3, h.get 4, h.get 5, h.get 6, h.get 7⟩)
      = compress h (p.take 64) := by
  have hw : Loaded (blockWord (p.take 64)) 64 (goSchedule w p) := by
    intro t ht
    rw [loaded_goSchedule w p t ht, schedule_take]
  rw [addWords_eq, foldl_goRound hw _ (Nat.le_refl 64)]
  rfl

/-- `sha256Blocks` takes the whole blocks of its input, as the standard does. -/
theorem sha256Blocks_eq (h : State) (p : List UInt8) : sha256Blocks h p = absorb h p := by
  have hloop : ∀ (n : Nat) (w : Vector UInt32 64) (h : State) (p : List UInt8),
      p.length / 64 = n → sha256BlocksLoop w h p = absorbN h p n := by
    intro n
    induction n with
    | zero =>
      intro w h p hp
      rw [sha256BlocksLoop, if_neg (by omega)]
      rfl
    | succ n ih =>
      intro w h p hp
      rw [sha256BlocksLoop, if_pos (by omega)]
      dsimp only
      rw [block_eq_compress, ih _ _ _ (by rw [length_drop]; omega)]
      rfl
  exact hloop _ _ _ _ rfl

/-! ### The loader's context -/

/-- After any calls of `sha256_update`, the context holds what they brought, one after the other. -/
theorem updates_hold (calls : List (List UInt8)) : ∀ {s₀ : State} {msg : List UInt8} {c : Sha256Ctx},
    Holds s₀ msg c → c.total = u32 msg.length →
      Holds s₀ (msg ++ calls.flatten) (calls.foldl Sha256Ctx.update c) ∧
        (calls.foldl Sha256Ctx.update c).total = u32 (msg ++ calls.flatten).length := by
  induction calls with
  | nil =>
    intro s₀ msg c hc htotal
    rw [flatten_nil, append_nil]
    exact ⟨hc, htotal⟩
  | cons p calls ih =>
    intro s₀ msg c hc htotal
    obtain ⟨hholds, hsum⟩ := update_holds hc p
    rw [htotal, u32_add_u32, ← length_append] at hsum
    rw [flatten_cons, ← append_assoc]
    exact ih hholds hsum

/-- However a byte string is split into calls of `sha256_update`: with fewer than `2 ^ 32` bytes
`sha256_final` writes the digest of the standard, and after a multiple of 64 bytes the chaining words
are those that `sha256Blocks` computes. -/
theorem update_split (c : Sha256Ctx) (calls : List (List UInt8)) :
    (calls.flatten.length < 2 ^ 32 →
      (calls.foldl Sha256Ctx.update c.init).final = digest calls.flatten) ∧
    (calls.flatten.length % 64 = 0 →
      (calls.foldl Sha256Ctx.update c.init).h = sha256Blocks initial calls.flatten) := by
  -- nothing of what the context held before `sha256_init` is left
  have hstart : Holds initial [] c.init := @holds_nil c.init rfl
  obtain ⟨hholds, htotal⟩ := updates_hold calls hstart rfl
  rw [nil_append] at hholds htotal
  constructor
  · intro hlen
    rw [u32_of_lt hlen] at htotal
    have hfinal := final_eq hholds (Nat.zero_mod 64) (by omega) (by omega)
    rw [hfinal, digest, Nat.zero_add]
  · intro _
    rw [hholds.h, sha256Blocks_eq]

end ZfsBoot.Proofs.Tool.Sha256Blocks
