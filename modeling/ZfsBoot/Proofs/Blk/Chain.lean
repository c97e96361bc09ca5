import ZfsBoot.Bios.BlkVerify
import ZfsBoot.Lib.Memory
import ZfsBoot.Proofs.Sha256

/-!
# `ZfsBoot.Proofs.Blk.Chain`: what a BLKSUM table says about RAM

A table entry is the SHA-256 chaining state after its block, and the last one the digest of
the whole range. `Payload.Matches` judges one block on its own: the table's entry before it,
the block's bytes in RAM, the table's entry for it. `digest_of_matches` puts the blocks
together: a RAM range whose blocks all match has the last entry as its SHA-256.

`Chained` is the engine's half of the story. It is what `check_block` needs to find in the
running hash: the state the table gives for the block before, whatever RAM really held there.
-/

set_option autoImplicit false

namespace ZfsBoot.Proofs.Blk

open Lib Lib.Sha256 Bios Sha256

variable {sha sha' : Sha256Ctx} {k : Nat} {ram : Nat → UInt8}

/-! ### A payload and its table -/

/-- A RAM range of at most 512 MiB, and the table it is checked against. -/
structure Payload where
  base : Nat
  length : Nat
  table : Nat → Digest
  length_le : length ≤ 512 * 2 ^ 20

namespace Payload

variable (p : Payload)

/-- The blocks of the range, a partial one at its end included. -/
def nblocks : Nat := (p.length + (blksumBlock - 1)) / blksumBlock

/-- The bytes of block `k`. -/
def blockLen (k : Nat) : Nat := min blksumBlock (p.length - k * blksumBlock)

/-- The end of block `k`, in bytes from the start of the range. -/
def blockEnd (k : Nat) : Nat := min ((k + 1) * blksumBlock) p.length

/-- The chaining state that block `k` starts from: the table's entry for the block before. -/
def chainState (k : Nat) : State := if k = 0 then initial else ofBytes (p.table (k - 1))

/-- The bytes of block `k` in RAM. -/
def block (k : Nat) (ram : Nat → UInt8) : List UInt8 :=
  ramBytes ram (p.base + k * blksumBlock) (p.blockLen k)

/-- The entry that block `k` in RAM leads to. The last one is a digest: the block is followed by
the padding of a message of the whole length. -/
def entry (k : Nat) (ram : Nat → UInt8) : Digest :=
  toBytes (absorb (p.chainState k)
    (if k + 1 = p.nblocks then p.block k ram ++ padding p.length else p.block k ram))

/-- Block `k` in RAM is what the table says, given the entry before it. -/
def Matches (k : Nat) (ram : Nat → UInt8) : Prop := p.entry k ram = p.table k

instance (k : Nat) (ram : Nat → UInt8) : Decidable (p.Matches k ram) :=
  inferInstanceAs (Decidable (_ = _))

variable {p}

theorem nblocks_le : p.nblocks ≤ 8192 := by
  have := p.length_le
  unfold nblocks blksumBlock
  omega

/-- Every block but the last is a whole one. -/
theorem blockLen_of_lt (hk : k + 1 < p.nblocks) : p.blockLen k = blksumBlock := by
  unfold nblocks at hk
  unfold blockLen
  unfold blksumBlock at *
  omega

/-- The last block ends with the range. -/
theorem blockLen_last (hk : k + 1 = p.nblocks) :
    k * blksumBlock + p.blockLen k = p.length := by
  unfold nblocks at hk
  unfold blockLen
  unfold blksumBlock at *
  omega

theorem start_lt (hk : k < p.nblocks) : k * blksumBlock < p.length := by
  unfold nblocks at hk
  unfold blksumBlock at *
  omega

theorem start_add_blockLen_le (hk : k < p.nblocks) :
    k * blksumBlock + p.blockLen k ≤ p.length := by
  have := start_lt hk
  unfold blockLen
  omega

theorem length_block (k : Nat) (ram : Nat → UInt8) : (p.block k ram).length = p.blockLen k :=
  length_ramBytes _ _ _

theorem chainState_succ (k : Nat) : p.chainState (k + 1) = ofBytes (p.table k) := rfl

/-- A block that matches leads to the state the table gives for the next. -/
theorem absorb_of_matches (hk : k + 1 < p.nblocks)
    (hm : p.Matches k ram) : absorb (p.chainState k) (p.block k ram) = p.chainState (k + 1) := by
  rw [Matches, entry, if_neg (by omega)] at hm
  rw [chainState_succ, ← hm, ofBytes_toBytes]

/-- The blocks before block `k`, as one message. -/
theorem absorb_of_matches_upto (hk : k < p.nblocks) (hm : ∀ j, j < k → p.Matches j ram) :
    absorb initial (ramBytes ram p.base (k * blksumBlock)) = p.chainState k := by
  induction k with
  | zero =>
    rw [Nat.zero_mul, absorb_short _ (by rw [length_ramBytes]; decide)]
    rfl
  | succ k ih =>
    have hprev := ih (by omega) fun j hj => hm j (by omega)
    have hlen : (ramBytes ram p.base (k * blksumBlock)).length % 64 = 0 := by
      rw [length_ramBytes]
      unfold blksumBlock
      omega
    rw [Nat.succ_mul, ramBytes_add, absorb_append _ _ hlen, hprev,
      ← absorb_of_matches hk (hm k (by omega)), block, blockLen_of_lt hk]

/-- A range whose blocks all match has the last entry as its SHA-256. -/
theorem digest_of_matches (hpos : 0 < p.length) (hm : ∀ k, k < p.nblocks → p.Matches k ram) :
    digest (ramBytes ram p.base p.length) = p.table (p.nblocks - 1) := by
  have hn : p.nblocks - 1 + 1 = p.nblocks := by
    unfold nblocks
    unfold blksumBlock
    omega
  have hlast := hm (p.nblocks - 1) (by omega)
  have hlen : (ramBytes ram p.base ((p.nblocks - 1) * blksumBlock)).length % 64 = 0 := by
    rw [length_ramBytes]
    unfold blksumBlock
    omega
  rw [Matches, entry, if_pos hn, ← absorb_of_matches_upto (by omega) fun j hj => hm j (by omega),
    ← absorb_append _ _ hlen, ← List.append_assoc, block, ← ramBytes_add, blockLen_last hn] at hlast
  rw [digest, length_ramBytes, hlast]

end Payload

/-! ### The running hash -/

/-- The running hash stands where block `k` starts, in the state the table gives for it. -/
structure Chained (p : Payload) (k : Nat) (sha : Sha256Ctx) : Prop where
  h : sha.h = p.chainState k
  fill : sha.fill = 0
  total : sha.total = k * blksumBlock

theorem chained_init (p : Payload) : Chained p 0 Sha256Ctx.zero.init := ⟨rfl, rfl, rfl⟩

/-- The running hash after the bytes of block `k`: the entry that `chain_entry` makes of it. -/
theorem chainEntry_eq {p : Payload} (hc : Chained p k sha) (hh : Holds sha.h (p.block k ram) sha')
    (ht : sha'.total = sha.total + p.blockLen k) :
    chainEntry (decide (k + 1 = p.nblocks)) sha' = p.entry k ram := by
  by_cases hlast : k + 1 = p.nblocks
  · have hend := Payload.blockLen_last hlast
    have hlen := p.length_le
    rw [hc.total] at ht
    rw [decide_eq_true hlast, chainEntry, if_pos rfl, Payload.entry, if_pos hlast, ← hc.h]
    have hbase : k * blksumBlock % 64 = 0 := by
      unfold blksumBlock
      omega
    have hfinal := final_eq hh hbase
      (by rw [Payload.length_block]; omega) (by rw [Payload.length_block, ht])
    rw [hfinal, Payload.length_block, hend]
  · rw [decide_eq_false hlast, chainEntry, if_neg Bool.false_ne_true, Payload.entry, if_neg hlast,
      bytes_eq, hh.h, hc.h]

/-- A block that matched leaves the running hash ready for the next. -/
theorem chained_of_matches {p : Payload}
    (hk : k + 1 < p.nblocks) (hc : Chained p k sha) (hh : Holds sha.h (p.block k ram) sha')
    (ht : sha'.total = sha.total + p.blockLen k) (hm : p.Matches k ram) :
    Chained p (k + 1) sha' := by
  have hlen := Payload.blockLen_of_lt hk
  refine ⟨?_, ?_, ?_⟩
  · rw [hh.h, hc.h, Payload.absorb_of_matches hk hm]
  · rw [hh.fill, Payload.length_block, hlen]
    rfl
  · rw [ht, hc.total, hlen, Nat.succ_mul]

end ZfsBoot.Proofs.Blk
