import Mathlib.Data.Vector.Defs
import Mathlib.Tactic.IntervalCases
import ZfsBoot.Lib.Word

/-!
# `ZfsBoot.Lib.Sha256`: SHA-256 as FIPS 180-4 defines it

The reference that a SHA-256 implementation is compared with, on byte strings. The message
schedule is the standard's recurrence over all 64 words, the compression function its 64
rounds, the digest the chaining state after the padded message.

Two readings of the chaining state matter to an implementation that stops half-way and goes
on later. `absorb_append` splits a message at a block boundary. `toBytes` and `ofBytes` store
a state as 32 bytes and load it again, and lose nothing in either direction.
-/

set_option autoImplicit false

namespace ZfsBoot.Lib.Sha256

open List hiding Vector

variable {bs : List UInt8}

/-! ### Functions and constants -/

/-- `ROTR`. -/
def rotr (x n : UInt32) : UInt32 := (x >>> n) ||| (x <<< (32 - n))

def ch (x y z : UInt32) : UInt32 := (x &&& y) ^^^ (~~~x &&& z)

def maj (x y z : UInt32) : UInt32 := (x &&& y) ^^^ (x &&& z) ^^^ (y &&& z)

def bigSigma0 (x : UInt32) : UInt32 := rotr x 2 ^^^ rotr x 13 ^^^ rotr x 22

def bigSigma1 (x : UInt32) : UInt32 := rotr x 6 ^^^ rotr x 11 ^^^ rotr x 25

def smallSigma0 (x : UInt32) : UInt32 := rotr x 7 ^^^ rotr x 18 ^^^ (x >>> 3)

def smallSigma1 (x : UInt32) : UInt32 := rotr x 17 ^^^ rotr x 19 ^^^ (x >>> 10)

/-- The constants `K`, section 4.2.2 of the standard. -/
def roundConstants : List UInt32 := [
  0x428a2f98, 0x71374491, 0xb5c0fbcf, 0xe9b5dba5, 0x3956c25b, 0x59f111f1, 0x923f82a4, 0xab1c5ed5,
  0xd807aa98, 0x12835b01, 0x243185be, 0x550c7dc3, 0x72be5d74, 0x80deb1fe, 0x9bdc06a7, 0xc19bf174,
  0xe49b69c1, 0xefbe4786, 0x0fc19dc6, 0x240ca1cc, 0x2de92c6f, 0x4a7484aa, 0x5cb0a9dc, 0x76f988da,
  0x983e5152, 0xa831c66d, 0xb00327c8, 0xbf597fc7, 0xc6e00bf3, 0xd5a79147, 0x06ca6351, 0x14292967,
  0x27b70a85, 0x2e1b2138, 0x4d2c6dfc, 0x53380d13, 0x650a7354, 0x766a0abb, 0x81c2c92e, 0x92722c85,
  0xa2bfe8a1, 0xa81a664b, 0xc24b8b70, 0xc76c51a3, 0xd192e819, 0xd6990624, 0xf40e3585, 0x106aa070,
  0x19a4c116, 0x1e376c08, 0x2748774c, 0x34b0bcb5, 0x391c0cb3, 0x4ed8aa4a, 0x5b9cca4f, 0x682e6ff3,
  0x748f82ee, 0x78a5636f, 0x84c87814, 0x8cc70208, 0x90befffa, 0xa4506ceb, 0xbef9a3f7, 0xc67178f2]

/-- A chaining value: the eight words of a hash value. -/
abbrev State := Vector UInt32 8

/-- The initial hash value, section 5.3.3. -/
def initialWords : Array UInt32 :=
  #[0x6a09e667, 0xbb67ae85, 0x3c6ef372, 0xa54ff53a, 0x510e527f, 0x9b05688c, 0x1f83d9ab, 0x5be0cd19]

theorem size_initialWords : initialWords.size = 8 := rfl

def initial : State := ⟨initialWords, size_initialWords⟩

/-! ### Compression -/

/-- The message schedule of a block whose words are `m 0`, …, `m 15`. -/
def schedule (m : Nat → UInt32) (t : Nat) : UInt32 :=
  if t < 16 then m t
  else
    smallSigma1 (schedule m (t - 2)) + schedule m (t - 7) + smallSigma0 (schedule m (t - 15))
      + schedule m (t - 16)
termination_by t

theorem schedule_of_lt (m : Nat → UInt32) {t : Nat} (ht : t < 16) : schedule m t = m t := by
  rw [schedule, if_pos ht]

/-- The recurrence, from the sixteenth word on. -/
theorem schedule_add_sixteen (m : Nat → UInt32) (t : Nat) :
    schedule m (t + 16) = smallSigma1 (schedule m (t + 14)) + schedule m (t + 9)
      + smallSigma0 (schedule m (t + 1)) + schedule m t := by
  rw [schedule, if_neg (by omega)]
  rfl

/-- The working variables. -/
structure Vars where
  a : UInt32
  b : UInt32
  c : UInt32
  d : UInt32
  e : UInt32
  f : UInt32
  g : UInt32
  h : UInt32

instance neZero_eight : NeZero 8 := ⟨by decide⟩

def Vars.ofState (s : State) : Vars := 
  ⟨s.get 0, s.get 1, s.get 2, s.get 3, s.get 4, s.get 5, s.get 6, s.get 7⟩

/-- One round, with the round constant `k` and the schedule word `w`. -/
def round (k w : UInt32) (v : Vars) : Vars :=
  let t1 := v.h + bigSigma1 v.e + ch v.e v.f v.g + k + w
  let t2 := bigSigma0 v.a + maj v.a v.b v.c
  { a := t1 + t2, b := v.a, c := v.b, d := v.c, e := v.d + t1, f := v.e, g := v.f, h := v.g }

/-- The first `n` rounds. -/
def rounds (m : Nat → UInt32) (v : Vars) : Nat → Vars
  | 0 => v
  | n + 1 => round (roundConstants.getD n 0) (schedule m n) (rounds m v n)

/-- The intermediate hash value: the working variables added to the state before. -/
def feedForward (v : Vars) (s : State) : State :=
  #v[v.a + s.get 0, v.b + s.get 1, v.c + s.get 2, v.d + s.get 3, v.e + s.get 4, v.f + s.get 5,
    v.g + s.get 6, v.h + s.get 7]

/-- Word `t` of a block, big-endian. -/
def blockWord (block : List UInt8) (t : Nat) : UInt32 := UInt32.ofNat (be32 block (4 * t))

/-- The compression function. -/
def compress (s : State) (block : List UInt8) : State :=
  feedForward (rounds (blockWord block) (.ofState s) 64) s

/-! ### Whole blocks -/

/-- `n` blocks from the front of `bs`. -/
def absorbN (s : State) (bs : List UInt8) : Nat → State
  | 0 => s
  | n + 1 => absorbN (compress s (bs.take 64)) (bs.drop 64) n

/-- The whole blocks of `bs`. A rest shorter than a block is left out. -/
def absorb (s : State) (bs : List UInt8) : State := absorbN s bs (bs.length / 64)

/-- What follows the blocks that are absorbed does not matter. -/
theorem absorbN_append (s : State) (a b : List UInt8) (n : Nat) (h : 64 * n ≤ a.length) :
    absorbN s (a ++ b) n = absorbN s a n := by
  induction n generalizing s a with
  | zero => rfl
  | succ n ih =>
    rw [absorbN, absorbN, take_append_of_le_length (by omega),
      drop_append_of_le_length (by omega)]
    exact ih _ _ (by rw [length_drop]; omega)

theorem absorbN_add (s : State) (bs : List UInt8) (n k : Nat) :
    absorbN s bs (n + k) = absorbN (absorbN s bs n) (bs.drop (64 * n)) k := by
  induction n generalizing s bs with
  | zero => simp [absorbN]
  | succ n ih =>
    rw [Nat.succ_add, absorbN, absorbN, ih, drop_drop]
    congr 2
    omega

/-- A message splits at a block boundary. -/
theorem absorb_append (s : State) {a : List UInt8} (b : List UInt8) (h : a.length % 64 = 0) :
    absorb s (a ++ b) = absorb (absorb s a) b := by
  have hlen : (a ++ b).length / 64 = a.length / 64 + b.length / 64 := by
    rw [length_append]
    omega
  have hdrop : (a ++ b).drop (64 * (a.length / 64)) = b := by
    rw [show 64 * (a.length / 64) = a.length by omega, drop_left]
  rw [absorb, hlen, absorbN_add, hdrop, absorbN_append _ _ _ _ (by omega)]
  rfl

theorem absorb_short (s : State) (h : bs.length < 64) : absorb s bs = s := by
  rw [absorb, Nat.div_eq_of_lt h, absorbN]

theorem absorb_block (s : State) (h : bs.length = 64) :
    absorb s bs = compress s bs := by
  rw [absorb, h, Nat.div_self (by decide), absorbN, absorbN, take_of_length_le (by omega)]

/-- The rest of a message past its last whole block. -/
def rest (bs : List UInt8) : List UInt8 := bs.drop (64 * (bs.length / 64))

theorem length_rest (bs : List UInt8) : (rest bs).length = bs.length % 64 := by
  rw [rest, length_drop]
  omega

theorem rest_short (h : bs.length < 64) : rest bs = bs := by
  rw [rest, Nat.div_eq_of_lt h, Nat.mul_zero, drop_zero]

theorem rest_block (h : bs.length = 64) : rest bs = [] := by
  rw [rest, h, drop_eq_nil_of_le (by omega)]

/-- The message is its whole blocks and the rest. -/
theorem absorb_append_rest (s : State) (a b : List UInt8) :
    absorb s (a ++ b) = absorb (absorb s a) (rest a ++ b) := by
  have hcut : (a.take (64 * (a.length / 64))).length % 64 = 0 := by
    rw [length_take]
    omega
  have hfull : absorb s a = absorb s (a.take (64 * (a.length / 64))) := by
    conv_lhs => rw [← take_append_drop (64 * (a.length / 64)) a]
    rw [absorb_append s _ hcut, absorb_short]
    exact lt_of_eq_of_lt (length_rest a) (Nat.mod_lt _ (by decide))
  rw [hfull, ← absorb_append s _ hcut, ← append_assoc, rest, take_append_drop]

/-- The rest of a longer message only depends on the rest so far. -/
theorem rest_append (a b : List UInt8) : rest (a ++ b) = rest (rest a ++ b) := by
  have hsplit : a = a.take (64 * (a.length / 64)) ++ rest a := (take_append_drop _ _).symm
  have hcut : (a.take (64 * (a.length / 64))).length = 64 * (a.length / 64) := by
    rw [length_take]
    omega
  conv_lhs => rw [hsplit, append_assoc]
  rw [rest, rest, length_append, hcut, Nat.mul_add_div (by decide), Nat.mul_add,
    ← drop_drop]
  congr 1
  nth_rewrite 1 [← hcut]
  rw [drop_left]

/-! ### Padding and digest -/

/-- A number as eight big-endian bytes. -/
def be64Bytes (n : Nat) : List UInt8 := (List.range 8).map fun i => UInt8.ofNat (n / 2 ^ (56 - 8 * i))

/-- The padding of a message of `len` bytes: a one bit, zeros up to 8 bytes short of a block
boundary, and the length in bits. -/
def padding (len : Nat) : List UInt8 :=
  0x80 :: (List.replicate ((119 - len % 64) % 64) 0 ++ be64Bytes (8 * len))

/-- 32 bytes: a digest, or a stored chaining state. -/
abbrev Digest := Vector UInt8 32

/-- The word that holds byte `i` of a stored state. -/
theorem word_lt (i : Fin 32) : i.val / 4 < 8 := by omega

/-- The eight words, big-endian. -/
def toBytes (s : State) : Digest :=
  Vector.ofFn fun i =>
    UInt8.ofNat ((s.get ⟨i.val / 4, word_lt i⟩).toNat / 2 ^ (24 - 8 * (i.val % 4)))

/-- The state stored in 32 bytes. -/
def ofBytes (d : Digest) : State := Vector.ofFn fun i => UInt32.ofNat (be32 d.toList (4 * i.val))

theorem byteAt_digest (d : Digest) {i : Nat} (hi : i < 32) : byteAt d.toList i = d[i].toNat := by
  simp [byteAt, getD_eq_getElem?_getD, hi]

theorem byteAt_toBytes (s : State) {i j : Nat} (hi : i < 8) (hj : j < 4) :
    byteAt (toBytes s).toList (4 * i + j) = s[i].toNat / 2 ^ (24 - 8 * j) % 2 ^ 8 := by
  have hdiv : (4 * i + j) / 4 = i := by omega
  have hmod : (4 * i + j) % 4 = j := by omega
  rw [byteAt_digest _ (by omega), toBytes, Vector.getElem_ofFn, UInt8.toNat_ofNat']
  simp only [hdiv, hmod]
  rfl

theorem ofBytes_toBytes (s : State) : ofBytes (toBytes s) = s := by
  ext i hi
  have hb0 : byteAt (toBytes s).toList (4 * i) = _ := byteAt_toBytes s hi (j := 0) (by decide)
  have hb1 := byteAt_toBytes s hi (j := 1) (by decide)
  have hb2 := byteAt_toBytes s hi (j := 2) (by decide)
  have hb3 := byteAt_toBytes s hi (j := 3) (by decide)
  have hlt := s[i].toNat_lt
  have hsum : be32 (toBytes s).toList (4 * i) = s[i].toNat := by
    rw [be32, hb0, hb1, hb2, hb3]
    omega
  rw [ofBytes, Vector.getElem_ofFn, hsum, UInt32.ofNat_toNat]

/-- The digest of a message. -/
def digest (msg : List UInt8) : Digest := toBytes (absorb initial (msg ++ padding msg.length))

end ZfsBoot.Lib.Sha256
