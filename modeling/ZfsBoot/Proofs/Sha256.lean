import ZfsBoot.Bios.PayloadSum

/-!
# `ZfsBoot.Proofs.Sha256`: the loader's SHA-256 is FIPS 180-4's

Three steps from `payload_sum.c` to the standard.

`sha256Block_eq`: the compression function. The source keeps sixteen schedule words and
overwrites the oldest, so before round `i` the array holds the words `i - 16` to `i - 1` of
the standard's schedule (`Window`).

`Holds`: a context that has taken in `msg` since its chaining words were `s₀`. The chaining
words stand after the whole blocks of `msg`, the buffer holds the rest. `update_holds` keeps
it for any way of cutting the input.

`final_eq`: the two shapes of the last block (one block of padding or two) give the padded
message's state. The length is the context's own count, so a context that was resumed from a
stored state is covered as well.
-/

set_option autoImplicit false

namespace ZfsBoot.Proofs.Sha256

open List hiding Vector
open Lib Lib.Sha256 Bios

variable {s : BlockLocals} {total len : Nat} {r : List UInt8} {c : Sha256Ctx} {l msg : List UInt8}
  {s₀ : State} {m : Nat → UInt32} {i : Nat}

/-! ### The compression function -/

/-- The rolling array before round `i`: the last sixteen schedule words, and before round 16
the block's own. -/
def Window (m : Nat → UInt32) (i : Nat) (w : Vector UInt32 16) : Prop :=
  ∀ t, t < i + 16 → i ≤ t + 16 → (i ≤ 16 → t < 16) → (16 ≤ i → t < i) →
    shaWord w t = schedule m t

theorem shaWord_add_sixteen (w : Vector UInt32 16) (t : Nat) :
    shaWord w (t + 16) = shaWord w t := by
  simp [shaWord]

theorem shaWord_set (w : Vector UInt32 16) (i t : Nat) (x : UInt32) :
    shaWord (w.set (i % 16) x (Nat.mod_lt _ (by decide))) t
      = if i % 16 = t % 16 then x else shaWord w t := by
  simp [shaWord, Vector.getElem_set]

/-- Round `i` finds word `i` of the schedule in its place, and leaves the next window. -/
theorem window_step {w : Vector UInt32 16} (hw : Window m i w) :
    shaWord (shaSchedule w i) i = schedule m i ∧ Window m (i + 1) (shaSchedule w i) := by
  by_cases hi : i ≥ 16
  · obtain ⟨t, rfl⟩ : ∃ t, i = t + 16 := ⟨i - 16, by omega⟩
    have h0 : shaWord w (t + 16) = schedule m t := by
      rw [shaWord_add_sixteen]
      exact hw t (by omega) (by omega) (by omega) (by omega)
    have h1 : shaWord w (t + 16 + 1) = schedule m (t + 1) := by
      rw [show t + 16 + 1 = t + 1 + 16 by omega, shaWord_add_sixteen]
      exact hw _ (by omega) (by omega) (by omega) (by omega)
    have h9 : shaWord w (t + 16 + 9) = schedule m (t + 9) := by
      rw [show t + 16 + 9 = t + 9 + 16 by omega, shaWord_add_sixteen]
      exact hw _ (by omega) (by omega) (by omega) (by omega)
    have h14 : shaWord w (t + 16 + 14) = schedule m (t + 14) := by
      rw [show t + 16 + 14 = t + 14 + 16 by omega, shaWord_add_sixteen]
      exact hw _ (by omega) (by omega) (by omega) (by omega)
    -- the new word: the source's sum is the standard's in another order
    have hnew : shaWord (shaSchedule w (t + 16)) (t + 16) = schedule m (t + 16) := by
      rw [shaSchedule, if_pos hi]
      simp only [shaWord_set, if_pos, h0, h1, h9, h14]
      rw [schedule_add_sixteen]
      simp only [smallSigma0, smallSigma1]
      show schedule m t + (_ + schedule m (t + 9) + _) = _ + schedule m (t + 9) + _ + schedule m t
      ac_rfl
    refine ⟨hnew, fun u hu hiu _ hlt => ?_⟩
    by_cases hlast : u = t + 16
    · rw [hlast, hnew]
    · rw [shaSchedule, if_pos hi]
      simp only [shaWord_set]
      rw [if_neg (by omega)]
      exact hw u (by omega) (by omega) (by omega) (by omega)
  · have hsame : shaSchedule w i = w := by rw [shaSchedule, if_neg hi]
    rw [hsame]
    refine ⟨hw i (by omega) (by omega) (by omega) (by omega), fun u hu hiu h16 hlt => ?_⟩
    exact hw u (by omega) (by omega) (by omega) (by omega)

/-- The working variables of the source's locals. -/
def varsOf (s : BlockLocals) : Vars := ⟨s.a, s.b, s.cc, s.d, s.e, s.f, s.g, s.h⟩

/-- One round of the source is one round of the standard. -/
theorem varsOf_shaRound (hw : Window m i s.w) :
    varsOf (shaRound s i) = round (roundConstants.getD i 0) (schedule m i) (varsOf s) := by
  rw [← (window_step hw).1]
  rfl

/-- All the rounds so far, with the window they leave. -/
theorem foldl_shaRound (hw : Window m 0 s.w) (n : Nat) :
    varsOf ((List.range n).foldl shaRound s) = rounds m (varsOf s) n ∧
      Window m n ((List.range n).foldl shaRound s).w := by
  induction n with
  | zero => exact ⟨rfl, hw⟩
  | succ n ih =>
    rw [range_succ, foldl_append, foldl_cons, foldl_nil, rounds,
      varsOf_shaRound ih.2, ih.1]
    exact ⟨rfl, (window_step ih.2).2⟩

theorem addLocals_eq (h : State) (s : BlockLocals) : addLocals h s = feedForward (varsOf s) h := by
  simp only [addLocals, feedForward, varsOf, UInt32.add_comm]

theorem window_blockLocals (h : State) (p : List UInt8) :
    Window (blockWord p) 0 (blockLocals h p).w := by
  intro t _ _ h16 _
  have ht : t < 16 := h16 (by omega)
  simp [blockLocals, shaWord, schedule_of_lt _ ht, Nat.mod_eq_of_lt ht, blockWord]

/-- `sha256_block` is the compression function. -/
theorem sha256Block_eq (h : State) (p : List UInt8) : sha256Block h p = compress h p := by
  rw [sha256Block, addLocals_eq, (foldl_shaRound (window_blockLocals h p) 64).1]
  rfl

/-- A message of less than a block is hashed with one call of `sha256_block`. -/
theorem digest_short (h : msg.length < 56) :
    digest msg = toBytes (sha256Block initial (msg ++ padding msg.length)) := by
  rw [digest, absorb_block, sha256Block_eq]
  simp [padding, be64Bytes]
  omega

/-! ### The buffer -/

theorem h_put (c : Sha256Ctx) (b : UInt8) : (c.put b).h = c.h := rfl

theorem h_flush (c : Sha256Ctx) : c.flush.h = compress c.h c.buf.toList := sha256Block_eq _ _

theorem bytes_eq (c : Sha256Ctx) : c.bytes = toBytes c.h := rfl

/-- The first `fill` bytes of the buffer are `l`. The bytes after them are whatever earlier
blocks left there. -/
structure Filled (l : List UInt8) (c : Sha256Ctx) : Prop where
  fill : c.fill = l.length
  buf : c.buf.toList.take l.length = l

theorem Filled.length_le (h : Filled l c) : l.length ≤ 64 := by
  have hlen := congrArg List.length h.buf
  rw [length_take, Vector.length_toList] at hlen
  omega

/-- A full buffer is the 64 bytes it was filled with. -/
theorem Filled.toList_buf (h : Filled l c) (hl : l.length = 64) : c.buf.toList = l := by
  rw [← h.buf, hl, take_of_length_le (by rw [Vector.length_toList])]

theorem Filled.put (h : Filled l c) (hl : l.length < 64)
    (b : UInt8) : Filled (l ++ [b]) (c.put b) := by
  refine ⟨by simp [Sha256Ctx.put, h.fill], ?_⟩
  have hbuf : (c.put b).buf.toList = c.buf.toList.set l.length b := by
    simp [Sha256Ctx.put, h.fill]
  rw [hbuf, length_append, length_singleton, take_add_one,
    take_set_of_le (by omega), h.buf]
  simp [hl]

theorem Filled.flush (h : Filled l c) (hl : l.length = 64) :
    c.flush.h = compress c.h l ∧ Filled [] c.flush := by
  rw [h_flush, h.toList_buf hl]
  exact ⟨rfl, rfl, rfl⟩

/-- The zero bytes that `sha256_final` appends. -/
theorem Filled.iterate_put (h : Filled l c) (n : Nat) (hn : l.length + n ≤ 64) :
    Filled (l ++ List.replicate n 0) ((Sha256Ctx.put 0)^[n] c) ∧
      ((Sha256Ctx.put 0)^[n] c).h = c.h := by
  induction n with
  | zero => simpa using h
  | succ n ih =>
    obtain ⟨hfilled, hh⟩ := ih (by omega)
    rw [Function.iterate_succ_apply', replicate_succ', ← append_assoc]
    refine ⟨hfilled.put ?_ 0, hh⟩
    rw [length_append, length_replicate]
    omega

theorem Filled.zeroTo (h : Filled l c) {n : Nat} (hn : n ≤ 64) (hl : l.length ≤ n) :
    Filled (l ++ List.replicate (n - l.length) 0) (c.zeroTo n) ∧ (c.zeroTo n).h = c.h := by
  rw [Sha256Ctx.zeroTo, h.fill]
  exact h.iterate_put _ (by omega)

/-! ### Updates -/

/-- The context has taken in `msg` since its chaining words were `s₀`. -/
structure Holds (s₀ : State) (msg : List UInt8) (c : Sha256Ctx) : Prop where
  h : c.h = absorb s₀ msg
  filled : Filled (rest msg) c

theorem Holds.fill (hc : Holds s₀ msg c) :
    c.fill = msg.length % 64 := by
  rw [hc.filled.fill, length_rest]

/-- One byte: it leaves the block incomplete, or completes it. -/
theorem Holds.push (hc : Holds s₀ msg c) (b : UInt8) : Holds s₀ (msg ++ [b]) (c.push b) := by
  have hlt : (rest msg).length < 64 := by
    rw [length_rest]
    omega
  have hput := hc.filled.put hlt b
  have hle := hput.length_le
  rw [Sha256Ctx.push]
  split_ifs with hfill
  · have hfull : (rest msg ++ [b]).length = 64 := by rw [← hput.fill, hfill]
    obtain ⟨hh, hfilled⟩ := hput.flush hfull
    constructor
    · rw [hh, h_put, hc.h, absorb_append_rest s₀ msg, absorb_block _ hfull]
    · rwa [rest_append, rest_block hfull]
  · have hshort : (rest msg ++ [b]).length < 64 := by
      rw [hput.fill] at hfill
      omega
    constructor
    · rw [h_put, hc.h, absorb_append_rest, absorb_short _ hshort]
    · rwa [rest_append, rest_short hshort]

theorem total_push (c : Sha256Ctx) (b : UInt8) : (c.push b).total = c.total := by
  rw [Sha256Ctx.push]
  split_ifs <;> rfl

/-- A whole block straight from the input. -/
theorem Holds.block {p : List UInt8} (hc : Holds s₀ msg c)
    (hfill : c.fill = 0) (hp : p.length = 64) :
    Holds s₀ (msg ++ p) { c with h := sha256Block c.h p } := by
  have hrest : rest msg = [] := by
    rw [← length_eq_zero_iff, ← hc.filled.fill, hfill]
  constructor
  · rw [absorb_append_rest, hrest, nil_append, absorb_block _ hp, sha256Block_eq, hc.h]
  · rw [rest_append, hrest, nil_append, rest_block hp]
    exact ⟨hfill, rfl⟩

theorem updateLoop_holds (hc : Holds s₀ msg c) (p : List UInt8) :
    Holds s₀ (msg ++ p) (c.updateLoop p) ∧ (c.updateLoop p).total = c.total := by
  -- along the source's own loop: a whole block, or a byte
  fun_induction Sha256Ctx.updateLoop c p generalizing msg with
  | case1 c => simpa using hc
  | case2 c b p hfull ih =>
    have hstep := hc.block hfull.1 (p := (b :: p).take 64) (by rw [length_take]; omega)
    obtain ⟨hholds, htotal⟩ := ih hstep
    rw [append_assoc, take_append_drop] at hholds
    exact ⟨hholds, htotal⟩
  | case3 c b p hpart ih =>
    obtain ⟨hholds, htotal⟩ := ih (hc.push b)
    rw [append_assoc, singleton_append] at hholds
    exact ⟨hholds, htotal.trans (total_push c b)⟩

/-- `sha256_update` takes in its input, whatever came before it. -/
theorem update_holds (hc : Holds s₀ msg c) (p : List UInt8) :
    Holds s₀ (msg ++ p) (c.update p) ∧ (c.update p).total = u32 (c.total + p.length) := by
  have hcount : Holds s₀ msg { c with total := u32 (c.total + p.length) } :=
    ⟨hc.h, hc.filled.fill, hc.filled.buf⟩
  exact updateLoop_holds hcount p

theorem holds_nil (hfill : c.fill = 0) : Holds c.h [] c :=
  ⟨(absorb_short _ (by decide)).symm, by rw [rest_short (by decide)]; exact hfill, rfl⟩

/-! ### The digest -/

/-- The length field: `hi` and `lo` are the two halves of the length in bits. -/
theorem length_bytes (ht : total < 2 ^ 32) :
    ((List.range 4).map fun i => UInt8.ofNat (total / 2 ^ 29 / 2 ^ (24 - 8 * i)))
      ++ ((List.range 4).map fun i => UInt8.ofNat (u32 (total * 2 ^ 3) / 2 ^ (24 - 8 * i)))
      = be64Bytes (8 * total) := by
  have hbyte : ∀ a b : Nat, a % 2 ^ 8 = b % 2 ^ 8 → UInt8.ofNat a = UInt8.ofNat b := by
    intro a b h
    rw [← UInt8.toNat_inj, UInt8.toNat_ofNat', UInt8.toNat_ofNat', h]
  simp only [be64Bytes, List.range, List.range.loop, map_cons, map_nil, cons_append,
    nil_append, u32, List.cons.injEq, and_true]
  refine ⟨?_, ?_, ?_, ?_, ?_, ?_, ?_, ?_⟩ <;> exact hbyte _ _ (by omega)

theorem getElem_lengthBuf (buf : Vector UInt8 64) (lo hi : Nat) (h : i < 64) :
    (Sha256Ctx.lengthBuf lo hi buf)[i] =
      if 60 ≤ i then UInt8.ofNat (lo / 2 ^ (24 - 8 * (i - 60)))
      else if 56 ≤ i then UInt8.ofNat (hi / 2 ^ (24 - 8 * (i - 56)))
      else buf[i] := by
  rw [Sha256Ctx.lengthBuf, Vector.getElem_ofFn]
  rfl

/-- A 64-byte buffer from its three parts. -/
theorem toList_parts {v : Vector UInt8 64} {a b : List UInt8} (hl : l.length = 56)
    (ha : a.length = 4) (hb : b.length = 4) (h₁ : ∀ i, i < 56 → v.toList[i]? = l[i]?)
    (h₂ : ∀ i, i < 4 → v.toList[56 + i]? = a[i]?) (h₃ : ∀ i, i < 4 → v.toList[60 + i]? = b[i]?) :
    v.toList = l ++ a ++ b := by
  refine ext_getElem? fun i => ?_
  have hlen : v.toList.length = 64 := Vector.length_toList
  by_cases hlt : i < 56
  · rw [h₁ i hlt, append_assoc, List.getElem?_append_left (by omega)]
  by_cases hlt' : i < 60
  · obtain ⟨j, rfl⟩ : ∃ j, i = 56 + j := ⟨i - 56, by omega⟩
    rw [h₂ j (by omega), List.getElem?_append_left (by rw [length_append]; omega),
      List.getElem?_append_right (by omega), hl, Nat.add_sub_cancel_left]
  by_cases hlt'' : i < 64
  · obtain ⟨j, rfl⟩ : ∃ j, i = 60 + j := ⟨i - 60, by omega⟩
    rw [h₃ j (by omega), List.getElem?_append_right (by rw [length_append]; omega),
      length_append, hl, ha, Nat.add_sub_cancel_left]
  · rw [List.getElem?_eq_none (by omega), List.getElem?_eq_none]
    rw [length_append, length_append]
    omega

theorem toList_lengthBuf (h : Filled l c) (hl : l.length = 56) (lo hi : Nat) :
    (Sha256Ctx.lengthBuf lo hi c.buf).toList = l
      ++ ((List.range 4).map fun i => UInt8.ofNat (hi / 2 ^ (24 - 8 * i)))
      ++ ((List.range 4).map fun i => UInt8.ofNat (lo / 2 ^ (24 - 8 * i))) := by
  have hget : ∀ (v : Vector UInt8 64) {i : Nat} (hi64 : i < 64), v.toList[i]? = some v[i] := by
    intro v i hi64
    rw [List.getElem?_eq_getElem (by rw [Vector.length_toList]; exact hi64),
      Vector.getElem_toList]
  refine toList_parts hl (by rw [length_map, length_range])
    (by rw [length_map, length_range]) ?_ ?_ ?_
  · intro i hi56
    rw [hget _ (by omega), getElem_lengthBuf, if_neg (by omega), if_neg (by omega), ← h.buf,
      List.getElem?_take_of_lt (by omega), hget _ (by omega)]
  · intro i hi4
    rw [hget _ (by omega), getElem_lengthBuf, if_neg (by omega), if_pos (by omega),
      Nat.add_sub_cancel_left, List.getElem?_map, List.getElem?_range hi4]
    rfl
  · intro i hi4
    rw [hget _ (by omega), getElem_lengthBuf, if_pos (by omega), Nat.add_sub_cancel_left,
      List.getElem?_map, List.getElem?_range hi4]
    rfl

/-- The last block, once 56 bytes of it are in place. -/
theorem finish_eq (h : Filled l c) (hl : l.length = 56) (ht : total < 2 ^ 32) :
    (c.putLength (u32 (total * 2 ^ 3)) (total / 2 ^ 29)).flush.bytes
      = toBytes (compress c.h (l ++ be64Bytes (8 * total))) := by
  have hblock := toList_lengthBuf h hl (u32 (total * 2 ^ 3)) (total / 2 ^ 29)
  rw [append_assoc, length_bytes ht] at hblock
  rw [bytes_eq, h_flush, Sha256Ctx.putLength, hblock]

theorem length_be64Bytes (n : Nat) : (be64Bytes n).length = 8 := by
  rw [be64Bytes, length_map, length_range]

/-- Padding that fits the block the message ends in. -/
theorem absorb_padding_short (s : State) (hr : r.length = len % 64) (hshort : len % 64 < 56) :
    absorb s (r ++ padding len) = compress s
      (r ++ [0x80] ++ List.replicate (56 - (r ++ [0x80]).length) 0 ++ be64Bytes (8 * len)) := by
  have hpad : padding len
      = [0x80] ++ List.replicate (56 - (r ++ [0x80]).length) 0 ++ be64Bytes (8 * len) := by
    rw [padding, length_append, hr, length_singleton,
      show (119 - len % 64) % 64 = 56 - (len % 64 + 1) by omega]
    rfl
  rw [hpad, ← append_assoc, ← append_assoc, absorb_block]
  simp only [length_append, length_replicate, length_be64Bytes, length_singleton]
  omega

/-- Padding that needs a block of its own. -/
theorem absorb_padding_long (s : State) (hr : r.length = len % 64) (hlong : 56 ≤ len % 64) :
    absorb s (r ++ padding len) = compress
      (compress s (r ++ [0x80] ++ List.replicate (64 - (r ++ [0x80]).length) 0))
      (List.replicate 56 0 ++ be64Bytes (8 * len)) := by
  have hpad : r ++ padding len
      = (r ++ [0x80] ++ List.replicate (64 - (r ++ [0x80]).length) 0)
        ++ (List.replicate 56 0 ++ be64Bytes (8 * len)) := by
    rw [padding, length_append, hr, length_singleton,
      show (119 - len % 64) % 64 = (64 - (len % 64 + 1)) + 56 by omega,
      ← replicate_append_replicate]
    simp only [append_assoc, cons_append, nil_append]
  have hfirst : (r ++ [(0x80 : UInt8)]
      ++ List.replicate (64 - (r ++ [(0x80 : UInt8)]).length) 0).length = 64 := by
    simp only [length_append, length_replicate, length_singleton]
    omega
  rw [hpad, absorb_append _ _ (by rw [hfirst]), absorb_block _ hfirst, absorb_block]
  rw [length_append, length_replicate, length_be64Bytes]

/-- `sha256_final`: the digest of a message of `base + msg.length` bytes whose first `base`
bytes led to the chaining state `s₀`. -/
theorem final_eq (hc : Holds s₀ msg c) {base : Nat} (hbase : base % 64 = 0)
    (hlen : base + msg.length < 2 ^ 32) (htotal : c.total = base + msg.length) :
    c.final = toBytes (absorb s₀ (msg ++ padding (base + msg.length))) := by
  have hrest : (rest msg).length = (base + msg.length) % 64 := by
    rw [length_rest]
    omega
  have hmark := hc.filled.put (b := 0x80) (by omega)
  have hmarkLen : (rest msg ++ [0x80]).length = (base + msg.length) % 64 + 1 := by
    rw [length_append, hrest, length_singleton]
  rw [absorb_append_rest, ← hc.h, Sha256Ctx.final, htotal]
  by_cases hbig : (c.put 0x80).fill > 56
  · -- no room for the length: the zeros up to the block's end, and one more block
    have hf := hbig
    rw [hmark.fill, hmarkLen] at hf
    obtain ⟨hzeros, hh⟩ := hmark.zeroTo (n := 64) (by decide) (by omega)
    obtain ⟨hflush, hempty⟩ := hzeros.flush (by
      rw [length_append, length_replicate]
      omega)
    obtain ⟨hlast, hh'⟩ := hempty.zeroTo (n := 56) (by decide) (by decide)
    rw [if_pos hbig, finish_eq hlast (by rw [nil_append, length_replicate]; rfl) hlen,
      hh', hflush, hh, h_put, absorb_padding_long _ hrest (by omega)]
    rfl
  · have hf := hbig
    rw [hmark.fill, hmarkLen] at hf
    obtain ⟨hzeros, hh⟩ := hmark.zeroTo (n := 56) (by decide) (by omega)
    rw [if_neg hbig, finish_eq hzeros (by rw [length_append, length_replicate]; omega)
      hlen, hh, h_put, absorb_padding_short _ hrest (by omega)]

end ZfsBoot.Proofs.Sha256
