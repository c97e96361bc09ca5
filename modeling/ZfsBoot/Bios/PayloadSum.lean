import Mathlib.Logic.Function.Iterate
import ZfsBoot.Lib.Sha256

/-!
# `ZfsBoot.Bios.PayloadSum`: SHA-256 and the CHECKSUM manifest

The model of `bios/payload_sum.c`, in its two halves.

The hash is the source's: a schedule of sixteen words that is updated in place, a context
with a 64-byte buffer that `sha256_update` fills one byte at a time unless a whole block is
at hand, and a length kept in 32 bits. `ZfsBoot.Proofs.Sha256` compares it with FIPS 180-4.

The manifest is parsed line by line. A C string comparison that meets a NUL byte in the text
goes on past the end of the literal it compares with. `Rodata` is what the loader's memory
holds there.
-/

set_option autoImplicit false

namespace ZfsBoot.Bios

open Lib

/-! ### SHA-256 -/

/-- `k256`. -/
def k256 : List UInt32 := [
  0x428a2f98, 0x71374491, 0xb5c0fbcf, 0xe9b5dba5, 0x3956c25b, 0x59f111f1, 0x923f82a4, 0xab1c5ed5,
  0xd807aa98, 0x12835b01, 0x243185be, 0x550c7dc3, 0x72be5d74, 0x80deb1fe, 0x9bdc06a7, 0xc19bf174,
  0xe49b69c1, 0xefbe4786, 0x0fc19dc6, 0x240ca1cc, 0x2de92c6f, 0x4a7484aa, 0x5cb0a9dc, 0x76f988da,
  0x983e5152, 0xa831c66d, 0xb00327c8, 0xbf597fc7, 0xc6e00bf3, 0xd5a79147, 0x06ca6351, 0x14292967,
  0x27b70a85, 0x2e1b2138, 0x4d2c6dfc, 0x53380d13, 0x650a7354, 0x766a0abb, 0x81c2c92e, 0x92722c85,
  0xa2bfe8a1, 0xa81a664b, 0xc24b8b70, 0xc76c51a3, 0xd192e819, 0xd6990624, 0xf40e3585, 0x106aa070,
  0x19a4c116, 0x1e376c08, 0x2748774c, 0x34b0bcb5, 0x391c0cb3, 0x4ed8aa4a, 0x5b9cca4f, 0x682e6ff3,
  0x748f82ee, 0x78a5636f, 0x84c87814, 0x8cc70208, 0x90befffa, 0xa4506ceb, 0xbef9a3f7, 0xc67178f2]

/-- `ROR`. -/
def ror (x n : UInt32) : UInt32 := (x >>> n) ||| (x <<< (32 - n))

/-- The locals of `sha256_block`: `a` to `h` (the third is `cc` in the source), and
`g_sha_w`. -/
structure BlockLocals where
  a : UInt32
  b : UInt32
  cc : UInt32
  d : UInt32
  e : UInt32
  f : UInt32
  g : UInt32
  h : UInt32
  w : Vector UInt32 16

/-- `w[i & 15]`. -/
def shaWord (w : Vector UInt32 16) (i : Nat) : UInt32 := w[i % 16]

/-- `g_sha_w` in round `i`: from round 16 on, `w[i & 15]` becomes the next schedule word. -/
def shaSchedule (w : Vector UInt32 16) (i : Nat) : Vector UInt32 16 :=
  if i ≥ 16 then
    let w15 := shaWord w (i + 1)
    let w2 := shaWord w (i + 14)
    w.set (i % 16)
      (shaWord w i + ((ror w15 7 ^^^ ror w15 18 ^^^ (w15 >>> 3)) + shaWord w (i + 9)
        + (ror w2 17 ^^^ ror w2 19 ^^^ (w2 >>> 10))))
  else w

/-- Round `i` of `sha256_block`. -/
def shaRound (s : BlockLocals) (i : Nat) : BlockLocals :=
  let w := shaSchedule s.w i
  let t1 := s.h + (ror s.e 6 ^^^ ror s.e 11 ^^^ ror s.e 25) + ((s.e &&& s.f) ^^^ (~~~s.e &&& s.g))
    + k256.getD i 0 + shaWord w i
  let t2 := (ror s.a 2 ^^^ ror s.a 13 ^^^ ror s.a 22)
    + ((s.a &&& s.b) ^^^ (s.a &&& s.cc) ^^^ (s.b &&& s.cc))
  { a := t1 + t2, b := s.a, cc := s.b, d := s.cc, e := s.d + t1, f := s.e, g := s.f, h := s.g
    w := w }

/-- The locals before the first round, for the 64 bytes `p`. -/
def blockLocals (h : Vector UInt32 8) (p : List UInt8) : BlockLocals :=
  { a := h.get 0, b := h.get 1, cc := h.get 2, d := h.get 3, e := h.get 4, f := h.get 5, g := h.get 6
    h := h.get 7
    w := Vector.ofFn fun i => UInt32.ofNat (be32 p (4 * i.val)) }

/-- `c->h[0] += a` to `c->h[7] += h`. -/
def addLocals (h : Vector UInt32 8) (s : BlockLocals) : Vector UInt32 8 :=
  #v[h.get 0 + s.a, h.get 1 + s.b, h.get 2 + s.cc, h.get 3 + s.d, h.get 4 + s.e, h.get 5 + s.f,
    h.get 6 + s.g, h.get 7 + s.h]

/-- `sha256_block` on the chaining words `h`. -/
def sha256Block (h : Vector UInt32 8) (p : List UInt8) : Vector UInt32 8 :=
  addLocals h ((List.range 64).foldl shaRound (blockLocals h p))

/-- `struct sha256_ctx`. -/
structure Sha256Ctx where
  h : Vector UInt32 8
  total : Nat
  buf : Vector UInt8 64
  fill : Nat

namespace Sha256Ctx

/-- `sha256_init`: it leaves the buffer as it was. -/
def init (c : Sha256Ctx) : Sha256Ctx :=
  { c with
    h := #v[0x6a09e667, 0xbb67ae85, 0x3c6ef372, 0xa54ff53a, 0x510e527f, 0x9b05688c, 0x1f83d9ab,
      0x5be0cd19]
    total := 0
    fill := 0 }

/-- `c->buf[c->fill++] = b`. -/
def put (b : UInt8) (c : Sha256Ctx) : Sha256Ctx :=
  { c with buf := c.buf.setIfInBounds c.fill b, fill := c.fill + 1 }

/-- `sha256_block(c, c->buf); c->fill = 0`. -/
def flush (c : Sha256Ctx) : Sha256Ctx :=
  { c with h := sha256Block c.h c.buf.toList, fill := 0 }

/-- One byte of input, and the block it may complete. -/
def push (b : UInt8) (c : Sha256Ctx) : Sha256Ctx :=
  let c := c.put b
  if c.fill = 64 then c.flush else c

/-- The loop of `sha256_update`. -/
def updateLoop (c : Sha256Ctx) : List UInt8 → Sha256Ctx
  | [] => c
  | b :: p =>
    if c.fill = 0 ∧ 64 ≤ (b :: p).length then
      updateLoop { c with h := sha256Block c.h ((b :: p).take 64) } ((b :: p).drop 64)
    else updateLoop (c.push b) p
termination_by p => p.length
decreasing_by
  · simp only [List.length_drop, List.length_cons]
    omega
  · simp

/-- `sha256_update`. -/
def update (c : Sha256Ctx) (p : List UInt8) : Sha256Ctx :=
  updateLoop { c with total := u32 (c.total + p.length) } p

/-- `while (c->fill < n) c->buf[c->fill++] = 0`. -/
def zeroTo (n : Nat) (c : Sha256Ctx) : Sha256Ctx := (put 0)^[n - c.fill] c

/-- The chaining words, as the 32 bytes that `sha256_final` and `chain_entry` write out. -/
def bytes (c : Sha256Ctx) : Vector UInt8 32 :=
  Vector.ofFn fun i =>
    UInt8.ofNat ((c.h.get ⟨i.val / 4, Sha256.word_lt i⟩).toNat / 2 ^ (24 - 8 * (i.val % 4)))

/-- The last block with the length in bits at its end: `hi` in bytes 56 to 59, `lo` in 60 to
63. -/
def lengthBuf (lo hi : Nat) (buf : Vector UInt8 64) : Vector UInt8 64 :=
  Vector.ofFn fun i =>
    if 60 ≤ i.val then UInt8.ofNat (lo / 2 ^ (24 - 8 * (i.val - 60)))
    else if 56 ≤ i.val then UInt8.ofNat (hi / 2 ^ (24 - 8 * (i.val - 56)))
    else buf[i]

def putLength (lo hi : Nat) (c : Sha256Ctx) : Sha256Ctx := { c with buf := lengthBuf lo hi c.buf }

/-- `sha256_final`. -/
def final (c : Sha256Ctx) : Vector UInt8 32 :=
  let lo := u32 (c.total * 2 ^ 3)
  let hi := c.total / 2 ^ 29
  let c := c.put 0x80
  let c := if c.fill > 56 then (c.zeroTo 64).flush else c
  ((c.zeroTo 56).putLength lo hi).flush.bytes

end Sha256Ctx

/-! ### The manifest -/

/-- What the loader's memory holds after the terminator of a string literal. -/
abbrev Rodata := List UInt8 → List UInt8

/-- `str_eq`: the field `a` against the literal `b`. -/
def strEq (ro : Rodata) (a b : List UInt8) : Bool :=
  let mem := b ++ 0 :: ro b
  ((List.range a.length).all fun i => mem.getD i 0 == a.getD i 0) && mem.getD a.length 0 == 0

/-- `next_field` on what is left of a line: the field, and what is left after it. One blank
before the field is skipped. -/
def nextField (line : List UInt8) : List UInt8 × List UInt8 :=
  let line := if line.head? = some 0x20 then line.tail else line
  (line.takeWhile (· ≠ 0x20), line.dropWhile (· ≠ 0x20))

/-- The loop of `parse_dec`. -/
def parseDecLoop (v : Nat) : List UInt8 → Option Nat
  | [] => some v
  | c :: s =>
    if c < 0x30 ∨ c > 0x39 then none
    else
      let d := c.toNat - 0x30
      if v > (0xFFFFFFFF - d) / 10 then none else parseDecLoop (v * 10 + d) s

/-- `parse_dec`. -/
def parseDec (s : List UInt8) : Option Nat :=
  if s.length = 0 ∨ s.length > 10 then none else parseDecLoop 0 s

/-- `hexval`. -/
def hexval (c : UInt8) : Option Nat :=
  if 0x30 ≤ c ∧ c ≤ 0x39 then some (c.toNat - 0x30)
  else if 0x61 ≤ c ∧ c ≤ 0x66 then some (c.toNat - 0x61 + 10)
  else none

/-- The 64 hex digits of a digest. -/
def parseHex (f : List UInt8) : Option (Vector UInt8 32) :=
  if (List.range 64).all fun i => (hexval (f.getD i 0)).isSome then
    some (Vector.ofFn fun i =>
      UInt8.ofNat (16 * (hexval (f.getD (2 * i.val) 0)).getD 0
        + (hexval (f.getD (2 * i.val + 1) 0)).getD 0))
  else none

/-- `struct payload_sum_entry` with `present` set. -/
structure PayloadSumEntry where
  size : Nat
  offset : Nat
  sha256 : Vector UInt8 32
  deriving DecidableEq

/-- `PAYLOAD_SUM_MODE_*`. -/
inductive PayloadSumMode where
  | warn | enforce | off
  deriving DecidableEq, Repr

/-- `struct payload_sum` once it is parsed: both entries are `present`. -/
structure PayloadSum where
  kernel : PayloadSumEntry
  initrd : PayloadSumEntry
  mode : PayloadSumMode
  deriving DecidableEq

/-- `struct payload_sum` while it is parsed. An entry that is not `present` is `none`. -/
structure PartialSum where
  kernel : Option PayloadSumEntry
  initrd : Option PayloadSumEntry
  mode : PayloadSumMode

/-- `enum payload_sum_result`. -/
inductive PayloadSumResult where
  | ok | malformed | unsupported | size | offset | digest
  deriving DecidableEq, Repr

/-- `parse_entry`, on the line after its name. -/
def parseEntry (line : List UInt8) : Option PayloadSumEntry := do
  let (f, line) := nextField line
  let size ← parseDec f
  let (f, line) := nextField line
  let offset ← parseDec f
  let (f, line) := nextField line
  if f.length ≠ 64 ∨ line ≠ [] then none
  else
    let sha256 ← parseHex f
    if offset > size then none else some ⟨size, offset, sha256⟩

/-- The bytes of an ASCII literal. -/
def ascii (s : String) : List UInt8 := s.toList.map fun c => UInt8.ofNat c.toNat

/-- `payload_sum_mode`. -/
def payloadSumMode (ro : Rodata) (s : List UInt8) : Option PayloadSumMode :=
  if strEq ro s (ascii "warn") then some .warn
  else if strEq ro s (ascii "enforce") then some .enforce
  else if strEq ro s (ascii "off") then some .off
  else none

/-- The first line: the two fixed words and the version. -/
def parseHeader (ro : Rodata) (line : List UInt8) : PayloadSumResult :=
  let (f, line) := nextField line
  if ¬ strEq ro f (ascii "alpine-zfsboot") then .malformed
  else
    let (f, line) := nextField line
    if ¬ strEq ro f (ascii "payload-sum") then .malformed
    else
      let (f, line) := nextField line
      if line ≠ [] ∨ f.length = 0 then .malformed
      else if ¬ strEq ro f (ascii "1") then .unsupported
      else .ok

/-- Every other line. A line that names another file is ignored. -/
def parseLine (ro : Rodata) (out : PartialSum) (line : List UInt8) : Option PartialSum :=
  let (f, line) := nextField line
  if strEq ro f (ascii "KERNEL") then
    if out.kernel.isSome then none
    else (parseEntry line).map fun e => { out with kernel := some e }
  else if strEq ro f (ascii "INITRD") then
    if out.initrd.isSome then none
    else (parseEntry line).map fun e => { out with initrd := some e }
  else if strEq ro f (ascii "MODE") then
    let (f, line) := nextField line
    let mode := if line = [] then payloadSumMode ro f else none
    some { out with mode := mode.getD .warn }
  else some out

/-- The lines of a text that end in a newline, and what is left after the last of them. -/
def splitLines : List UInt8 → List (List UInt8) × List UInt8
  | [] => ([], [])
  | c :: t =>
    match splitLines t with
    | (lines, last) =>
      if c = 0x0A then ([] :: lines, last)
      else
        match lines with
        | [] => ([], c :: last)
        | l :: lines => ((c :: l) :: lines, last)

/-- `payload_sum_parse`. What it leaves in `*out` on a failure is never read. -/
def payloadSumParse (ro : Rodata) (text : List UInt8) : PayloadSumResult × Option PayloadSum :=
  match splitLines text with
  | ([], _) => (.malformed, none)
  | (first :: lines, last) =>
    match parseHeader ro first with
    | .ok =>
      match lines.foldlM (parseLine ro) ⟨none, none, .warn⟩ with
      | some ⟨some kernel, some initrd, mode⟩ =>
        if last ≠ [] then (.malformed, none) else (.ok, some ⟨kernel, initrd, mode⟩)
      | _ => (.malformed, none)
    | r => (r, none)

/-- `payload_sum_check_layout`. -/
def payloadSumCheckLayout (e : PayloadSumEntry) (fileSize offset : Nat) : PayloadSumResult :=
  if e.size ≠ fileSize then .size
  else if e.offset ≠ offset then .offset
  else .ok

end ZfsBoot.Bios
