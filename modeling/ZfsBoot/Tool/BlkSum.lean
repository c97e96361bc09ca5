import ZfsBoot.Tool.PayloadSum

/-!
# `ZfsBoot.Tool.BlkSum`: the hash, the writer and the reader of BLKSUM

The rest of `internal/payloadsum/blksum.go`. `ZfsBoot.Tool.PayloadSum` has the file that
`GenerateBlkSum` makes, sector by sector. Here is how it makes it: one buffer of zeros into which the
header, the entries and the hash of each sector are copied at the positions that the source computes.
`DecodeBlkSum` and `VerifyBlkSum` read it back.

The package has a compression loop of its own, because `crypto/sha256` does not show its chaining
words. `sha256Blocks` is that loop, with the schedule of 64 words.

A `uint32` is a `Nat` that the source's own conversions and additions keep below `2 ^ 32`. An `int` has
64 bits and none here comes near them.
-/

set_option autoImplicit false

namespace ZfsBoot.Tool.PayloadSum

open Lib
open Bios (ascii PayloadSumMode)

/-! ### The compression loop -/

/-- `sha256K`. -/
def sha256K : List UInt32 := [
  0x428a2f98, 0x71374491, 0xb5c0fbcf, 0xe9b5dba5, 0x3956c25b, 0x59f111f1, 0x923f82a4, 0xab1c5ed5,
  0xd807aa98, 0x12835b01, 0x243185be, 0x550c7dc3, 0x72be5d74, 0x80deb1fe, 0x9bdc06a7, 0xc19bf174,
  0xe49b69c1, 0xefbe4786, 0x0fc19dc6, 0x240ca1cc, 0x2de92c6f, 0x4a7484aa, 0x5cb0a9dc, 0x76f988da,
  0x983e5152, 0xa831c66d, 0xb00327c8, 0xbf597fc7, 0xc6e00bf3, 0xd5a79147, 0x06ca6351, 0x14292967,
  0x27b70a85, 0x2e1b2138, 0x4d2c6dfc, 0x53380d13, 0x650a7354, 0x766a0abb, 0x81c2c92e, 0x92722c85,
  0xa2bfe8a1, 0xa81a664b, 0xc24b8b70, 0xc76c51a3, 0xd192e819, 0xd6990624, 0xf40e3585, 0x106aa070,
  0x19a4c116, 0x1e376c08, 0x2748774c, 0x34b0bcb5, 0x391c0cb3, 0x4ed8aa4a, 0x5b9cca4f, 0x682e6ff3,
  0x748f82ee, 0x78a5636f, 0x84c87814, 0x8cc70208, 0x90befffa, 0xa4506ceb, 0xbef9a3f7, 0xc67178f2]

/-- `bits.RotateLeft32`. The shift counts are taken modulo 32. -/
def rotateLeft32 (x : UInt32) (k : Int) : UInt32 :=
  let s := UInt32.ofNat (k % 32).toNat
  (x <<< s) ||| (x >>> (32 - s))

/-- `w[i] = binary.BigEndian.Uint32(p[4*i:])`. -/
def loadWord (p : List UInt8) (w : Vector UInt32 64) (i : Nat) : Vector UInt32 64 :=
  w.setIfInBounds i (UInt32.ofNat (be32 p (4 * i)))

/-- `w[i] = w[i-16] + s0 + w[i-7] + s1`. -/
def extendWord (w : Vector UInt32 64) (i : Nat) : Vector UInt32 64 :=
  let word := fun j => w.toList.getD j 0
  let s0 := rotateLeft32 (word (i - 15)) (-7) ^^^ rotateLeft32 (word (i - 15)) (-18)
    ^^^ (word (i - 15) >>> 3)
  let s1 := rotateLeft32 (word (i - 2)) (-17) ^^^ rotateLeft32 (word (i - 2)) (-19)
    ^^^ (word (i - 2) >>> 10)
  w.setIfInBounds i (word (i - 16) + s0 + word (i - 7) + s1)

/-- The array `w` for the block `p`: 16 words are loaded, 48 computed from those before them. What `w`
held from the block before is overwritten. -/
def goSchedule (w : Vector UInt32 64) (p : List UInt8) : Vector UInt32 64 :=
  (List.range' 16 48).foldl extendWord ((List.range 16).foldl (loadWord p) w)

/-- The locals `a` to `hh`. -/
structure Locals where
  a : UInt32
  b : UInt32
  c : UInt32
  d : UInt32
  e : UInt32
  f : UInt32
  g : UInt32
  hh : UInt32

/-- Round `i`. -/
def goRound (w : Vector UInt32 64) (v : Locals) (i : Nat) : Locals :=
  let t1 := v.hh + (rotateLeft32 v.e (-6) ^^^ rotateLeft32 v.e (-11) ^^^ rotateLeft32 v.e (-25))
    + ((v.e &&& v.f) ^^^ (~~~v.e &&& v.g)) + sha256K.getD i 0 + w.toList.getD i 0
  let t2 := (rotateLeft32 v.a (-2) ^^^ rotateLeft32 v.a (-13) ^^^ rotateLeft32 v.a (-22))
    + ((v.a &&& v.b) ^^^ (v.a &&& v.c) ^^^ (v.b &&& v.c))
  { hh := v.g, g := v.f, f := v.e, e := v.d + t1, d := v.c, c := v.b, b := v.a, a := t1 + t2 }

/-- `h[0] += a` to `h[7] += hh`. -/
def addWords (h : Vector UInt32 8) (v : Locals) : Vector UInt32 8 :=
  #v[h.get 0 + v.a, h.get 1 + v.b, h.get 2 + v.c, h.get 3 + v.d, h.get 4 + v.e, h.get 5 + v.f,
    h.get 6 + v.g, h.get 7 + v.hh]

/-- The loop of `sha256Blocks`. -/
def sha256BlocksLoop (w : Vector UInt32 64) (h : Vector UInt32 8) (p : List UInt8) :
    Vector UInt32 8 :=
  if 64 ≤ p.length then
    let w := goSchedule w p
    let v := (List.range 64).foldl (goRound w)
      ⟨h.get 0, h.get 1, h.get 2, h.get 3, h.get 4, h.get 5, h.get 6, h.get 7⟩
    sha256BlocksLoop w (addWords h v) (p.drop 64)
  else h
termination_by p.length
decreasing_by
  rw [List.length_drop]
  omega

/-- `sha256Blocks`: the chaining words after the whole blocks of `p`. -/
def sha256Blocks (h : Vector UInt32 8) (p : List UInt8) : Vector UInt32 8 :=
  sha256BlocksLoop (.replicate 64 0) h p

/-! ### Writing -/

/-- `blkSectorSize`. -/
def blkSectorSize : Nat := 512

/-- `BlkSumVersion`. -/
def blkSumVersion : Nat := 1

/-- `copy(out[pos:], data)`. -/
def copyAt (pos : Nat) (data out : List UInt8) : List UInt8 :=
  out.take pos ++ data.take (out.length - pos) ++ out.drop (pos + data.length)

/-- The numbers of one file's descriptor, `p[0:]` to `p[12:]` at `20+16*i`. -/
def copyDescriptor (i size off n first : Nat) (out : List UInt8) : List UInt8 :=
  copyAt (20 + 16 * i + 12) (le32Bytes first) (copyAt (20 + 16 * i + 8) (le32Bytes n)
    (copyAt (20 + 16 * i + 4) (le32Bytes off) (copyAt (20 + 16 * i) (le32Bytes size) out)))

/-- The header, without its hash. -/
def copyHeader (kernel initrd : List UInt8) (koff kn inn ks : Nat) (out : List UInt8) : List UInt8 :=
  let out := copyAt 0 (ascii "AZBLKSUM") out
  let out := copyAt 8 (le32Bytes blkSumVersion) out
  let out := copyAt 12 (le32Bytes blockSize) out
  let out := copyAt 16 (le32Bytes entriesPerSect) out
  let out := copyDescriptor 0 kernel.length koff kn 1 out
  let out := copyDescriptor 1 initrd.length 0 inn (1 + ks) out
  let out := copyAt 52 (Sha256.digest (kernel.drop koff)).toList out
  copyAt 84 (Sha256.digest initrd).toList out

/-- Where entry `i` of the table from sector `first` on is. -/
def entryPos (first i : Nat) : Nat :=
  (first + i / entriesPerSect) * blkSectorSize + i % entriesPerSect * 32

/-- One table: its entries from number `i` on. -/
def copyEntries (first : Nat) : (i : Nat) → List Sha256.Digest → List UInt8 → List UInt8
  | _, [], out => out
  | i, e :: entries, out =>
    copyEntries first (i + 1) entries (copyAt (entryPos first i) e.toList out)

/-- The hash of sector `s`. -/
def hashSector (out : List UInt8) (s : Nat) : List UInt8 :=
  copyAt (s * blkSectorSize + blkHashedPrefix)
    (Sha256.digest ((out.drop (s * blkSectorSize)).take blkHashedPrefix)).toList out

/-- `GenerateBlkSum`, as it fills its buffer. -/
def fillBlkSum (kernel initrd : List UInt8) : Except SumError (List UInt8) := do
  let koff ← kernelRamOffset kernel
  if kernel.length > 0xffffffff ∨ initrd.length > 0xffffffff then .error .blkSizeField
  else
    let ke := chainEntries (kernel.drop koff)
    let ie := chainEntries initrd
    let ks := sectorsFor ke.length
    let is := sectorsFor ie.length
    let out := List.replicate ((1 + ks + is) * blkSectorSize) 0
    let out := copyHeader kernel initrd koff ke.length ie.length ks out
    let out := copyEntries 1 0 ke out
    let out := copyEntries (1 + ks) 0 ie out
    return (List.range (1 + ks + is)).foldl hashSector out

/-! ### Reading -/

/-- `BlkFile`. -/
structure BlkFile where
  size : Nat
  offset : Nat
  blocks : Nat
  first : Nat
  sha256 : Sha256.Digest
  entries : List Sha256.Digest
  deriving DecidableEq

/-- `BlkSum`. -/
structure BlkSum where
  kernel : BlkFile
  initrd : BlkFile
  deriving DecidableEq

/-- The errors of `DecodeBlkSum` and `VerifyBlkSum`. -/
inductive BlkError where
  | notSectors (size : Nat)
  | sectorHash (s : Nat)
  | noMagic
  | version (v : Nat)
  | layout
  | descriptor (i : Nat)
  | blockCount (blocks l : Nat)
  | pastEnd (i : Nat)
  | sum (err : SumError)
  | stale (name : List UInt8)
  | file (name : List UInt8) (size off recordedSize recordedOffset : Nat)
  | block (name : List UInt8) (k off : Nat)
  deriving DecidableEq

/-- `copy(e[:], raw[pos:])` into 32 zeros. -/
def digestAt (raw : List UInt8) (pos : Nat) : Sha256.Digest :=
  Vector.ofFn fun i => raw.getD (pos + i.val) 0

/-- The first sector whose hash is wrong. -/
def badSector (raw : List UInt8) : Option Nat :=
  (List.range (raw.length / blkSectorSize)).find? fun s =>
    let sec := (raw.drop (s * blkSectorSize)).take blkSectorSize
    (Sha256.digest (sec.take blkHashedPrefix)).toList != sec.drop blkHashedPrefix

/-- `DecodeBlkSum` on file `i`. The block count is an addition of `uint32`s. -/
def decodeFile (raw : List UInt8) (i : Nat) : Except BlkError BlkFile :=
  let size := le32 raw (20 + 16 * i)
  let offset := le32 raw (20 + 16 * i + 4)
  let blocks := le32 raw (20 + 16 * i + 8)
  let first := le32 raw (20 + 16 * i + 12)
  if offset > size ∨ first = 0 then .error (.descriptor i)
  else
    let l := size - offset
    if blocks ≠ u32 (l + blockSize - 1) / blockSize then .error (.blockCount blocks l)
    else if (first + sectorsFor blocks) * blkSectorSize > raw.length then .error (.pastEnd i)
    else
      .ok
        { size := size, offset := offset, blocks := blocks, first := first
          sha256 := digestAt raw (52 + 32 * i)
          entries := (List.range blocks).map fun k => digestAt raw (entryPos first k) }

/-- `DecodeBlkSum`. -/
def decodeBlkSum (raw : List UInt8) : Except BlkError BlkSum := do
  if raw.length < blkSectorSize ∨ raw.length % blkSectorSize ≠ 0 then
    .error (.notSectors raw.length)
  else
    match badSector raw with
    | some s => .error (.sectorHash s)
    | none =>
      if raw.take 8 ≠ ascii "AZBLKSUM" then .error .noMagic
      else if le32 raw 8 ≠ blkSumVersion then .error (.version (le32 raw 8))
      else if le32 raw 12 ≠ blockSize ∨ le32 raw 16 ≠ entriesPerSect then .error .layout
      else
        let kernel ← decodeFile raw 0
        let initrd ← decodeFile raw 1
        return ⟨kernel, initrd⟩

/-- `VerifyBlkSum` on one file: nothing, or the first problem. -/
def verifyBlkFile (name : List UInt8) (f : BlkFile) (sum : Entry) (data : List UInt8) (off : Nat) :
    List BlkError :=
  if f.size ≠ sum.size ∨ f.offset ≠ sum.offset ∨ f.sha256 ≠ sum.sha256 then [.stale name]
  else if data.length ≠ f.size ∨ off ≠ f.offset then
    [.file name data.length off f.size f.offset]
  else
    let want := chainEntries (data.drop off)
    match (List.range want.length).find? fun k => want[k]? != f.entries[k]? with
    | some k => [.block name k (off + k * blockSize)]
    | none => []

/-- `VerifyBlkSum`. -/
def verifyBlkSum (b : BlkSum) (m : Manifest) (kernel initrd : List UInt8) : List BlkError :=
  match kernelRamOffset kernel with
  | .error err => [.sum err]
  | .ok koff => verifyBlkFile kernelName b.kernel m.kernel kernel koff
      ++ verifyBlkFile initrdName b.initrd m.initrd initrd 0

end ZfsBoot.Tool.PayloadSum
