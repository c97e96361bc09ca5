import ZfsBoot.Lib.Loop
import ZfsBoot.Bios.PayloadSum

/-!
# `ZfsBoot.Bios.BlkVerify`: checking and healing a payload as it lands

The model of `bios/blkverify.c`. The engine knows the disk, RAM and the console through its
hooks only. Here they act on a world `ω`, and they may do anything to it, the re-reads
included. What a proof needs of them is stated with the proof.

`BlkvRun` adds a log that nothing in the source reads: for every `check_block`, the bytes landed
when it began, its comparisons with the world each was made in, how it ended, and the worlds
before and after it.
-/

set_option autoImplicit false

namespace ZfsBoot.Bios

open Lib

/-! ### The BLKSUM file -/

/-- `BLKSUM_BLOCK`. -/
def blksumBlock : Nat := 65536

/-- `BLKSUM_PER_SECTOR`. -/
def blksumPerSector : Nat := 15

/-- `BLKSUM_SECTOR`. -/
def blksumSectorSize : Nat := 512

/-- `struct blksum_file`. -/
structure BlksumFile where
  size : Nat
  offset : Nat
  nblocks : Nat
  first : Nat
  sha256 : List UInt8

/-- `struct blksum_hdr`: `f[0]` and `f[1]`. -/
structure BlksumHdr where
  kernel : BlksumFile
  initrd : BlksumFile

/-- What `blksum_parse_header` returns: `BLKSUM_OK` with the header, `BLKSUM_BAD` or
`BLKSUM_UNSUPPORTED`. -/
inductive BlksumParse where
  | ok (h : BlksumHdr)
  | bad
  | unsupported

/-- An all-zero `struct sha256_ctx`. -/
def Sha256Ctx.zero : Sha256Ctx := ⟨.replicate 8 0, 0, .replicate 64 0, 0⟩

/-- `sha_of`. -/
def shaOf (p : List UInt8) : Vector UInt8 32 := (Sha256Ctx.zero.init.update p).final

/-- `blksum_check_sector`. -/
def blksumCheckSector (sec : List UInt8) : Bool :=
  (shaOf (sec.take 480)).toList == (sec.drop 480).take 32

/-- The magic of the header sector, "AZBLKSUM". -/
def blksumMagic : List UInt8 := [0x41, 0x5A, 0x42, 0x4C, 0x4B, 0x53, 0x55, 0x4D]

/-- The descriptor of file `i` of the header. -/
def blksumFile (sec : List UInt8) (i : Nat) : BlksumFile where
  size := le32 sec (20 + 16 * i)
  offset := le32 sec (20 + 16 * i + 4)
  nblocks := le32 sec (20 + 16 * i + 8)
  first := le32 sec (20 + 16 * i + 12)
  sha256 := (sec.drop (52 + 32 * i)).take 32

/-- The checks that `blksum_parse_header` makes on a descriptor. -/
def BlksumFile.Valid (f : BlksumFile) : Prop :=
  f.offset ≤ f.size ∧ f.first ≠ 0 ∧
    f.nblocks = (f.size - f.offset) / blksumBlock
      + (if (f.size - f.offset) % blksumBlock ≠ 0 then 1 else 0)

instance (f : BlksumFile) : Decidable f.Valid := inferInstanceAs (Decidable (_ ∧ _ ∧ _))

/-- `blksum_parse_header`. -/
def blksumParseHeader (sec : List UInt8) : BlksumParse :=
  if sec.take 8 ≠ blksumMagic then .bad
  else if ¬ blksumCheckSector sec then .bad
  else if le32 sec 8 ≠ 1 then .unsupported
  else if le32 sec 12 ≠ blksumBlock ∨ le32 sec 16 ≠ blksumPerSector then .bad
  else if ¬ (blksumFile sec 0).Valid ∨ ¬ (blksumFile sec 1).Valid then .bad
  else .ok ⟨blksumFile sec 0, blksumFile sec 1⟩

/-! ### The engine -/

/-- `BLKV_TRIES`. -/
def blkvTries : Nat := 8

/-- `BLKV_BAD_LIMIT`. -/
def blkvBadLimit : Nat := 3

/-- `struct blkv_hooks`. A result `true` or `some` stands for 0. The hooks get `b->base`; what
they use of `b->ctx` is part of their world. -/
structure BlkvHooks (ω : Type) where
  reread : (base off len : Nat) → ω → Bool × ω
  second : Option ((base off len : Nat) → ω → Bool × ω)
  entry : (i : Nat) → ω → Option (Vector UInt8 32) × ω
  peek : (phys len : Nat) → ω → List UInt8 × ω
  getCap : ω → Nat
  setCap : Nat → ω → ω
  reset : ω → ω
  report : (block : Nat) → (want got : Vector UInt8 32) → (tries : Nat) → ω → ω

/-- `struct blkv`, without the pointers. -/
structure Blkv where
  base : Nat
  length : Nat
  nblocks : Nat
  scratchLen : Nat
  scratchLen_pos : 0 < scratchLen
  sha : Sha256Ctx
  landed : Nat
  next : Nat
  off : Bool
  healed : Nat
  second : Nat
  bad : Nat
  retries : Nat
  mismatches : Nat
  unreported : Nat

/-- How a check ended: the block matched at first, a re-read (its number) or the second source
healed it, it stayed wrong, it was wrong and only counted, or it was not checked. -/
inductive CheckEnd where
  | matched
  | healed (t : Nat)
  | second
  | bad
  | counted
  | unchecked

/-- The record of one `check_block`. -/
structure CheckRecord (ω : Type) where
  k : Nat
  landed : Nat
  before : ω
  compares : List (ω × Bool)
  how : CheckEnd
  after : ω

/-- The engine in its world: the comparisons of the check in progress, and the checks before
it. -/
structure BlkvRun (ω : Type) where
  b : Blkv
  w : ω
  compares : List (ω × Bool)
  log : List (CheckRecord ω)

/-- `blkv_start`. -/
def blkvStart (base length nblocks scratchLen : Nat) (hs : 0 < scratchLen) : Blkv where
  base := base
  length := length
  nblocks := nblocks
  scratchLen := scratchLen
  scratchLen_pos := hs
  sha := Sha256Ctx.zero.init
  landed := 0
  next := 0
  off := false
  healed := 0
  second := 0
  bad := 0
  retries := 0
  mismatches := 0
  unreported := 0

section

variable {ω : Type} (h : BlkvHooks ω)

/-- `hash_range`: `len` bytes of RAM from `base + off` on, at most `scratch` at a time. -/
def hashRange (base scratch : Nat) (hs : 0 < scratch) (off len : Nat) (sha : Sha256Ctx) (w : ω) :
    Sha256Ctx × ω :=
  if len = 0 then (sha, w)
  else
    let n := min len scratch
    let r := h.peek (u32 (base + off)) n w
    hashRange base scratch hs (u32 (off + n)) (len - n) (sha.update r.1) r.2
termination_by len

/-- `chain_entry`. -/
def chainEntry (last : Bool) (sha : Sha256Ctx) : Vector UInt8 32 :=
  if last then sha.final else sha.bytes

/-- One `check_block` in progress: its locals. -/
structure BlockCheck where
  k : Nat
  start : Nat
  len : Nat
  last : Bool
  before : Sha256Ctx
  want : Vector UInt8 32

/-- `rehash`: the digest it computed, and whether it is the wanted one. -/
def rehash (c : BlockCheck) (s : BlkvRun ω) : Bool × Vector UInt8 32 × BlkvRun ω :=
  let r := hashRange h s.b.base s.b.scratchLen s.b.scratchLen_pos c.start c.len c.before s.w
  let got := chainEntry c.last r.1
  let ok := got == c.want
  (ok, got, { s with b := { s.b with sha := r.1 }, w := r.2, compares := s.compares ++ [(s.w, ok)] })

/-- The re-reads of one block, numbered. The result is the number of the one that healed it,
and the digest computed last. -/
def rereads (c : BlockCheck) (cap0 : Nat) :
    List Nat → Vector UInt8 32 → BlkvRun ω → Option Nat × Vector UInt8 32 × BlkvRun ω
  | [], got, s => (none, got, s)
  | t :: ts, got, s =>
    let size := if u16 (cap0 / 2 ^ (t - 1)) < 1 then 1 else u16 (cap0 / 2 ^ (t - 1))
    let r := h.reread s.b.base c.start c.len (h.setCap size (h.reset s.w))
    let s := { s with b := { s.b with retries := u16 (s.b.retries + 1) }, w := r.2 }
    if r.1 then
      match rehash h c s with
      | (true, got, s) => (some t, got, s)
      | (false, got, s) => rereads c cap0 ts got s
    else rereads c cap0 ts got s

/-- `b->h->second`, if there is one, and the comparison after it. -/
def secondSource (c : BlockCheck) (got : Vector UInt8 32) (s : BlkvRun ω) :
    Bool × Vector UInt8 32 × BlkvRun ω :=
  match h.second with
  | none => (false, got, s)
  | some second =>
    let r := second s.b.base c.start c.len s.w
    let s := { s with w := r.2 }
    if r.1 then rehash h c s else (false, got, s)

/-- `resume`: the chain goes on from what the table says. -/
def resume (c : BlockCheck) (b : Blkv) : Blkv :=
  if c.last then b
  else
    { b with
      sha := { b.sha with
        h := Vector.ofFn fun i => UInt32.ofNat (be32 c.want.toList (4 * i.val))
        total := u32 (c.start + c.len)
        fill := 0 } }

/-- The locals of `check_block(b, k)`. -/
def blockCheck (b : Blkv) (k : Nat) (want : Vector UInt8 32) : BlockCheck :=
  let start := u32 (k * blksumBlock)
  let rest := u32 (b.length + 2 ^ 32 - start)
  { k := k, start := start, len := if rest < blksumBlock then rest else blksumBlock
    last := u32 (k + 1) = b.nblocks, before := b.sha, want := want }

/-- `check_block` after the first comparison failed. -/
def healBlock (c : BlockCheck) (got : Vector UInt8 32) (s : BlkvRun ω) : CheckEnd × BlkvRun ω :=
  let b := { s.b with mismatches := u16 (s.b.mismatches + 1) }
  if b.bad ≥ blkvBadLimit then
    let b := { b with bad := u16 (b.bad + 1), unreported := u16 (b.unreported + 1) }
    (.counted, { s with b := resume c b })
  else
    let cap0 := h.getCap s.w
    match rereads h c cap0 (List.range' 1 blkvTries) got { s with b := b } with
    | (some t, _, s) => (.healed t, { s with b := { s.b with healed := u16 (s.b.healed + 1) } })
    | (none, got, s) =>
      match secondSource h c got { s with w := h.setCap cap0 s.w } with
      | (true, _, s) => (.second, { s with b := { s.b with second := u16 (s.b.second + 1) } })
      | (false, got, s) =>
        let b := { s.b with bad := u16 (s.b.bad + 1) }
        (.bad, { s with b := resume c b, w := h.report c.k c.want got blkvTries s.w })

/-- `check_block`, and how it ended. -/
def checkBody (k : Nat) (s : BlkvRun ω) : CheckEnd × BlkvRun ω :=
  if s.b.off then (.unchecked, s)
  else
    match h.entry k s.w with
    | (none, w) => (.unchecked, { s with b := { s.b with off := true }, w := w })
    | (some want, w) =>
      let c := blockCheck s.b k want
      match rehash h c { s with w := w } with
      | (true, _, s) => (.matched, s)
      | (false, got, s) => healBlock h c got s

/-- `check_block`, logged. -/
def checkBlock (k : Nat) (s : BlkvRun ω) : BlkvRun ω :=
  let r := checkBody h k { s with compares := [] }
  { r.2 with log := s.log ++ [⟨k, s.b.landed, s.w, r.2.compares, r.1, r.2.w⟩] }

/-- `end` of `blkv_landed`: where the next block ends. -/
def blockStop (b : Blkv) : Nat :=
  let stop := u32 (u32 (b.next + 1) * blksumBlock)
  if stop > b.length then b.length else stop

/-- One pass of `blkv_landed`'s loop. -/
def landedBody (s : BlkvRun ω) : Loop.Step (BlkvRun ω) (BlkvRun ω) :=
  if s.b.next < s.b.nblocks then
    if s.b.landed < blockStop s.b then .done s
    else .next (checkBlock h s.b.next { s with b := { s.b with next := u32 (s.b.next + 1) } })
  else .done s

/-- `blkv_landed`. The outer `none` would say that the loop is still going after a pass for
every block. -/
def blkvLanded (bytes : Nat) (s : BlkvRun ω) : Option (BlkvRun ω) :=
  Loop.run (landedBody h) (s.b.nblocks + 1)
    { s with b := { s.b with landed := u32 (s.b.landed + bytes) } }

end

end ZfsBoot.Bios
