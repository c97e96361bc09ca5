import ZfsBoot.Bios.PayloadSum
import ZfsBoot.Lib.Bytes
import ZfsBoot.Lib.Text

/-!
# `ZfsBoot.Tool.PayloadSum`: the writer of CHECKSUM and BLKSUM

The model of `internal/payloadsum`. `Generate` makes the manifest that stage2 reads at boot,
`Decode` and `Verify` read it back as the tool's own `verify` does, and `GenerateBlkSum` makes the
table of chaining states next to it.

A file is a list of bytes. A Go slice that is `nil` is an `Option` in the callers; nothing here
distinguishes it from an empty one. `sha256.Sum256` is `Lib.Sha256.digest`. For the compression loop
that the package has of its own, `chainEntries` has `Lib.Sha256.absorb`: `ZfsBoot.Tool.BlkSum` models
the loop, and `ZfsBoot.Proofs.Tool.Sha256Blocks` shows that the two are the same.
-/

set_option autoImplicit false

namespace ZfsBoot.Tool.PayloadSum

open Lib
open Bios (ascii PayloadSumMode)

/-- `Header`. -/
def header : List UInt8 := ascii "alpine-zfsboot payload-sum 1"

/-- `MaxBytes`. -/
def maxBytes : Nat := 512

/-- `Entry`: the size of a file, where its loaded part starts, and the hash of that part. -/
structure Entry where
  size : Nat
  offset : Nat
  sha256 : Sha256.Digest
  deriving DecidableEq

/-- `Manifest`. -/
structure Manifest where
  kernel : Entry
  initrd : Entry
  mode : PayloadSumMode
  deriving DecidableEq

/-- `ModeOff`, `ModeWarn` and `ModeEnforce`. -/
def modeText : PayloadSumMode → List UInt8
  | .off => ascii "off"
  | .warn => ascii "warn"
  | .enforce => ascii "enforce"

/-- `ValidMode`, with the mode that the text names. -/
def validMode (m : List UInt8) : Option PayloadSumMode :=
  if m = modeText .off then some .off
  else if m = modeText .warn then some .warn
  else if m = modeText .enforce then some .enforce
  else none

/-- The errors of the package. -/
inductive SumError where
  | notBzImage
  | kernelTooSmall (size offset : Nat)
  | sizeField (size : Nat)
  | invalidMode (mode : List UInt8)
  | tooLong (size : Nat)
  | noNewline
  | firstLine (line : List UInt8)
  | listedTwice (name : List UInt8)
  | malformed (name line : List UInt8)
  | notBothListed
  | blkSizeField
  | sizeDiffers (name : List UInt8) (got recorded : Nat)
  | offsetDiffers (name : List UInt8) (got recorded : Nat)
  | digestDiffers (name : List UInt8) (offset : Nat) (got recorded : Sha256.Digest)
  deriving DecidableEq

/-! ### Making a manifest -/

/-- The size of the real-mode part of a bzImage: `setup_sects`, or 4 when it is 0, and one more. -/
def realModeBytes (kernel : List UInt8) : Nat :=
  ((if byteAt kernel 0x1f1 = 0 then 4 else byteAt kernel 0x1f1) + 1) * 512

/-- `KernelRAMOffset`. -/
def kernelRamOffset (kernel : List UInt8) : Except SumError Nat :=
  if kernel.length < 0x202 + 4 ∨ le16 kernel 0x1fe ≠ 0xAA55
      ∨ (kernel.drop 0x202).take 4 ≠ ascii "HdrS" then
    .error .notBzImage
  else if realModeBytes kernel ≥ kernel.length then
    .error (.kernelTooSmall kernel.length (realModeBytes kernel))
  else .ok (realModeBytes kernel)

/-- `entryFor`. -/
def entryFor (data : List UInt8) (offset : Nat) : Except SumError Entry :=
  if data.length > 0xffffffff then .error (.sizeField data.length)
  else .ok ⟨data.length, offset, Sha256.digest (data.drop offset)⟩

/-- `New`. -/
def new (kernel initrd mode : List UInt8) : Except SumError Manifest := do
  match validMode mode with
  | none => .error (.invalidMode mode)
  | some m =>
    let off ← kernelRamOffset kernel
    let k ← entryFor kernel off
    let i ← entryFor initrd 0
    return ⟨k, i, m⟩

/-- The name of the kernel in a manifest. -/
def kernelName : List UInt8 := ascii "KERNEL"

/-- The name of the initrd in a manifest. -/
def initrdName : List UInt8 := ascii "INITRD"

/-- One file's line, without its newline. -/
def entryLine (name : List UInt8) (e : Entry) : List UInt8 :=
  [0x20].intercalate [name, decimal e.size, decimal e.offset, hexEncode e.sha256.toList]

/-- The lines of a manifest. -/
def manifestLines (m : Manifest) : List (List UInt8) :=
  [header, [0x20].intercalate [ascii "MODE", modeText m.mode], entryLine kernelName m.kernel,
    entryLine initrdName m.initrd]

/-- `Encode`: every line ends in a newline. -/
def encode (m : Manifest) : List UInt8 := (manifestLines m).flatMap (· ++ [0x0A])

/-- `Generate`. -/
def generate (kernel initrd mode : List UInt8) : Except SumError (List UInt8) := do
  let m ← new kernel initrd mode
  return encode m

/-! ### Reading a manifest -/

/-- `parseDec`. -/
def parseDec (s : List UInt8) : Option Nat :=
  if s = [] ∨ s.length > 10 ∨ s.all isDigit = false then none
  else if ofDecimal s < 2 ^ 32 then some (ofDecimal s)
  else none

/-- `strings.ToLower` on ASCII. -/
def lower (c : UInt8) : UInt8 := if 0x41 ≤ c ∧ c ≤ 0x5A then c + 0x20 else c

/-- The 32 bytes of a digest. -/
def digestOf (bs : List UInt8) : Option Sha256.Digest :=
  if h : bs.length = 32 then some ⟨bs.toArray, by simpa using h⟩ else none

/-- The fields of a `KERNEL` or `INITRD` line. -/
def parseEntry : List (List UInt8) → Option Entry
  | [_, size, offset, sum] => do
      let size ← parseDec size
      let off ← parseDec offset
      let bytes ← hexDecode sum
      let sha256 ← digestOf bytes
      if sum.map lower ≠ sum ∨ off > size then none else some ⟨size, off, sha256⟩
  | _ => none

/-- The locals of `Decode`: an entry that was not seen is `none`. -/
structure Partial where
  kernel : Option Entry
  initrd : Option Entry
  mode : PayloadSumMode

/-- `Decode` on one line after the first. -/
def decodeLine (m : Partial) (line : List UInt8) : Except SumError Partial :=
  let f := line.splitOn 0x20
  let name := f.headD []
  if name = ascii "MODE" then
    match f with
    | [_, text] => .ok { m with mode := (validMode text).getD .warn }
    | _ => .ok { m with mode := .warn }
  else if name = kernelName then
    if m.kernel.isSome then .error (.listedTwice name)
    else
      match parseEntry f with
      | some e => .ok { m with kernel := some e }
      | none => .error (.malformed name line)
  else if name = initrdName then
    if m.initrd.isSome then .error (.listedTwice name)
    else
      match parseEntry f with
      | some e => .ok { m with initrd := some e }
      | none => .error (.malformed name line)
  else .ok m

/-- `Decode`. -/
def decode (raw : List UInt8) : Except SumError Manifest := do
  if raw.length > maxBytes then .error (.tooLong raw.length)
  else if raw.getLast? ≠ some 0x0A then .error .noNewline
  else
    match raw.dropLast.splitOn 0x0A with
    | [] => .error .noNewline -- a split has at least one part
    | first :: lines =>
      if first ≠ header then .error (.firstLine first)
      else
        match ← lines.foldlM decodeLine ⟨none, none, .warn⟩ with
        | ⟨some kernel, some initrd, mode⟩ => return ⟨kernel, initrd, mode⟩
        | _ => .error .notBothListed

/-- `Verify` on one file. -/
def verifyEntry (name : List UInt8) (want : Entry) (data : List UInt8) (offset : Nat) :
    List SumError :=
  if data.length ≠ want.size then [.sizeDiffers name data.length want.size]
  else if offset ≠ want.offset then [.offsetDiffers name offset want.offset]
  else
    let got := Sha256.digest (data.drop offset)
    if got ≠ want.sha256 then [.digestDiffers name offset got want.sha256] else []

/-- `Verify`: one error for each mismatch. -/
def verify (m : Manifest) (kernel initrd : List UInt8) : List SumError :=
  match kernelRamOffset kernel with
  | .error err => [err]
  | .ok off => verifyEntry kernelName m.kernel kernel off ++ verifyEntry initrdName m.initrd initrd 0

/-! ### BLKSUM -/

/-- `BlockSize`. -/
def blockSize : Nat := 65536

/-- `EntriesPerSect`. -/
def entriesPerSect : Nat := 15

/-- `blkHashedPrefix`. -/
def blkHashedPrefix : Nat := 480

/-- `chainEntries` from block `i` on, with `n` blocks left and the chaining words before them. -/
def chainFrom (p : List UInt8) (h : Sha256.State) (i : Nat) : Nat → List Sha256.Digest
  | 0 => []
  | 1 => [Sha256.digest p]
  | n + 2 =>
    let h := Sha256.absorb h ((p.drop (i * blockSize)).take blockSize)
    Sha256.toBytes h :: chainFrom p h (i + 1) (n + 1)

/-- `chainEntries`. -/
def chainEntries (p : List UInt8) : List Sha256.Digest :=
  chainFrom p Sha256.initial 0 ((p.length + blockSize - 1) / blockSize)

/-- `sectorsFor`. -/
def sectorsFor (entries : Nat) : Nat := (entries + entriesPerSect - 1) / entriesPerSect

/-- A sector: what it holds, zeros up to the hash, and the hash. -/
def blkSector (content : List UInt8) : List UInt8 :=
  let body := content ++ List.replicate (blkHashedPrefix - content.length) 0
  body ++ (Sha256.digest body).toList

/-- The sectors of a table. -/
def tableSectors (entries : List Sha256.Digest) : List UInt8 :=
  blocks (fun s => blkSector
    (((entries.drop (s * entriesPerSect)).take entriesPerSect).flatMap (·.toList)))
    (sectorsFor entries.length)

/-- One file's descriptor in the header. -/
def blkDescriptor (size offset blocks first : Nat) : List UInt8 :=
  le32Bytes size ++ le32Bytes offset ++ le32Bytes blocks ++ le32Bytes first

/-- `GenerateBlkSum`. -/
def generateBlkSum (kernel initrd : List UInt8) : Except SumError (List UInt8) := do
  let koff ← kernelRamOffset kernel
  if kernel.length > 0xffffffff ∨ initrd.length > 0xffffffff then .error .blkSizeField
  else
    let ke := chainEntries (kernel.drop koff)
    let ie := chainEntries initrd
    let head := ascii "AZBLKSUM" ++ le32Bytes 1 ++ le32Bytes blockSize ++ le32Bytes entriesPerSect
      ++ blkDescriptor kernel.length koff ke.length 1
      ++ blkDescriptor initrd.length 0 ie.length (1 + sectorsFor ke.length)
      ++ (Sha256.digest (kernel.drop koff)).toList ++ (Sha256.digest initrd).toList
    return blkSector head ++ tableSectors ke ++ tableSectors ie

end ZfsBoot.Tool.PayloadSum
