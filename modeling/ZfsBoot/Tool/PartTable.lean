import ZfsBoot.Bios.PartTable

/-!
# `ZfsBoot.Tool.PartTable`: the tool's reader of partition tables

The model of `internal/parttable`. A disk is what `os.File.ReadAt` sees of it: a size below
`2 ^ 63`, and a byte at every position. Offsets are `int64`: the product of an LBA and the sector
size wraps, and the upper half of the 64-bit range is negative.

The package reads GPT and MBR; the errors carry what their messages print.
-/

set_option autoImplicit false

namespace ZfsBoot.Tool

open Lib

/-! ### Files -/

/-- A disk, or an image of one. -/
structure DiskImage where
  size : Nat
  size_lt : size < 2 ^ 63
  byte : Nat → UInt8

/-- `n` bytes from position `off` on. -/
def DiskImage.bytes (img : DiskImage) (off n : Nat) : List UInt8 :=
  (List.range n).map fun i => img.byte (off + i)

/-- The errors of `ReadAt`. -/
inductive ReadError where
  | eof
  | negativeOffset
  deriving DecidableEq, Repr

/-- `f.ReadAt` with a buffer of `n` bytes: all of them, or an error. `off` is the offset modulo
`2 ^ 64`. -/
def DiskImage.readAt (img : DiskImage) (off n : Nat) : Except ReadError (List UInt8) :=
  if 2 ^ 63 ≤ off then .error .negativeOffset
  else if off + n ≤ img.size then .ok (img.bytes off n)
  else .error .eof

/-- `sectorSize`. -/
def sectorSize : Nat := 512

/-! ### Errors -/

/-- The errors of the package. -/
inductive PartError where
  | readHeader (err : ReadError)
  | noGptSignature
  | headerSize (got : Nat)
  | headerCrc (stored got : Nat)
  | entrySize (got : Nat)
  | noEntries
  | readArray (lba : Nat) (err : ReadError)
  | readMbr (err : ReadError)
  | noBootSignature
  | fatBootSector
  deriving DecidableEq, Repr

/-! ### GPT -/

/-- `gptSignature`: "EFI PART". -/
def gptSignature : List UInt8 := [0x45, 0x46, 0x49, 0x20, 0x50, 0x41, 0x52, 0x54]

/-- `gptHeaderSize`. -/
def gptHeaderSize : Nat := 92

/-- The fields of `GPTHeader` that the tool reads. -/
structure GptHeader where
  headerSize : Nat
  headerCrc32 : Nat
  partitionEntryLba : Nat
  numPartitionEntries : Nat
  partitionEntrySize : Nat

/-- `binary.Read` into a `GPTHeader`. -/
def decodeGptHeader (raw : List UInt8) : GptHeader where
  headerSize := le32 raw 12
  headerCrc32 := le32 raw 16
  partitionEntryLba := le64 raw 72
  numPartitionEntries := le32 raw 80
  partitionEntrySize := le32 raw 84

/-- `crc32ISO`: `crc32.ChecksumIEEE`, the polynomial of the loader's own `crc32`. -/
def crc32Iso (data : List UInt8) : Nat := (Bios.crc32 data).toNat

/-- `ReadGPTHeader`, from the sector on. -/
def checkGptHeader (sector : List UInt8) : Except PartError GptHeader :=
  let raw := sector.take gptHeaderSize
  let hdr := decodeGptHeader raw
  -- the checksum is over the header with its own field zeroed
  let crc := crc32Iso (raw.take 16 ++ [0, 0, 0, 0] ++ raw.drop 20)
  if sector.take 8 ≠ gptSignature then .error .noGptSignature
  else if hdr.headerSize ≠ gptHeaderSize then .error (.headerSize hdr.headerSize)
  else if crc ≠ hdr.headerCrc32 then .error (.headerCrc hdr.headerCrc32 crc)
  else .ok hdr

/-- `ReadGPTHeader`. -/
def readGptHeader (img : DiskImage) : Except PartError GptHeader :=
  match img.readAt sectorSize sectorSize with
  | .error err => .error (.readHeader err)
  | .ok sector => checkGptHeader sector

/-- The fields of `GPTPartitionEntry` that the tool reads. -/
structure GptPartitionEntry where
  typeGuid : List UInt8
  startLba : Nat
  endLba : Nat
  name : List Nat

/-- `binary.Read` into a `GPTPartitionEntry`. -/
def decodeGptEntry (raw : List UInt8) : GptPartitionEntry where
  typeGuid := raw.take 16
  startLba := le64 raw 32
  endLba := le64 raw 40
  name := (List.range 36).map fun i => le16 raw (56 + 2 * i)

/-- `isZeroGUID`. -/
def isZeroGuid (g : List UInt8) : Bool := g.all (· = 0)

/-- The locals of `GPTPartitions` that change. -/
structure GptScan where
  entryIndex : Nat
  out : List GptPartitionEntry

/-- `sectorSize / hdr.PartitionEntrySize`. -/
def GptHeader.entriesPerSector (hdr : GptHeader) : Nat := sectorSize / hdr.partitionEntrySize

/-- `totalSectors`: a 32-bit sum. -/
def GptHeader.totalSectors (hdr : GptHeader) : Nat :=
  u32 (hdr.numPartitionEntries + hdr.entriesPerSector - 1) / hdr.entriesPerSector

/-- The inner loop of `GPTPartitions`, with `left` slots of the sector to go. -/
def slotLoop (hdr : GptHeader) (sector : List UInt8) : (left i : Nat) → GptScan → GptScan
  | 0, _, st => st
  | left + 1, i, st =>
    if st.entryIndex < hdr.numPartitionEntries then
      let e := decodeGptEntry ((sector.drop (i * hdr.partitionEntrySize)).take 128)
      slotLoop hdr sector left (i + 1)
        ⟨st.entryIndex + 1, if isZeroGuid e.typeGuid then st.out else st.out ++ [e]⟩
    else st

/-- The read of sector `s` of the partition array: `int64(lba)*sectorSize` wraps. -/
def readArraySector (img : DiskImage) (hdr : GptHeader) (s : Nat) :
    Except ReadError (List UInt8) :=
  img.readAt (u64 (u64 (hdr.partitionEntryLba + s) * sectorSize)) sectorSize

/-- The outer loop of `GPTPartitions`, with `left` sectors of the array to go. -/
def arrayLoop (img : DiskImage) (hdr : GptHeader) :
    (left s : Nat) → GptScan → Except PartError GptScan
  | 0, _, st => .ok st
  | left + 1, s, st =>
    match readArraySector img hdr s with
    | .error err => .error (.readArray (u64 (hdr.partitionEntryLba + s)) err)
    | .ok sector => arrayLoop img hdr left (s + 1) (slotLoop hdr sector hdr.entriesPerSector 0 st)

/-- `GPTPartitions`. -/
def gptPartitions (img : DiskImage) (hdr : GptHeader) : Except PartError (List GptPartitionEntry) :=
  if hdr.partitionEntrySize < 128 ∨ hdr.partitionEntrySize > sectorSize then
    .error (.entrySize hdr.partitionEntrySize)
  else if hdr.numPartitionEntries = 0 then .error .noEntries
  else (arrayLoop img hdr hdr.totalSectors 0 ⟨0, []⟩).map GptScan.out

/-! ### MBR -/

/-- `MBRPartitionEntry`, as far as the tool reads it. -/
structure MbrPartitionEntry where
  type : Nat
  startLba : Nat
  sectorCount : Nat
  deriving DecidableEq, Repr

/-- Primary entry `i` of a boot sector. -/
def decodeMbrEntry (sector : List UInt8) (i : Nat) : MbrPartitionEntry where
  type := byteAt sector (446 + i * 16 + 4)
  startLba := le32 sector (446 + i * 16 + 8)
  sectorCount := le32 sector (446 + i * 16 + 12)

/-- `looksLikeFATBootSector`. -/
def looksLikeFatBootSector (sector : List UInt8) : Bool :=
  let sectorsPerCluster := byteAt sector 13
  (byteAt sector 0 = 0xEB ∨ byteAt sector 0 = 0xE9) ∧ le16 sector 11 = sectorSize ∧
    sectorsPerCluster ≠ 0 ∧ sectorsPerCluster &&& (sectorsPerCluster - 1) = 0

/-- `mbrMaxPartitions`. -/
def mbrMaxPartitions : Nat := 4

/-- `MBRPartitions`. -/
def mbrPartitions (img : DiskImage) : Except PartError (List MbrPartitionEntry) :=
  match img.readAt 0 sectorSize with
  | .error err => .error (.readMbr err)
  | .ok sector =>
    if byteAt sector 510 ≠ 0x55 ∨ byteAt sector 511 ≠ 0xAA then .error .noBootSignature
    else if looksLikeFatBootSector sector then .error .fatBootSector
    else
      .ok (((List.range mbrMaxPartitions).map (decodeMbrEntry sector)).filter (·.sectorCount ≠ 0))

end ZfsBoot.Tool
