import Mathlib.Logic.Function.Iterate
import ZfsBoot.Bios.Disk

/-!
# `ZfsBoot.Bios.PartTable`: finding the FAT partition

The model of `bios/gpt.c` and `bios/mbr.c`. Both read single sectors into a buffer on the stack,
so all they change is the disk behind the driver.
-/

set_option autoImplicit false

namespace ZfsBoot.Bios

open Lib

/-! ### GPT -/

/-- One bit of `crc32`. -/
def crcBit (crc : UInt32) : UInt32 :=
  if crc &&& 1 ≠ 0 then (crc >>> 1) ^^^ 0xEDB88320 else crc >>> 1

/-- `crc32`: the polynomial of ISO 3309, bit by bit. -/
def crc32 (data : List UInt8) : UInt32 :=
  ~~~ data.foldl (fun crc b => crcBit^[8] (crc ^^^ b.toUInt32)) 0xFFFFFFFF

/-- The fields of `struct gpt_header` that the loader reads. -/
structure GptHeader where
  headerSize : Nat
  headerCrc32 : Nat
  partitionEntryLba : Nat
  numPartitionEntries : Nat
  partitionEntrySize : Nat
  deriving DecidableEq

def gptHeader (sector : List UInt8) : GptHeader where
  headerSize := le32 sector 12
  headerCrc32 := le32 sector 16
  partitionEntryLba := le64 sector 72
  numPartitionEntries := le32 sector 80
  partitionEntrySize := le32 sector 84

/-- `GPT_SIGNATURE`: "EFI PART". -/
def gptSignature : List UInt8 := [0x45, 0x46, 0x49, 0x20, 0x50, 0x41, 0x52, 0x54]

/-- `sizeof(struct gpt_header)`. -/
def gptHeaderSize : Nat := 92

/-- What `gpt_read_header` returns: 0 and the header, `GPT_ERR_NO_SIGNATURE` or -1. -/
inductive GptRead where
  | ok (hdr : GptHeader)
  | noSignature
  | invalid
  deriving DecidableEq

/-- `gpt_read_header` from the sector on. The checksum is over the header with its own field
zeroed. -/
def gptCheckHeader (sector : List UInt8) : GptRead :=
  let work := sector.take gptHeaderSize
  let hdr := gptHeader work
  if work.take 8 ≠ gptSignature then .noSignature
  else if hdr.headerSize ≠ gptHeaderSize then .invalid
  else if (crc32 (work.take 16 ++ [0, 0, 0, 0] ++ work.drop 20)).toNat ≠ hdr.headerCrc32 then
    .invalid
  else .ok hdr

/-- One partition entry: its type, and where it starts and ends (inclusive). -/
structure GptEntry where
  typeGuid : List UInt8
  startingLba : Nat
  endingLba : Nat
  deriving DecidableEq

/-- The entry at byte `at_` of a sector. -/
def gptEntry (sector : List UInt8) (at_ : Nat) : GptEntry where
  typeGuid := (sector.drop at_).take 16
  startingLba := le64 sector (at_ + 32)
  endingLba := le64 sector (at_ + 40)

/-- `*start_lba` and `*sector_count` of an entry. -/
def GptEntry.extent (e : GptEntry) : Nat × Nat :=
  (e.startingLba, u64 (e.endingLba + 2 ^ 64 - e.startingLba + 1))

section

variable {δ : Type} (bk : Backend δ)

/-- `gpt_read_header`. -/
def gptReadHeader (d : δ) : GptRead × δ :=
  let r := bk.read d 1 1
  (if r.1.ok then gptCheckHeader r.1.data else .invalid, r.2)

/-- The first of `count` entries of a sector with the wanted type. -/
def gptFindInSector (sector typeGuid : List UInt8) (size count : Nat) : Option GptEntry :=
  ((List.range count).map fun i => gptEntry sector (i * size)).find? (·.typeGuid = typeGuid)

/-- The scan of `gpt_find_partition` over the sectors that are left, with `left` entries to
go. -/
def gptScan (hdr : GptHeader) (typeGuid : List UInt8) (perSector : Nat) :
    (sectors sectorIndex left : Nat) → δ → Option GptEntry × δ
  | 0, _, _, d => (none, d)
  | sectors + 1, sectorIndex, left, d =>
    let r := bk.read d (u64 (hdr.partitionEntryLba + sectorIndex)) 1
    if r.1.ok then
      let count := min perSector left
      match gptFindInSector r.1.data typeGuid hdr.partitionEntrySize count with
      | some e => (some e, r.2)
      | none => gptScan hdr typeGuid perSector sectors (sectorIndex + 1) (left - count) r.2
    else (none, r.2)

/-- `gpt_find_partition`: the partition's start and size. -/
def gptFindPartition (hdr : GptHeader) (typeGuid : List UInt8) (d : δ) :
    Option (Nat × Nat) × δ :=
  if hdr.partitionEntrySize < 48 ∨ hdr.partitionEntrySize > diskSectorSize then (none, d)
  else if hdr.numPartitionEntries = 0 then (none, d)
  else
    let perSector := diskSectorSize / hdr.partitionEntrySize
    -- a 32-bit sum
    let sectors := u32 (hdr.numPartitionEntries + perSector - 1) / perSector
    let r := gptScan bk hdr typeGuid perSector sectors 0 hdr.numPartitionEntries d
    (r.1.map GptEntry.extent, r.2)

/-- `ZFSBOOT_ESP_TYPE_GUID_BYTES`. -/
def espTypeGuid : List UInt8 :=
  [0x28, 0x73, 0x2A, 0xC1, 0x1F, 0xF8, 0xD2, 0x11, 0xBA, 0x4B, 0x00, 0xA0, 0xC9, 0x3E, 0xC9, 0x3B]

/-! ### MBR -/

/-- The fields of `struct mbr_partition_entry` that the loader reads. -/
structure MbrEntry where
  type : Nat
  startLba : Nat
  sectorCount : Nat

/-- Primary entry `i` of a boot sector. -/
def mbrEntry (sector : List UInt8) (i : Nat) : MbrEntry where
  type := byteAt sector (446 + 16 * i + 4)
  startLba := le32 sector (446 + 16 * i + 8)
  sectorCount := le32 sector (446 + 16 * i + 12)

/-- `ZFSBOOT_FAT_MBR_TYPE`. -/
def fatMbrType : Nat := 0x2E

/-- `mbr_find_partition`. -/
def mbrFindPartition (type : Nat) (d : δ) : Option (Nat × Nat) × δ :=
  let r := bk.read d 0 1
  if ¬ r.1.ok then (none, r.2)
  else if byteAt r.1.data 510 ≠ 0x55 ∨ byteAt r.1.data 511 ≠ 0xAA then (none, r.2)
  else
    let entries := (List.range 4).map (mbrEntry r.1.data)
    let e := entries.find? fun e => e.type = type ∧ e.sectorCount ≠ 0
    (e.map fun e => (e.startLba, e.sectorCount), r.2)

end

end ZfsBoot.Bios
