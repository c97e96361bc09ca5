import Mathlib.Data.Set.Lattice
import Mathlib.Order.CompletePartialOrder
import Mathlib.Order.Interval.Set.Basic
import ZfsBoot.Proofs.Tool.PartTable

/-!
# `ZfsBoot.Proofs.Tool.Extent`: what `CheckStage2ExtentFree` guarantees

`GptSafe` and `MbrSafe` say that writing the place of stage2 leaves the table and every partition
alone. They speak of the entries as the disk stores them, one after another from the array's
first byte on, and not of what the reader made of them.

On an MBR disk the check gives `MbrSafe`. On a GPT disk it gives `GptSafe` exactly for the layouts
that `ReadInFull` describes. There are two others. With nearly `2 ^ 32` entries the number of
sectors wraps to 0 and no entry is read. With an entry size that does not divide the sector the
reader starts every sector with a new entry, while the stored entries run on.
-/

set_option autoImplicit false

namespace ZfsBoot.Proofs.Tool

open List
open Lib ZfsBoot.Tool

variable {i : Nat} {img : DiskImage} {hdr : GptHeader}

/-! ### Safety -/

/-- A partition from `start` to `last` is the place of stage2, or apart from it. -/
def Clear (start last : Nat) : Prop :=
  (start = stage2Lba ∧ last = stage2End) ∨
    Disjoint (Set.Icc start last) (Set.Icc stage2Lba stage2End)

theorem clear_of_not_conflicts {start last : Nat} (h : conflicts start last = false) :
    Clear start last := by
  rw [conflicts, decide_eq_false_iff_not] at h
  by_cases hexact : start = stage2Lba ∧ last = stage2End
  · exact .inl hexact
  · refine .inr (Set.disjoint_left.mpr fun x hx hx' => h ⟨hexact, ?_⟩)
    rw [lbaRangesOverlap, decide_eq_true_eq]
    exact ⟨Nat.le_trans hx'.1 hx.2, Nat.le_trans hx.1 hx'.2⟩

/-- The first byte of entry `i`, as the disk stores it. -/
def entryOffset (hdr : GptHeader) (i : Nat) : Nat :=
  hdr.partitionEntryLba * sectorSize + i * hdr.partitionEntrySize

def storedEntry (img : DiskImage) (hdr : GptHeader) (i : Nat) : GptPartitionEntry :=
  decodeGptEntry (img.bytes (entryOffset hdr i) 128)

/-- Writing the place of stage2 damages no partition of the disk and no part of the array. -/
structure GptSafe (img : DiskImage) (hdr : GptHeader) : Prop where
  entries : ∀ i, i < hdr.numPartitionEntries → entryOffset hdr i + 128 ≤ img.size →
    isZeroGuid (storedEntry img hdr i).typeGuid = false →
    (storedEntry img hdr i).startLba ≤ (storedEntry img hdr i).endLba →
    Clear (storedEntry img hdr i).startLba (storedEntry img hdr i).endLba
  array : Disjoint (Set.Ico (entryOffset hdr 0) (entryOffset hdr hdr.numPartitionEntries))
    (Set.Ico (stage2Lba * sectorSize) ((stage2End + 1) * sectorSize))

/-- The four primary partitions of an MBR disk. -/
def MbrSafe (img : DiskImage) : Prop :=
  ∀ i, i < 4 →
    let e := decodeMbrEntry (img.bytes 0 sectorSize) i
    e.type ≠ 0 → e.sectorCount ≠ 0 → Clear e.startLba (e.startLba + e.sectorCount - 1)

/-! ### MBR -/

theorem mem_mbrPartitions {out : List MbrPartitionEntry} (h : mbrPartitions img = .ok out)
    (hi : i < 4) (hcount : (decodeMbrEntry (img.bytes 0 sectorSize) i).sectorCount ≠ 0) :
    decodeMbrEntry (img.bytes 0 sectorSize) i ∈ out := by
  unfold mbrPartitions at h
  split at h
  · cases h
  · rename_i sector hread
    rw [← eq_bytes_of_readAt hread] at hcount ⊢
    split_ifs at h
    cases h
    refine mem_filter.mpr ⟨mem_map_of_mem (mem_range.mpr hi), ?_⟩
    exact decide_eq_true hcount

theorem mbrEntry_endLba (sector : List UInt8) (i : Nat) :
    (decodeMbrEntry sector i).endLba
      = (decodeMbrEntry sector i).startLba + (decodeMbrEntry sector i).sectorCount - 1 := by
  have hstart : (decodeMbrEntry sector i).startLba < 2 ^ 32 := le32_lt _ _
  have hcount : (decodeMbrEntry sector i).sectorCount < 2 ^ 32 := le32_lt _ _
  rw [MbrPartitionEntry.endLba, u64_of_lt (by omega)]

theorem mbrSafe_of_check (hhdr : readGptHeader img = .error .noGptSignature)
    (h : checkStage2ExtentFree img = .ok ()) : MbrSafe img := by
  rw [checkStage2ExtentFree, hhdr] at h
  dsimp only at h
  split at h
  · cases h
  · rename_i entries hparts
    split at h
    · cases h
    · rename_i hfind
      rw [List.find?_eq_none] at hfind
      intro i hi e _ hcount
      have := hfind e (mem_mbrPartitions hparts hi hcount)
      rw [mbrEntry_endLba] at this
      exact clear_of_not_conflicts (Bool.eq_false_iff.mpr this)

/-! ### GPT: the layouts that are read in full -/

/-- The header's fields fit their types. -/
structure Bounded (hdr : GptHeader) : Prop where
  lba : hdr.partitionEntryLba < 2 ^ 64
  entries : hdr.numPartitionEntries < 2 ^ 32

theorem bounded_of_readGptHeader (h : readGptHeader img = .ok hdr) : Bounded hdr := by
  rw [readGptHeader] at h
  split at h
  · cases h
  · rw [checkGptHeader] at h
    split_ifs at h
    cases h
    exact ⟨le64_lt _ _, le32_lt _ _⟩

/-- Every entry is read from where it is stored, or the header is refused. -/
def ReadInFull (n size : Nat) : Prop :=
  size < 128 ∨ sectorSize < size ∨ n = 0 ∨
    (n + sectorSize / size - 1 < 2 ^ 32 ∧ (size ∣ sectorSize ∨ n ≤ sectorSize / size))

/-- What a passed check has established on a GPT disk. -/
structure GptPassed (img : DiskImage) (hdr : GptHeader) : Prop where
  supported : Supported hdr
  array : ¬ (0 < hdr.arraySectors ∧
    lbaRangesOverlap stage2Lba stage2End hdr.partitionEntryLba hdr.arrayEnd = true)
  reads : ∀ s, s < hdr.totalSectors → ∃ sector, readArraySector img hdr s = .ok sector
  clear : ∀ e, Found img hdr 0 (hdr.totalSectors * hdr.entriesPerSector) e →
    conflicts e.startLba e.endLba = false

theorem checkGptExtentFree_ok_iff :
    checkGptExtentFree img hdr = .ok () ↔ GptPassed img hdr := by
  rw [checkGptExtentFree]
  constructor
  · intro h
    split at h
    · cases h
    split at h
    · cases h
    rename_i harray
    split at h
    · cases h
    rename_i entries hparts
    split at h
    · cases h
    rename_i hfind
    rw [List.find?_eq_none] at hfind
    obtain ⟨hsup, hreads, hmem⟩ := gptPartitions_ok hparts
    exact ⟨hsup, harray, hreads, fun e he => Bool.eq_false_iff.mpr (hfind e ((hmem e).mpr he))⟩
  · intro h
    have hsize := h.supported.size_ge
    obtain ⟨out, hout⟩ := gptPartitions_of_readable h.supported h.reads
    obtain ⟨-, -, hmem⟩ := gptPartitions_ok hout
    have hfind : (out.find? fun e => conflicts e.startLba e.endLba) = none :=
      List.find?_eq_none.mpr fun e he => Bool.eq_false_iff.mp (h.clear e ((hmem e).mp he))
    rw [if_neg (by omega), if_neg h.array, hout]
    dsimp only
    rw [hfind]

/-! ### The array -/

/-- The sectors that the check allows for the array hold all of it. -/
theorem Supported.entries_le (h : Supported hdr) :
    hdr.numPartitionEntries ≤ hdr.arraySectors * hdr.entriesPerSector := by
  have hpos := h.entriesPerSector_pos
  rw [GptHeader.arraySectors, Nat.max_eq_right hpos]
  have hmod := Nat.mod_lt (hdr.numPartitionEntries + hdr.entriesPerSector - 1) hpos
  have hdiv := Nat.div_add_mod (hdr.numPartitionEntries + hdr.entriesPerSector - 1)
    hdr.entriesPerSector
  rw [Nat.mul_comm] at hdiv
  omega

theorem Supported.array_le (h : Supported hdr) :
    hdr.numPartitionEntries * hdr.partitionEntrySize ≤ hdr.arraySectors * sectorSize :=
  calc hdr.numPartitionEntries * hdr.partitionEntrySize
      ≤ hdr.arraySectors * hdr.entriesPerSector * hdr.partitionEntrySize :=
        Nat.mul_le_mul_right _ h.entries_le
    _ = hdr.arraySectors * (hdr.entriesPerSector * hdr.partitionEntrySize) := Nat.mul_assoc _ _ _
    _ ≤ hdr.arraySectors * sectorSize := Nat.mul_le_mul_left _ h.entriesPerSector_mul_le

theorem arraySectors_lt (h : Supported hdr) (hb : Bounded hdr) : hdr.arraySectors < 2 ^ 33 := by
  have hpos := h.entriesPerSector_pos
  have hle := h.entriesPerSector_le
  have hn := hb.entries
  rw [GptHeader.arraySectors, Nat.max_eq_right hpos]
  exact Nat.lt_of_le_of_lt (Nat.div_le_self _ _) (by omega)

/-- The array is apart from stage2, also where its last sector wraps. -/
theorem GptPassed.array_disjoint (h : GptPassed img hdr) (hb : Bounded hdr) :
    Disjoint (Set.Ico (entryOffset hdr 0) (entryOffset hdr hdr.numPartitionEntries))
      (Set.Ico (stage2Lba * sectorSize) ((stage2End + 1) * sectorSize)) := by
  have hle := h.supported.array_le
  have hlt := arraySectors_lt h.supported hb
  have hpassed := h.array
  have hlast : stage2End = 97 := rfl
  have hsector : sectorSize = 512 := rfl
  rw [lbaRangesOverlap, decide_eq_true_eq, GptHeader.arrayEnd, u64] at hpassed
  refine Set.disjoint_left.mpr fun x hx hx' => ?_
  rw [Set.mem_Ico, entryOffset, entryOffset, hsector] at hx
  rw [Set.mem_Ico, hsector] at hx'
  rw [hsector] at hle
  omega

/-! ### The entries -/

/-- Where the reader takes entry `i` from. -/
def readOffset (hdr : GptHeader) (i : Nat) : Nat :=
  (hdr.partitionEntryLba + i / hdr.entriesPerSector) * sectorSize
    + i % hdr.entriesPerSector * hdr.partitionEntrySize

theorem slot_inside (h : Supported hdr) (i : Nat) :
    i % hdr.entriesPerSector * hdr.partitionEntrySize + 128 ≤ sectorSize := by
  have hslot := Nat.mod_lt i h.entriesPerSector_pos
  have hsize := h.size_ge
  calc i % hdr.entriesPerSector * hdr.partitionEntrySize + 128
      ≤ i % hdr.entriesPerSector * hdr.partitionEntrySize + hdr.partitionEntrySize := by omega
    _ = (i % hdr.entriesPerSector + 1) * hdr.partitionEntrySize := (Nat.add_one_mul _ _).symm
    _ ≤ hdr.entriesPerSector * hdr.partitionEntrySize := Nat.mul_le_mul_right _ hslot
    _ ≤ sectorSize := h.entriesPerSector_mul_le

/-- An entry whose sector has an offset that does not wrap. -/
theorem readsAs_iff (h : Supported hdr)
    (hoff : (hdr.partitionEntryLba + i / hdr.entriesPerSector) * sectorSize < 2 ^ 63)
    (hread : ∃ sector, readArraySector img hdr (i / hdr.entriesPerSector) = .ok sector)
    {e : GptPartitionEntry} :
    ReadsAs img hdr i e ↔ e = decodeGptEntry (img.bytes (readOffset hdr i) 128) := by
  have hsector : sectorSize = 512 := rfl
  have hoffset : u64 (u64 (hdr.partitionEntryLba + i / hdr.entriesPerSector) * sectorSize)
      = (hdr.partitionEntryLba + i / hdr.entriesPerSector) * sectorSize := by
    rw [hsector] at hoff ⊢
    rw [u64_of_lt (n := hdr.partitionEntryLba + i / hdr.entriesPerSector) (by omega),
      u64_of_lt (by omega)]
  obtain ⟨sector, hsec⟩ := hread
  have hbytes := eq_bytes_of_readAt hsec
  rw [hoffset] at hbytes
  have hslot : slotEntry hdr sector (i % hdr.entriesPerSector)
      = decodeGptEntry (img.bytes (readOffset hdr i) 128) := by
    rw [slotEntry, hbytes, take_drop_bytes _ _ (slot_inside h i), readOffset]
  constructor
  · rintro ⟨sector', hsec', he⟩
    rw [hsec] at hsec'
    cases hsec'
    rw [he, hslot]
  · intro he
    exact ⟨sector, hsec, by rw [he, hslot]⟩

theorem readOffset_eq (h : Supported hdr)
    (hfull : hdr.partitionEntrySize ∣ sectorSize ∨ hdr.numPartitionEntries ≤ hdr.entriesPerSector)
    (hi : i < hdr.numPartitionEntries) : readOffset hdr i = entryOffset hdr i := by
  rw [readOffset, entryOffset]
  rcases hfull with hdvd | hfew
  · -- sectors are filled without a gap
    have hgap : hdr.entriesPerSector * hdr.partitionEntrySize = sectorSize := Nat.div_mul_cancel hdvd
    have hsplit : (hdr.entriesPerSector * (i / hdr.entriesPerSector) + i % hdr.entriesPerSector)
        * hdr.partitionEntrySize = i * hdr.partitionEntrySize := by
      rw [Nat.div_add_mod]
    rw [Nat.add_mul, Nat.mul_right_comm, hgap, Nat.mul_comm sectorSize] at hsplit
    rw [Nat.add_mul, Nat.add_assoc, hsplit]
  · rw [Nat.div_eq_of_lt (by omega), Nat.mod_eq_of_lt (by omega), Nat.add_zero]

/-- In 32 bits without a wrap, the sectors read hold all entries. -/
theorem entries_le_totalSectors (h : Supported hdr)
    (hsum : hdr.numPartitionEntries + hdr.entriesPerSector - 1 < 2 ^ 32) :
    hdr.numPartitionEntries ≤ hdr.totalSectors * hdr.entriesPerSector := by
  have hpos := h.entriesPerSector_pos
  have hle := h.entries_le
  rw [GptHeader.arraySectors, Nat.max_eq_right hpos] at hle
  rwa [GptHeader.totalSectors, u32_of_lt hsum]

theorem gptSafe_of_readInFull (hb : Bounded hdr) (h : GptPassed img hdr)
    (hfull : ReadInFull hdr.numPartitionEntries hdr.partitionEntrySize) : GptSafe img hdr := by
  refine ⟨fun i hi hin hguid _ => clear_of_not_conflicts (h.clear _ ?_), h.array_disjoint hb⟩
  have hsize_ge := h.supported.size_ge
  have hsize_le := h.supported.size_le
  obtain ⟨hsum, hlayout⟩ : hdr.numPartitionEntries + hdr.entriesPerSector - 1 < 2 ^ 32 ∧
      (hdr.partitionEntrySize ∣ sectorSize ∨ hdr.numPartitionEntries ≤ hdr.entriesPerSector) := by
    rcases hfull with hs | hs | hn | hfull
    · omega
    · omega
    · omega
    · exact hfull
  have htotal := entries_le_totalSectors h.supported hsum
  have hoffset := readOffset_eq h.supported hlayout hi
  have hread := h.reads (i / hdr.entriesPerSector)
    (Nat.div_lt_of_lt_mul (Nat.mul_comm _ _ ▸ Nat.lt_of_lt_of_le hi htotal))
  have hsmall : (hdr.partitionEntryLba + i / hdr.entriesPerSector) * sectorSize < 2 ^ 63 := by
    have hlt := img.size_lt
    rw [← hoffset, readOffset] at hin
    omega
  refine ⟨i, Nat.zero_le _, Nat.lt_of_lt_of_le hi htotal, hi, ?_, hguid⟩
  rw [readsAs_iff h.supported hsmall hread, hoffset, storedEntry]

/-! ### The other layouts

A disk whose header announces `n` entries of the given size from LBA 98 on, and whose entry at
byte `at_` is a partition from LBA 0 to 40. Everything else is zero. -/

/-- The bytes of the header with the given checksum. -/
def damagedHeader (n size crc : Nat) : List UInt8 :=
  gptSignature ++ ([0, 0, 1, 0] ++ (le32Bytes 92 ++ (le32Bytes crc ++ (List.replicate 52 0
    ++ ([98, 0, 0, 0, 0, 0, 0, 0] ++ (le32Bytes n ++ (le32Bytes size ++ [0, 0, 0, 0])))))))

def damagedImage (n size crc at_ : Nat) : DiskImage where
  size := (98 + 2 ^ 32) * 512
  size_lt := by decide
  byte p :=
    if p < 512 then 0
    else if p < 604 then (damagedHeader n size crc).getD (p - 512) 0
    else if p = at_ then 1
    else if p = at_ + 40 then 40
    else 0

/-- The checksum that makes the header valid. -/
def validCrc (n size : Nat) : Nat := crc32Iso (damagedHeader n size 0)

section

variable {n size : Nat} (crc at_ : Nat)

theorem take_header :
    ((damagedImage n size crc at_).bytes 512 512).take 92 = damagedHeader n size crc := by
  have hlen : (damagedHeader n size crc).length = 92 := rfl
  refine ext_getElem ?_ fun i h₁ h₂ => ?_
  · rw [length_take, length_bytes, hlen]
    rfl
  · rw [getElem_take, getElem_bytes]
    show (if 512 + i < 512 then _ else _) = _
    rw [if_neg (by omega), if_pos (by omega), Nat.add_sub_cancel_left, getD_eq_getElem _ _ h₂]

theorem zeroed_damagedHeader :
    (damagedHeader n size crc).take 16 ++ [0, 0, 0, 0] ++ (damagedHeader n size crc).drop 20
      = damagedHeader n size 0 :=
  rfl

/-- What the header says. -/
theorem decode_damagedHeader (hn : n < 2 ^ 32) (hsize : size < 2 ^ 32) (hcrc : crc < 2 ^ 32) :
    decodeGptHeader (damagedHeader n size crc) = ⟨92, crc, 98, n, size⟩ := by
  have hcrc' : le32 (damagedHeader n size crc) 16 = crc := by
    rw [show damagedHeader n size crc = (gptSignature ++ [0, 0, 1, 0] ++ le32Bytes 92)
      ++ (le32Bytes crc ++ (List.replicate 52 0 ++ ([98, 0, 0, 0, 0, 0, 0, 0]
      ++ (le32Bytes n ++ (le32Bytes size ++ [0, 0, 0, 0]))))) by simp only [damagedHeader, append_assoc]]
    exact le32_le32Bytes _ _ rfl hcrc
  have hn' : le32 (damagedHeader n size crc) 80 = n := by
    rw [show damagedHeader n size crc = (gptSignature ++ [0, 0, 1, 0] ++ le32Bytes 92
      ++ le32Bytes crc ++ List.replicate 52 0 ++ [98, 0, 0, 0, 0, 0, 0, 0])
      ++ (le32Bytes n ++ (le32Bytes size ++ [0, 0, 0, 0])) by simp only [damagedHeader, append_assoc]]
    exact le32_le32Bytes _ _ rfl hn
  have hsize' : le32 (damagedHeader n size crc) 84 = size := by
    rw [show damagedHeader n size crc = (gptSignature ++ [0, 0, 1, 0] ++ le32Bytes 92
      ++ le32Bytes crc ++ List.replicate 52 0 ++ [98, 0, 0, 0, 0, 0, 0, 0] ++ le32Bytes n)
      ++ (le32Bytes size ++ [0, 0, 0, 0]) by simp only [damagedHeader, append_assoc]]
    exact le32_le32Bytes _ _ rfl hsize
  rw [decodeGptHeader, hcrc', hn', hsize']
  rfl

end

/-- The header of the disk, as the reader decodes it. -/
def damagedGpt (n size : Nat) : GptHeader := ⟨92, validCrc n size, 98, n, size⟩

/-- The header passes its checks. -/
theorem readGptHeader_damaged {n size : Nat} (hn : n < 2 ^ 32) (hsize : size < 2 ^ 32) (at_ : Nat) :
    readGptHeader (damagedImage n size (validCrc n size) at_) = .ok (damagedGpt n size) := by
  have hread : (damagedImage n size (validCrc n size) at_).readAt sectorSize sectorSize
      = .ok ((damagedImage n size (validCrc n size) at_).bytes 512 512) :=
    readAt_of_le (show 512 + 512 ≤ (98 + 2 ^ 32) * 512 by decide)
  have hdecode := decode_damagedHeader (validCrc n size) hn hsize (UInt32.toNat_lt _)
  have hraw : ((damagedImage n size (validCrc n size) at_).bytes 512 512).take 92
      = damagedHeader n size (validCrc n size) := take_header _ _
  have hzeroed : crc32Iso ((damagedHeader n size (validCrc n size)).take 16 ++ [0, 0, 0, 0]
      ++ (damagedHeader n size (validCrc n size)).drop 20) = validCrc n size := by
    rw [zeroed_damagedHeader, validCrc]
  have hsig : ((damagedImage n size (validCrc n size) at_).bytes 512 512).take 8 = gptSignature := by
    have := congrArg (List.take 8) hraw
    rwa [take_take] at this
  rw [readGptHeader, hread]
  dsimp only
  rw [checkGptHeader, show gptHeaderSize = 92 from rfl, hraw, hdecode, hzeroed,
    if_neg (not_not.mpr hsig), if_neg (not_not.mpr rfl), if_neg (not_not.mpr rfl), damagedGpt]

section

variable {n size at_ : Nat} (hat : 604 ≤ at_)
include hat

theorem byte_damaged (crc : Nat) {p : Nat} (hp : 604 ≤ p) :
    (damagedImage n size crc at_).byte p = if p = at_ then 1 else if p = at_ + 40 then 40 else 0 := by
  show (if p < 512 then _ else _) = _
  rw [if_neg (by omega), if_neg (by omega)]

/-- The bytes of the damaging entry. -/
theorem byteAt_damaging (crc : Nat) (hi : i < 128) :
    byteAt ((damagedImage n size crc at_).bytes at_ 128) i
      = if i = 0 then 1 else if i = 40 then 40 else 0 := by
  rw [byteAt_bytes _ _ hi, byte_damaged hat crc (by omega)]
  split_ifs <;> first | rfl | omega

/-- The damaging entry: of a nonzero type, from LBA 0 to LBA 40. -/
theorem decode_damaging (crc : Nat) :
    let e := decodeGptEntry ((damagedImage n size crc at_).bytes at_ 128)
    isZeroGuid e.typeGuid = false ∧ e.startLba = 0 ∧ e.endLba = 40 := by
  refine ⟨?_, ?_, ?_⟩
  · have hfirst : (damagedImage n size crc at_).byte at_ = 1 := by
      rw [byte_damaged hat crc hat, if_pos rfl]
    rw [isZeroGuid, all_eq_false]
    refine ⟨1, ?_, by decide⟩
    rw [← hfirst]
    exact mem_of_getElem? (i := 0) (by simp [decodeGptEntry, DiskImage.bytes])
  · simp [decodeGptEntry, le64, le32, le16, byteAt_damaging hat]
  · simp [decodeGptEntry, le64, le32, le16, byteAt_damaging hat]

/-- An entry that ends before the damaging one, or starts after it, ends at LBA 0. -/
theorem endLba_apart (crc : Nat) {off : Nat} (hoff : 604 ≤ off)
    (hapart : off + 128 ≤ at_ ∨ at_ < off) :
    (decodeGptEntry ((damagedImage n size crc at_).bytes off 128)).endLba = 0 := by
  have hzero {i : Nat} (h₁ : 40 ≤ i) (h₂ : i < 48) :
      byteAt ((damagedImage n size crc at_).bytes off 128) i = 0 := by
    rw [byteAt_bytes _ _ (by omega), byte_damaged hat crc (by omega), if_neg (by omega),
      if_neg (by omega)]
    rfl
  simp [decodeGptEntry, le64, le32, le16, hzero]

end

/-- The disk with the damaging partition as entry `i`. -/
def damagedDisk (n size i : Nat) : DiskImage :=
  damagedImage n size (validCrc n size) (entryOffset (damagedGpt n size) i)

theorem entryOffset_damaged (n size i : Nat) :
    entryOffset (damagedGpt n size) i = 98 * 512 + i * size :=
  rfl

theorem not_gptSafe_damaged {n size : Nat} (hi : i < n) (hin : i * size ≤ 2048) :
    ¬ GptSafe (damagedDisk n size i) (damagedGpt n size) := by
  intro hsafe
  have hoffset := entryOffset_damaged n size i
  obtain ⟨hguid, hstart, hend⟩ : isZeroGuid (storedEntry (damagedDisk n size i)
        (damagedGpt n size) i).typeGuid = false ∧
      (storedEntry (damagedDisk n size i) (damagedGpt n size) i).startLba = 0 ∧
      (storedEntry (damagedDisk n size i) (damagedGpt n size) i).endLba = 40 :=
    decode_damaging (show 604 ≤ entryOffset (damagedGpt n size) i by omega) (validCrc n size)
  have hclear := hsafe.entries i hi
    (show entryOffset (damagedGpt n size) i + 128 ≤ (98 + 2 ^ 32) * 512 by omega) hguid
    (by omega)
  rw [hstart, hend] at hclear
  rcases hclear with ⟨h, -⟩ | h
  · cases h
  · exact Set.disjoint_left.mp h (show 34 ∈ Set.Icc 0 40 by decide) (by decide)

/-- The array begins behind stage2. -/
theorem array_damaged (n size : Nat) : ¬ (0 < (damagedGpt n size).arraySectors ∧
    lbaRangesOverlap stage2Lba stage2End (damagedGpt n size).partitionEntryLba
      (damagedGpt n size).arrayEnd = true) := by
  rintro ⟨-, h⟩
  rw [lbaRangesOverlap, decide_eq_true_eq] at h
  exact absurd (show 98 ≤ 97 from h.2) (by decide)

/-- With so many entries the number of sectors wraps to 0, and nothing is read. -/
theorem gptPassed_wrapped {n size : Nat} (hsup : Supported (damagedGpt n size)) (hn : n < 2 ^ 32)
    (hwrap : 2 ^ 32 ≤ n + (damagedGpt n size).entriesPerSector - 1) :
    GptPassed (damagedDisk n size 0) (damagedGpt n size) := by
  have htotal : (damagedGpt n size).totalSectors = 0 := by
    rw [GptHeader.totalSectors]
    refine Nat.div_eq_of_lt ?_
    show u32 (n + (damagedGpt n size).entriesPerSector - 1) < _
    rw [u32]
    omega
  refine ⟨hsup, array_damaged n size, fun s hs => ?_, fun e he => ?_⟩
  · omega
  · obtain ⟨i, -, hi, -⟩ := he
    rw [htotal] at hi
    omega

/-- With gaps at the ends of the sectors, the entry after the first sector's is read from
elsewhere. -/
theorem gptPassed_gap {n size : Nat} (hsup : Supported (damagedGpt n size)) (hn : n < 2 ^ 32)
    (hgap : (damagedGpt n size).entriesPerSector * size < 512) :
    GptPassed (damagedDisk n size (damagedGpt n size).entriesPerSector) (damagedGpt n size) := by
  have hpos := hsup.entriesPerSector_pos
  have hsize := hsup.size_ge
  have htotal : (damagedGpt n size).totalSectors ≤ 2 ^ 32 :=
    Nat.le_trans (Nat.div_le_self _ _) (Nat.le_of_lt (u32_lt _))
  have hoffset := entryOffset_damaged n size (damagedGpt n size).entriesPerSector
  have hreads (s : Nat) (hs : s < (damagedGpt n size).totalSectors) :
      ∃ sector, readArraySector (damagedDisk n size (damagedGpt n size).entriesPerSector)
        (damagedGpt n size) s = .ok sector := by
    refine ⟨_, readAt_of_le (?_ : _ ≤ (98 + 2 ^ 32) * 512)⟩
    show u64 (u64 (98 + s) * 512) + 512 ≤ _
    rw [u64_of_lt (n := 98 + s) (by omega), u64_of_lt (by omega)]
    omega
  refine ⟨hsup, array_damaged n size, hreads, fun e he => ?_⟩
  obtain ⟨i, -, hi, -, hread, -⟩ := he
  have hsector : i / (damagedGpt n size).entriesPerSector < (damagedGpt n size).totalSectors :=
    Nat.div_lt_of_lt_mul (Nat.mul_comm _ _ ▸ hi)
  rw [readsAs_iff hsup (show (98 + _) * 512 < _ by omega) (hreads _ hsector)] at hread
  have hreadOffset : readOffset (damagedGpt n size) i
      = (98 + i / (damagedGpt n size).entriesPerSector) * 512
        + i % (damagedGpt n size).entriesPerSector * size := rfl
  have hapart : readOffset (damagedGpt n size) i + 128
        ≤ entryOffset (damagedGpt n size) (damagedGpt n size).entriesPerSector ∨
      entryOffset (damagedGpt n size) (damagedGpt n size).entriesPerSector
        < readOffset (damagedGpt n size) i := by
    rcases Nat.eq_zero_or_pos (i / (damagedGpt n size).entriesPerSector) with hfirst | hlater
    · -- a slot of the first sector ends before the gap
      left
      have hslot := Nat.mul_le_mul_right size
        (show i % (damagedGpt n size).entriesPerSector + 1 ≤ _ from Nat.mod_lt i hpos)
      rw [Nat.add_one_mul] at hslot
      have hsize' : 128 ≤ size := hsize
      omega
    · right
      omega
  have hlow : 98 * 512 ≤ readOffset (damagedGpt n size) i :=
    Nat.le_trans (Nat.mul_le_mul_right 512 (Nat.le_add_right 98 _)) (Nat.le_add_right _ _)
  have hend : e.endLba = 0 := by
    rw [hread]
    exact endLba_apart (by omega) (validCrc n size) (by omega) hapart
  rw [conflicts, decide_eq_false_iff_not, lbaRangesOverlap, hend]
  simp [stage2Lba]

/-! ### The guarantee -/

/-- A layout that is not read in full has a disk that passes the check and is not safe. -/
theorem exists_unsafe {n size : Nat} (hn : n < 2 ^ 32) (hsize : size < 2 ^ 32)
    (h : ¬ ReadInFull n size) :
    ∃ i, GptPassed (damagedDisk n size i) (damagedGpt n size) ∧
      ¬ GptSafe (damagedDisk n size i) (damagedGpt n size) := by
  rw [ReadInFull, not_or, not_or, not_or, not_and_or, not_or] at h
  obtain ⟨hge, hle, hentries, hlayout⟩ := h
  have hsup : Supported (damagedGpt n size) :=
    ⟨Nat.le_of_not_lt hge, Nat.le_of_not_lt hle, Nat.pos_of_ne_zero hentries⟩
  rcases hlayout with hwrap | ⟨hdvd, hmany⟩
  · exact ⟨0, gptPassed_wrapped hsup hn (Nat.le_of_not_lt hwrap),
      not_gptSafe_damaged (Nat.pos_of_ne_zero hentries) (by omega)⟩
  · have hgap : (damagedGpt n size).entriesPerSector * size < 512 :=
      Nat.lt_of_le_of_ne hsup.entriesPerSector_mul_le fun heq =>
        hdvd ⟨(damagedGpt n size).entriesPerSector, by rw [Nat.mul_comm]; exact heq.symm⟩
    exact ⟨_, gptPassed_gap hsup hn hgap, not_gptSafe_damaged (Nat.lt_of_not_le hmany) (by omega)⟩

theorem check_of_readGptHeader (hhdr : readGptHeader img = .ok hdr) :
    checkStage2ExtentFree img = .ok () ↔ GptPassed img hdr := by
  rw [checkStage2ExtentFree, hhdr]
  exact checkGptExtentFree_ok_iff

/-- What a passed check is worth. On an MBR disk, writing stage2 damages no partition. On a GPT
disk this holds exactly for the headers whose entries are all read. -/
theorem stage2_extent_free_iff (n size : UInt32) :
    (∀ img, readGptHeader img = .error .noGptSignature → checkStage2ExtentFree img = .ok () →
      MbrSafe img) ∧
    ((∀ img hdr, readGptHeader img = .ok hdr → hdr.numPartitionEntries = n.toNat →
      hdr.partitionEntrySize = size.toNat → checkStage2ExtentFree img = .ok () → GptSafe img hdr) ↔
    ReadInFull n.toNat size.toNat) := by
  refine ⟨fun img => mbrSafe_of_check, fun hsafe => ?_, fun hfull img hdr hhdr hn hsize hcheck => ?_⟩
  · by_contra hpartial
    obtain ⟨i, hpassed, hunsafe⟩ := exists_unsafe n.toNat_lt size.toNat_lt hpartial
    have hhdr := readGptHeader_damaged n.toNat_lt size.toNat_lt
      (entryOffset (damagedGpt n.toNat size.toNat) i)
    exact hunsafe (hsafe _ _ hhdr rfl rfl ((check_of_readGptHeader hhdr).mpr hpassed))
  · rw [← hn, ← hsize] at hfull
    exact gptSafe_of_readInFull (bounded_of_readGptHeader hhdr)
      ((check_of_readGptHeader hhdr).mp hcheck) hfull

/-- A header with `2 ^ 32 - 1` entries of 128 bytes: the check passes without a look at any entry,
and the first entry is a partition from LBA 0 to 40. -/
theorem wrapped_array_unread :
    readGptHeader (damagedDisk 0xFFFFFFFF 128 0) = .ok (damagedGpt 0xFFFFFFFF 128) ∧
    checkStage2ExtentFree (damagedDisk 0xFFFFFFFF 128 0) = .ok () ∧
    ¬ GptSafe (damagedDisk 0xFFFFFFFF 128 0) (damagedGpt 0xFFFFFFFF 128) := by
  have hhdr : readGptHeader (damagedDisk 0xFFFFFFFF 128 0) = .ok (damagedGpt 0xFFFFFFFF 128) :=
    readGptHeader_damaged (by decide) (by decide) _
  have hpassed : GptPassed (damagedDisk 0xFFFFFFFF 128 0) (damagedGpt 0xFFFFFFFF 128) :=
    gptPassed_wrapped ⟨by decide, by decide, by decide⟩ (by decide) (by decide)
  exact ⟨hhdr, (check_of_readGptHeader hhdr).mpr hpassed, not_gptSafe_damaged (by decide) (by decide)⟩

end ZfsBoot.Proofs.Tool
