import ZfsBoot.Proofs.Tool.PartTable

/-!
# `ZfsBoot.Proofs.Tool.Gpt`: the loader and the tool read one GPT

`bios/gpt.c` reads the table at boot, through the BIOS. `internal/parttable` reads it on the running
system, through the file of the disk. What the tool checks before it installs is worth something only
if the loader will see the same table.

The header is one sector and one sequence of checks on either side. The array of entries is walked
sector by sector. The loader stops at the first entry with the type it looks for. The tool collects
all entries that are in use. `scan_simulates` runs the two walks side by side: what the tool collects
from some point on contains what the loader finds from there, first.
-/

set_option autoImplicit false

namespace ZfsBoot.Proofs.Tool.Gpt

open List
open Lib ZfsBoot.Tool
open Bios (Backend GptRead GptEntry gptReadHeader gptCheckHeader gptFindPartition gptScan
  gptFindInSector gptEntry)

variable {typeGuid : List UInt8} {hdr : GptHeader} {s : Nat} {δ : Type} {bk : Backend δ}
  {img : DiskImage} {I : δ → Prop}

/-- The disk behind the loader's driver is the image: a read of a sector of the image succeeds and
returns it, and beyond the end there is nothing to read. -/
structure OnImage (bk : Backend δ) (img : DiskImage) (I : δ → Prop) : Prop where
  keeps : ∀ d lba n, I d → I (bk.read d lba n).2
  inside : ∀ d lba, I d → (lba + 1) * 512 ≤ img.size →
    (bk.read d lba 1).1 = ⟨true, img.bytes (lba * 512) 512⟩
  outside : ∀ d lba, I d → img.size < (lba + 1) * 512 → (bk.read d lba 1).1.ok = false

/-! ### The header -/

/-- The fields of a header, as the loader has them. -/
def loaderHeader (hdr : GptHeader) : Bios.GptHeader where
  headerSize := hdr.headerSize
  headerCrc32 := hdr.headerCrc32
  partitionEntryLba := hdr.partitionEntryLba
  numPartitionEntries := hdr.numPartitionEntries
  partitionEntrySize := hdr.partitionEntrySize

/-- What the loader says where the tool says `r`: every error other than a missing signature is one to
it. -/
def loaderRead : Except PartError GptHeader → GptRead
  | .ok hdr => .ok (loaderHeader hdr)
  | .error .noGptSignature => .noSignature
  | .error _ => .invalid

/-- The same checks, in the same order. -/
theorem gptCheckHeader_eq (sector : List UInt8) :
    gptCheckHeader sector = loaderRead (checkGptHeader sector) := by
  have hsignature : (sector.take Bios.gptHeaderSize).take 8 = sector.take 8 := by
    rw [take_take]
    rfl
  rw [gptCheckHeader, checkGptHeader]
  rw [hsignature, apply_ite loaderRead, apply_ite loaderRead, apply_ite loaderRead]
  rfl

/-- The two readers of the header say the same. -/
theorem gptReadHeader_eq (h : OnImage bk img I) {d : δ} (hd : I d) :
    (gptReadHeader bk d).1 = loaderRead (readGptHeader img) := by
  by_cases hsize : sectorSize + sectorSize ≤ img.size
  · have hread := h.inside d 1 hd hsize
    rw [gptReadHeader, readGptHeader, readAt_of_le hsize]
    dsimp only
    rw [hread, if_pos rfl, gptCheckHeader_eq, Nat.one_mul, sectorSize]
  · have hread := h.outside d 1 hd (Nat.lt_of_not_le hsize)
    have herr : img.readAt sectorSize sectorSize = .error .eof := by
      rw [DiskImage.readAt, if_neg (by decide), if_neg hsize]
    rw [gptReadHeader, readGptHeader, herr]
    dsimp only
    rw [hread, if_neg Bool.false_ne_true]
    rfl

/-! ### The entries -/

/-- An entry, as the loader has it. -/
def loaderEntry (e : GptPartitionEntry) : GptEntry := ⟨e.typeGuid, e.startLba, e.endLba⟩

theorem byteAt_take_drop (l : List UInt8) (a : Nat) {n i : Nat} (h : i < n) :
    byteAt ((l.drop a).take n) i = byteAt l (a + i) := by
  rw [byteAt, byteAt, List.getD, List.getD, List.getElem?_take_of_lt h, List.getElem?_drop]

/-- Both take a slot for the same entry. -/
theorem loaderEntry_slot (hdr : GptHeader) (sector : List UInt8) (i : Nat) :
    loaderEntry (slotEntry hdr sector i) = gptEntry sector (i * hdr.partitionEntrySize) := by
  have hword : ∀ k, k + 8 ≤ 128 →
      le64 ((sector.drop (i * hdr.partitionEntrySize)).take 128) k
        = le64 sector (i * hdr.partitionEntrySize + k) := by
    intro k hk
    simp only [le64, le32, le16, Nat.add_assoc]
    rw [byteAt_take_drop _ _ (by omega), byteAt_take_drop _ _ (by omega),
      byteAt_take_drop _ _ (by omega), byteAt_take_drop _ _ (by omega),
      byteAt_take_drop _ _ (by omega), byteAt_take_drop _ _ (by omega),
      byteAt_take_drop _ _ (by omega), byteAt_take_drop _ _ (by omega)]
  rw [loaderEntry, slotEntry, decodeGptEntry, gptEntry]
  dsimp only
  rw [hword 32 (by omega), hword 40 (by omega), take_take]
  rfl

/-- The entries of one sector of the array, with `index` entries before them. -/
def sectorEntries (hdr : GptHeader) (sector : List UInt8) (index : Nat) : List GptPartitionEntry :=
  (List.range (min hdr.entriesPerSector (hdr.numPartitionEntries - index))).map (slotEntry hdr sector)

/-- The entry has another type than the empty one. -/
def inUse (e : GptPartitionEntry) : Bool := !isZeroGuid e.typeGuid

/-- The tool collects the entries of a sector that are in use. -/
theorem slotLoop_eq (hdr : GptHeader) (sector : List UInt8) (left : Nat) :
    ∀ (i index : Nat) (out : List GptPartitionEntry), index ≤ hdr.numPartitionEntries →
      slotLoop hdr sector left i ⟨index, out⟩
        = ⟨min hdr.numPartitionEntries (index + left), out
          ++ ((List.range' i (min left (hdr.numPartitionEntries - index))).map
            (slotEntry hdr sector)).filter inUse⟩ := by
  induction left with
  | zero =>
    intro i index out hle
    rw [slotLoop, Nat.add_zero, Nat.min_eq_right hle, Nat.zero_min]
    simp
  | succ left ih =>
    intro i index out hle
    rw [slotLoop]
    by_cases hlt : index < hdr.numPartitionEntries
    · have hcount : min (left + 1) (hdr.numPartitionEntries - index)
          = min left (hdr.numPartitionEntries - (index + 1)) + 1 := by omega
      have hindex : index + 1 + left = index + (left + 1) := by omega
      have hslot : decodeGptEntry ((sector.drop (i * hdr.partitionEntrySize)).take 128)
          = slotEntry hdr sector i := rfl
      rw [if_pos hlt]
      dsimp only
      rw [hslot, ih (i + 1) (index + 1) _ hlt, hcount, List.range'_succ, map_cons,
        filter_cons, hindex]
      -- a slot that is not in use adds nothing
      cases hzero : isZeroGuid (slotEntry hdr sector i).typeGuid with
      | true => simp [inUse, hzero]
      | false => simp [inUse, hzero]
    · have hnone : hdr.numPartitionEntries - index = 0 := by omega
      rw [if_neg hlt, hnone, Nat.min_zero, Nat.min_eq_left (by omega)]
      simp only [List.range'_zero, map_nil, filter_nil, append_nil]
      rw [Nat.le_antisymm hle (Nat.le_of_not_lt hlt)]

/-- The loader looks for the type among the same entries. -/
theorem gptFindInSector_eq (hdr : GptHeader) (sector typeGuid : List UInt8) (index : Nat) :
    gptFindInSector sector typeGuid hdr.partitionEntrySize
        (min hdr.entriesPerSector (hdr.numPartitionEntries - index))
      = ((sectorEntries hdr sector index).find? (·.typeGuid = typeGuid)).map loaderEntry := by
  have hentries : (List.range (min hdr.entriesPerSector (hdr.numPartitionEntries - index))).map
      (fun i => gptEntry sector (i * hdr.partitionEntrySize))
      = (sectorEntries hdr sector index).map loaderEntry := by
    rw [sectorEntries, map_map]
    exact map_congr_left fun i _ => (loaderEntry_slot hdr sector i).symm
  rw [gptFindInSector, hentries, List.find?_map]
  rfl

/-- A type that is not the empty one is found among the entries in use. -/
theorem find_inUse (hguid : isZeroGuid typeGuid = false) (entries : List GptPartitionEntry) :
    (entries.filter inUse).find? (·.typeGuid = typeGuid)
      = entries.find? (·.typeGuid = typeGuid) := by
  rw [List.find?_filter]
  congr 1
  funext e
  by_cases he : e.typeGuid = typeGuid
  · simp [inUse, he, hguid]
  · simp [he]

/-- Sector `s` of the array, on both sides. -/
theorem array_sector (h : OnImage bk img I) {d : δ} (hd : I d)
    (hs : (hdr.partitionEntryLba + s + 1) * 512 ≤ img.size) : ∃ sector,
      readArraySector img hdr s = .ok sector ∧
        (bk.read d (u64 (hdr.partitionEntryLba + s)) 1).1 = ⟨true, sector⟩ := by
  have hsize := img.size_lt
  have hlba : u64 (hdr.partitionEntryLba + s) = hdr.partitionEntryLba + s := u64_of_lt (by omega)
  have hpos : u64 ((hdr.partitionEntryLba + s) * sectorSize) = (hdr.partitionEntryLba + s) * 512 :=
    u64_of_lt (by unfold sectorSize; omega)
  refine ⟨img.bytes ((hdr.partitionEntryLba + s) * 512) 512, ?_, ?_⟩
  · rw [readArraySector, hlba, hpos, sectorSize, readAt_of_le (by omega)]
  · rw [hlba]
    exact h.inside d _ hd hs

/-- The two walks, side by side, from sector `s` on with `index` entries behind them: what the tool
collects from there contains what the loader finds, first. -/
theorem scan_simulates (h : OnImage bk img I) (hdr : GptHeader)
    (hguid : isZeroGuid typeGuid = false) (left : Nat) :
    ∀ (s index : Nat) (out : List GptPartitionEntry) (d : δ), I d →
      index ≤ hdr.numPartitionEntries →
      (∀ k < left, (hdr.partitionEntryLba + (s + k) + 1) * 512 ≤ img.size) →
      ∃ st more, arrayLoop img hdr left s ⟨index, out⟩ = .ok st ∧ st.out = out ++ more ∧
        (gptScan bk (loaderHeader hdr) typeGuid hdr.entriesPerSector left s
          (hdr.numPartitionEntries - index) d).1
          = (more.find? (·.typeGuid = typeGuid)).map loaderEntry := by
  induction left with
  | zero => exact fun s index out d _ _ _ => ⟨_, [], rfl, (append_nil out).symm, rfl⟩
  | succ left ih =>
    intro s index out d hd hindex hinside
    obtain ⟨sector, htool, hloader⟩ := array_sector h hd (hinside 0 (Nat.succ_pos left))
    rw [Nat.add_zero] at htool hloader
    have hloop := slotLoop_eq hdr sector hdr.entriesPerSector 0 index out hindex
    rw [← range_eq_range'] at hloop
    have hinside' : ∀ k < left, (hdr.partitionEntryLba + (s + 1 + k) + 1) * 512 ≤ img.size := by
      intro k hk
      have hnext := hinside (k + 1) (by omega)
      rwa [Nat.add_comm k 1, ← Nat.add_assoc s 1 k] at hnext
    obtain ⟨st, more, hrest, hout, hscan⟩ := ih (s + 1)
      (min hdr.numPartitionEntries (index + hdr.entriesPerSector))
      (out ++ (sectorEntries hdr sector index).filter inUse)
      (bk.read d (u64 (hdr.partitionEntryLba + s)) 1).2 (h.keeps d _ 1 hd) (Nat.min_le_left _ _)
      hinside'
    refine ⟨st, (sectorEntries hdr sector index).filter inUse ++ more, ?_, ?_, ?_⟩
    · rw [arrayLoop, htool]
      dsimp only
      rw [hloop]
      exact hrest
    · rw [hout, append_assoc]
    · rw [List.find?_append, find_inUse hguid, gptScan]
      dsimp only
      rw [show (loaderHeader hdr).partitionEntryLba = hdr.partitionEntryLba from rfl, hloader,
        if_pos rfl, show (loaderHeader hdr).partitionEntrySize = hdr.partitionEntrySize from rfl,
        gptFindInSector_eq]
      -- the loader stops in this sector, or goes on with what is left
      cases (sectorEntries hdr sector index).find? (·.typeGuid = typeGuid) with
      | some e => rfl
      | none =>
        have hleft : hdr.numPartitionEntries - index
            - min hdr.entriesPerSector (hdr.numPartitionEntries - index)
            = hdr.numPartitionEntries
              - min hdr.numPartitionEntries (index + hdr.entriesPerSector) := by omega
        rw [← hleft] at hscan
        exact hscan

/-! ### The partition -/

/-- Every entry is in a sector of the image. Entry `i` is in slot `i % n` of the sector `i / n` of the
array, with `n` entries to a sector: that is where both readers look for it. -/
def ArrayInside (img : DiskImage) (hdr : GptHeader) : Prop :=
  ∀ i < hdr.numPartitionEntries,
    (hdr.partitionEntryLba + i / hdr.entriesPerSector + 1) * 512 ≤ img.size

/-- The number of sectors is computed in 32 bits on both sides, and is no more than the entries need. -/
theorem ArrayInside.scanned (h : ArrayInside img hdr) (heps : 0 < hdr.entriesPerSector)
    (hs : s < hdr.totalSectors) : (hdr.partitionEntryLba + s + 1) * 512 ≤ img.size := by
  have hlt : s * hdr.entriesPerSector < hdr.numPartitionEntries := by
    have hmul := (Nat.le_div_iff_mul_le heps).mp (Nat.succ_le_of_lt hs)
    have hsum := u32_le (hdr.numPartitionEntries + hdr.entriesPerSector - 1)
    rw [Nat.succ_mul] at hmul
    omega
  have hsector := h _ hlt
  rwa [Nat.mul_div_cancel _ heps] at hsector

/-- The loader and the tool read one table. The headers are accepted, missing or refused together. In
an array with entries of 128 to 512 bytes, the loader finds what the tool lists first under a type. -/
theorem readers_agree (h : OnImage bk img I) :
    (∀ d, I d → (gptReadHeader bk d).1 = loaderRead (readGptHeader img)) ∧
    ∀ hdr : GptHeader, 128 ≤ hdr.partitionEntrySize → hdr.partitionEntrySize ≤ 512 →
      ArrayInside img hdr → ∀ typeGuid, isZeroGuid typeGuid = false → ∀ d, I d →
        (gptFindPartition bk (loaderHeader hdr) typeGuid d).1
          = (((gptPartitions img hdr).toOption.getD []).find? (·.typeGuid = typeGuid)).map
            fun e => (e.startLba, u64 (e.endLba + 2 ^ 64 - e.startLba + 1)) := by
  refine ⟨fun d hd => gptReadHeader_eq h hd, ?_⟩
  intro hdr hge hle hinside typeGuid hguid d hd
  have hloader : ¬ ((loaderHeader hdr).partitionEntrySize < 48 ∨
      (loaderHeader hdr).partitionEntrySize > Bios.diskSectorSize) := by
    show ¬ (hdr.partitionEntrySize < 48 ∨ hdr.partitionEntrySize > 512)
    omega
  have htool : ¬ (hdr.partitionEntrySize < 128 ∨ hdr.partitionEntrySize > sectorSize) := by
    show ¬ (hdr.partitionEntrySize < 128 ∨ hdr.partitionEntrySize > 512)
    omega
  rw [gptFindPartition, if_neg hloader, gptPartitions, if_neg htool]
  by_cases hnum : hdr.numPartitionEntries = 0
  · rw [if_pos hnum, if_pos (show (loaderHeader hdr).numPartitionEntries = 0 from hnum)]
    rfl
  · have heps : 0 < hdr.entriesPerSector :=
      Nat.div_pos hle (Nat.lt_of_lt_of_le (by decide) hge)
    obtain ⟨st, more, hloop, hout, hscan⟩ := scan_simulates h hdr hguid hdr.totalSectors 0 0 [] d hd
      (Nat.zero_le _) (fun k hk => by
        rw [Nat.zero_add]
        exact hinside.scanned heps hk)
    rw [if_neg hnum, if_neg (show (loaderHeader hdr).numPartitionEntries ≠ 0 from hnum), hloop]
    rw [nil_append] at hout
    subst hout
    show (gptScan bk (loaderHeader hdr) typeGuid hdr.entriesPerSector hdr.totalSectors 0
      (hdr.numPartitionEntries - 0) d).1.map GptEntry.extent = _
    rw [hscan, Option.map_map]
    rfl

/-- The disk that holds an image. -/
def imageDisk (img : DiskImage) : Backend Unit where
  read _ lba n :=
    (if (lba + n) * 512 ≤ img.size then ⟨true, img.bytes (lba * 512) (n * 512)⟩ else ⟨false, []⟩, ())

theorem onImage_imageDisk (img : DiskImage) : OnImage (imageDisk img) img fun _ => True where
  keeps _ _ _ _ := trivial
  inside _ _ _ hsize := if_pos hsize
  outside _ _ _ hsize := by
    dsimp only [imageDisk]
    rw [if_neg (Nat.not_le_of_lt hsize)]

/-- Four sectors of ones, read as a table with four entries. -/
theorem readers_agree_ones :
    (gptFindPartition (imageDisk ⟨2048, by decide, fun _ => 1⟩) ⟨92, 0, 2, 4, 128⟩
      (List.replicate 16 1) ()).1 = some (0x0101010101010101, 1) := by
  have hinside : ArrayInside ⟨2048, by decide, fun _ => 1⟩ ⟨92, 0, 2, 4, 128⟩ := by
    unfold ArrayInside
    decide
  refine ((readers_agree (onImage_imageDisk ⟨2048, by decide, fun _ => 1⟩)).2 ⟨92, 0, 2, 4, 128⟩
    (by decide) (by decide) hinside (List.replicate 16 1) (by decide) () trivial).trans ?_
  decide +kernel

end ZfsBoot.Proofs.Tool.Gpt
