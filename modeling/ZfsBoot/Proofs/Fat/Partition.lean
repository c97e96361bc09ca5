import ZfsBoot.Bios.PartTable
import ZfsBoot.Proofs.Fat.Cache

/-!
# `ZfsBoot.Proofs.Fat.Partition`: the volume and its partition

`gpt_find_partition` computes the size of a partition from the first and the last sector that its
entry names, and `fat_mount` takes no volume that is larger. So the volume is inside the partition,
as long as the entry is one of a partition at all.

Nothing checks that. The difference of the two fields is taken modulo `2 ^ 64`: an entry that ends
before it starts gives a size that no volume exceeds, and not even the first sector of the volume is
inside (`volume_inside_iff`).
-/

set_option autoImplicit false

namespace ZfsBoot.Proofs.Fat

open Lib Bios

variable {hdr : GptHeader} {e : GptEntry} {typeGuid : List UInt8}

section
variable {δ : Type} (bk : Backend δ)

/-! ### The entry -/

/-- The entry whose extent `gpt_find_partition` returns. -/
def foundEntry (hdr : GptHeader) (typeGuid : List UInt8) (d : δ) : Option GptEntry :=
  let perSector := diskSectorSize / hdr.partitionEntrySize
  (gptScan bk hdr typeGuid perSector (u32 (hdr.numPartitionEntries + perSector - 1) / perSector) 0
    hdr.numPartitionEntries d).1

/-- An entry of a sector that was read, of the type that was asked for. -/
def EntryRead (typeGuid : List UInt8) (e : GptEntry) : Prop :=
  e.typeGuid = typeGuid ∧ ∃ sector at_, e = gptEntry sector at_

variable {bk}

theorem entryRead_of_scan {perSector : Nat} (sectors : Nat) {index left : Nat} {d : δ}
    (hscan : (gptScan bk hdr typeGuid perSector sectors index left d).1 = some e) :
    EntryRead typeGuid e := by
  -- over the sectors that are left: the entry is in this one or a later one
  induction sectors generalizing index left d with
  | zero => cases hscan
  | succ sectors ih =>
    rw [gptScan] at hscan
    dsimp only at hscan
    split_ifs at hscan
    split at hscan
    · rename_i e' hfind
      obtain rfl := Option.some.inj hscan
      refine ⟨by simpa using List.find?_some hfind, ?_⟩
      obtain ⟨i, -, rfl⟩ := List.mem_map.mp (List.mem_of_find?_eq_some hfind)
      exact ⟨_, _, rfl⟩
    · exact ih hscan

theorem foundEntry_of_find {d d' : δ} {lba sectors : Nat}
    (hfind : gptFindPartition bk hdr typeGuid d = (some (lba, sectors), d')) :
    ∃ e, foundEntry bk hdr typeGuid d = some e ∧ EntryRead typeGuid e
      ∧ e.extent = (lba, sectors) := by
  rw [gptFindPartition] at hfind
  have hsome := congrArg Prod.fst hfind
  split_ifs at hsome
  obtain ⟨e, he, hextent⟩ := Option.map_eq_some_iff.mp hsome
  exact ⟨e, he, entryRead_of_scan _ he, hextent⟩

/-- The fields of an entry are 64-bit values. -/
theorem EntryRead.lt (he : EntryRead typeGuid e) :
    e.startingLba < 2 ^ 64 ∧ e.endingLba < 2 ^ 64 := by
  obtain ⟨-, sector, at_, rfl⟩ := he
  exact ⟨le64_lt _ _, le64_lt _ _⟩

/-! ### The volume -/

variable (bk) in
/-- `total_sectors` of the volume that a mount at `lba` reads. -/
def volumeSectors (lba : Nat) (m : Machine δ) : Nat :=
  (fat32Bpb ((fatCacheInvalidate m).start.read bk lba 1).1.data).totalSectors

/-- A volume that is mounted has sectors, and no more than the partition. -/
theorem volumeSectors_of_fatMount {lba sectors : UInt64} {m : Machine δ} {vol : FatVolume}
    {st : FatRun δ} (hmount : fatMount bk lba sectors m = (some vol, st)) :
    0 < volumeSectors bk lba.toNat m ∧ volumeSectors bk lba.toNat m ≤ sectors.toNat := by
  unfold fatMount at hmount
  dsimp only at hmount
  have hsome := congrArg Prod.fst hmount
  split_ifs at hsome
  obtain ⟨-, haccepted⟩ := accepted_of_fatMountSector hsome
  exact ⟨Nat.zero_lt_of_lt haccepted.reserved_lt, haccepted.partition⟩

/-- For every disk, header and type: if an entry of that type is found and a volume is mounted with
the extent that was computed from it, then every sector of the volume is in the entry's range if and
only if the entry does not end before it starts. -/
theorem volume_inside_iff (hdr : GptHeader) (typeGuid : List UInt8) (d d' : δ) (lba sectors : Nat)
    (hfind : gptFindPartition bk hdr typeGuid d = (some (lba, sectors), d')) (m : Machine δ)
    (vol : FatVolume) (st : FatRun δ)
    (hmount : fatMount bk (.ofNat lba) (.ofNat sectors) m = (some vol, st)) :
    ∃ e, foundEntry bk hdr typeGuid d = some e ∧ EntryRead typeGuid e ∧ e.extent = (lba, sectors) ∧
      ((∀ x, lba ≤ x → x < lba + volumeSectors bk lba m → e.startingLba ≤ x ∧ x ≤ e.endingLba)
        ↔ e.startingLba ≤ e.endingLba) := by
  obtain ⟨e, hfound, hread, hextent⟩ := foundEntry_of_find hfind
  refine ⟨e, hfound, hread, hextent, ?_⟩
  obtain ⟨hstart, hend⟩ := hread.lt
  obtain ⟨rfl, rfl⟩ := Prod.mk.inj hextent
  obtain ⟨hpos, hle⟩ := volumeSectors_of_fatMount hmount
  rw [UInt64.toNat_ofNat_of_lt' hstart] at hpos hle
  rw [UInt64.toNat_ofNat_of_lt' (u64_lt _)] at hle
  constructor
  · intro hinside
    exact (hinside e.startingLba (Nat.le_refl _) (by omega)).2
  · intro hentry x hx hxs
    have hsize : u64 (e.endingLba + 2 ^ 64 - e.startingLba + 1) ≤ e.endingLba - e.startingLba + 1 := by
      unfold u64
      omega
    exact ⟨hx, by omega⟩

end

/-! ### An entry that ends before it starts -/

/-- An ESP from sector 10 to sector 4. -/
def crossedEntry (p : Nat) : UInt8 :=
  if p < 16 then espTypeGuid.getD p 0 else if p = 32 then 10 else if p = 40 then 4 else 0

/-- A disk with that entry in sector 2, and a volume of `2 ^ 32 - 1` sectors at sector 10. -/
def crossedImage : Image :=
  .ofBytes fun p =>
    if 1024 ≤ p ∧ p < 1536 then crossedEntry (p - 1024)
    else if 5120 ≤ p ∧ p < 5632 then hugeBoot (p - 5120)
    else 0

/-- The header of its table: four entries of 128 bytes, from sector 2 on. -/
def crossedTable : GptHeader := ⟨92, 0, 2, 4, 128⟩

/-- The volume is mounted, and no sector of it is in the entry's range. -/
theorem crossed_mounted :
    (gptFindPartition crossedImage.backend crossedTable espTypeGuid ()).1
      = some (10, 2 ^ 64 - 5)
    ∧ foundEntry crossedImage.backend crossedTable espTypeGuid () = some ⟨espTypeGuid, 10, 4⟩
    ∧ (fatMount crossedImage.backend (.ofNat 10) (.ofNat (2 ^ 64 - 5)) (blankMachine [])).1.isSome
    ∧ volumeSectors crossedImage.backend 10 (blankMachine []) = 2 ^ 32 - 1 :=
  ⟨by decide +kernel, by decide +kernel, by decide +kernel, by decide +kernel⟩

/-- What decides it for that entry. -/
theorem volume_inside_iff_crossed :
    ∃ e, foundEntry crossedImage.backend crossedTable espTypeGuid () = some e
      ∧ EntryRead espTypeGuid e ∧ e.extent = (10, 2 ^ 64 - 5)
      ∧ ((∀ x, 10 ≤ x → x < 10 + volumeSectors crossedImage.backend 10 (blankMachine []) →
          e.startingLba ≤ x ∧ x ≤ e.endingLba) ↔ e.startingLba ≤ e.endingLba) := by
  have hfind : gptFindPartition crossedImage.backend crossedTable espTypeGuid ()
      = (some (10, 2 ^ 64 - 5), ()) := Prod.ext (by decide +kernel) (Subsingleton.elim _ _)
  have hsome : (fatMount crossedImage.backend (.ofNat 10) (.ofNat (2 ^ 64 - 5))
      (blankMachine [])).1.isSome := by decide +kernel
  rcases hrun : fatMount crossedImage.backend (.ofNat 10) (.ofNat (2 ^ 64 - 5)) (blankMachine [])
    with ⟨_ | vol, st⟩
  · rw [hrun] at hsome
    cases hsome
  · exact volume_inside_iff crossedTable espTypeGuid () () 10 (2 ^ 64 - 5) hfind (blankMachine []) vol
      st hrun

end ZfsBoot.Proofs.Fat
