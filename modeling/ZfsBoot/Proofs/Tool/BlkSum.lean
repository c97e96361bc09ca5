import ZfsBoot.Bios.BlkVerify
import ZfsBoot.Proofs.Tool.Payload
import ZfsBoot.Proofs.Tool.Sha256Blocks

/-!
# `ZfsBoot.Proofs.Tool.BlkSum`: BLKSUM, written and read

The tool fills one buffer at computed positions, and two readers compute the positions again: the
tool's own `DecodeBlkSum` and, at boot, the loader. The buffer turns out to be a row of sectors
(`fillBlkSum_eq`), each with the hash of its first 480 bytes at its end, and from the row both readers
are answered.

The loader's reader agrees for every file that fits the 32-bit size field. `DecodeBlkSum` rounds the
number of blocks up in 32 bits, and that addition wraps around for a range of more than
`2 ^ 32 - 65536` bytes.
-/

set_option autoImplicit false

namespace ZfsBoot.Proofs.Tool.BlkSum

variable {fields : List (List UInt8)} {body : List UInt8} (first : Nat)

open List hiding Vector
open Lib Bios ZfsBoot.Tool.PayloadSum

variable (entries : List Sha256.Digest)
open Proofs.Tool.PayloadSum Tool.Sha256Blocks

/-! ### Copies into a buffer of zeros -/

/-- A copy over bytes of the same number. -/
theorem copyAt_over {pos : Nat} {a x data : List UInt8} (b : List UInt8) (hpos : pos = a.length)
    (hx : x.length = data.length) : copyAt pos data (a ++ (x ++ b)) = a ++ (data ++ b) := by
  subst hpos
  have hdata : data.take ((a ++ (x ++ b)).length - a.length) = data := by
    apply take_of_length_le
    rw [length_append, length_append]
    omega
  have hrest : (a ++ (x ++ b)).drop (a.length + data.length) = b := by
    rw [← hx, ← drop_drop, drop_left, drop_left]
  rw [copyAt, hdata, hrest, take_left, append_assoc]

/-- Copies at positions that follow each other. -/
def copyAll : Nat → List (List UInt8) → List UInt8 → List UInt8
  | _, [], out => out
  | pos, d :: ds, out => copyAll (pos + d.length) ds (copyAt pos d out)

theorem copyAll_zeros (ds : List (List UInt8)) : ∀ {pos : Nat} {a : List UInt8} (b : List UInt8),
    pos = a.length → copyAll pos ds (a ++ (List.replicate ds.flatten.length 0 ++ b))
      = a ++ (ds.flatten ++ b) := by
  induction ds with
  | nil => intro pos a b _; simp [copyAll]
  | cons d ds ih =>
    intro pos a b hpos
    rw [copyAll, flatten_cons, length_append, ← replicate_append_replicate,
      append_assoc, copyAt_over _ hpos (length_replicate), ← append_assoc a d,
      ih b (by rw [length_append, hpos]), append_assoc, append_assoc]

/-! ### The sectors -/

/-- The first 480 bytes of a sector. -/
def padded (content : List UInt8) : List UInt8 :=
  content ++ List.replicate (blkHashedPrefix - content.length) 0

/-- A sector with its hash. -/
def withHash (body : List UInt8) : List UInt8 := body ++ (Sha256.digest body).toList

theorem length_padded {content : List UInt8} (h : content.length ≤ 480) :
    (padded content).length = 480 := by
  rw [padded, length_append, length_replicate, blkHashedPrefix]
  omega

theorem length_withHash (h : body.length = 480) : (withHash body).length = 512 := by
  rw [withHash, length_append, Vector.length_toList, h]

/-- The bytes of the entries of one table sector. -/
def entryBytes (entries : List Sha256.Digest) (s : Nat) : List UInt8 :=
  ((entries.drop (s * entriesPerSect)).take entriesPerSect).flatMap (·.toList)

theorem length_entryBytes_le (s : Nat) : (entryBytes entries s).length ≤ 480 := by
  rw [entryBytes, length_flatMap_of_size (fun d _ => Vector.length_toList), length_take,
    entriesPerSect]
  omega

/-! ### One table -/

theorem copyEntries_append (xs ys : List Sha256.Digest) : ∀ (i : Nat) (out : List UInt8),
    copyEntries first i (xs ++ ys) out
      = copyEntries first (i + xs.length) ys (copyEntries first i xs out) := by
  induction xs with
  | nil => intro i out; rfl
  | cons x xs ih =>
    intro i out
    rw [cons_append, copyEntries, copyEntries, ih, length_cons, Nat.add_right_comm,
      Nat.add_assoc]

/-- Fifteen entries further on is the next sector. -/
theorem copyEntries_next (xs : List Sha256.Digest) : ∀ (i : Nat) (out : List UInt8),
    copyEntries first (entriesPerSect + i) xs out = copyEntries (first + 1) i xs out := by
  induction xs with
  | nil => intro i out; rfl
  | cons x xs ih =>
    intro i out
    have hpos : entryPos first (entriesPerSect + i) = entryPos (first + 1) i := by
      unfold entryPos entriesPerSect
      rw [Nat.add_div_left i (by decide), Nat.add_mod_left,
        show first + (i / 15).succ = first + 1 + i / 15 by omega]
    rw [copyEntries, copyEntries, hpos, Nat.add_assoc, ih]

/-- Within one sector the entries follow each other. -/
theorem copyEntries_sector (xs : List Sha256.Digest) : ∀ (i : Nat) (out : List UInt8),
    i + xs.length ≤ entriesPerSect → copyEntries first i xs out
      = copyAll (first * blkSectorSize + i * 32) (xs.map (·.toList)) out := by
  induction xs with
  | nil => intro i out _; rfl
  | cons x xs ih =>
    intro i out hi
    rw [length_cons] at hi
    have hlt : i < entriesPerSect := by omega
    have hpos : entryPos first i = first * blkSectorSize + i * 32 := by
      rw [entryPos, Nat.div_eq_of_lt hlt, Nat.mod_eq_of_lt hlt, Nat.add_zero]
    rw [copyEntries, ih (i + 1) _ (by omega), map_cons, copyAll, hpos, Vector.length_toList,
      Nat.succ_mul, Nat.add_assoc]

/-- Up to fifteen entries fill their part of one sector of zeros. -/
theorem copyEntries_oneSector {first : Nat} {xs : List Sha256.Digest} {a : List UInt8}
    (b : List UInt8) (hxs : xs.length ≤ entriesPerSect) (ha : a.length = first * blkSectorSize) :
    copyEntries first 0 xs (a ++ (List.replicate blkSectorSize 0 ++ b))
      = a ++ (padded (xs.flatMap (·.toList)) ++ (List.replicate 32 0 ++ b)) := by
  have hflat : xs.flatMap (·.toList) = (xs.map (·.toList)).flatten := flatMap_def
  have hlen : (xs.flatMap (·.toList)).length ≤ 480 := by
    rw [length_flatMap_of_size (fun d _ => Vector.length_toList)]
    unfold entriesPerSect at hxs
    omega
  have hzeros : List.replicate blkSectorSize (0 : UInt8)
      = List.replicate (xs.flatMap (·.toList)).length 0
        ++ (List.replicate (480 - (xs.flatMap (·.toList)).length) 0 ++ List.replicate 32 0) := by
    rw [replicate_append_replicate, replicate_append_replicate]
    congr 1
    unfold blkSectorSize
    omega
  rw [copyEntries_sector first xs 0 _ (by omega), Nat.zero_mul, Nat.add_zero, hzeros, padded,
    blkHashedPrefix, hflat, append_assoc, copyAll_zeros _ _ ha.symm]
  simp only [append_assoc]

theorem entryBytes_zero :
    entryBytes entries 0 = (entries.take entriesPerSect).flatMap (·.toList) := by
  rw [entryBytes, Nat.zero_mul, drop_zero]

theorem entryBytes_succ (s : Nat) :
    entryBytes entries (s + 1) = entryBytes (entries.drop entriesPerSect) s := by
  rw [entryBytes, entryBytes, drop_drop, Nat.succ_mul, Nat.add_comm]

/-- The entries of a first sector, and those after it. -/
theorem copyEntries_split (out : List UInt8) :
    copyEntries first 0 entries out = copyEntries (first + 1) 0 (entries.drop entriesPerSect)
      (copyEntries first 0 (entries.take entriesPerSect) out) := by
  conv_lhs => rw [← take_append_drop entriesPerSect entries, copyEntries_append]
  by_cases hfull : entries.length ≤ entriesPerSect
  · rw [drop_of_length_le hfull]
    rfl
  · rw [Nat.zero_add, length_take, Nat.min_eq_left (by omega)]
    exact copyEntries_next first _ 0 _

/-- A table fills its sectors from the first on, and leaves the room for their hashes. -/
theorem copyEntries_table (n : Nat) : ∀ (first : Nat) (entries : List Sha256.Digest) (a b : List UInt8),
    entries.length ≤ n * entriesPerSect → a.length = first * blkSectorSize →
      copyEntries first 0 entries (a ++ (List.replicate (n * blkSectorSize) 0 ++ b))
        = a ++ (blocks (fun s => padded (entryBytes entries s) ++ List.replicate 32 0) n ++ b) := by
  induction n with
  | zero =>
    intro first entries a b hlen _
    obtain rfl : entries = [] := eq_nil_of_length_eq_zero (by omega)
    rfl
  | succ n ih =>
    intro first entries a b hlen ha
    have hsector : (a ++ (padded (entryBytes entries 0) ++ List.replicate 32 0)).length
        = (first + 1) * blkSectorSize := by
      rw [length_append, length_append, length_padded (length_entryBytes_le entries 0),
        length_replicate, ha, Nat.succ_mul]
      rfl
    have hlater : (entries.drop entriesPerSect).length ≤ n * entriesPerSect := by
      rw [length_drop]
      rw [Nat.succ_mul] at hlen
      omega
    rw [copyEntries_split, Nat.succ_mul, Nat.add_comm (n * blkSectorSize), ← replicate_append_replicate,
      append_assoc, copyEntries_oneSector _ (length_take_le _ _) ha, ← entryBytes_zero,
      ← append_assoc (padded _), ← append_assoc a, ih _ _ _ b hlater hsector,
      blocks_succ_left]
    simp only [entryBytes_succ, append_assoc]

/-! ### The hashes -/

/-- The hash of one sector goes to its end. -/
theorem hashSector_eq {s : Nat} {a body : List UInt8} (b : List UInt8)
    (ha : a.length = s * blkSectorSize) (hbody : body.length = 480) :
    hashSector (a ++ (body ++ (List.replicate 32 0 ++ b))) s = a ++ (withHash body ++ b) := by
  have hread : ((a ++ (body ++ (List.replicate 32 0 ++ b))).drop (s * blkSectorSize)).take
      blkHashedPrefix = body := by
    rw [← ha, drop_left, take_append_of_le_length (by rw [hbody]; decide),
      take_of_length_le (by rw [hbody]; decide)]
  have hpos : s * blkSectorSize + blkHashedPrefix = (a ++ body).length := by
    rw [length_append, ha, hbody]
    rfl
  rw [hashSector, hread, ← append_assoc a body, copyAt_over b hpos
    (by rw [length_replicate, Vector.length_toList]), withHash]
  simp only [append_assoc]

/-- A row of sectors is hashed from its first to its last. -/
theorem foldl_hashSector (bodies : List (List UInt8)) : ∀ (s : Nat) (a : List UInt8),
    (∀ body ∈ bodies, body.length = 480) → a.length = s * blkSectorSize →
      (List.range' s bodies.length).foldl hashSector
          (a ++ bodies.flatMap fun body => body ++ List.replicate 32 0)
        = a ++ bodies.flatMap withHash := by
  induction bodies with
  | nil => intro s a _ _; simp
  | cons body bodies ih =>
    intro s a hbodies ha
    have hbody := hbodies body mem_cons_self
    have hnext : (a ++ withHash body).length = (s + 1) * blkSectorSize := by
      rw [length_append, length_withHash hbody, ha, Nat.succ_mul]
      rfl
    rw [length_cons, List.range'_succ, foldl_cons, flatMap_cons, flatMap_cons,
      append_assoc body, hashSector_eq _ ha hbody, ← append_assoc a,
      ih _ _ (fun b hb => hbodies b (mem_cons_of_mem body hb)) hnext, append_assoc]

/-! ### The file -/

/-- The fields of the header, up to its hash. -/
def headFields (kernel initrd : List UInt8) (koff kn inn : Nat) : List (List UInt8) :=
  [ascii "AZBLKSUM", le32Bytes 1, le32Bytes blockSize, le32Bytes entriesPerSect,
    le32Bytes kernel.length, le32Bytes koff, le32Bytes kn, le32Bytes 1,
    le32Bytes initrd.length, le32Bytes 0, le32Bytes inn, le32Bytes (1 + sectorsFor kn),
    (Sha256.digest (kernel.drop koff)).toList, (Sha256.digest initrd).toList]

/-- The sectors of a BLKSUM, without their hashes. -/
def bodies (kernel initrd : List UInt8) (koff : Nat) : List (List UInt8) :=
  let ke := chainEntries (kernel.drop koff)
  let ie := chainEntries initrd
  padded (headFields kernel initrd koff ke.length ie.length).flatten
    :: ((List.range (sectorsFor ke.length)).map (fun s => padded (entryBytes ke s))
      ++ (List.range (sectorsFor ie.length)).map (fun s => padded (entryBytes ie s)))

theorem length_headFields (kernel initrd : List UInt8) (koff kn inn : Nat) :
    (headFields kernel initrd koff kn inn).flatten.length = 116 := by
  simp [headFields, ascii, le32Bytes]

theorem length_of_mem_bodies {kernel initrd : List UInt8} {koff : Nat} :
    ∀ body ∈ bodies kernel initrd koff, body.length = 480 := by
  intro body hbody
  simp only [bodies, mem_cons, mem_append, mem_map] at hbody
  rcases hbody with rfl | ⟨s, -, rfl⟩ | ⟨s, -, rfl⟩
  · exact length_padded (by rw [length_headFields]; decide)
  · exact length_padded (length_entryBytes_le _ s)
  · exact length_padded (length_entryBytes_le _ s)

theorem blkSector_eq (content : List UInt8) : blkSector content = withHash (padded content) := rfl

theorem tableSectors_eq : tableSectors entries
    = ((List.range (sectorsFor entries.length)).map fun s => padded (entryBytes entries s)).flatMap
      withHash := by
  rw [flatMap_map, tableSectors, blocks]
  simp only [blkSector_eq, entryBytes]

theorem length_bodies (kernel initrd : List UInt8) (koff : Nat) : (bodies kernel initrd koff).length
    = 1 + sectorsFor (chainEntries (kernel.drop koff)).length
      + sectorsFor (chainEntries initrd).length := by
  rw [bodies, length_cons, length_append, length_map, length_range,
    length_map, length_range, Nat.add_comm _ 1, Nat.add_assoc]

/-- The file that the sectors make up. -/
theorem generateBlkSum_eq {kernel initrd : List UInt8} {koff : Nat}
    (hoff : kernelRamOffset kernel = .ok koff)
    (hsize : ¬ (kernel.length > 0xffffffff ∨ initrd.length > 0xffffffff)) :
    generateBlkSum kernel initrd = .ok ((bodies kernel initrd koff).flatMap withHash) := by
  rw [generateBlkSum, hoff, ok_bind, if_neg hsize, pure_eq_ok]
  rw [bodies, flatMap_cons, flatMap_append, ← tableSectors_eq, ← tableSectors_eq,
    ← blkSector_eq]
  simp only [headFields, blkDescriptor, flatten_cons, flatten_nil, append_nil,
    append_assoc]

/-- The header is written field after field. -/
theorem copyHeader_eq (kernel initrd : List UInt8) (koff kn inn : Nat) (out : List UInt8) :
    copyHeader kernel initrd koff kn inn (sectorsFor kn) out
      = copyAll 0 (headFields kernel initrd koff kn inn) out := by
  have hlen : ∀ n, (le32Bytes n).length = 4 := fun n => rfl
  have hmagic : (ascii "AZBLKSUM").length = 8 := rfl
  simp only [headFields, copyAll, hlen, hmagic, Vector.length_toList]
  rfl

/-- The buffer before the hashes: the sectors, with room for them. -/
theorem copies_eq (kernel initrd : List UInt8) (koff : Nat) {ke ie : List Sha256.Digest}
    (hke : ke = chainEntries (kernel.drop koff)) (hie : ie = chainEntries initrd) :
    copyEntries (1 + sectorsFor ke.length) 0 ie (copyEntries 1 0 ke
        (copyHeader kernel initrd koff ke.length ie.length (sectorsFor ke.length)
          (List.replicate ((1 + sectorsFor ke.length + sectorsFor ie.length) * blkSectorSize) 0)))
      = (bodies kernel initrd koff).flatMap fun body => body ++ List.replicate 32 0 := by
  have hfit : ∀ entries : List Sha256.Digest,
      entries.length ≤ sectorsFor entries.length * entriesPerSect := by
    intro entries
    unfold sectorsFor entriesPerSect
    omega
  have hhead := length_headFields kernel initrd koff ke.length ie.length
  -- the room for the header, and for the two tables
  have hzeros : List.replicate ((1 + sectorsFor ke.length + sectorsFor ie.length) * blkSectorSize)
      (0 : UInt8) = [] ++ (List.replicate
        (headFields kernel initrd koff ke.length ie.length).flatten.length 0
        ++ (List.replicate (480 - 116) 0 ++ (List.replicate 32 0
        ++ (List.replicate (sectorsFor ke.length * blkSectorSize) 0
        ++ (List.replicate (sectorsFor ie.length * blkSectorSize) 0 ++ []))))) := by
    rw [hhead, nil_append, append_nil, replicate_append_replicate,
      replicate_append_replicate, replicate_append_replicate,
      replicate_append_replicate]
    refine congrArg (fun n => List.replicate n (0 : UInt8)) ?_
    unfold blkSectorSize
    omega
  have hpadded : (headFields kernel initrd koff ke.length ie.length).flatten
      ++ List.replicate (480 - 116) 0
        = padded (headFields kernel initrd koff ke.length ie.length).flatten := by
    rw [padded, hhead, blkHashedPrefix]
  have hsector : (padded (headFields kernel initrd koff ke.length ie.length).flatten
      ++ List.replicate 32 0).length = 1 * blkSectorSize := by
    rw [length_append, length_padded (by rw [hhead]; decide), length_replicate]
    rfl
  rw [hzeros, copyHeader_eq, copyAll_zeros _ _ length_nil.symm, nil_append,
    ← append_assoc, hpadded, ← append_assoc, copyEntries_table _ _ _ _ _ (hfit ke) hsector,
    ← append_assoc, copyEntries_table _ _ _ _ _ (hfit ie), bodies, flatMap_cons,
    flatMap_append, flatMap_map, flatMap_map, ← hke, ← hie]
  · simp only [blocks, append_nil, append_assoc]
  · rw [length_append, hsector, length_blocks (fun s => by
      rw [length_append, length_padded (length_entryBytes_le ke s), length_replicate]),
      Nat.add_mul]
    rfl

/-- The buffer is that file. -/
theorem fillBlkSum_eq (kernel initrd : List UInt8) :
    fillBlkSum kernel initrd = generateBlkSum kernel initrd := by
  rcases hoff : kernelRamOffset kernel with err | koff
  · rw [fillBlkSum, generateBlkSum, hoff, error_bind, error_bind]
  · by_cases hsize : kernel.length > 0xffffffff ∨ initrd.length > 0xffffffff
    · rw [fillBlkSum, generateBlkSum, hoff, ok_bind, ok_bind, if_pos hsize, if_pos hsize]
    · have hhash := foldl_hashSector (bodies kernel initrd koff) 0 [] length_of_mem_bodies
        (Nat.zero_mul _).symm
      rw [nil_append, nil_append] at hhash
      rw [generateBlkSum_eq hoff hsize, fillBlkSum, hoff, ok_bind, if_neg hsize, pure_eq_ok]
      rw [copies_eq kernel initrd koff rfl rfl, range_eq_range', ← length_bodies]
      exact hhash

/-! ### Reading a row of sectors -/

section Row

variable {row : List (List UInt8)}

theorem length_row (hrow : ∀ body ∈ row, body.length = 480) :
    (row.flatMap withHash).length = row.length * 512 :=
  length_flatMap_of_size fun body hbody => length_withHash (hrow body hbody)

/-- The `s`-th sector. -/
theorem sector_row (hrow : ∀ body ∈ row, body.length = 480) {s : Nat} (hs : row[s]? = some body) :
    ((row.flatMap withHash).drop (s * 512)).take 512 = withHash body :=
  take_drop_flatMap (fun body hbody => length_withHash (hrow body hbody)) hs

theorem take_withHash (h : body.length = 480) : (withHash body).take 480 = body := by
  rw [withHash, ← h, take_left]

theorem drop_withHash (h : body.length = 480) :
    (withHash body).drop 480 = (Sha256.digest body).toList := by
  rw [withHash, ← h, drop_left]

/-- Every sector has the hash that the tool looks for. -/
theorem badSector_row (hrow : ∀ body ∈ row, body.length = 480) :
    badSector (row.flatMap withHash) = none := by
  rw [badSector, List.find?_eq_none]
  intro s hs
  have hlt : s < row.length := by
    rw [mem_range, length_row hrow, blkSectorSize, Nat.mul_div_cancel _ (by decide)] at hs
    exact hs
  obtain ⟨body, hbody⟩ : ∃ body, row[s]? = some body := ⟨_, List.getElem?_eq_getElem hlt⟩
  have hlen := hrow body (mem_of_getElem? hbody)
  rw [show blkSectorSize = 512 from rfl, sector_row hrow hbody, show blkHashedPrefix = 480 from rfl]
  dsimp only
  rw [take_withHash hlen, drop_withHash hlen]
  simp

/-- Every sector has the hash that the loader looks for. -/
theorem blksumCheckSector_withHash (h : body.length = 480) :
    blksumCheckSector (withHash body) = true := by
  have hsha : shaOf body = Sha256.digest body := by
    have hone := (update_split Sha256Ctx.zero [body]).1 (by
      rw [flatten_singleton, h]
      decide)
    rw [flatten_singleton] at hone
    exact hone
  rw [blksumCheckSector, take_withHash h, drop_withHash h, hsha,
    take_of_length_le (by rw [Vector.length_toList]), beq_self_eq_true]

/-- Slot `r` of a sector that holds the entries `q * 15`, … of a table. -/
theorem slot_withHash {entries : List Sha256.Digest} {q r : Nat} (hr : r < 15) {e : Sha256.Digest}
    (he : entries[q * 15 + r]? = some e) :
    ((withHash (padded (entryBytes entries q))).drop (r * 32)).take 32 = e.toList := by
  have hget : ((entries.drop (q * entriesPerSect)).take entriesPerSect)[r]? = some e := by
    rw [entriesPerSect, List.getElem?_take_of_lt hr, List.getElem?_drop]
    exact he
  have hslot : ((entryBytes entries q).drop (r * 32)).take 32 = e.toList :=
    take_drop_flatMap (f := fun d : Sha256.Digest => d.toList) (fun d _ => Vector.length_toList) hget
  -- the slot is whole, so the zeros and the hash after the entries are not part of it
  have hlen := congrArg List.length hslot
  rw [length_take, length_drop, Vector.length_toList] at hlen
  rw [withHash, padded, append_assoc, drop_append_of_le_length (by omega),
    take_append_of_le_length (by rw [length_drop]; omega), hslot]

/-- Entry `k` of a table whose first sector is `first`. -/
theorem entry_row (hrow : ∀ body ∈ row, body.length = 480) {entries : List Sha256.Digest}
    {first : Nat} (htable : ∀ q < sectorsFor entries.length,
      row[first + q]? = some (padded (entryBytes entries q))) {k : Nat} {e : Sha256.Digest}
    (he : entries[k]? = some e) :
    let sector := ((row.flatMap withHash).drop ((first + k / 15) * 512)).take 512
    blksumCheckSector sector = true ∧ (sector.drop (k % 15 * 32)).take 32 = e.toList := by
  obtain ⟨hk, -⟩ := List.getElem?_eq_some_iff.mp he
  have hq : k / 15 < sectorsFor entries.length := by
    unfold sectorsFor entriesPerSect
    omega
  rw [sector_row hrow (htable _ hq)]
  refine ⟨blksumCheckSector_withHash (length_padded (length_entryBytes_le _ _)), ?_⟩
  exact slot_withHash (Nat.mod_lt k (by decide)) (by rw [Nat.div_add_mod']; exact he)

/-- The tool finds it in the same place. -/
theorem digestAt_eq {raw : List UInt8} {pos : Nat} {d : Sha256.Digest}
    (h : (raw.drop pos).take 32 = d.toList) : digestAt raw pos = d := by
  apply Vector.ext
  intro i hi
  have hget : raw[pos + i]? = some d[i] := by
    rw [← List.getElem?_drop, ← List.getElem?_take_of_lt hi, h]
    simp [hi]
  simp [digestAt, List.getD, hget]

theorem digestAt_row (hrow : ∀ body ∈ row, body.length = 480) {entries : List Sha256.Digest}
    {first : Nat} (htable : ∀ q < sectorsFor entries.length,
      row[first + q]? = some (padded (entryBytes entries q))) {k : Nat} {e : Sha256.Digest}
    (he : entries[k]? = some e) : digestAt (row.flatMap withHash) (entryPos first k) = e := by
  apply digestAt_eq
  rw [← (entry_row hrow htable he).2, take_drop_take_drop (by omega)]
  rfl

end Row

/-! ### The descriptors -/

theorem length_chainFrom (p : List UInt8) (n : Nat) : ∀ (h : Sha256.State) (i : Nat),
    (chainFrom p h i n).length = n := by
  induction n with
  | zero => intro h i; rfl
  | succ n ih =>
    intro h i
    cases n with
    | zero => rfl
    | succ n => rw [chainFrom, length_cons, ih]

/-- One entry for each block that was begun. -/
theorem length_chainEntries (p : List UInt8) :
    (chainEntries p).length = (p.length + 65535) / 65536 := by
  rw [chainEntries, length_chainFrom, blockSize, Nat.add_sub_assoc (by decide)]

/-- What BLKSUM records of a file of which the bytes from `off` on are loaded. -/
def blkFileOf (data : List UInt8) (off first : Nat) : BlkFile where
  size := data.length
  offset := off
  blocks := (data.length - off + 65535) / 65536
  first := first
  sha256 := Sha256.digest (data.drop off)
  entries := chainEntries (data.drop off)

/-- The same, as the loader has it. -/
def loaderFile (f : BlkFile) : BlksumFile where
  size := f.size
  offset := f.offset
  nblocks := f.blocks
  first := f.first
  sha256 := f.sha256.toList

theorem length_entries (data : List UInt8) (off first : Nat) :
    (blkFileOf data off first).entries.length = (blkFileOf data off first).blocks := by
  show (chainEntries (data.drop off)).length = _
  rw [length_chainEntries, length_drop]
  rfl

/-- A field stands after those before it. -/
theorem flatten_field {i : Nat} {d : List UInt8} (hfield : fields[i]? = some d) :
    fields.flatten = (fields.take i).flatten
      ++ (d ++ (fields.drop (i + 1)).flatten) := by
  obtain ⟨hi, hget⟩ := List.getElem?_eq_some_iff.mp hfield
  conv_lhs => rw [← take_append_drop i fields, drop_eq_getElem_cons hi, hget]
  rw [flatten_append, flatten_cons]

/-- A number among the fields of a header. -/
theorem le32_field (tail : List UInt8) (i : Nat) {n pos : Nat}
    (hfield : fields[i]? = some (le32Bytes n)) (hpos : (fields.take i).flatten.length = pos)
    (hn : n < 2 ^ 32) : le32 (fields.flatten ++ tail) pos = n := by
  rw [flatten_field hfield, append_assoc, append_assoc]
  exact le32_le32Bytes _ _ hpos hn

/-- A digest among them. -/
theorem digest_field (tail : List UInt8) (i : Nat) {d : Sha256.Digest} {pos : Nat}
    (hfield : fields[i]? = some d.toList) (hpos : (fields.take i).flatten.length = pos) :
    ((fields.flatten ++ tail).drop pos).take 32 = d.toList := by
  have hd : d.toList.length = 32 := Vector.length_toList
  rw [flatten_field hfield, append_assoc, append_assoc, ← hpos, drop_left]
  exact take_left' hd

/-- The descriptor of file `i`, at the start of a list. -/
structure Described (raw : List UInt8) (i : Nat) (f : BlkFile) : Prop where
  size : le32 raw (20 + 16 * i) = f.size
  offset : le32 raw (20 + 16 * i + 4) = f.offset
  blocks : le32 raw (20 + 16 * i + 8) = f.blocks
  first : le32 raw (20 + 16 * i + 12) = f.first
  sha256 : (raw.drop (52 + 32 * i)).take 32 = f.sha256.toList

/-- `DecodeBlkSum` takes a descriptor whose table is there, if it agrees on the number of blocks. -/
theorem decodeFile_eq {raw : List UInt8} {i : Nat} {f : BlkFile} (h : Described raw i f)
    (hoff : f.offset ≤ f.size) (hfirst : f.first ≠ 0) (hlen : f.entries.length = f.blocks)
    (hend : (f.first + sectorsFor f.blocks) * blkSectorSize ≤ raw.length)
    (hread : ∀ k e, f.entries[k]? = some e → digestAt raw (entryPos f.first k) = e) :
    decodeFile raw i = if f.blocks = u32 (f.size - f.offset + blockSize - 1) / blockSize then .ok f
      else .error (.blockCount f.blocks (f.size - f.offset)) := by
  have hentries : (List.range f.blocks).map (fun k => digestAt raw (entryPos f.first k))
      = f.entries := by
    apply ext_getElem
    · rw [length_map, length_range, hlen]
    · intro k hk hk'
      rw [getElem_map, getElem_range]
      exact hread k _ (List.getElem?_eq_getElem hk')
  rw [decodeFile, h.size, h.offset, h.blocks, h.first]
  dsimp only
  rw [if_neg (not_or.mpr ⟨Nat.not_lt.mpr hoff, hfirst⟩), digestAt_eq h.sha256, hentries]
  by_cases hblocks : f.blocks = u32 (f.size - f.offset + blockSize - 1) / blockSize
  · rw [if_neg (not_not.mpr hblocks), if_neg (Nat.not_lt.mpr hend), if_pos hblocks]
  · rw [if_pos hblocks, if_neg hblocks]

section Header

variable {kernel initrd : List UInt8} {koff : Nat}

/-- The two descriptors that `GenerateBlkSum` writes. -/
def kernelFile (kernel : List UInt8) (koff : Nat) : BlkFile := blkFileOf kernel koff 1

def initrdFile (kernel initrd : List UInt8) (koff : Nat) : BlkFile :=
  blkFileOf initrd 0 (1 + sectorsFor (kernelFile kernel koff).blocks)

/-- The fields of the header, in terms of the descriptors. -/
def blkHeader (kernel initrd : List UInt8) (koff : Nat) : List (List UInt8) :=
  headFields kernel initrd koff (kernelFile kernel koff).blocks (initrdFile kernel initrd koff).blocks

theorem field_bounds (hkernel : kernel.length < 2 ^ 32) (hinitrd : initrd.length < 2 ^ 32) :
    (kernelFile kernel koff).blocks ≤ 65536 ∧ (initrdFile kernel initrd koff).blocks ≤ 65536 ∧
      (initrdFile kernel initrd koff).first ≤ 4371 := by
  have hk : (kernelFile kernel koff).blocks ≤ 65536 := by
    show (kernel.length - koff + 65535) / 65536 ≤ 65536
    omega
  refine ⟨hk, ?_, ?_⟩
  · show (initrd.length - 0 + 65535) / 65536 ≤ 65536
    omega
  · show 1 + (_ + 15 - 1) / 15 ≤ 4371
    omega

/-- The header says what it should, whatever follows it. -/
theorem described_header (hkernel : kernel.length < 2 ^ 32) (hinitrd : initrd.length < 2 ^ 32)
    (hoff : koff ≤ kernel.length) (tail : List UInt8) :
    let raw := (blkHeader kernel initrd koff).flatten ++ tail
    raw.take 8 = ascii "AZBLKSUM" ∧ le32 raw 8 = 1 ∧ le32 raw 12 = 65536 ∧ le32 raw 16 = 15 ∧
      Described raw 0 (kernelFile kernel koff) ∧ Described raw 1 (initrdFile kernel initrd koff) := by
  obtain ⟨hkb, hib, hif⟩ := @field_bounds kernel initrd koff hkernel hinitrd
  intro raw
  have hnum : ∀ (i : Nat) {n pos : Nat}, (blkHeader kernel initrd koff)[i]? = some (le32Bytes n) →
      ((blkHeader kernel initrd koff).take i).flatten.length = pos → n < 2 ^ 32 → le32 raw pos = n :=
    fun i => le32_field tail i
  refine ⟨rfl, hnum 1 rfl rfl (by decide), hnum 2 rfl rfl (by decide), hnum 3 rfl rfl (by decide),
    ⟨hnum 4 rfl rfl hkernel, hnum 5 rfl rfl (by show koff < _; omega), hnum 6 rfl rfl (by omega),
      hnum 7 rfl rfl (by show 1 < _; decide), ?_⟩,
    ⟨hnum 8 rfl rfl hinitrd, hnum 9 rfl rfl (by show 0 < _; decide), hnum 10 rfl rfl (by omega),
      hnum 11 rfl rfl (by show (initrdFile kernel initrd koff).first < _; omega), ?_⟩⟩
  · exact digest_field tail 12 rfl rfl
  · refine digest_field tail 13 rfl ?_
    simp [blkHeader, headFields, le32Bytes, ascii]

/-- The rounding of `DecodeBlkSum` is right up to the point where its addition wraps around. -/
theorem blocks_eq_iff {l : Nat} (hl : l < 2 ^ 32) :
    (l + 65535) / 65536 = u32 (l + blockSize - 1) / blockSize ↔ l ≤ 2 ^ 32 - 65536 := by
  unfold u32 blockSize
  omega

/-- The loader's rounding is right for every range. -/
theorem blocks_eq_ceil (l : Nat) :
    (l + 65535) / 65536 = l / blksumBlock + (if l % blksumBlock ≠ 0 then 1 else 0) := by
  unfold blksumBlock
  split <;> omega

theorem bodies_eq (kernel initrd : List UInt8) (koff : Nat) : bodies kernel initrd koff
    = padded (blkHeader kernel initrd koff).flatten
      :: ((List.range (sectorsFor (kernelFile kernel koff).blocks)).map
          (fun s => padded (entryBytes (kernelFile kernel koff).entries s))
        ++ (List.range (sectorsFor (initrdFile kernel initrd koff).blocks)).map
          (fun s => padded (entryBytes (initrdFile kernel initrd koff).entries s))) := by
  rw [blkHeader, kernelFile, initrdFile, ← length_entries, ← length_entries]
  rfl

/-- The table of the kernel follows the header. -/
theorem kernel_table : ∀ q < sectorsFor (kernelFile kernel koff).entries.length,
    (bodies kernel initrd koff)[1 + q]?
      = some (padded (entryBytes (kernelFile kernel koff).entries q)) := by
  intro q hq
  have hlen : (kernelFile kernel koff).entries.length = (kernelFile kernel koff).blocks :=
    length_entries _ _ _
  rw [hlen] at hq
  rw [bodies_eq, Nat.add_comm, List.getElem?_cons_succ, List.getElem?_append_left
    (by rw [length_map, length_range]; exact hq), List.getElem?_map,
    List.getElem?_range hq]
  rfl

/-- The table of the initrd follows that of the kernel. -/
theorem initrd_table : ∀ q < sectorsFor (initrdFile kernel initrd koff).entries.length,
    (bodies kernel initrd koff)[(initrdFile kernel initrd koff).first + q]?
      = some (padded (entryBytes (initrdFile kernel initrd koff).entries q)) := by
  intro q hq
  have hlen : (initrdFile kernel initrd koff).entries.length
      = (initrdFile kernel initrd koff).blocks := length_entries _ _ _
  rw [hlen] at hq
  have hpos : (initrdFile kernel initrd koff).first + q
      = sectorsFor (kernelFile kernel koff).blocks + q + 1 := by
    show 1 + sectorsFor (kernelFile kernel koff).blocks + q = _
    rw [Nat.add_comm 1, Nat.add_right_comm]
  rw [bodies_eq, hpos, List.getElem?_cons_succ, List.getElem?_append_right
    (by rw [length_map, length_range]; exact Nat.le_add_right _ _), length_map,
    length_range, Nat.add_sub_cancel_left, List.getElem?_map, List.getElem?_range hq]
  rfl

/-- The first sector. -/
theorem take_file (kernel initrd : List UInt8) (koff : Nat) :
    ((bodies kernel initrd koff).flatMap withHash).take 512
      = withHash (padded (blkHeader kernel initrd koff).flatten) := by
  have hfirst : (bodies kernel initrd koff)[0]?
      = some (padded (blkHeader kernel initrd koff).flatten) := by
    rw [bodies_eq, List.getElem?_cons_zero]
  have hsector := sector_row length_of_mem_bodies hfirst
  rwa [Nat.zero_mul, drop_zero] at hsector

/-- It starts with the header. -/
theorem withHash_padded (content : List UInt8) :
    ∃ tail, withHash (padded content) = content ++ tail := by
  rw [withHash, padded, append_assoc]
  exact ⟨_, rfl⟩

/-! ### The readers -/

/-- The loader takes the first sector, with the descriptors that were written. -/
theorem parseHeader_file (hkernel : kernel.length < 2 ^ 32) (hinitrd : initrd.length < 2 ^ 32)
    (hoff : koff ≤ kernel.length) :
    blksumParseHeader (((bodies kernel initrd koff).flatMap withHash).take 512)
      = .ok ⟨loaderFile (kernelFile kernel koff), loaderFile (initrdFile kernel initrd koff)⟩ := by
  have hcheck : blksumCheckSector (withHash (padded (blkHeader kernel initrd koff).flatten)) = true :=
    blksumCheckSector_withHash (length_padded (by rw [blkHeader, length_headFields]; decide))
  obtain ⟨tail, htail⟩ := withHash_padded (blkHeader kernel initrd koff).flatten
  obtain ⟨hmagic, hversion, hblock, hper, hk, hi⟩ := described_header hkernel hinitrd hoff tail
  rw [show ascii "AZBLKSUM" = blksumMagic from rfl] at hmagic
  rw [htail] at hcheck
  rw [take_file, htail]
  have hfile : ∀ {i : Nat} {f : BlkFile},
      Described ((blkHeader kernel initrd koff).flatten ++ tail) i f →
        blksumFile ((blkHeader kernel initrd koff).flatten ++ tail) i = loaderFile f := by
    intro i f h
    rw [blksumFile, h.size, h.offset, h.blocks, h.first, h.sha256, loaderFile]
  have hkv : (loaderFile (kernelFile kernel koff)).Valid :=
    ⟨hoff, Nat.one_ne_zero, blocks_eq_ceil _⟩
  have hiv : (loaderFile (initrdFile kernel initrd koff)).Valid :=
    ⟨Nat.zero_le _, by show 1 + _ ≠ 0; omega, blocks_eq_ceil _⟩
  have hlayout : ¬ (le32 ((blkHeader kernel initrd koff).flatten ++ tail) 12 ≠ blksumBlock ∨
      le32 ((blkHeader kernel initrd koff).flatten ++ tail) 16 ≠ blksumPerSector) :=
    not_or.mpr ⟨not_not.mpr hblock, not_not.mpr hper⟩
  rw [blksumParseHeader, if_neg (not_not.mpr hmagic), if_neg (not_not.mpr hcheck),
    if_neg (not_not.mpr hversion), if_neg hlayout, hfile hk, hfile hi, if_neg (not_or.mpr ⟨not_not.mpr hkv, not_not.mpr hiv⟩)]

/-- The tool takes each descriptor whose number of blocks it computes right. -/
theorem decode_file (hkernel : kernel.length < 2 ^ 32) (hinitrd : initrd.length < 2 ^ 32)
    (hoff : koff ≤ kernel.length) :
    decodeBlkSum ((bodies kernel initrd koff).flatMap withHash) =
      if kernel.length - koff ≤ 2 ^ 32 - 65536 then
        if initrd.length ≤ 2 ^ 32 - 65536 then
          .ok ⟨kernelFile kernel koff, initrdFile kernel initrd koff⟩
        else .error (.blockCount (initrdFile kernel initrd koff).blocks initrd.length)
      else .error (.blockCount (kernelFile kernel koff).blocks (kernel.length - koff)) := by
  have hrow := @length_of_mem_bodies kernel initrd koff
  have hbad := badSector_row hrow
  have hlength := length_row hrow
  rw [bodies_eq, length_cons, length_append, length_map, length_range,
    length_map, length_range, ← bodies_eq] at hlength
  have hkread := fun k e => @digestAt_row _ hrow _ _ (@kernel_table kernel initrd koff) k e
  have hiread := fun k e => @digestAt_row _ hrow _ _ (@initrd_table kernel initrd koff) k e
  obtain ⟨tail, htail⟩ : ∃ tail, (bodies kernel initrd koff).flatMap withHash
      = (blkHeader kernel initrd koff).flatten ++ tail := by
    obtain ⟨tail, htail⟩ := withHash_padded (blkHeader kernel initrd koff).flatten
    rw [bodies_eq, flatMap_cons, htail, append_assoc]
    exact ⟨_, rfl⟩
  obtain ⟨hmagic, hversion, hblock, hper, hk, hi⟩ := described_header hkernel hinitrd hoff tail
  rw [← htail] at hmagic hversion hblock hper hk hi
  generalize (bodies kernel initrd koff).flatMap withHash = raw at *
  have hkfile := decodeFile_eq hk hoff Nat.one_ne_zero (length_entries _ _ _) (by
    show (1 + sectorsFor (kernelFile kernel koff).blocks) * 512 ≤ raw.length
    omega) hkread
  have hifile := decodeFile_eq hi (Nat.zero_le _) (by show 1 + _ ≠ 0; omega) (length_entries _ _ _) (by
    show (1 + sectorsFor (kernelFile kernel koff).blocks
      + sectorsFor (initrdFile kernel initrd koff).blocks) * 512 ≤ raw.length
    omega) hiread
  have hkblocks : (kernelFile kernel koff).blocks
      = u32 ((kernelFile kernel koff).size - (kernelFile kernel koff).offset + blockSize - 1) / blockSize
        ↔ kernel.length - koff ≤ 2 ^ 32 - 65536 :=
    blocks_eq_iff (Nat.lt_of_le_of_lt (Nat.sub_le _ _) hkernel)
  have hiblocks : (initrdFile kernel initrd koff).blocks
      = u32 ((initrdFile kernel initrd koff).size - (initrdFile kernel initrd koff).offset
        + blockSize - 1) / blockSize ↔ initrd.length ≤ 2 ^ 32 - 65536 := blocks_eq_iff hinitrd
  rw [if_congr hkblocks rfl rfl] at hkfile
  rw [if_congr hiblocks rfl rfl] at hifile
  have hsectors : ¬ (raw.length < blkSectorSize ∨ raw.length % blkSectorSize ≠ 0) := by
    rw [hlength, blkSectorSize, Nat.mul_mod_left, Nat.succ_mul]
    omega
  have hlayout : ¬ (le32 raw 12 ≠ blockSize ∨ le32 raw 16 ≠ entriesPerSect) :=
    not_or.mpr ⟨not_not.mpr hblock, not_not.mpr hper⟩
  have hnumber : ¬ (le32 raw 8 ≠ blkSumVersion) := not_not.mpr hversion
  rw [decodeBlkSum, if_neg hsectors, hbad]
  dsimp only
  rw [if_neg (not_not.mpr hmagic), if_neg hnumber, if_neg hlayout, hkfile, hifile]
  split
  · split
    · rfl
    · rfl
  · rfl

/-- `VerifyBlkSum` has nothing to say about a file that is recorded as it is. -/
theorem verifyBlkFile_self (name data : List UInt8) (off first : Nat) :
    verifyBlkFile name (blkFileOf data off first)
      ⟨data.length, off, Sha256.digest (data.drop off)⟩ data off = [] := by
  have hstale : ¬ ((blkFileOf data off first).size ≠ data.length ∨
      (blkFileOf data off first).offset ≠ off ∨
      (blkFileOf data off first).sha256 ≠ Sha256.digest (data.drop off)) := by
    simp [blkFileOf]
  have hfile : ¬ (data.length ≠ (blkFileOf data off first).size ∨
      off ≠ (blkFileOf data off first).offset) := by
    simp [blkFileOf]
  have hfind : (List.range (chainEntries (data.drop off)).length).find? (fun k =>
      (chainEntries (data.drop off))[k]? != (blkFileOf data off first).entries[k]?) = none := by
    simp [blkFileOf]
  rw [verifyBlkFile, if_neg hstale, if_neg hfile]
  dsimp only
  rw [hfind]

end Header

/-- Both readers find in a BLKSUM what was written. -/
structure ReadBack (kernel initrd : List UInt8) (koff : Nat) (raw : List UInt8) : Prop where
  /-- The tool decodes it. -/
  decoded : decodeBlkSum raw = .ok ⟨kernelFile kernel koff, initrdFile kernel initrd koff⟩
  /-- With the manifest of the same files, the tool finds nothing wrong. -/
  verified : ∀ mode, ∃ m, new kernel initrd (modeText mode) = .ok m ∧
    verifyBlkSum ⟨kernelFile kernel koff, initrdFile kernel initrd koff⟩ m kernel initrd = []
  /-- The loader reads the same descriptors. -/
  parsed : blksumParseHeader (raw.take 512)
    = .ok ⟨loaderFile (kernelFile kernel koff), loaderFile (initrdFile kernel initrd koff)⟩
  /-- The loader finds every entry in a sector that has its hash. -/
  entries : ∀ f ∈ [kernelFile kernel koff, initrdFile kernel initrd koff], ∀ i < f.blocks,
    ∃ e, f.entries[i]? = some e ∧
      blksumCheckSector ((raw.drop ((f.first + i / 15) * 512)).take 512) = true ∧
      (((raw.drop ((f.first + i / 15) * 512)).take 512).drop (i % 15 * 32)).take 32 = e.toList

/-- What `GenerateBlkSum` accepts, and what it returns then. -/
theorem fillBlkSum_eq_ok {kernel initrd raw : List UInt8} {koff : Nat}
    (hoff : kernelRamOffset kernel = .ok koff) (h : fillBlkSum kernel initrd = .ok raw) :
    kernel.length < 2 ^ 32 ∧ initrd.length < 2 ^ 32 ∧
      raw = (bodies kernel initrd koff).flatMap withHash := by
  rw [fillBlkSum_eq] at h
  by_cases hsize : kernel.length > 0xffffffff ∨ initrd.length > 0xffffffff
  · rw [generateBlkSum, hoff, ok_bind, if_pos hsize] at h
    cases h
  · rw [generateBlkSum_eq hoff hsize] at h
    exact ⟨by omega, by omega, (Except.ok.inj h).symm⟩

/-- A BLKSUM is read back by both readers exactly if neither range is longer than `2 ^ 32 - 65536`
bytes. Above that `DecodeBlkSum` refuses what `GenerateBlkSum` wrote. -/
theorem readBack_iff {kernel initrd raw : List UInt8} {koff : Nat}
    (hoff : kernelRamOffset kernel = .ok koff) (h : fillBlkSum kernel initrd = .ok raw) :
    ReadBack kernel initrd koff raw ↔
      kernel.length - koff ≤ 2 ^ 32 - 65536 ∧ initrd.length ≤ 2 ^ 32 - 65536 := by
  obtain ⟨hkernel, hinitrd, rfl⟩ := fillBlkSum_eq_ok hoff h
  have hle := Nat.le_of_lt (kernelRamOffset_lt hoff)
  have hdecode := decode_file hkernel hinitrd hle
  constructor
  · intro hread
    have hok := hdecode.symm.trans hread.decoded
    split_ifs at hok with hk hi
    exact ⟨hk, hi⟩
  · rintro ⟨hk, hi⟩
    refine ⟨by rw [hdecode, if_pos hk, if_pos hi], fun mode => ?_,
      parseHeader_file hkernel hinitrd hle, ?_⟩
    · refine ⟨_, new_eq hoff (by omega) (by omega) mode, ?_⟩
      rw [verifyBlkSum, hoff]
      dsimp only
      rw [kernelFile, initrdFile, verifyBlkFile_self, verifyBlkFile_self, append_nil]
    · intro f hf i hi
      -- a table has as many entries as blocks, and stands where its descriptor says
      rcases mem_pair.mp hf with rfl | rfl
      · rw [kernelFile, ← length_entries] at hi
        have he := List.getElem?_eq_getElem hi
        exact ⟨_, he, entry_row length_of_mem_bodies kernel_table he⟩
      · rw [initrdFile, ← length_entries] at hi
        have he := List.getElem?_eq_getElem hi
        exact ⟨_, he, entry_row length_of_mem_bodies initrd_table he⟩

theorem exists_fillBlkSum {kernel initrd : List UInt8} {koff : Nat}
    (hoff : kernelRamOffset kernel = .ok koff) (hkernel : kernel.length ≤ 0xffffffff)
    (hinitrd : initrd.length ≤ 0xffffffff) : ∃ raw, fillBlkSum kernel initrd = .ok raw := by
  rw [fillBlkSum_eq, generateBlkSum_eq hoff (by omega)]
  exact ⟨_, rfl⟩

theorem kernelRamOffset_bzImage : kernelRamOffset (Payload.bzImage 508) = .ok 1024 := by
  decide +kernel

/-- A small kernel without an initrd. -/
theorem readBack_iff_small : ∃ raw, fillBlkSum (Payload.bzImage 508) [] = .ok raw ∧
    ReadBack (Payload.bzImage 508) [] 1024 raw := by
  obtain ⟨raw, hraw⟩ : ∃ raw, fillBlkSum (Payload.bzImage 508) [] = .ok raw :=
    exists_fillBlkSum kernelRamOffset_bzImage (by rw [Payload.length_bzImage]; decide) (by decide)
  refine ⟨raw, hraw, (readBack_iff kernelRamOffset_bzImage hraw).mpr ⟨?_, by decide⟩⟩
  rw [Payload.length_bzImage]
  decide

/-- An initrd with one byte too many, whatever is in it. -/
theorem decode_refuses_of_length {kernel initrd : List UInt8} {koff : Nat}
    (hoff : kernelRamOffset kernel = .ok koff) (hkernel : kernel.length ≤ 2 ^ 32 - 65536)
    (hinitrd : initrd.length = 2 ^ 32 - 65535) : ∃ raw, fillBlkSum kernel initrd = .ok raw ∧
      decodeBlkSum raw = .error (.blockCount 65536 (2 ^ 32 - 65535)) := by
  obtain ⟨raw, hraw⟩ := @exists_fillBlkSum kernel initrd koff hoff (by omega) (by omega)
  obtain ⟨hk, hi, rfl⟩ := fillBlkSum_eq_ok hoff hraw
  have hblocks : (initrdFile kernel initrd koff).blocks = 65536 := by
    show (initrd.length - 0 + 65535) / 65536 = 65536
    omega
  refine ⟨_, hraw, ?_⟩
  rw [decode_file hk hi (Nat.le_of_lt (kernelRamOffset_lt hoff)), if_pos (by omega),
    if_neg (by omega), hblocks, hinitrd]

/-- `DecodeBlkSum` computes no blocks instead of 65536. -/
theorem decode_refuses : ∃ raw,
    fillBlkSum (Payload.bzImage 508) (List.replicate (2 ^ 32 - 65535) 0) = .ok raw ∧
      decodeBlkSum raw = .error (.blockCount 65536 (2 ^ 32 - 65535)) :=
  decode_refuses_of_length kernelRamOffset_bzImage (by rw [Payload.length_bzImage]; decide)
    length_replicate

end ZfsBoot.Proofs.Tool.BlkSum
