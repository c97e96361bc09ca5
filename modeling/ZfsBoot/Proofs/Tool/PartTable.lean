import ZfsBoot.Tool.BootEnv

/-!
# `ZfsBoot.Proofs.Tool.PartTable`: what `GPTPartitions` reads

Entry `i` of a header is read from sector `i / entriesPerSector` of the array, at slot
`i % entriesPerSector` (`readEntry`). `mem_gptPartitions` says that the result holds the entries
so read whose type is not zero, for every index below both the number of entries and the slots of
`totalSectors` sectors. The second bound is where the 32-bit sum in `totalSectors` matters.
-/

set_option autoImplicit false

namespace ZfsBoot.Proofs.Tool

open List
open Lib ZfsBoot.Tool

variable {off index : Nat} {sector : List UInt8} {e : GptPartitionEntry} {n i : Nat}
  {img : DiskImage} {hdr : GptHeader}

/-! ### Reading bytes -/

theorem length_bytes (img : DiskImage) (off n : Nat) : (img.bytes off n).length = n := by
  rw [DiskImage.bytes, length_map, length_range]

theorem getElem_bytes (img : DiskImage) (off n : Nat) (h : i < (img.bytes off n).length) :
    (img.bytes off n)[i] = img.byte (off + i) := by
  simp [DiskImage.bytes]

theorem byteAt_bytes (img : DiskImage) (off : Nat) (h : i < n) :
    byteAt (img.bytes off n) i = (img.byte (off + i)).toNat := by
  rw [byteAt, getD_eq_getElem _ _ (by rwa [length_bytes]), getElem_bytes]

/-- A part of what was read. -/
theorem take_drop_bytes (img : DiskImage) (off : Nat) {a m : Nat} (h : a + m ≤ n) :
    ((img.bytes off n).drop a).take m = img.bytes (off + a) m := by
  refine ext_getElem ?_ fun i h₁ h₂ => ?_
  · rw [length_take, length_drop, length_bytes, length_bytes]
    omega
  · rw [getElem_take, getElem_drop, getElem_bytes, getElem_bytes, Nat.add_assoc]

theorem readAt_of_le (h : off + n ≤ img.size) :
    img.readAt off n = .ok (img.bytes off n) := by
  have := img.size_lt
  rw [DiskImage.readAt, if_neg (by omega), if_pos h]

theorem eq_bytes_of_readAt {bs : List UInt8} (h : img.readAt off n = .ok bs) :
    bs = img.bytes off n := by
  unfold DiskImage.readAt at h
  split_ifs at h
  cases h
  rfl

/-! ### The loops -/

/-- The entry at `slot` of a sector of the array. -/
def slotEntry (hdr : GptHeader) (sector : List UInt8) (slot : Nat) : GptPartitionEntry :=
  decodeGptEntry ((sector.drop (slot * hdr.partitionEntrySize)).take 128)

/-- The entry is one of those that `slotLoop` keeps from slot `i` on. -/
def InSlots (hdr : GptHeader) (sector : List UInt8) (left i index : Nat) (e : GptPartitionEntry) :
    Prop :=
  ∃ j, j < left ∧ index + j < hdr.numPartitionEntries ∧ e = slotEntry hdr sector (i + j) ∧
    isZeroGuid e.typeGuid = false

theorem inSlots_succ {left : Nat} :
    InSlots hdr sector (left + 1) i index e ↔
      (index < hdr.numPartitionEntries ∧ e = slotEntry hdr sector i ∧ isZeroGuid e.typeGuid = false) ∨
        InSlots hdr sector left (i + 1) (index + 1) e := by
  constructor
  · rintro ⟨_ | j, hj, hn, he, hz⟩
    · exact .inl ⟨hn, he, hz⟩
    · exact .inr ⟨j, by omega, by omega, by rw [he, Nat.add_right_comm, Nat.add_assoc], hz⟩
  · rintro (⟨hn, he, hz⟩ | ⟨j, hj, hn, he, hz⟩)
    · exact ⟨0, by omega, hn, he, hz⟩
    · exact ⟨j + 1, by omega, by omega, by rw [he, Nat.add_right_comm, Nat.add_assoc], hz⟩

theorem slotLoop_spec (sector : List UInt8) (left : Nat) : ∀ (i : Nat) (st : GptScan),
    st.entryIndex ≤ hdr.numPartitionEntries →
    (slotLoop hdr sector left i st).entryIndex
        = min hdr.numPartitionEntries (st.entryIndex + left) ∧
      ∀ e, e ∈ (slotLoop hdr sector left i st).out ↔
        e ∈ st.out ∨ InSlots hdr sector left i st.entryIndex e := by
  induction left with
  | zero =>
    intro i st hle
    refine ⟨by rw [slotLoop]; omega, fun e => ?_⟩
    rw [slotLoop, InSlots]
    simp
  | succ left ih =>
    intro i st hle
    rw [slotLoop]
    split
    · rename_i hlt
      obtain ⟨hindex, hmem⟩ := ih (i + 1) ⟨st.entryIndex + 1, if isZeroGuid
        (slotEntry hdr sector i).typeGuid then st.out else st.out ++ [slotEntry hdr sector i]⟩ hlt
      refine ⟨hindex.trans (by dsimp only; omega), fun e => (hmem e).trans ?_⟩
      rw [inSlots_succ, ← or_assoc]
      refine or_congr_left ?_
      cases hz : isZeroGuid (slotEntry hdr sector i).typeGuid with
      | false =>
        rw [if_neg Bool.false_ne_true, mem_append, mem_singleton]
        exact or_congr_right ⟨fun he => ⟨hlt, he, he ▸ hz⟩, fun h => h.2.1⟩
      | true =>
        rw [if_pos rfl]
        refine ⟨.inl, fun h => h.resolve_right ?_⟩
        rintro ⟨-, he, hzero⟩
        rw [he, hz] at hzero
        cases hzero
    · rename_i hge
      refine ⟨by omega, fun e => ⟨.inl, fun h => h.resolve_right ?_⟩⟩
      rintro ⟨j, -, hj, -⟩
      omega

/-- Entry `i` is read as `e`: from its sector and slot. -/
def ReadsAs (img : DiskImage) (hdr : GptHeader) (i : Nat) (e : GptPartitionEntry) : Prop :=
  ∃ sector, readArraySector img hdr (i / hdr.entriesPerSector) = .ok sector ∧
    e = slotEntry hdr sector (i % hdr.entriesPerSector)

/-- The entry is read at an index from `first` to before `limit`, and in use. -/
def Found (img : DiskImage) (hdr : GptHeader) (first limit : Nat) (e : GptPartitionEntry) : Prop :=
  ∃ i, first ≤ i ∧ i < limit ∧ i < hdr.numPartitionEntries ∧ ReadsAs img hdr i e ∧
    isZeroGuid e.typeGuid = false

/-- The slots of one sector are the indices of that sector. -/
theorem inSlots_iff_found (heps : 0 < hdr.entriesPerSector) {s : Nat}
    (hread : readArraySector img hdr s = .ok sector)
    (hindex : index = min hdr.numPartitionEntries (s * hdr.entriesPerSector)) :
    InSlots hdr sector hdr.entriesPerSector 0 index e ↔
      Found img hdr (s * hdr.entriesPerSector) ((s + 1) * hdr.entriesPerSector) e := by
  rw [Nat.add_one_mul]
  constructor
  · rintro ⟨j, hj, hn, he, hz⟩
    refine ⟨s * hdr.entriesPerSector + j, by omega, by omega, by omega, ⟨sector, ?_, ?_⟩, hz⟩
    · rw [Nat.add_comm, Nat.add_mul_div_right _ _ heps, Nat.div_eq_of_lt hj, Nat.zero_add, hread]
    · rw [Nat.add_comm, Nat.add_mul_mod_self_right, Nat.mod_eq_of_lt hj, he, Nat.zero_add]
  · rintro ⟨i, hfirst, hlimit, hn, ⟨sector', hread', he⟩, hz⟩
    obtain ⟨j, rfl⟩ := Nat.exists_eq_add_of_le hfirst
    have hj : j < hdr.entriesPerSector := by omega
    rw [Nat.add_comm, Nat.add_mul_div_right _ _ heps, Nat.div_eq_of_lt hj, Nat.zero_add,
      hread] at hread'
    cases hread'
    rw [Nat.add_comm, Nat.add_mul_mod_self_right, Nat.mod_eq_of_lt hj] at he
    exact ⟨j, hj, by omega, by rw [he, Nat.zero_add], hz⟩

theorem arrayLoop_spec (heps : 0 < hdr.entriesPerSector) (left : Nat) :
    ∀ (s : Nat) (st st' : GptScan),
      st.entryIndex = min hdr.numPartitionEntries (s * hdr.entriesPerSector) →
      arrayLoop img hdr left s st = .ok st' →
      (∀ k, k < left → ∃ sector, readArraySector img hdr (s + k) = .ok sector) ∧
      ∀ e, e ∈ st'.out ↔ e ∈ st.out ∨
        Found img hdr (s * hdr.entriesPerSector) ((s + left) * hdr.entriesPerSector) e := by
  induction left with
  | zero =>
    intro s st st' _ h
    cases h
    refine ⟨fun k hk => by omega, fun e => ⟨.inl, fun h => h.resolve_right ?_⟩⟩
    rintro ⟨i, hfirst, hlimit, -⟩
    rw [Nat.add_zero] at hlimit
    omega
  | succ left ih =>
    intro s st st' hindex h
    rw [arrayLoop] at h
    split at h
    · cases h
    · rename_i sector hread
      have hle : st.entryIndex ≤ hdr.numPartitionEntries := by omega
      obtain ⟨hindex', hmem⟩ := slotLoop_spec sector hdr.entriesPerSector 0 st hle
      obtain ⟨hreads, hmem'⟩ := ih (s + 1) _ st' (by rw [hindex', Nat.add_one_mul]; omega) h
      refine ⟨fun k hk => ?_, fun e => ?_⟩
      · cases k with
        | zero => exact ⟨sector, hread⟩
        | succ k =>
          have := hreads k (by omega)
          rwa [Nat.add_assoc, Nat.add_comm 1] at this
      · rw [hmem', hmem, inSlots_iff_found heps hread hindex, or_assoc]
        refine or_congr_right ?_
        -- the indices of this sector, then those of the rest
        have hstep : (s + 1) * hdr.entriesPerSector ≤ (s + 1 + left) * hdr.entriesPerSector :=
          Nat.mul_le_mul_right _ (by omega)
        have hstart : s * hdr.entriesPerSector ≤ (s + 1) * hdr.entriesPerSector :=
          Nat.mul_le_mul_right _ (by omega)
        rw [show s + (left + 1) = s + 1 + left by omega]
        constructor
        · rintro (⟨i, h1, h2, h3⟩ | ⟨i, h1, h2, h3⟩)
          · exact ⟨i, h1, by omega, h3⟩
          · exact ⟨i, by omega, h2, h3⟩
        · rintro ⟨i, h1, h2, h3⟩
          rcases Nat.lt_or_ge i ((s + 1) * hdr.entriesPerSector) with hi | hi
          · exact .inl ⟨i, h1, hi, h3⟩
          · exact .inr ⟨i, hi, h2, h3⟩

/-- Sectors that can be read are read. -/
theorem arrayLoop_ok (left : Nat) : ∀ (s : Nat) (st : GptScan),
    (∀ k, k < left → ∃ sector, readArraySector img hdr (s + k) = .ok sector) →
    ∃ st', arrayLoop img hdr left s st = .ok st' := by
  induction left with
  | zero => exact fun s st _ => ⟨st, rfl⟩
  | succ left ih =>
    intro s st hread
    obtain ⟨sector, hsector⟩ := hread 0 (by omega)
    rw [Nat.add_zero] at hsector
    rw [arrayLoop, hsector]
    refine ih (s + 1) _ fun k hk => ?_
    have := hread (k + 1) (by omega)
    rwa [← Nat.add_assoc, Nat.add_right_comm] at this

/-! ### `GPTPartitions` -/

/-- The headers whose array `GPTPartitions` goes through. -/
structure Supported (hdr : GptHeader) : Prop where
  size_ge : 128 ≤ hdr.partitionEntrySize
  size_le : hdr.partitionEntrySize ≤ sectorSize
  entries : 0 < hdr.numPartitionEntries

theorem Supported.entriesPerSector_pos (h : Supported hdr) : 0 < hdr.entriesPerSector :=
  Nat.div_pos h.size_le (by have := h.size_ge; omega)

/-- All slots of a sector are inside it. -/
theorem Supported.entriesPerSector_mul_le (h : Supported hdr) :
    hdr.entriesPerSector * hdr.partitionEntrySize ≤ sectorSize :=
  Nat.div_mul_le_self _ _

theorem Supported.entriesPerSector_le (h : Supported hdr) : hdr.entriesPerSector ≤ 4 := by
  have hmul := h.entriesPerSector_mul_le
  have hsize := h.size_ge
  have hsector : sectorSize = 512 := rfl
  by_contra hgt
  have := Nat.mul_le_mul (show 5 ≤ hdr.entriesPerSector by omega) hsize
  omega

theorem gptPartitions_ok {out : List GptPartitionEntry} (h : gptPartitions img hdr = .ok out) :
    Supported hdr ∧
    (∀ s, s < hdr.totalSectors → ∃ sector, readArraySector img hdr s = .ok sector) ∧
    ∀ e, e ∈ out ↔ Found img hdr 0 (hdr.totalSectors * hdr.entriesPerSector) e := by
  rw [gptPartitions] at h
  split at h
  · cases h
  · rename_i hsize
    split at h
    · cases h
    · rename_i hentries
      have hsup : Supported hdr := ⟨by omega, by omega, by omega⟩
      cases hloop : arrayLoop img hdr hdr.totalSectors 0 ⟨0, []⟩ with
      | error err =>
        rw [hloop] at h
        cases h
      | ok st =>
        rw [hloop] at h
        cases h
        obtain ⟨hreads, hmem⟩ := arrayLoop_spec hsup.entriesPerSector_pos _ 0 ⟨0, []⟩ st
          (by simp) hloop
        simp only [Nat.zero_add, Nat.zero_mul, not_mem_nil, false_or] at hreads hmem
        exact ⟨hsup, hreads, hmem⟩

theorem gptPartitions_of_readable (hsup : Supported hdr)
    (hread : ∀ s, s < hdr.totalSectors → ∃ sector, readArraySector img hdr s = .ok sector) :
    ∃ out, gptPartitions img hdr = .ok out := by
  obtain ⟨st, hst⟩ := arrayLoop_ok hdr.totalSectors 0 ⟨0, []⟩ (by simpa using hread)
  have hge := hsup.size_ge
  have hle := hsup.size_le
  have hpos := hsup.entries
  rw [gptPartitions, if_neg (by omega), if_neg (by omega), hst]
  exact ⟨_, rfl⟩

end ZfsBoot.Proofs.Tool
