import Mathlib.Data.Finset.Card
import Mathlib.Order.Interval.Finset.Nat
import ZfsBoot.Proofs.Fat.Bounds
import ZfsBoot.Proofs.Fat.Position

/-!
# `ZfsBoot.Proofs.Fat.Delivery`: what `fat_read_range` delivers

The specification is a file as a list of bytes: the clusters of its FAT chain, one after the
other (`fileData`). `fat_read_range` hands out a part of it (`fileRange`) in runs, and calls
back after each. `LogOk` says of the log of a call that it is a delivery of that part in
progress: what was copied is a first part of it, in order and without gaps, and the callback
was told so every time.

The chain is only assumed to be good for the clusters the file needs (`Intact`). The disk may
fail any read.
-/

set_option autoImplicit false

namespace ZfsBoot.Proofs.Fat

open List
open Lib Bios

variable {chain : Nat → Nat} {i b size : Nat} {new : List FatEvent} {first n c : Nat}
  {range : List UInt8} {es : List FatEvent} {δ κ : Type} {bk : Backend δ} {img : Image}
  {I : δ → Prop} {vol : FatVolume} {ps batch : Nat}

/-! ### The file on the disk -/

/-- The FAT entry of a cluster: four bytes at position `4 * c` of the FAT, less the four
reserved bits. -/
def fatEntry (img : Image) (vol : FatVolume) (c : Nat) : Nat :=
  le32 (img.sector (u64 (vol.fatStartLba + 4 * c / 512))) (4 * c % 512) % 2 ^ 28

/-- The cluster at position `i` of a file's chain. -/
def fileChain (img : Image) (vol : FatVolume) (first i : Nat) : Nat :=
  (fatEntry img vol)^[i] first

/-- The sectors of a cluster. -/
def clusterData (img : Image) (vol : FatVolume) (c : Nat) : List UInt8 :=
  img.read (clusterToLba vol c) vol.sectorsPerCluster

/-- The clusters that hold `size` bytes. -/
def clustersFor (vol : FatVolume) (size : Nat) : Nat :=
  (size + clusterBytes vol - 1) / clusterBytes vol

/-- The first `n` clusters of a chain, one after the other. -/
def fileData (img : Image) (vol : FatVolume) (first n : Nat) : List UInt8 :=
  blocks (fun i => clusterData img vol (fileChain img vol first i)) n

/-- The bytes `[offset, offset + length)` of a file. -/
def fileRange (img : Image) (vol : FatVolume) (file : FatFile) (offset length : Nat) :
    List UInt8 :=
  ((fileData img vol file.firstCluster.toNat (clustersFor vol file.size.toNat)).drop
    offset).take length

/-- The bytes along the chain that the driver's lookups give, which is the FAT's chain for every
first cluster that its 28 bits can name (`chainRange_eq`). -/
def chainData (img : Image) (vol : FatVolume) (first n : Nat) : List UInt8 :=
  blocks (fun i => clusterData img vol (chainAt img vol first i)) n

/-- The bytes `offset`, …, `offset + length - 1` of a file, as the lookups lead to them. -/
def chainRange (img : Image) (vol : FatVolume) (file : FatFile) (offset length : Nat) :
    List UInt8 :=
  ((chainData img vol file.firstCluster.toNat (clustersFor vol file.size.toNat)).drop
    offset).take length

/-- A file whose chain is long enough for its size, stays in range and does not run into
itself. -/
structure Intact (img : Image) (vol : FatVolume) (file : FatFile) : Prop where
  first_lt : file.firstCluster.toNat < 2 ^ 28
  inRange : ∀ i < clustersFor vol file.size.toNat,
    fatClusterInRange vol (fileChain img vol file.firstCluster.toNat i)
  distinct : ∀ i j, i < j → j < clustersFor vol file.size.toNat →
    fileChain img vol file.firstCluster.toNat i ≠ fileChain img vol file.firstCluster.toNat j

/-- For a 30-bit cluster number the driver's 32-bit address is the address of the entry. -/
theorem fatNext_eq_fatEntry (hm : Mounted vol ps) (hc : c < 2 ^ 30) :
    fatNext img vol c = fatEntry img vol c := by
  have hwrap : u32 (c * 4) = 4 * c := by
    rw [Nat.mul_comm]
    exact u32_of_lt (by omega)
  rw [fatNext, fatEntry, fatEntrySector, fatEntryOffset, hm.bps, hwrap, fatClusterMask]

theorem fileChain_lt (h : first < 2 ^ 30) (i : Nat) :
    fileChain img vol first i < 2 ^ 30 := by
  cases i with
  | zero => exact h
  | succ i =>
    rw [fileChain, Function.iterate_succ_apply']
    exact Nat.lt_trans (Nat.mod_lt _ (by decide)) (by decide : 2 ^ 28 < 2 ^ 30)

theorem chainAt_eq_fileChain (hm : Mounted vol ps) (h : first < 2 ^ 30) (i : Nat) :
    chainAt img vol first i = fileChain img vol first i := by
  induction i with
  | zero => rfl
  | succ i ih =>
    rw [chainAt_succ, ih, fatNext_eq_fatEntry hm (fileChain_lt h i), fileChain, fileChain,
      Function.iterate_succ_apply']

theorem chainRange_eq (hm : Mounted vol ps) {file : FatFile} (h : file.firstCluster.toNat < 2 ^ 30)
    (offset length : Nat) :
    chainRange img vol file offset length = fileRange img vol file offset length := by
  simp only [chainRange, chainData, chainAt_eq_fileChain hm h]
  rfl

/-- Clusters in range that are all different are no more than the volume has. -/
theorem distinct_le_clusters (hm : Mounted vol ps) (hin : ∀ i < n, fatClusterInRange vol (chain i))
    (hne : ∀ i j, i < j → j < n → chain i ≠ chain j) : n ≤ vol.totalClusters := by
  have hcard := Finset.card_le_card_of_injOn (s := Finset.range n)
    (t := Finset.Ico 2 (vol.totalClusters + 2)) chain ?_ ?_
  · simpa using hcard
  · intro i hmem
    rw [Finset.coe_range, Set.mem_Iio] at hmem
    rw [Finset.coe_Ico, Set.mem_Ico]
    exact (inRange_iff hm _).mp (hin i hmem)
  · intro i hmemi j hmemj heq
    rw [Finset.coe_range, Set.mem_Iio] at hmemi hmemj
    rcases Nat.lt_trichotomy i j with hlt | rfl | hlt
    · exact absurd heq (hne i j hlt hmemj)
    · rfl
    · exact absurd heq.symm (hne j i hlt hmemi)

/-- An intact chain is no longer than the volume. -/
theorem Intact.clusters_le (hm : Mounted vol ps) {file : FatFile} (hi : Intact img vol file) :
    clustersFor vol file.size.toNat ≤ vol.totalClusters :=
  distinct_le_clusters hm hi.inRange hi.distinct

/-- The protected walk accepts every hop of an intact chain. -/
theorem Intact.hopOk (hm : Mounted vol ps) {file : FatFile} (hi : Intact img vol file)
    (hlt : i + 1 < clustersFor vol file.size.toNat) :
    HopOk img vol (walkAt img vol file.firstCluster.toNat i) := by
  have hle := hi.clusters_le hm
  rw [hopOk_walkAt]
  simp only [chainAt_eq_fileChain hm (Nat.lt_trans hi.first_lt (by decide))]
  refine ⟨by omega, hi.inRange _ hlt, fun hodd => ⟨hi.inRange _ (by omega), ?_⟩⟩
  exact hi.distinct _ _ (by omega) hlt

/-! ### The log of a delivery -/

/-- The bytes an event copied. -/
def eventCopied : FatEvent → List UInt8
  | .copy _ bytes => bytes
  | _ => []

/-- The bytes an event reported to the callback. -/
def eventReported : FatEvent → Nat
  | .progress n => n
  | _ => 0

/-- The bytes copied so far, in order. -/
def copied (events : List FatEvent) : List UInt8 := events.flatMap eventCopied

/-- The sum of the counts reported so far. -/
def reported (events : List FatEvent) : Nat := (events.map eventReported).sum

theorem copied_cons (e : FatEvent) (es : List FatEvent) :
    copied (e :: es) = eventCopied e ++ copied es := flatMap_cons

@[simp] theorem copied_append (es es' : List FatEvent) :
    copied (es ++ es') = copied es ++ copied es' := flatMap_append

@[simp] theorem reported_append (es es' : List FatEvent) :
    reported (es ++ es') = reported es + reported es' := by
  simp [reported]

/-- The log of a delivery of `range` to `dst`. -/
structure LogOk (range : List UInt8) (dst : Nat) (events : List FatEvent) : Prop where
  bounded : reported events ≤ range.length
  copied : copied events = range.take (reported events)
  calls : ∀ i n, events[i]? = some (.progress n) →
    Fat.copied (events.take i) = range.take (reported (events.take i) + n) ∧
    reported (events.take i) + n ≤ range.length
  placed : ∀ i d bytes, events[i]? = some (.copy d bytes) →
    d = u32 (dst + (Fat.copied (events.take i)).length)

theorem logOk_nil (range : List UInt8) (dst : Nat) : LogOk range dst [] := by
  refine ⟨Nat.zero_le _, rfl, ?_, ?_⟩ <;> intro i <;> simp

theorem LogOk.copied_length {dst : Nat}
    (h : LogOk range dst es) : (Fat.copied es).length = reported es := by
  rw [h.copied, length_take, Nat.min_eq_left h.bounded]

/-- A log that grows keeps what it says about the events it had. -/
theorem LogOk.append {dst : Nat}
    (h : LogOk range dst es) (hb : reported (es ++ new) ≤ range.length)
    (hc : Fat.copied (es ++ new) = range.take (reported (es ++ new)))
    (hcalls : ∀ k n, new[k]? = some (.progress n) →
      Fat.copied (es ++ new.take k) = range.take (reported (es ++ new.take k) + n) ∧
      reported (es ++ new.take k) + n ≤ range.length)
    (hplaced : ∀ k d bytes, new[k]? = some (.copy d bytes) →
      d = u32 (dst + (Fat.copied (es ++ new.take k)).length)) :
    LogOk range dst (es ++ new) := by
  have htake (k : Nat) : (es ++ new).take (es.length + k) = es ++ new.take k := by
    rw [take_length_add_append]
  refine ⟨hb, hc, ?_, ?_⟩
  · intro i n hi
    by_cases hlt : i < es.length
    · rw [List.getElem?_append_left hlt] at hi
      rw [take_append_of_le_length (Nat.le_of_lt hlt)]
      exact h.calls i n hi
    · obtain ⟨k, rfl⟩ := Nat.exists_eq_add_of_le (Nat.le_of_not_lt hlt)
      rw [List.getElem?_append_right (by omega), Nat.add_sub_cancel_left] at hi
      rw [htake]
      exact hcalls k n hi
  · intro i d bytes hi
    by_cases hlt : i < es.length
    · rw [List.getElem?_append_left hlt] at hi
      rw [take_append_of_le_length (Nat.le_of_lt hlt)]
      exact h.placed i d bytes hi
    · obtain ⟨k, rfl⟩ := Nat.exists_eq_add_of_le (Nat.le_of_not_lt hlt)
      rw [List.getElem?_append_right (by omega), Nat.add_sub_cancel_left] at hi
      rw [htake]
      exact hplaced k d bytes hi

/-- A call that delivers the rest of the range, after one that stopped. -/
theorem LogOk.resume {dst : Nat} (h : LogOk range dst es)
    (hnew : LogOk (range.drop (reported es)) (u32 (dst + reported es)) new) :
    LogOk range dst (es ++ new) := by
  have hb := h.bounded
  have hb' := hnew.bounded
  rw [length_drop] at hb'
  -- the part of the range that both have copied
  have htake (n : Nat) : Fat.copied es ++ (range.drop (reported es)).take n =
      range.take (reported es + n) := by
    rw [h.copied, take_add]
  refine h.append (by rw [reported_append]; omega) ?_ ?_ ?_
  · rw [copied_append, reported_append, hnew.copied, htake]
  · intro k n hk
    obtain ⟨hcopied, hle⟩ := hnew.calls k n hk
    rw [length_drop] at hle
    rw [copied_append, reported_append, hcopied, htake, Nat.add_assoc]
    exact ⟨rfl, by omega⟩
  · intro k d bytes hk
    rw [hnew.placed k d bytes hk, copied_append, length_append, h.copied_length, u32_add_u32,
      Nat.add_assoc]

/-- Requests alone deliver nothing. -/
theorem Reads.quiet {st st' : FatRun δ} (hr : Reads vol ps st st') :
    copied st'.events = copied st.events ∧ reported st'.events = reported st.events := by
  obtain ⟨new, hnew, hin⟩ := hr.log
  have hquiet : ∀ e ∈ new, eventCopied e = [] ∧ eventReported e = 0 := by
    intro e he
    obtain ⟨lba, n, ok, rfl, -⟩ := hin e he
    exact ⟨rfl, rfl⟩
  have hcopied : copied new = [] := flatMap_eq_nil_iff.mpr fun e he => (hquiet e he).1
  have hreported : reported new = 0 := by
    rw [reported, List.sum_eq_zero_iff_forall_eq_nat]
    intro n hn
    obtain ⟨e, he, rfl⟩ := List.mem_map.mp hn
    exact (hquiet e he).2
  rw [hnew, copied_append, reported_append, hcopied, hreported, append_nil, Nat.add_zero]
  exact ⟨rfl, rfl⟩

theorem LogOk.reads {dst : Nat} {st st' : FatRun δ}
    (h : LogOk range dst st.events) (hr : Reads vol ps st st') :
    LogOk range dst st'.events ∧ reported st'.events = reported st.events := by
  obtain ⟨hcopied, hreported⟩ := hr.quiet
  refine ⟨?_, hreported⟩
  obtain ⟨new, hnew, hin⟩ := hr.log
  rw [hnew] at hcopied hreported ⊢
  refine h.append (by rw [hreported]; exact h.bounded)
    (by rw [hcopied, hreported]; exact h.copied) ?_ ?_
  · intro k n hk
    obtain ⟨lba, n', ok, heq, -⟩ := hin _ (mem_of_getElem? hk)
    cases heq
  · intro k d bytes hk
    obtain ⟨lba, n', ok, heq, -⟩ := hin _ (mem_of_getElem? hk)
    cases heq

/-- A request, the copy of the next part of the range and the report of it. -/
theorem LogOk.delivered {data : List UInt8} {dst lba d bytes : Nat} {ok : Bool}
    (h : LogOk range dst es) (hd : d = u32 (dst + reported es))
    (hdata : data = (range.drop (reported es)).take bytes)
    (hle : reported es + bytes ≤ range.length) :
    LogOk range dst (es ++ [.read lba n ok, .copy d data, .progress bytes]) := by
  have hcopied : Fat.copied (es ++ [.read lba n ok, .copy d data])
      = range.take (reported es + bytes) := by
    rw [copied_append, h.copied, take_add, hdata]
    simp [Fat.copied, eventCopied]
  have hzero : reported (es ++ [.read lba n ok, .copy d data]) = reported es := by
    simp [reported, eventReported]
  have htotal : reported (es ++ [.read lba n ok, .copy d data, .progress bytes])
      = reported es + bytes := by
    simp [reported, eventReported]
  refine h.append (by omega) ?_ ?_ ?_
  · rw [htotal, ← hcopied]
    simp [Fat.copied, eventCopied]
  · -- the only call is the last event
    intro k n' hk
    match k with
    | 0 => simp at hk
    | 1 => simp at hk
    | 2 =>
      simp only [List.getElem?_cons_succ, List.getElem?_cons_zero, Option.some.injEq,
        FatEvent.progress.injEq] at hk
      subst hk
      simp only [take_succ_cons, take_zero]
      rw [hzero]
      exact ⟨hcopied, hle⟩
    | k + 3 => simp at hk
  · intro k d' bytes' hk
    match k with
    | 0 => simp at hk
    | 1 =>
      simp only [List.getElem?_cons_succ, List.getElem?_cons_zero, Option.some.injEq,
        FatEvent.copy.injEq] at hk
      simp only [take_succ_cons, take_zero]
      rw [copied_append, length_append, h.copied_length, ← hk.1, hd]
      simp [Fat.copied, eventCopied]
    | 2 => simp at hk
    | k + 3 => simp at hk

/-! ### The bytes of a run -/

theorem Image.getElem?_read (img : Image) (lba : Nat) {k : Nat} (hk : k < n * 512) :
    (img.read lba n)[k]? = (img.sector (u64 (lba + k / 512)))[k % 512]? :=
  getElem?_blocks (f := fun i => img.sector (u64 (lba + i))) (fun _ => img.length_sector _) hk

theorem Image.length_read (img : Image) (lba n : Nat) : (img.read lba n).length = n * 512 :=
  length_blocks (f := fun i => img.sector (u64 (lba + i))) (fun _ => img.length_sector _) n

theorem length_clusterData (img : Image) (vol : FatVolume) (c : Nat) :
    (clusterData img vol c).length = clusterBytes vol := by
  rw [clusterData, Image.length_read, clusterBytes, Nat.mul_comm]

/-- A byte of a file is a byte of a sector of a cluster. -/
theorem getElem?_chainData (hspc : 0 < vol.sectorsPerCluster) (hb : b < n * clusterBytes vol) :
    (chainData img vol first n)[b]? = (img.sector (u64 (clusterToLba vol
      (chainAt img vol first (b / clusterBytes vol)) + b % clusterBytes vol / 512)))[b % 512]? := by
  have hlt : b % clusterBytes vol < vol.sectorsPerCluster * 512 := by
    rw [Nat.mul_comm]
    exact Nat.mod_lt _ (Nat.mul_pos (by decide) hspc)
  rw [chainData, getElem?_blocks (fun _ => length_clusterData img vol _) hb, clusterData,
    Image.getElem?_read _ _ hlt, clusterBytes, Nat.mod_mod_of_dvd b (Nat.dvd_mul_right 512 _)]

theorem le_clusters (hspc : 0 < vol.sectorsPerCluster) (size : Nat) :
    size ≤ clustersFor vol size * clusterBytes vol := by
  have hcb : 0 < clusterBytes vol := Nat.mul_pos (by decide) hspc
  have := Nat.lt_mul_div_succ (size + clusterBytes vol - 1) hcb
  rw [Nat.mul_add, Nat.mul_one, Nat.mul_comm (clusterBytes vol)] at this
  unfold clustersFor
  omega

/-- A range of a file has its length, whatever chain its clusters are on. -/
theorem length_range (img : Image) {offset length : Nat}
    (hspc : 0 < vol.sectorsPerCluster) (hsize : offset + length ≤ size) :
    (((blocks (fun i => clusterData img vol (chain i)) (clustersFor vol size)).drop
      offset).take length).length = length := by
  have hlen := length_blocks (fun i => length_clusterData img vol (chain i)) (clustersFor vol size)
  have hceil := le_clusters hspc size
  rw [length_take, length_drop, hlen]
  omega

theorem length_fileRange (img : Image) {file : FatFile} {offset length : Nat}
    (hspc : 0 < vol.sectorsPerCluster) (hsize : offset + length ≤ file.size.toNat) :
    (fileRange img vol file offset length).length = length :=
  length_range img hspc hsize

theorem length_chainRange (img : Image) {file : FatFile} {offset length : Nat}
    (hspc : 0 < vol.sectorsPerCluster) (hsize : offset + length ≤ file.size.toNat) :
    (chainRange img vol file offset length).length = length :=
  length_range img hspc hsize

/-- A byte below the file's size is in one of its clusters. -/
theorem div_lt_clustersFor (hspc : 0 < vol.sectorsPerCluster) (hb : b < size) :
    b / clusterBytes vol < clustersFor vol size := by
  have hcb : 0 < clusterBytes vol := Nat.mul_pos (by decide) hspc
  rw [Nat.div_lt_iff_lt_mul hcb]
  exact Nat.lt_of_lt_of_le hb (le_clusters hspc size)

section Run

variable {file : FatFile} {offset length dst bytes needed j : Nat} {s : RangeLoop δ κ}
  {st : FatRun δ}

/-- What a run puts in the staging buffer is the next part of the file. -/
theorem run_data (hm : Mounted vol ps) (hsize : offset + length ≤ file.size.toNat)
    (hs : OnChain img I vol file.firstCluster.toNat offset length dst s)
    (hp : Plan bk img I vol ps batch s bytes needed st j) (hrem : 0 < s.remaining)
    (buf : List UInt8) :
    ((overlay (img.read (requestLba vol s) needed) buf).drop s.sectorOff).take bytes =
      ((chainRange img vol file offset length).drop (length - s.remaining)).take bytes := by
  have hspc := hm.spc_pos
  have hleft := hs.left
  have hle := hp.bytes_le
  have hcovers := hp.covers
  have hwithin := hp.within
  rw [chainRange, take_drop_take_drop (by omega)]
  refine ext_getElem? (fun i => ?_)
  rw [List.getElem?_take, List.getElem?_take]
  split
  · rename_i hlt
    have hread : s.sectorOff + i < needed * 512 := by omega
    have hbyte : offset + (length - s.remaining) + i
        < clustersFor vol file.size.toNat * clusterBytes vol :=
      Nat.lt_of_lt_of_le (by omega) (le_clusters hspc file.size.toNat)
    rw [List.getElem?_drop, List.getElem?_drop, overlay,
      List.getElem?_append_left (by rw [Image.length_read]; exact hread),
      Image.getElem?_read _ _ hread, getElem?_chainData hspc hbyte]
    -- both sides are a byte of a sector; compare their coordinates
    obtain ⟨p, hpdef⟩ : ∃ p, p = (offset + (length - s.remaining)) / clusterBytes vol := ⟨_, rfl⟩
    obtain ⟨g, hg⟩ : ∃ g, g = (s.sectorOff + i) / 512 := ⟨_, rfl⟩
    have hpos := hs.position hrem
    rw [← hpdef] at hpos
    have hsum : offset + (length - s.remaining) + i = (p * vol.sectorsPerCluster
        + (s.sectorInCluster + g)) * 512 + (s.sectorOff + i) % 512 := by
      rw [hpos, hg]
      omega
    have hsplit := position_split (q := p) (k := s.sectorInCluster + g) hspc
      (Nat.mod_lt (s.sectorOff + i) (by decide : 0 < 512))
    have hq : (s.sectorInCluster + g) / vol.sectorsPerCluster ≤ j := by
      have : s.sectorInCluster + g < (j + 1) * vol.sectorsPerCluster := by omega
      exact Nat.lt_succ_iff.mp ((Nat.div_lt_iff_lt_mul hspc).mpr this)
    have hchain := hs.consecutive hp hrem _ hq
    rw [← hpdef] at hchain
    rw [hsum, show clusterBytes vol = 512 * vol.sectorsPerCluster from rfl, hsplit.1, hsplit.2,
      hchain, ← hg]
    have hmod : ((p * vol.sectorsPerCluster + (s.sectorInCluster + g)) * 512
        + (s.sectorOff + i) % 512) % 512 = (s.sectorOff + i) % 512 := by omega
    have hdiv : ((s.sectorInCluster + g) % vol.sectorsPerCluster * 512
        + (s.sectorOff + i) % 512) / 512 = (s.sectorInCluster + g) % vol.sectorsPerCluster := by
      omega
    rw [hmod, hdiv, clusterToLba_add hm hs.placed.walk.cluster (hp.inRange _ hq),
      Nat.div_add_mod', requestLba, u64_add_u64, Nat.add_assoc]
  · rfl

end Run

/-! ### The call as a whole -/

/-- How a call of `fat_read_range` for `length` bytes can end. -/
structure RangePost (range : List UInt8) (dst length : Nat) (r : Bool × κ × FatRun δ) :
    Prop where
  log : LogOk range dst r.2.2.events
  success : r.1 = true → reported r.2.2.events = length
  failure : r.1 = false → r.2.2.m.err.remaining = length - reported r.2.2.events
  cause : r.1 = false → ReadFailed r.2.2.events

section Call

variable {file : FatFile} {offset length dst bytes needed j : Nat} {s : RangeLoop δ κ}
  {st mid : FatRun δ} {progress : Option (Progress δ κ)} {data : List UInt8}

/-- A delivery continues the log by the part of the range that comes next. -/
theorem logOk_delivered (hm : Mounted vol ps) (hbatch : batch < 2 ^ 16) (hsize : offset + length ≤ file.size.toNat)
    (hs : OnChain img I vol file.firstCluster.toNat offset length dst s)
    (hp : Plan bk img I vol ps batch s bytes needed st j) (hrem : 0 < s.remaining)
    (hsome : progress.isSome) (hlog : LogOk (chainRange img vol file offset length) dst st.events)
    (hrep : reported st.events = length - s.remaining)
    (hd : Delivered img I vol progress s bytes needed st mid data) :
    LogOk (chainRange img vol file offset length) dst mid.events ∧
      reported mid.events = length - (s.remaining - bytes) := by
  have hle := hp.bytes_le
  have hleft := hs.left
  have hneeded := hp.needed_le
  have hevents := hd.log
  rw [progressLog, if_pos hsome] at hevents
  have hdata := hd.data (hp.ready hs.ready)
  rw [u16_of_lt (by omega), run_data hm hsize hs hp hrem, ← hrep] at hdata
  have hlen := length_chainRange img hm.spc_pos hsize
  rw [hevents]
  refine ⟨hlog.delivered (by rw [hs.dst, hrep]) hdata (by omega), ?_⟩
  rw [reported_append, hrep]
  simp only [reported, eventReported, map_cons, map_nil, sum_cons, sum_nil]
  omega

/-- A walk over an intact chain stops for a failed read only. -/
theorem readFailed_of_stopped (hm : Mounted vol ps) (hi : Intact img vol file)
    {w : FatChainWalk} {st' : FatRun δ} (hready : Ready img I st.m)
    (hlt : first + n < clustersFor vol file.size.toNat)
    (hw : WalkPost bk img I vol ps n (walkAt img vol file.firstCluster.toNat first) st
      (false, w, st')) : ReadFailed st'.events := by
  rcases hw.stopped hready rfl with hfail | ⟨i, hin, hbad⟩
  · exact hfail.logged
  · rw [iterate_walkNext] at hbad
    exact absurd (hi.hopOk hm (by omega)) hbad

end Call

/-! ### One landing -/

/-- The callback, if there is one, on its context and the machine. -/
def called (progress : Option (Progress δ κ)) (n : Nat) (ctx : κ) (m : Machine δ) :
    κ × Machine δ :=
  match progress with
  | none => (ctx, m)
  | some f => f n ctx m

theorem deliver_called (progress : Option (Progress δ κ)) (bytes : Nat) (s : RangeLoop δ κ)
    (st : FatRun δ) :
    ((deliver progress bytes s st).1, (deliver progress bytes s st).2.m) =
      called progress bytes s.ctx
        (unrealCopy s.dstPhys ((st.m.ioBuf.drop s.sectorOff).take bytes) st.m) := by
  unfold deliver callProgress called
  cases progress <;> rfl

/-- The bytes that a delivery copies are the ones in its log. -/
theorem Delivered.copied_eq {progress : Option (Progress δ κ)} {s : RangeLoop δ κ}
    {st : FatRun δ} {bytes needed : Nat} {data : List UInt8}
    (h : Delivered img I vol progress s bytes needed st
      (deliver progress bytes s (staged bk vol needed s st)).2 data) :
    ((staged bk vol needed s st).m.ioBuf.drop s.sectorOff).take bytes = data := by
  have hlog := h.log
  rw [events_deliver] at hlog
  have hstaged : (staged bk vol needed s st).events = st.events ++
      [.read (requestLba vol s) (u16 needed)
        (st.read bk (requestLba vol s) (u16 needed)).1.ok] := rfl
  rw [hstaged, append_assoc, singleton_append, append_cancel_left_eq,
    cons.injEq, cons.injEq, FatEvent.copy.injEq] at hlog
  exact hlog.2.1.2

/-! ### The rule -/

/-- What leaves RAM alone keeps `J`, an invariant over the context, the machine and the number of
bytes that have landed. -/
def KeptQuietly (img : Image) (I : δ → Prop) (J : κ → Machine δ → Nat → Prop) : Prop :=
  ∀ c m m' d, J c m d → m'.ram = m.ram → Ready img I m' → J c m' d

/-- A landing of the next bytes of `range` keeps `J`, together with the callback after it. -/
def KeptByLandings (img : Image) (I : δ → Prop) (progress : Option (Progress δ κ))
    (range : List UInt8) (dst : Nat) (J : κ → Machine δ → Nat → Prop) : Prop :=
  ∀ c m d n c' m', J c m d → Ready img I m → 0 < n → d + n ≤ range.length →
    called progress n c (unrealCopy (u32 (dst + d)) ((range.drop d).take n) m) = (c', m') →
    J c' m' (d + n) ∧ Ready img I m'

/-- How a call of `fat_read_range` for `length` bytes ends: `landed` of them have landed. -/
structure Landed (img : Image) (I : δ → Prop) (progress : Option (Progress δ κ))
    (range : List UInt8) (dst length landed : Nat) (J : κ → Machine δ → Nat → Prop)
    (r : Bool × κ × FatRun δ) : Prop where
  ready : Ready img I r.2.2.m
  le : landed ≤ length
  inv : J r.2.1 r.2.2.m landed
  success : r.1 = true → landed = length
  log : progress.isSome → LogOk range dst r.2.2.events ∧ reported r.2.2.events = landed

section Rule

variable {bytes needed j : Nat} {data : List UInt8} {file : FatFile}
  {offset length dst : UInt32} {progress : Option (Progress δ κ)} {J : κ → Machine δ → Nat → Prop}

/-- What one delivery does to the invariant. -/
theorem keeps_deliver (hquiet : KeptQuietly img I J)
    (hlands : KeptByLandings img I progress (chainRange img vol file offset.toNat length.toNat)
      dst.toNat J) (hf : bk.Faithful img I) (hm : Mounted vol ps) (hbatch : batch < 2 ^ 16)
    (hsize : offset.toNat + length.toNat ≤ file.size.toNat) {s : RangeLoop δ κ}
    {st : FatRun δ}
    (hs : OnChain img I vol file.firstCluster.toNat offset.toNat length.toNat dst.toNat s)
    (hp : Plan bk img I vol ps batch s bytes needed st j) (hrem : 0 < s.remaining)
    (hi : J s.ctx s.st.m (length.toNat - s.remaining))
    (hd : Delivered img I vol progress s bytes needed st
      (deliver progress bytes s (staged bk vol needed s st)).2 data) :
    J (deliver progress bytes s (staged bk vol needed s st)).1
        (deliver progress bytes s (staged bk vol needed s st)).2.m
        (length.toNat - (s.remaining - bytes)) ∧
      Ready img I (deliver progress bytes s (staged bk vol needed s st)).2.m := by
  have hready := hp.ready hs.ready
  have hstaged : Ready img I (staged bk vol needed s st).m := (hready.read hf _ _).stage _
  have hneeded := hp.needed_le
  have hpos := hp.bytes_pos
  have hle := hp.bytes_le
  have hleft := hs.left
  have hdata := hd.data hready
  rw [u16_of_lt (by omega), run_data hm hsize hs hp hrem] at hdata
  have hi' : J s.ctx (staged bk vol needed s st).m (length.toNat - s.remaining) :=
    hquiet _ _ _ _ hi (show st.m.ram = s.st.m.ram from hp.reads.ram) hstaged
  have hcall := deliver_called progress bytes s (staged bk vol needed s st)
  rw [hd.copied_eq, hdata, hs.dst] at hcall
  have hstep := hlands _ _ _ bytes _ _ hi' hstaged (by omega)
    (by rw [length_chainRange img hm.spc_pos hsize]; omega) hcall.symm
  rwa [show length.toNat - s.remaining + bytes = length.toNat - (s.remaining - bytes) by omega]
    at hstep

/-- A range within the file, of at least one byte. If the call fails, the error says how much is
left, and in an intact file a read has failed. -/
theorem readRange_lands_inside (hquiet : KeptQuietly img I J)
    (hlands : KeptByLandings img I progress (chainRange img vol file offset.toNat length.toNat)
      dst.toNat J) (hf : bk.Faithful img I) (hm : Mounted vol ps) (h1 : 1 ≤ batch)
    (hbatch : batch < 2 ^ 16) {ctx : κ} {m : Machine δ} (hready : Ready img I m) (h0 : J ctx m 0)
    (hsize : offset.toNat + length.toNat ≤ file.size.toNat) (hlen : 0 < length.toNat)
    (hfirst : fatClusterInRange vol file.firstCluster.toNat) :
    ∃ r, fatReadRange bk vol batch file offset length dst progress ctx m = some r ∧
      ∃ landed, Landed img I progress (chainRange img vol file offset.toNat length.toNat) dst.toNat
        length.toNat landed J r ∧ (r.1 = false → r.2.2.m.err.remaining = length.toNat - landed ∧
          (Intact img vol file → ReadFailed r.2.2.events)) := by
  have hspc := hm.spc_pos
  have hclear : Ready img I m.start.clearError.m := ⟨hready.disk, hready.cache, hready.cache2⟩
  have hnil : LogOk (chainRange img vol file offset.toNat length.toNat) dst.toNat
      m.start.clearError.events := logOk_nil _ _
  refine readRange_passes hf hm h1 (by omega) hready hsize hlen hfirst
    (fun s => J s.ctx s.st.m (length.toNat - s.remaining) ∧ (progress.isSome →
      LogOk (chainRange img vol file offset.toNat length.toNat) dst.toNat s.st.events ∧
        reported s.st.events = length.toNat - s.remaining)) _ ?_ ?_ ?_ ?_ ?_
  · intro w st hw
    have hskips : 0 + offset.toNat / clusterBytes vol < clustersFor vol file.size.toNat := by
      rw [Nat.zero_add]
      exact div_lt_clustersFor hspc (by omega)
    refine ⟨0, ⟨(hw.ready hclear).setRemaining _, Nat.zero_le _, ?_, by simp, fun _ => ?_⟩,
      fun _ => ⟨rfl, fun hi => ?_⟩⟩
    · exact hquiet _ _ _ _ h0 hw.reads.ram ((hw.ready hclear).setRemaining _)
    · show LogOk _ _ st.events ∧ reported st.events = 0
      exact hnil.reads hw.reads
    · show ReadFailed st.events
      exact readFailed_of_stopped hm hi hclear hskips hw
  · intro s hs hrem hctx hw
    rw [hrem, Nat.sub_self, hctx]
    exact ⟨hquiet _ _ _ _ h0 hw.reads.ram (hw.ready hclear), fun _ => hnil.reads hw.reads⟩
  · intro s hs hi hrem
    rw [hrem, Nat.sub_zero] at hi
    exact ⟨length.toNat, ⟨hs.ready, Nat.le_refl _, hi.1, fun _ => rfl, hi.2⟩, by simp⟩
  · intro s bytes needed st j data hs hi hrem hp hd
    exact (keeps_deliver hquiet hlands hf hm hbatch hsize hs hp hrem hi.1 hd).2
  · intro s bytes needed st j step hs hi hrem hp hr
    have hlog1 (hsome : progress.isSome) := (hi.2 hsome).1.reads hp.reads
    have hleft := hs.left
    have hready1 := hp.ready hs.ready
    cases hr with
    | readFailed st' log ready cause left ram =>
      -- nothing landed, and the failed request is the only news in the log
      refine ⟨length.toNat - s.remaining, ⟨ready hready1, Nat.sub_le _ _, ?_, by simp,
        fun hsome => ?_⟩, fun _ => ⟨left.trans (by omega), fun _ => (cause hready1).logged⟩⟩
      · exact hquiet _ _ _ _ hi.1 (ram.trans hp.reads.ram) (ready hready1)
      · have hreads : Reads vol ps st
            { st' with m := { st'.m with ram := st.m.ram, ioBuf := st.m.ioBuf } } := by
          refine ⟨rfl, rfl, _, log, ?_⟩
          intro e he
          rw [mem_singleton.mp he]
          exact ⟨_, _, _, rfl, hp.inside hm⟩
        obtain ⟨hlog2, hrep2⟩ := (hlog1 hsome).1.reads hreads
        exact ⟨hlog2, hrep2.trans ((hlog1 hsome).2.trans (hi.2 hsome).2)⟩
    | stopped st' data w delivered walk =>
      obtain ⟨hinv, hmid⟩ :=
        keeps_deliver hquiet hlands hf hm hbatch hsize hs hp hrem hi.1 delivered
      refine ⟨length.toNat - (s.remaining - bytes), ⟨(walk.ready hmid).setRemaining _,
        Nat.sub_le _ _, ?_, by simp, fun hsome => ?_⟩, fun _ => ⟨?_, fun hi => ?_⟩⟩
      · exact hquiet _ _ _ _ hinv walk.reads.ram ((walk.ready hmid).setRemaining _)
      · obtain ⟨hlog2, hrep2⟩ := logOk_delivered hm hbatch hsize hs hp hrem hsome
          (hlog1 hsome).1 ((hlog1 hsome).2.trans (hi.2 hsome).2) delivered
        obtain ⟨hlog3, hrep3⟩ := hlog2.reads walk.reads
        exact ⟨hlog3, hrep3.trans hrep2⟩
      · show s.remaining - bytes = _
        omega
      · -- the walk hops only while bytes are left, so it stays among the file's clusters
        rw [hs.walk hrem] at walk
        show ReadFailed st'.events
        refine readFailed_of_stopped hm hi hmid ?_ walk
        by_cases hmore : s.remaining - bytes > 0
        · rw [hopsAfter, if_pos hmore]
          have hsplit := position_split (r := 0)
            (q := (offset.toNat + (length.toNat - s.remaining)) / clusterBytes vol)
            (k := s.sectorInCluster + needed) hspc (by decide)
          rw [← hsplit.1, ← hs.advanced hp (by omega)]
          exact div_lt_clustersFor hspc (by omega)
        · rw [hopsAfter, if_neg hmore, Nat.add_zero]
          exact div_lt_clustersFor hspc (by omega)
    | next data s' delivered walk remaining sector offset dst ctx =>
      obtain ⟨hinv, hmid⟩ :=
        keeps_deliver hquiet hlands hf hm hbatch hsize hs hp hrem hi.1 delivered
      refine ⟨?_, fun hsome => ?_⟩
      · rw [remaining, ctx]
        exact hquiet _ _ _ _ hinv walk.reads.ram (walk.ready hmid)
      · obtain ⟨hlog2, hrep2⟩ := logOk_delivered hm hbatch hsize hs hp hrem hsome
          (hlog1 hsome).1 ((hlog1 hsome).2.trans (hi.2 hsome).2) delivered
        obtain ⟨hlog3, hrep3⟩ := hlog2.reads walk.reads
        exact ⟨hlog3, hrep3.trans (by rw [hrep2, remaining])⟩

end Rule

/-- `fat_read_range` on an intact file, for a range of at least one byte. -/
theorem readRange_delivers (hf : bk.Faithful img I) (hm : Mounted vol ps) (h1 : 1 ≤ batch)
    (hbatch : batch < 2 ^ 16) {file : FatFile} (hi : Intact img vol file) {offset length : UInt32}
    (hsize : offset.toNat + length.toNat ≤ file.size.toNat) (hlen : 0 < length.toNat) (dst : UInt32)
    {progress : Option (Progress δ κ)} (hk : Keeps img I progress) (hsome : progress.isSome)
    (ctx : κ) {m : Machine δ} (hready : Ready img I m) :
    ∃ r, fatReadRange bk vol batch file offset length dst progress ctx m = some r ∧
      RangePost (fileRange img vol file offset.toNat length.toNat) dst.toNat length.toNat r := by
  have hpos : 0 < clustersFor vol file.size.toNat :=
    Nat.lt_of_le_of_lt (Nat.zero_le _) (div_lt_clustersFor hm.spc_pos (b := 0) (by omega))
  have hlands : KeptByLandings img I progress (chainRange img vol file offset.toNat length.toNat)
      dst.toNat fun _ _ _ => True := by
    intro c m d n c' m' _ hready _ _ hcall
    obtain ⟨f, rfl⟩ := Option.isSome_iff_exists.mp hsome
    refine ⟨trivial, ?_⟩
    rw [show m' = (f n c _).2 from (congrArg Prod.snd hcall).symm]
    exact hk f rfl n c _ ⟨hready.disk, hready.cache, hready.cache2⟩
  obtain ⟨r, hr, landed, hlanded, hfails⟩ :
      ∃ r, fatReadRange bk vol batch file offset length dst progress ctx m = some r ∧ _ :=
    readRange_lands_inside (fun _ _ _ _ _ _ _ => trivial) hlands hf hm h1 hbatch hready trivial
      hsize hlen (by simpa [fileChain] using hi.inRange 0 hpos)
  obtain ⟨hlog, hreported⟩ := hlanded.log hsome
  rw [← chainRange_eq hm (Nat.lt_trans hi.first_lt (by decide))]
  exact ⟨r, hr, hlog, fun hok => hreported.trans (hlanded.success hok),
    fun hbad => by rw [hreported]; exact (hfails hbad).1, fun hbad => (hfails hbad).2 hi⟩

/-- What a call of `fat_read_range` delivers, at every moment of it. `m` is any machine of a
boot that mounted the volume; the disk may fail any read; the callback may do anything but
spoil the caches. At the `i`-th event, if it is a call of the callback, the bytes copied
before it are the first bytes of the range, as many as were reported up to and with that
call, and every copy went right behind the one before it. -/
theorem readRange_delivers_range (hf : bk.Faithful img I) (h1 : 1 ≤ batch) (hbatch : batch ≤ 65535)
    {m : Machine δ} (hm : Session bk img I vol batch m) {file : FatFile} (hi : Intact img vol file)
    {offset length : UInt32} (hsize : offset.toNat + length.toNat ≤ file.size.toNat) (dst : UInt32)
    {callback : Progress δ κ} (hk : Keeps img I (some callback)) (ctx : κ) :
    ∃ ok ctx' st,
      fatReadRange bk vol batch file offset length dst (some callback) ctx m
        = some (ok, ctx', st) ∧
      (∀ i n, st.events[i]? = some (.progress n) →
        copied (st.events.take i) = (fileRange img vol file offset.toNat length.toNat).take
          (reported (st.events.take (i + 1))) ∧
        (copied (st.events.take i)).length = reported (st.events.take (i + 1))) ∧
      (∀ i d bytes, st.events[i]? = some (.copy d bytes) →
        d = u32 (dst.toNat + (copied (st.events.take i)).length)) ∧
      (ok = true → copied st.events = fileRange img vol file offset.toNat length.toNat) ∧
      (ok = false → st.m.err.remaining = length.toNat - reported st.events) ∧
      (¬ ReadFailed st.events → ok = true) := by
  obtain ⟨⟨ps, hvol⟩, hready⟩ := session_ready hf h1 (by omega) hm
  have hlength := length_fileRange img hvol.spc_pos hsize
  by_cases hlen : length.toNat = 0
  · obtain rfl : length = 0 := UInt32.toNat_inj.mp hlen
    refine ⟨true, ctx, m.start.clearError, ?_, ?_, ?_, ?_, by simp, by simp⟩
    · have hspc := hvol.spc_pos
      unfold fatReadRange
      dsimp only
      rw [if_neg (by rw [hvol.bps]; omega), if_neg (inside_iff.mpr hsize), if_pos rfl]
    · simp [Machine.start, FatRun.clearError]
    · simp [Machine.start, FatRun.clearError]
    · intro _
      exact (eq_nil_of_length_eq_zero hlength).symm
  · obtain ⟨⟨ok, ctx', st⟩, hres, hpost⟩ := readRange_delivers hf hvol h1 (by omega) hi hsize
      (Nat.pos_of_ne_zero hlen) dst hk rfl ctx hready
    refine ⟨ok, ctx', st, hres, ?_, hpost.log.placed, ?_, hpost.failure, ?_⟩
    · intro i n hn
      obtain ⟨hcopied, hle⟩ := hpost.log.calls i n hn
      have hnext : reported (st.events.take (i + 1)) = reported (st.events.take i) + n := by
        rw [take_add_one, hn, reported_append]
        simp [reported, eventReported]
      rw [hnext, hcopied, length_take, Nat.min_eq_left hle]
      exact ⟨rfl, rfl⟩
    · intro hok
      rw [hpost.log.copied, show reported st.events = _ from hpost.success hok,
        take_of_length_le (Nat.le_of_eq hlength)]
    · intro hnone
      cases ok with
      | true => rfl
      | false => exact absurd (hpost.cause rfl) hnone

/-! ### On the sample volume -/

theorem byteAt_ofBytes (f : Nat → UInt8) (lba : Nat) (hi : i < 512) :
    byteAt ((Image.ofBytes f).sector lba) i = (f (512 * lba + i)).toNat := by
  have hsize : diskSectorSize = 512 := rfl
  unfold byteAt Image.ofBytes
  dsimp only
  rw [hsize, getD_eq_getElem?_getD, List.getElem?_map, List.getElem?_range hi]
  rfl

/-- The FAT of a sample volume holds the entries it was made with. -/
theorem fatEntry_sample (spc : Nat) (next : Nat → Nat) (data : UInt8) (hc : c < 65536) :
    fatEntry (sampleImage spc next data) (sampleVolume spc) c = next c % 2 ^ 28 := by
  have hbyte : ∀ k < 4, byteAt ((sampleImage spc next data).sector (u64 (1 + 4 * c / 512)))
      (4 * c % 512 + k) = next c / 2 ^ (8 * k) % 2 ^ 8 := by
    intro k hk
    rw [u64_of_lt (by omega), sampleImage, byteAt_ofBytes _ _ (by omega),
      show 512 * (1 + 4 * c / 512) + (4 * c % 512 + k) = 512 + (4 * c + k) by omega,
      if_neg (by omega), if_pos (by omega), show (512 + (4 * c + k) - 512) / 4 = c by omega,
      show (512 + (4 * c + k)) % 4 = k by omega]
    simp
  have h0 := hbyte 0 (by decide)
  have h1 := hbyte 1 (by decide)
  have h2 := hbyte 2 (by decide)
  have h3 := hbyte 3 (by decide)
  rw [Nat.add_zero] at h0
  rw [fatEntry, show (sampleVolume spc).fatStartLba = 1 from rfl, le32, le16, le16, h0, h1, h2,
    h3]
  omega

theorem fileChain_sample (spc : Nat) (data : UInt8) (i : Nat) (h : first + i < 65536) :
    fileChain (sampleImage spc (· + 1) data) (sampleVolume spc) first i = first + i := by
  induction i with
  | zero => rfl
  | succ i ih =>
    have hi := ih (by omega)
    unfold fileChain at hi ⊢
    rw [Function.iterate_succ_apply', hi, fatEntry_sample _ _ _ (by omega)]
    omega

/-- A file in consecutive clusters of a sample volume. -/
theorem intact_sample {spc : Nat} {data : UInt8} {file : FatFile}
    (hpos : 2 ≤ file.firstCluster.toNat) (hle : file.firstCluster.toNat
      + clustersFor (sampleVolume spc) file.size.toNat ≤ 65527) :
    Intact (sampleImage spc (· + 1) data) (sampleVolume spc) file := by
  refine ⟨by omega, fun i hi => ?_, fun i j hij hj => ?_⟩
  · rw [fileChain_sample _ _ _ (by omega), fatClusterInRange,
      show u32 ((sampleVolume spc).totalClusters + 2) = 65527 from rfl]
    omega
  · rw [fileChain_sample _ _ _ (by omega), fileChain_sample _ _ _ (by omega)]
    omega

theorem faithful_backend (img : Image) : img.backend.Faithful img fun _ => True :=
  ⟨fun _ _ _ h => h, fun _ _ _ _ _ _ => rfl⟩

theorem neverFails_backend (img : Image) : img.backend.NeverFails fun _ => True :=
  fun _ _ _ _ => rfl

/-- A callback that does nothing. -/
def idle : Progress Unit Unit := fun _ ctx m => (ctx, m)

theorem keeps_idle (img : Image) : Keeps img (fun _ => True) (some idle) := by
  intro f hf n ctx m h
  cases hf
  exact h

/-- Two clusters of a sample volume, read from byte 100 on. -/
theorem readRange_delivers_range_sample :
    ∃ m ok ctx' st, Session (sampleImage 1 (· + 1) 0xAB).backend (sampleImage 1 (· + 1) 0xAB)
        (fun _ => True) (sampleVolume 1) 36 m ∧
      fatReadRange (sampleImage 1 (· + 1) 0xAB).backend (sampleVolume 1) 36 ⟨3, 1024⟩ 100 900
        0x100000 (some idle) () m = some (ok, ctx', st) ∧
      (¬ ReadFailed st.events → ok = true) := by
  obtain ⟨st₀, hmount⟩ := sampleMount (· + 1) 0xAB [] sampleMount_one
  have hs : Session (sampleImage 1 (· + 1) 0xAB).backend (sampleImage 1 (· + 1) 0xAB)
      (fun _ => True) (sampleVolume 1) 36 st₀.m := .mounted trivial hmount
  have hi : Intact (sampleImage 1 (· + 1) 0xAB) (sampleVolume 1) ⟨3, 1024⟩ :=
    intact_sample (by decide) (by decide)
  have hsize : (100 : UInt32).toNat + (900 : UInt32).toNat ≤ (1024 : UInt32).toNat := by decide
  obtain ⟨ok, ctx', st, hres, -, -, -, -, hend⟩ := readRange_delivers_range
    (faithful_backend _) (by decide) (by decide) hs hi hsize 0x100000 (keeps_idle _) ()
  exact ⟨_, ok, ctx', st, hs, hres, hend⟩

/-! ### A batch that does not fit the sector count -/

/-- The 32 MiB file at the first cluster of a sample volume with 64 KiB clusters. -/
def longFile : FatFile := ⟨2, 33554432⟩

/-- The disk of `longFile`: every byte of every cluster is `0xFF`. -/
def longImage : Image := sampleImage 128 (· + 1) 0xFF

theorem intact_longFile : Intact longImage (sampleVolume 128) longFile :=
  intact_sample (by decide) (by decide)

theorem fatNext_longImage (hc : c < 65536) :
    fatNext longImage (sampleVolume 128) c = c + 1 := by
  have hm := mounted_of_fatMountSector sampleMount_128
  rw [fatNext_eq_fatEntry hm (by omega), longImage, fatEntry_sample _ _ _ hc]
  omega

/-- A pass from the start of `longFile` asks for all of its 65536 sectors at once. -/
theorem longFile_needed {s : RangeLoop Unit Unit} {bytes needed j : Nat} {st : FatRun Unit}
    (hp : Plan longImage.backend longImage (fun _ => True) (sampleVolume 128) 8387713 65536 s
      bytes needed st j) (hready : Ready longImage (fun _ => True) s.st.m)
    (hrem : s.remaining = 33554432) (hcluster : s.w.cluster = 2) (hsector : s.sectorInCluster = 0)
    (hoff : s.sectorOff = 0) : bytes = 33554432 ∧ needed = 65536 := by
  have hspc : (sampleVolume 128).sectorsPerCluster = 128 := rfl
  have hlong : 511 ≤ j := by
    by_contra hshort
    rcases hp.maximal hready with hcap | hfail | hnext | hout
    · rw [hspc, hsector] at hcap
      omega
    · exact hfail.fallible (neverFails_backend longImage)
    · rw [hcluster, fatNext_longImage (by omega)] at hnext
      omega
    · rw [hcluster, fatClusterInRange,
        show u32 ((sampleVolume 128).totalClusters + 2) = 65527 from rfl] at hout
      omega
  have hneeded := hp.needed_le
  have hcovers := hp.covers
  have hfull := hp.full
  rw [hspc, hsector, hoff] at hfull
  rw [hoff] at hcovers
  rcases Nat.lt_or_ge bytes s.remaining with hlt | hge
  · obtain ⟨hbytes, hend⟩ := hfull hlt
    omega
  · omega

/-- The call for all of `longFile` succeeds, and the first byte it copies is the first byte of
a blank staging buffer. -/
theorem longFile_run {m : Machine Unit} (hready : Ready longImage (fun _ => True) m)
    (hbuf : m.ioBuf = List.replicate 33554432 0) :
    ∃ r, fatReadRange longImage.backend (sampleVolume 128) 65536 longFile 0 33554432 0x100000
        (some idle) () m = some r ∧
      (r.1 = true ∧ (copied r.2.2.events)[0]? = some 0) := by
  have hf := faithful_backend longImage
  have hm := mounted_of_fatMountSector sampleMount_128
  have hnever := neverFails_backend longImage
  refine readRange_rule hf hm (by decide) (by decide) hready (by decide) (by decide) (by decide)
    (fun s => s.remaining = 33554432 ∧ copied s.st.events = [] ∧
        s.st.m.ioBuf = List.replicate 33554432 0 ∨
      s.remaining = 0 ∧ (copied s.st.events)[0]? = some 0)
    (fun r => r.1 = true ∧ (copied r.2.2.events)[0]? = some 0) ?_ ?_ ?_ (keeps_idle longImage) ?_
  · intro w st hw
    rcases hw.stopped ⟨hready.disk, hready.cache, hready.cache2⟩ rfl with hfail | ⟨i, hi, -⟩
    · exact absurd hnever hfail.fallible
    · exact absurd hi (by simp)
  · intro s hs hrem _ hw
    refine .inl ⟨hrem, ?_, ?_⟩
    · exact hw.reads.quiet.1
    · rw [show s.st.m.ioBuf = _ from hw.reads.ioBuf]
      exact hbuf
  · rintro s hs (⟨hrem, -⟩ | ⟨-, hzero⟩) h0
    · rw [h0] at hrem
      cases hrem
    · exact ⟨rfl, hzero⟩
  · rintro s bytes needed st j step hs (⟨hrem, hcopied, hio⟩ | ⟨h0, -⟩) hpos hp hr
    · have hzero : (0 : UInt32).toNat + ((33554432 : UInt32).toNat - s.remaining) = 0 := by
        rw [hrem]
        rfl
      have hcluster : s.w.cluster = 2 := by
        rw [hs.walk hpos, hzero]
        rfl
      have hsector : s.sectorInCluster = 0 := by
        rw [hs.sector hpos, hzero]
        rfl
      have hoff : s.sectorOff = 0 := by
        rw [hs.offset hpos, hzero]
      obtain ⟨rfl, rfl⟩ := longFile_needed hp hs.ready hrem hcluster hsector hoff
      have hready1 := hp.ready hs.ready
      have hdelivered : ∀ {mid : FatRun Unit} {data : List UInt8},
          Delivered longImage (fun _ => True) (sampleVolume 128)
            (some idle) s 33554432 65536 st mid data →
          (copied mid.events)[0]? = some 0 := by
        intro mid data hd
        have hdata := hd.data hready1
        rw [hoff, show u16 65536 = 0 from rfl, hp.reads.ioBuf, hio] at hdata
        have hfirst : data[0]? = some 0 := by
          rw [hdata, show longImage.read (requestLba (sampleVolume 128) s) 0 = [] from rfl,
            overlay, nil_append, length_nil, drop_zero, drop_zero,
            List.getElem?_take, if_pos (by decide), List.getElem?_replicate, if_pos (by decide)]
        rw [hd.log, copied_append, hp.reads.quiet.1, hcopied, copied_cons, copied_cons]
        have hpos : 0 < data.length := (List.getElem?_eq_some_iff.mp hfirst).1
        show ([] ++ ([] ++ (data ++ _)))[0]? = some 0
        rw [nil_append, nil_append, List.getElem?_append_left hpos, hfirst]
      cases hr with
      | readFailed st' log ready cause left ram =>
        exact absurd hnever (cause hready1).fallible
      | stopped st' data w delivered walk =>
        have hnone : hopsAfter (sampleVolume 128) s 33554432 65536 = 0 := by
          rw [hopsAfter, hrem]
          rfl
        rw [hnone] at walk
        rcases walk.stopped (delivered.ready (keeps_idle longImage) hready1) rfl with hfail | ⟨i, hi, -⟩
        · exact absurd hnever hfail.fallible
        · exact absurd hi (by simp)
      | next data s' delivered walk remaining sector offset dst ctx =>
        refine .inr ⟨by rw [remaining, hrem], ?_⟩
        rw [show copied s'.st.events = _ from walk.reads.quiet.1]
        exact hdelivered delivered
    · omega

/-- With a batch of 65536 sectors the 16-bit sector count of the request wraps to 0: the call
delivers the old contents of the staging buffer and reports success. -/
theorem readRange_count_wraps :
    ∃ m ctx' st, longImage.backend.Faithful longImage (fun _ => True) ∧
      Session longImage.backend longImage (fun _ => True) (sampleVolume 128) 65536 m ∧
      Intact longImage (sampleVolume 128) longFile ∧
      fatReadRange longImage.backend (sampleVolume 128) 65536 longFile 0 33554432 0x100000
        (some idle) () m = some (true, ctx', st) ∧
      copied st.events ≠ fileRange longImage (sampleVolume 128) longFile 0 33554432 := by
  obtain ⟨st₀, hmount⟩ := sampleMount (· + 1) 0xFF (List.replicate 33554432 0) sampleMount_128
  have hf := faithful_backend longImage
  have hs : Session longImage.backend longImage (fun _ => True) (sampleVolume 128) 65536 st₀.m :=
    .mounted trivial hmount
  have hbuf : st₀.m.ioBuf = List.replicate 33554432 0 := by
    have := congrArg (fun r => r.2.m.ioBuf) hmount
    rw [← this]
    unfold fatMount
    dsimp only
    split <;> rfl
  obtain ⟨⟨ok, ctx', st⟩, hres, hok, hzero⟩ :=
    longFile_run (session_ready hf (by decide) (by decide) hs).2 hbuf
  dsimp only at hok hzero
  refine ⟨_, ctx', st, hf, hs, intact_longFile, by rw [hres, hok], fun heq => ?_⟩
  rw [heq, ← chainRange_eq (mounted_of_fatMountSector sampleMount_128) (by decide), chainRange,
    drop_zero, List.getElem?_take, if_pos (by decide),
    getElem?_chainData (by decide) (by decide)] at hzero
  have hbyte : (longImage.sector 513)[0]? = some 0xFF := by decide +kernel
  exact absurd (hzero.symm.trans hbyte) (by decide)

end ZfsBoot.Proofs.Fat
