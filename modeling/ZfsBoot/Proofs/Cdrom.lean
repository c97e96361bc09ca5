import ZfsBoot.Bios.Cdrom

/-!
# `ZfsBoot.Proofs.Cdrom`: 512-byte units out of 2048-byte sectors

The CD build's `disk_read_lba` reads whole native sectors and cuts the units out of them. If it
returns 0, the buffer holds the units that were asked for, in order, for every alignment of the
request, every cap and every pattern of retries and fallback; and no native command asks for a
sector without one of those units.

* `nativeReadBatch_spec`: the commands of one batch, and what a successful one leaves in
  `g_native_buf`.
* `pass_of_body`: what one pass of the loop does.
* `cdReadLba_spec`: the whole loop, over any account `F` of what the units are. The bounded form
  `cdReadLba_exact` and the interface form `cdDisk_faithful` are its two uses.
-/

set_option autoImplicit false

namespace ZfsBoot.Proofs.Cdrom

open List
open Lib
open Bios

variable {β : Type} {cd : CdDrive β} {m : CdMedium} {s : CdLoop β}

/-- A native read that reports success returned the medium's data. -/
def CdTruthful (cd : CdDrive β) (m : CdMedium) : Prop :=
  ∀ backend b lba n, (cd.read backend b lba n).1.ok = true →
    ∀ j < n, (cd.read backend b lba n).1.data j = m.sector (lba + j)

/-! ### One batch -/

/-- From `st₀` to `st`, only commands for the `n` sectors from `lba` on were issued. -/
structure Issued (st₀ : CdState β) (lba n : Nat) (st : CdState β) : Prop where
  cap : st.nativeCap = st₀.nativeCap
  trace : ∃ new, st.trace = st₀.trace ++ new ∧ ∀ c ∈ new, c.lba = lba ∧ c.count = n

/-- The buffer holds the `n` sectors from `lba` on. -/
def Holds (m : CdMedium) (lba n : Nat) (st : CdState β) : Prop :=
  ∀ j < n, st.nativeBuf j = m.sector (lba + j)

theorem Issued.refl (st : CdState β) (lba n : Nat) : Issued st lba n st :=
  ⟨rfl, [], (append_nil _).symm, fun _ hc => absurd hc not_mem_nil⟩

theorem issued_attempt {st₀ st : CdState β} {lba n : Nat} (backend : CdBackend)
    (h : Issued st₀ lba (u16 n) st) : Issued st₀ lba (u16 n) (st.attempt cd backend lba n).2 := by
  obtain ⟨hcap, new, htrace, hnew⟩ := h
  have hlast : ∀ c ∈ new ++ [⟨backend, lba, u16 n, (cd.read backend st.drive lba (u16 n)).1.ok⟩],
      c.lba = lba ∧ c.count = u16 n := by
    intro c hc
    obtain hc | hc := mem_append.mp hc
    · exact hnew c hc
    · obtain rfl := mem_singleton.mp hc
      exact ⟨rfl, rfl⟩
  unfold CdState.attempt
  dsimp only
  split <;> exact ⟨hcap, _, by rw [htrace, append_assoc], hlast⟩

theorem holds_attempt (ht : CdTruthful cd m) {st : CdState β} {lba n : Nat} {backend : CdBackend}
    (h : (st.attempt cd backend lba n).1 = some ()) :
    Holds m lba (u16 n) (st.attempt cd backend lba n).2 := by
  unfold CdState.attempt at h ⊢
  dsimp only at h ⊢
  split at h
  · rename_i hok
    intro j hj
    rw [if_pos hok]
    show (if j < u16 n then _ else _) = _
    rw [if_pos hj]
    exact ht backend st.drive lba (u16 n) hok j hj
  · exact absurd h (by simp)

/-- Ten attempts. -/
theorem retry_attempt (ht : CdTruthful cd m) {st₀ st : CdState β} {lba n : Nat}
    (backend : CdBackend) (h : Issued st₀ lba (u16 n) st) :
    Issued st₀ lba (u16 n) (Loop.retry id (CdState.attempt cd backend lba n) readMaxAttempts st).2 ∧
      ((Loop.retry id (CdState.attempt cd backend lba n) readMaxAttempts st).1 = some () →
        Holds m lba (u16 n)
          (Loop.retry id (CdState.attempt cd backend lba n) readMaxAttempts st).2) := by
  have hagain : ∀ st, Issued st₀ lba (u16 n) st → Issued st₀ lba (u16 n) (id st) := fun _ hs => hs
  have hattempt : ∀ st, Issued st₀ lba (u16 n) st →
      (∀ a, (st.attempt cd backend lba n).1 = some a →
        Issued st₀ lba (u16 n) (st.attempt cd backend lba n).2 ∧
          Holds m lba (u16 n) (st.attempt cd backend lba n).2) ∧
      ((st.attempt cd backend lba n).1 = none →
        Issued st₀ lba (u16 n) (st.attempt cd backend lba n).2) := by
    intro st hs
    exact ⟨fun _ ha => ⟨issued_attempt backend hs, holds_attempt ht ha⟩,
      fun _ => issued_attempt backend hs⟩
  obtain ⟨hsome, hnone⟩ := Loop.retry_spec (Issued st₀ lba (u16 n))
    (fun _ st => Issued st₀ lba (u16 n) st ∧ Holds m lba (u16 n) st) hagain hattempt
    readMaxAttempts st h
  cases hres : (Loop.retry id (CdState.attempt cd backend lba n) readMaxAttempts st).1 with
  | none => exact ⟨hnone hres, fun h => nomatch h⟩
  | some a => exact ⟨(hsome a hres).1, fun _ => (hsome a hres).2⟩

theorem issued_fallBack {st₀ st : CdState β} {lba n : Nat} (h : Issued st₀ lba n st) :
    Issued st₀ lba n (st.fallBack cd) := by
  unfold CdState.fallBack
  dsimp only
  split <;> exact ⟨h.cap, h.trace⟩

theorem readAtapi_spec (ht : CdTruthful cd m) {st₀ st : CdState β} {lba n : Nat}
    (h : Issued st₀ lba (u16 n) st) :
    Issued st₀ lba (u16 n) (st.readAtapi cd lba n).2 ∧
      ((st.readAtapi cd lba n).1 = true → Holds m lba (u16 n) (st.readAtapi cd lba n).2) := by
  unfold CdState.readAtapi
  split
  · obtain ⟨hissued, hholds⟩ := retry_attempt ht .atapi h
    exact ⟨hissued, fun hok => hholds (Option.isSome_iff_exists.mp hok).choose_spec⟩
  · exact ⟨h, fun hok => nomatch hok⟩

/-- One batch: whatever fails on the way, the commands are for these sectors, and success means
that `g_native_buf` holds them. -/
theorem nativeReadBatch_spec (ht : CdTruthful cd m) (st : CdState β) (lba n : Nat) :
    Issued st lba (u16 n) (st.nativeReadBatch cd lba n).2 ∧
      ((st.nativeReadBatch cd lba n).1 = true →
        Holds m lba (u16 n) (st.nativeReadBatch cd lba n).2) := by
  have hstart := Issued.refl st lba (u16 n)
  unfold CdState.nativeReadBatch
  split
  · obtain ⟨hissued, hholds⟩ := retry_attempt ht .int13 hstart
    rcases hr : Loop.retry id (CdState.attempt cd .int13 lba n) readMaxAttempts st with ⟨_ | _, st'⟩
    all_goals rw [hr] at hissued hholds
    · exact readAtapi_spec ht (issued_fallBack hissued)
    · exact ⟨hissued, fun _ => hholds rfl⟩
  · exact readAtapi_spec ht hstart

/-! ### One pass -/

/-- A unit is a quarter of its sector. -/
theorem length_unit (m : CdMedium) (u : Nat) : (m.unit u).length = diskSectorSize := by
  have hsector := m.length_sector (u / unitsPerNative)
  have hlt : u % unitsPerNative < 4 := Nat.mod_lt _ (by decide)
  rw [CdMedium.unit, length_take, length_drop, hsector]
  unfold nativeSectorSize diskSectorSize
  omega

/-- A sector is its four units. -/
theorem sector_eq_units (m : CdMedium) (n : Nat) :
    m.sector n = blocks (fun j => m.unit (n * unitsPerNative + j)) unitsPerNative := by
  have hunit : ∀ j < unitsPerNative, m.unit (n * unitsPerNative + j) =
      ((m.sector n).drop (j * diskSectorSize)).take diskSectorSize := by
    intro j hj
    have hdiv : (n * unitsPerNative + j) / unitsPerNative = n := by
      unfold unitsPerNative at *
      omega
    have hmod : (n * unitsPerNative + j) % unitsPerNative = j := by
      unfold unitsPerNative at *
      omega
    rw [CdMedium.unit, hdiv, hmod]
  rw [blocks_congr hunit, blocks_slices, take_of_length_le]
  exact Nat.le_of_eq (m.length_sector n)

/-- The units that a batch delivers, cut out of `g_native_buf`. -/
theorem bytes_of_holds {st : CdState β} {lba n sub k : Nat} (h : Holds m lba n st)
    (hn : n ≤ nativeBatch) (hk : sub + k ≤ n * unitsPerNative) :
    (st.bytes.drop (sub * diskSectorSize)).take (k * diskSectorSize) =
      blocks (fun i => m.unit (lba * unitsPerNative + (sub + i))) k := by
  obtain ⟨rest, hrest⟩ := Nat.exists_eq_add_of_le hn
  have hsectors : blocks st.nativeBuf n =
      blocks (fun u => m.unit (lba * unitsPerNative + u)) (n * unitsPerNative) := by
    refine blocks_regroup fun i hi => ?_
    rw [h i hi, sector_eq_units, Nat.add_mul]
    simp only [Nat.add_assoc]
  rw [CdState.bytes, hrest, blocks_add, hsectors]
  exact take_drop_blocks (fun u => length_unit m _) hk _

/-- How far a batch reaches: at least one unit, no more than is left, and no sector without a
unit that is still wanted. -/
theorem take_bounds (h : s.remaining ≠ 0) :
    1 ≤ s.take ∧ s.take ≤ s.remaining ∧ s.subIndex + s.take ≤ s.nativeCount * unitsPerNative ∧
      s.nativeCount * unitsPerNative < s.subIndex + s.remaining + unitsPerNative ∧
      s.nativeCount ≤ s.st.nativeCap ∧ s.subIndex = s.cur % unitsPerNative := by
  have hsub : s.subIndex = s.cur % unitsPerNative :=
    u32_of_lt (Nat.lt_trans (Nat.mod_lt _ (by decide)) (by decide))
  have hcap := s.st.one_le_cap
  have hcount : 1 ≤ s.nativeCount ∧ s.nativeCount ≤ s.st.nativeCap ∧
      s.nativeCount * unitsPerNative < s.subIndex + s.remaining + unitsPerNative := by
    rw [CdLoop.nativeCount]
    unfold unitsPerNative at *
    split <;> omega
  have htake : s.take = min (s.nativeCount * unitsPerNative - s.subIndex) s.remaining := by
    rw [CdLoop.take]
    split <;> omega
  unfold unitsPerNative at *
  omega

/-- What one pass that goes round again does: the units from where the loop stands, as far as
the batch reaches. -/
structure Pass (m : CdMedium) (s s' : CdLoop β) : Prop where
  remaining_ne : s.remaining ≠ 0
  out : s'.out = s.out ++ blocks
    (fun i => m.unit (u32 (s.cur / unitsPerNative) * unitsPerNative +
      (s.cur % unitsPerNative + i))) s.take
  cur : s'.cur = u64 (s.cur + s.take)
  remaining : s'.remaining = s.remaining - s.take
  issued : Issued s.st (u32 (s.cur / unitsPerNative)) s.nativeCount s'.st

theorem u16_nativeCount (h : s.remaining ≠ 0) : u16 s.nativeCount = s.nativeCount := by
  have hcap := s.st.cap_le_batch
  have hle : s.nativeCount ≤ s.st.nativeCap := (take_bounds h).2.2.2.2.1
  unfold nativeBatch at hcap
  exact u16_of_lt (by omega)

theorem pass_of_body (ht : CdTruthful cd m) {s s' : CdLoop β} (hsize : s.remaining < 2 ^ 16)
    (h : CdLoop.body cd s = .next s') : Pass m s s' := by
  unfold CdLoop.body at h
  split at h
  · exact absurd h (by simp)
  rename_i hne
  obtain ⟨hpos, hle, hreach, -, hcap, hsub⟩ := take_bounds hne
  have hbatch := Nat.le_trans hcap s.st.cap_le_batch
  obtain ⟨hissued, hholds⟩ :=
    nativeReadBatch_spec ht s.st (u32 (s.cur / unitsPerNative)) s.nativeCount
  rw [u16_nativeCount hne] at hissued hholds
  split at h
  · exact absurd h (by simp)
  rename_i st hread
  rw [hread] at hissued hholds
  obtain rfl : s.advance st = s' := by simpa using h
  have hbytes := bytes_of_holds (hholds rfl) hbatch hreach
  rw [hsub] at hbytes
  have htake : u16 s.take = s.take := u16_of_lt (by omega)
  exact
    { remaining_ne := hne
      out := by rw [CdLoop.advance, hsub, hbytes]
      cur := rfl
      remaining := by
        show u16 (s.remaining - u16 s.take) = s.remaining - s.take
        rw [htake, u16_of_lt (by omega)]
      issued := hissued }

/-- The pass that leaves: all units are there, or one more batch was tried in vain. -/
theorem done_of_body (ht : CdTruthful cd m) {r : Bool × CdLoop β} (h : CdLoop.body cd s = .done r) :
    (s.remaining = 0 ∧ r = (true, s)) ∨
      (s.remaining ≠ 0 ∧ r.1 = false ∧
        Issued s.st (u32 (s.cur / unitsPerNative)) s.nativeCount r.2.st) := by
  unfold CdLoop.body at h
  split at h
  · rename_i hzero
    exact .inl ⟨hzero, by simpa using h.symm⟩
  rename_i hne
  obtain ⟨hissued, -⟩ :=
    nativeReadBatch_spec ht s.st (u32 (s.cur / unitsPerNative)) s.nativeCount
  rw [u16_nativeCount hne] at hissued
  split at h
  · rename_i st hread
    rw [hread] at hissued
    obtain rfl : (false, { s with st := st }) = r := by simpa using h
    exact .inr ⟨hne, rfl, hissued⟩
  · exact absurd h (by simp)

/-! ### The loop -/

/-- A command for a batch of the request: it starts at the sector of unit `lba + k`, and has at
most the sectors that the units from there on need, and at most `cap`. -/
def Wanted (lba count cap : Nat) (c : NativeCommand) : Prop :=
  ∃ k < count, c.lba = u32 (u64 (lba + k) / unitsPerNative) ∧ c.count ≤ cap ∧
    c.count * unitsPerNative <
      u64 (lba + k) % unitsPerNative + (count - k) + unitsPerNative

/-- From `st₀` to `st`, only commands for batches of the request were issued. -/
structure Commands (lba count : Nat) (st₀ st : CdState β) : Prop where
  cap : st.nativeCap = st₀.nativeCap
  trace : ∃ new, st.trace = st₀.trace ++ new ∧ ∀ c ∈ new, Wanted lba count st₀.nativeCap c

/-- How far the loop is with a request for the `count` units from `lba` on: the first
`count - remaining` of them are copied, if `F` says what the units are, and every native command
since `st₀` was for a batch of units that were still missing. -/
structure Progress (F : Nat → List UInt8) (lba count : Nat) (st₀ : CdState β) (s : CdLoop β) :
    Prop where
  remaining_le : s.remaining ≤ count
  cur : s.cur = u64 (lba + (count - s.remaining))
  out : s.out = blocks F (count - s.remaining)
  commands : Commands lba count st₀ s.st

theorem commands_step {F : Nat → List UInt8} {lba count : Nat} {st₀ st : CdState β}
    (hi : Progress F lba count st₀ s) (hne : s.remaining ≠ 0)
    (h : Issued s.st (u32 (s.cur / unitsPerNative)) s.nativeCount st) :
    Commands lba count st₀ st := by
  obtain ⟨hcap, old, hold, hwanted⟩ := hi.commands
  obtain ⟨hcap', new, hnew, hissued⟩ := h
  obtain ⟨-, -, -, hneed, hle, hsub⟩ := take_bounds hne
  have hremaining := hi.remaining_le
  refine ⟨hcap'.trans hcap, old ++ new, by rw [hnew, hold, append_assoc], fun c hc => ?_⟩
  obtain hc | hc := mem_append.mp hc
  · exact hwanted c hc
  · obtain ⟨hlba, hcount⟩ := hissued c hc
    rw [hsub] at hneed
    refine ⟨count - s.remaining, by omega, ?_, by rw [hcount, ← hcap]; exact hle, ?_⟩
    · rw [hlba, hi.cur]
    · rw [hcount, ← hi.cur, Nat.sub_sub_self hremaining]
      exact hneed

section Run

variable {F : Nat → List UInt8} {lba count : Nat} {st₀ : CdState β}

theorem progress_step
    (hF : ∀ k i, k + i < count → m.unit (u32 (u64 (lba + k) / unitsPerNative) * unitsPerNative +
      (u64 (lba + k) % unitsPerNative + i)) = F (k + i))
    {s s' : CdLoop β} (hi : Progress F lba count st₀ s) (hp : Pass m s s') :
    Progress F lba count st₀ s' := by
  obtain ⟨hpos, hle, -⟩ := take_bounds hp.remaining_ne
  have hremaining := hi.remaining_le
  have hdone : count - s'.remaining = count - s.remaining + s.take := by
    rw [hp.remaining]
    omega
  exact
    { remaining_le := by rw [hp.remaining]; omega
      cur := by rw [hp.cur, hi.cur, u64_add_u64, hdone, Nat.add_assoc]
      out := by
        rw [hp.out, hi.out, hi.cur, hdone, blocks_add]
        congr 1
        exact blocks_congr fun i hlt => hF _ i (by omega)
      commands := commands_step hi hp.remaining_ne hp.issued }

end Run

/-- `disk_read_lba` returns, and if it returns 0 the buffer holds the units that were asked for,
as `F` has them. -/
theorem cdReadLba_spec (ht : CdTruthful cd m) (F : Nat → List UInt8) (lba : UInt64)
    (count : UInt16) (st : CdState β)
    (hF : ∀ k i, k + i < count.toNat →
      m.unit (u32 (u64 (lba.toNat + k) / unitsPerNative) * unitsPerNative +
        (u64 (lba.toNat + k) % unitsPerNative + i)) = F (k + i)) :
    ∃ ok s, cdReadLba cd lba count st = some (ok, s) ∧
      (ok = true → s.out = blocks F count.toNat) ∧ Commands lba.toNat count.toNat st s.st := by
  have hsize : count.toNat < 2 ^ 16 := count.toNat_lt
  have hnext : ∀ s s', Progress F lba.toNat count.toNat st s → CdLoop.body cd s = .next s' →
      Progress F lba.toNat count.toNat st s' ∧ s'.remaining < s.remaining := by
    intro s s' hi hb
    have hp := pass_of_body ht (Nat.lt_of_le_of_lt hi.remaining_le hsize) hb
    obtain ⟨hpos, hle, -⟩ := take_bounds hp.remaining_ne
    exact ⟨progress_step hF hi hp, by rw [hp.remaining]; omega⟩
  have hdone : ∀ s r, Progress F lba.toNat count.toNat st s → CdLoop.body cd s = .done r →
      (r.1 = true → r.2.out = blocks F count.toNat) ∧ Commands lba.toNat count.toNat st r.2.st := by
    intro s r hi hb
    obtain ⟨hzero, rfl⟩ | ⟨hne, hfail, hissued⟩ := done_of_body ht hb
    · refine ⟨fun _ => ?_, hi.commands⟩
      have hout := hi.out
      rwa [hzero, Nat.sub_zero] at hout
    · exact ⟨fun hok => absurd (hok.symm.trans hfail) (by decide), commands_step hi hne hissued⟩
  have hstart : Progress F lba.toNat count.toNat st (cdReadStart lba count st) :=
    { remaining_le := Nat.le_refl _
      cur := by
        show lba.toNat = u64 (lba.toNat + (count.toNat - count.toNat))
        rw [Nat.sub_self, Nat.add_zero, u64_of_lt lba.toNat_lt]
      out := by
        show [] = blocks F (count.toNat - count.toNat)
        rw [Nat.sub_self]
        exact rfl
      commands := ⟨rfl, [], (append_nil _).symm, fun _ hc => absurd hc not_mem_nil⟩ }
  obtain ⟨r, hrun, hpost⟩ := Loop.run_spec _ _ CdLoop.remaining hnext hdone (count.toNat + 1)
    (cdReadStart lba count st) hstart (Nat.lt_succ_self _)
  exact ⟨r.1, r.2, hrun, hpost⟩

/-! ### The two forms -/

/-- A read within the 2^32 native sectors that a command can name, from any state of the driver
and after any chunk setting. If it returns 0, the buffer holds exactly the units `lba`, …,
`lba + count - 1`; and whatever it returns, every native command it issued stays within the
sectors of those units and within the cap. -/
theorem cdReadLba_exact (ht : CdTruthful cd m) (st : CdState β) (chunk : UInt16) (lba : UInt64)
    (count : UInt16) (hbound : lba.toNat + count.toNat ≤ 2 ^ 34) :
    ∃ ok s, cdReadLba cd lba count (cdSetChunk chunk.toNat st) = some (ok, s) ∧
      (ok = true → s.out = (List.range count.toNat).flatMap fun i => m.unit (lba.toNat + i)) ∧
      ∃ new, s.st.trace = (cdSetChunk chunk.toNat st).trace ++ new ∧
        ∀ c ∈ new, c.count ≤ (cdSetChunk chunk.toNat st).nativeCap ∧
          lba.toNat / unitsPerNative ≤ c.lba ∧
          c.lba + c.count ≤ (lba.toNat + count.toNat + unitsPerNative - 1) / unitsPerNative := by
  have hF : ∀ k i, k + i < count.toNat →
      m.unit (u32 (u64 (lba.toNat + k) / unitsPerNative) * unitsPerNative +
        (u64 (lba.toNat + k) % unitsPerNative + i)) = m.unit (lba.toNat + (k + i)) := by
    intro k i hlt
    have hcur : u64 (lba.toNat + k) = lba.toNat + k := u64_of_lt (by omega)
    congr 1
    rw [hcur, u32_of_lt (by unfold unitsPerNative; omega)]
    unfold unitsPerNative
    omega
  obtain ⟨ok, s, hrun, hout, -, new, hnew, hwanted⟩ :=
    cdReadLba_spec ht (fun i => m.unit (lba.toNat + i)) lba count (cdSetChunk chunk.toNat st) hF
  refine ⟨ok, s, hrun, hout, new, hnew, fun c hc => ?_⟩
  obtain ⟨k, hk, hlba, hle, hneed⟩ := hwanted c hc
  rw [u64_of_lt (by omega)] at hlba hneed
  rw [u32_of_lt (by unfold unitsPerNative; omega)] at hlba
  unfold unitsPerNative at *
  exact ⟨hle, by omega, by omega⟩

/-- A drive whose INT 13h never works and whose ATAPI side always does. -/
def atapiOnly (m : CdMedium) : CdDrive Unit where
  read backend b lba _ := (⟨backend == .atapi, fun j => m.sector (lba + j)⟩, b)
  atapiInit b := (true, b)

/-- A CD of zeros. -/
def blankCd : CdMedium where
  sector _ := List.replicate nativeSectorSize 0
  length_sector _ := length_replicate

/-- The state after `disk_init` chose INT 13h. -/
def freshCd : CdState Unit where
  drive := ()
  useInt13 := true
  atapiProbed := false
  atapiReady := false
  cdRetries := 0
  nativeBuf := fun _ => []
  nativeCap := nativeBatch
  one_le_cap := by decide
  cap_le_batch := by decide
  trace := []

/-- A read that starts in the middle of a sector, over a fallback to ATAPI, with
`alpine-zfsboot.int13chunk=9`. -/
theorem cdReadLba_exact_fallback :
    CdTruthful (atapiOnly blankCd) blankCd ∧
    ∃ ok s, cdReadLba (atapiOnly blankCd) 6 32 (cdSetChunk 9 freshCd) = some (ok, s) ∧
      (ok = true → s.out = (List.range 32).flatMap fun i => blankCd.unit (6 + i)) ∧
      ∃ new, s.st.trace = [] ++ new ∧ ∀ c ∈ new, c.count ≤ 2 ∧ 1 ≤ c.lba ∧ c.lba + c.count ≤ 10 := by
  have ht : CdTruthful (atapiOnly blankCd) blankCd := fun _ _ _ _ _ _ _ => rfl
  obtain ⟨ok, s, hrun, hout, htrace⟩ := cdReadLba_exact ht freshCd 9 6 32 (by decide)
  exact ⟨ht, ok, s, hrun, hout, htrace⟩

/-- The CD as the 512-byte disk that the rest of the loader reads. -/
def CdMedium.image (m : CdMedium) : Image where
  sector := m.unit
  length_sector := length_unit m

/-- The CD build's `disk_read_lba` is a faithful disk. A native address has 32 bits, so the
medium is taken to repeat after 2^32 sectors; a drive that refuses commands beyond its last sector
is truthful for such a medium if it is for the real one. -/
theorem cdDisk_faithful (ht : CdTruthful cd m) (hrepeat : ∀ n, m.sector (u32 n) = m.sector n) :
    (cdDisk cd).Faithful (CdMedium.image m) (fun _ => True) where
  keeps _ _ _ _ := trivial
  truthful st lba n hn _ hok := by
    have hunit : ∀ u v, u % 2 ^ 34 = v % 2 ^ 34 → m.unit u = m.unit v := by
      intro u v huv
      have hdiv : u32 (u / unitsPerNative) = u32 (v / unitsPerNative) := by
        unfold u32 unitsPerNative
        omega
      have hmod : u % unitsPerNative = v % unitsPerNative := by
        unfold unitsPerNative
        omega
      rw [CdMedium.unit, CdMedium.unit, ← hrepeat, hdiv, hrepeat, hmod]
    have hcount : (UInt16.ofNat n).toNat = n := by simpa using Nat.mod_eq_of_lt hn
    have hlba : (UInt64.ofNat lba).toNat = u64 lba := by simp [u64]
    obtain ⟨ok, s, hrun, hout, -⟩ := cdReadLba_spec ht (fun i => m.unit (u64 (lba + i)))
      (UInt64.ofNat lba) (UInt16.ofNat n) st (by
        intro k i _
        refine hunit _ _ ?_
        rw [hlba]
        unfold u32 u64 unitsPerNative
        omega)
    simp only [cdDisk, hrun] at hok ⊢
    rw [hout hok, hcount]
    exact rfl

theorem cdDisk_faithful_blank :
    (cdDisk (atapiOnly blankCd)).Faithful (CdMedium.image blankCd) fun _ => True :=
  cdDisk_faithful (fun _ _ _ _ _ _ _ => rfl) fun _ => rfl

end ZfsBoot.Proofs.Cdrom
