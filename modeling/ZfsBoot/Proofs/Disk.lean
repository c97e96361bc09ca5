import ZfsBoot.Bios.Disk

/-!
# `ZfsBoot.Proofs.Disk`: `disk_read_lba` against an arbitrary BIOS

`Pass` says what one pass of the loop that goes round again can do: it reads the next `n`
sectors (at the first try, or one sector at the second), or it halves the chunk. The loop
invariant `ReadInv` and the variant both follow from `Pass`, with no second look at the
body.

`diskReadLba_spec` is the result: the loop ends for every pattern of answers, every call
stays within the chunk in force, the chunk only falls, a success leaves every slot of the
buffer with the data of a successful call for that slot's own sector, and a failure is two
failed requests for one sector in a row.
-/

set_option autoImplicit false

namespace ZfsBoot.Proofs.Disk

open List
open Lib Bios

variable {img : Image} {lba i count chunk : Nat} {β : Type}

/-! ### The helpers of the loop body, field by field -/

section Fields

variable (bios : Int13 β) (n status : Nat) (s : ReadLoop β)

@[simp] theorem calls_int13 : (s.int13 bios n).calls = s.calls ++ [s.call bios n] := by
  simp [ReadLoop.int13, ReadLoop.calls, filterMap_append]

@[simp] theorem calls_noteFailure : (s.noteFailure status n).calls = s.calls := by
  simp [ReadLoop.noteFailure, ReadLoop.calls, filterMap_append]

@[simp] theorem calls_reset : (s.reset bios).calls = s.calls := by
  simp [ReadLoop.reset, ReadLoop.calls, filterMap_append]

@[simp] theorem calls_shrink : (s.shrink n).calls = s.calls := by
  simp [ReadLoop.shrink, ReadLoop.calls, filterMap_append]

@[simp] theorem calls_advance : (s.advance n).calls = s.calls := rfl

@[simp] theorem calls_countFailure : s.countFailure.calls = s.calls := rfl

@[simp] theorem calls_failed : (s.failed bios n).calls = s.calls ++ [s.call bios n] := by
  simp [ReadLoop.failed]

end Fields

/-- The record of a call is what the BIOS answered to it, in some state of its own. -/
def Answered (bios : Int13 β) (c : BiosCall) : Prop :=
  ∃ b, (bios.read b c.lba c.n).1 = ⟨c.status, c.data⟩

/-- A call made from the loop state `s`: it starts at the loop's position, the chunk it
was made under is the one in force, and the BIOS answered it. -/
structure FromState (bios : Int13 β) (s : ReadLoop β) (c : BiosCall) : Prop where
  lba : c.lba = s.lba
  slot : c.slot = s.slot
  chunk : c.chunk = s.st.chunk
  answered : Answered bios c

theorem fromState_call (bios : Int13 β) (n : Nat) (s : ReadLoop β) :
    FromState bios s (s.call bios n) := ⟨rfl, rfl, rfl, s.st.bios, rfl⟩

/-- The retry after a failed call starts where the failed call started. -/
theorem fromState_retry (bios : Int13 β) (n m : Nat) (s : ReadLoop β) :
    FromState bios s ((s.failed bios n).call bios m) :=
  ⟨rfl, rfl, rfl, (s.failed bios n).st.bios, rfl⟩

/-- A pass that goes round again. `moved`: the next `nextCount` sectors are in the buffer;
before the call `c` that read them there may have been one failed call for the same single
sector. `shrunk`: the call failed and the chunk is halved. -/
inductive Pass (bios : Int13 β) (s s' : ReadLoop β) : Prop where
  | moved (failed : List BiosCall) (c : BiosCall)
      (calls : s'.calls = s.calls ++ (failed ++ [c]))
      (fromState : ∀ d ∈ failed ++ [c], FromState bios s d)
      (failed_n : ∀ d ∈ failed, d.n = 1)
      (ok : c.Ok) (n : c.n = s.nextCount)
      (count : s'.count = s.count - s.nextCount)
      (slot : s'.slot = s.slot + s.nextCount)
      (lba : s'.lba = u64 (s.lba + s.nextCount))
      (chunk : s'.st.chunk = s.st.chunk)
      (buf : ∀ i, s'.buf i = if c.Covers i then c.data (i - c.slot) else s.buf i)
  | shrunk (c : BiosCall)
      (calls : s'.calls = s.calls ++ [c])
      (fromState : FromState bios s c)
      (n : c.n = s.nextCount) (n_gt : 1 < s.nextCount)
      (count : s'.count = s.count) (slot : s'.slot = s.slot) (lba : s'.lba = s.lba)
      (chunk : s'.st.chunk = u16 (s.nextCount / 2))
      (buf : ∀ i, ¬ c.Covers i → s'.buf i = s.buf i)

/-- Every pass that goes round again is a `Pass`. -/
theorem pass_of_body {bios : Int13 β} {s s' : ReadLoop β} (hchunk : 1 ≤ s.st.chunk)
    (h : ReadLoop.body bios s = .next s') : Pass bios s s' := by
  unfold ReadLoop.body at h
  split at h
  · exact absurd h (by simp)
  · rename_i hcount
    dsimp only at h
    split at h
    · rename_i hst
      cases h
      refine .moved [] (s.call bios s.nextCount) (by simp) ?_ (by simp) hst rfl rfl rfl rfl
        rfl (fun i => rfl)
      intro d hd
      simp only [nil_append, mem_singleton] at hd
      rw [hd]
      exact fromState_call bios _ s
    · split at h
      · rename_i hn
        cases h
        exact .shrunk (s.call bios s.nextCount) (by simp) (fromState_call bios _ s) rfl hn rfl
          rfl rfl rfl (fun i hi => if_neg hi)
      · rename_i hn
        -- a single sector: the retry covers the slot the failed call may have spoilt
        have hn1 : s.nextCount = 1 := by
          have : 1 ≤ s.nextCount := by unfold ReadLoop.nextCount; split <;> omega
          omega
        rw [hn1] at h
        split at h
        · rename_i hst
          cases h
          refine .moved [s.call bios 1] ((s.failed bios 1).call bios 1) (by simp) ?_ ?_ hst
            hn1.symm (by rw [hn1]; rfl) (by rw [hn1]; rfl) (by rw [hn1]; rfl) rfl ?_
          · intro d hd
            simp only [mem_append, mem_singleton] at hd
            rcases hd with rfl | rfl
            · exact fromState_call bios 1 s
            · exact fromState_retry bios 1 1 s
          · intro d hd
            rw [mem_singleton.mp hd]
            rfl
          · intro i
            by_cases hi : ((s.failed bios 1).call bios 1).Covers i
            · rw [if_pos hi]
              exact if_pos hi
            · rw [if_neg hi]
              exact (if_neg hi).trans (if_neg hi)
        · exact absurd h (by simp)

/-! ### The loop invariant -/

/-- Slot `i` of the buffer was last written by a successful call that read exactly the
sector `lba + i` into it, and still holds what that call delivered. -/
def LastWrite (lba : Nat) (s : ReadLoop β) (i : Nat) : Prop :=
  ∃ pre c post, s.calls = pre ++ c :: post ∧ c.Ok ∧ c.Covers i ∧
    u64 (c.lba + (i - c.slot)) = u64 (lba + i) ∧ (∀ d ∈ post, ¬ d.Covers i) ∧
    s.buf i = c.data (i - c.slot)

/-- The chunk in force never grew: from `first` on entry, over every call, to the chunk in
force now. -/
def Falling (first : Nat) (s : ReadLoop β) : Prop :=
  (first :: s.calls.map BiosCall.chunk ++ [s.st.chunk]).Pairwise (· ≥ ·)

/-- The invariant of `disk_read_lba`'s loop, for a request of `count` sectors from `lba`
entered with the chunk `chunk`. -/
structure ReadInv (bios : Int13 β) (lba count chunk : Nat) (s : ReadLoop β) : Prop where
  chunk_pos : 1 ≤ s.st.chunk
  chunk_le : s.st.chunk ≤ chunk
  total : s.slot + s.count = count
  position : s.lba = u64 (lba + s.slot)
  sized : ∀ c ∈ s.calls, 1 ≤ c.n ∧ c.n ≤ c.chunk
  falling : Falling chunk s
  answered : ∀ c ∈ s.calls, Answered bios c
  written : ∀ i < s.slot, LastWrite lba s i

theorem nextCount_le_count (s : ReadLoop β) : s.nextCount ≤ s.count := by
  unfold ReadLoop.nextCount
  split <;> omega

theorem nextCount_le_chunk (s : ReadLoop β) : s.nextCount ≤ s.st.chunk := by
  unfold ReadLoop.nextCount
  split <;> omega

theorem nextCount_pos {s : ReadLoop β} (hchunk : 1 ≤ s.st.chunk) (hcount : s.count ≠ 0) :
    1 ≤ s.nextCount := by
  unfold ReadLoop.nextCount
  split <;> omega

/-- A falling list stays falling when copies of its last element and a smaller one follow. -/
theorem pairwise_ge_extend {l : List Nat} {x z : Nat} (h : (l ++ [x]).Pairwise (· ≥ ·))
    (new : List Nat) (hnew : ∀ y ∈ new, y = x) (hz : z ≤ x) : (l ++ new ++ [z]).Pairwise (· ≥ ·) := by
  have hrep : new = List.replicate new.length x := eq_replicate_of_mem hnew
  rw [hrep]
  simp only [pairwise_append, mem_append, mem_singleton,
    mem_replicate] at h ⊢
  refine ⟨⟨h.1, ?_, ?_⟩, by simp, ?_⟩
  · exact pairwise_replicate.mpr (Or.inr (Nat.le_refl x))
  · intro a ha b hb
    rw [hb.2]
    exact h.2.2 a ha x rfl
  · intro a ha b hb
    rw [hb]
    rcases ha with ha | ha
    · exact Nat.le_trans hz (h.2.2 a ha x rfl)
    · rw [ha.2]
      exact hz

/-- More calls, none of them for slot `i`, and an untouched slot: the last write stays. -/
theorem LastWrite.extend {s s' : ReadLoop β} {new : List BiosCall}
    (h : LastWrite lba s i) (hcalls : s'.calls = s.calls ++ new)
    (hnew : ∀ d ∈ new, ¬ d.Covers i) (hbuf : s'.buf i = s.buf i) : LastWrite lba s' i := by
  obtain ⟨pre, c, post, hsplit, hok, hcov, hlba, hpost, hdata⟩ := h
  refine ⟨pre, c, post ++ new, by rw [hcalls, hsplit]; simp, hok, hcov, hlba, ?_,
    hbuf.trans hdata⟩
  intro d hd
  rcases mem_append.mp hd with hd | hd
  · exact hpost d hd
  · exact hnew d hd

/-- A call from a later position does not cover an earlier slot. -/
theorem FromState.not_covers {bios : Int13 β} {s : ReadLoop β} {c : BiosCall} (h : FromState bios s c)
    (hi : i < s.slot) : ¬ c.Covers i := by
  intro hc
  have := hc.1
  have := h.slot
  omega

/-- A pass that goes round again keeps the invariant. The request's size is a `uint16_t`,
so half of it fits the chunk's type and the chunk stays positive. -/
theorem readInv_step {bios : Int13 β} {s s' : ReadLoop β} (hsize : count < 2 ^ 16)
    (hi : ReadInv bios lba count chunk s) (hcount : s.count ≠ 0) (hp : Pass bios s s') :
    ReadInv bios lba count chunk s' := by
  have hpos := nextCount_pos hi.chunk_pos hcount
  have hle := nextCount_le_count s
  have hlec := nextCount_le_chunk s
  cases hp with
  | moved failed c calls fromState failed_n ok n count' slot lba' chunk' buf =>
    have hchunks : ∀ y ∈ (failed ++ [c]).map BiosCall.chunk, y = s.st.chunk := by
      intro y hy
      obtain ⟨d, hd, rfl⟩ := mem_map.mp hy
      exact (fromState d hd).chunk
    have hc := fromState c (by simp)
    refine ⟨by rw [chunk']; exact hi.chunk_pos, by rw [chunk']; exact hi.chunk_le, ?_, ?_, ?_,
      ?_, ?_, ?_⟩
    · have := hi.total
      omega
    · rw [lba', slot, hi.position, u64_add_u64, Nat.add_assoc]
    · intro d hd
      rw [calls, mem_append] at hd
      rcases hd with hd | hd
      · exact hi.sized d hd
      · rw [(fromState d hd).chunk]
        rcases mem_append.mp hd with hf | hf
        · rw [failed_n d hf]
          exact ⟨Nat.le_refl 1, hi.chunk_pos⟩
        · rw [mem_singleton.mp hf, n]
          exact ⟨hpos, hlec⟩
    · have h := pairwise_ge_extend (z := s.st.chunk) hi.falling _ hchunks (Nat.le_refl _)
      rw [Falling, calls, chunk', map_append]
      simpa using h
    · intro d hd
      rw [calls, mem_append] at hd
      exact hd.elim (hi.answered d) (fun hd => (fromState d hd).answered)
    · intro i hlt
      by_cases hold : i < s.slot
      · refine (hi.written i hold).extend calls
          (fun d hd => (fromState d hd).not_covers hold) ?_
        rw [buf, if_neg (hc.not_covers hold)]
      · -- the slots this pass filled
        have hcov : c.Covers i := ⟨by rw [hc.slot]; omega, by rw [hc.slot, n]; omega⟩
        refine ⟨s.calls ++ failed, c, [], by rw [calls]; simp, ok, hcov, ?_, by simp, ?_⟩
        · rw [hc.lba, hc.slot, hi.position, u64_add_u64]
          congr 1
          omega
        · rw [buf, if_pos hcov]
  | shrunk c calls fromState n n_gt count' slot lba' chunk' buf =>
    have htotal := hi.total
    have hhalf : s'.st.chunk = s.nextCount / 2 := by
      rw [chunk']
      exact u16_of_lt (by omega)
    have hfirst := hi.chunk_le
    refine ⟨by omega, by omega, by omega, by rw [lba', slot]; exact hi.position, ?_, ?_, ?_,
      ?_⟩
    · intro d hd
      rw [calls, mem_append] at hd
      rcases hd with hd | hd
      · exact hi.sized d hd
      · rw [mem_singleton.mp hd, n, fromState.chunk]
        exact ⟨hpos, hlec⟩
    · have h := pairwise_ge_extend (z := s'.st.chunk) hi.falling [c.chunk]
        (by simp [fromState.chunk]) (by omega)
      rw [Falling, calls, map_append]
      simpa using h
    · intro d hd
      rw [calls, mem_append] at hd
      refine hd.elim (hi.answered d) (fun hd => ?_)
      rw [mem_singleton.mp hd]
      exact fromState.answered
    · intro i hlt
      rw [slot] at hlt
      have hcov := fromState.not_covers hlt
      refine (hi.written i hlt).extend calls ?_ (buf i hcov)
      intro d hd
      rwa [mem_singleton.mp hd]

/-- The variant falls: a pass that moves on lowers the sectors left, and a pass that
halves lowers the chunk. -/
theorem variant_lt {bios : Int13 β} {s s' : ReadLoop β} (hsize : count < 2 ^ 16)
    (hi : ReadInv bios lba count chunk s) (hcount : s.count ≠ 0) (hp : Pass bios s s') :
    s'.variant chunk < s.variant chunk := by
  have hpos := nextCount_pos hi.chunk_pos hcount
  have hlec := nextCount_le_chunk s
  have hlen := nextCount_le_count s
  have htotal := hi.total
  unfold ReadLoop.variant
  cases hp with
  | moved failed c calls fromState failed_n ok n count' slot lba' chunk' buf =>
    have hle : s'.count * (chunk + 1) + (chunk + 1) ≤ s.count * (chunk + 1) := by
      rw [← Nat.succ_mul]
      exact Nat.mul_le_mul_right _ (by omega)
    omega
  | shrunk c calls fromState n n_gt count' slot lba' chunk' buf =>
    have hhalf : s'.st.chunk = s.nextCount / 2 := by
      rw [chunk']
      exact u16_of_lt (by omega)
    rw [count']
    omega

theorem count_ne_zero_of_next {bios : Int13 β} {s s' : ReadLoop β}
    (h : ReadLoop.body bios s = .next s') : s.count ≠ 0 := by
  intro h0
  simp [ReadLoop.body, h0] at h

/-! ### The result -/

/-- The last two BIOS calls asked for the same single sector, and both failed. -/
def FailedTwice (s : ReadLoop β) : Prop :=
  ∃ pre c d, s.calls = pre ++ [c, d] ∧ c.n = 1 ∧ d.n = 1 ∧ c.lba = d.lba ∧
    c.slot = d.slot ∧ ¬ c.Ok ∧ ¬ d.Ok

/-- What `disk_read_lba` promises of its final state, for a request of `count` sectors from
`lba` entered with the chunk `chunk`. -/
structure ReadPost (bios : Int13 β) (lba count chunk : Nat) (r : Bool × ReadLoop β) :
    Prop where
  sized : ∀ c ∈ r.2.calls, 1 ≤ c.n ∧ c.n ≤ c.chunk
  falling : Falling chunk r.2
  chunk_pos : 1 ≤ r.2.st.chunk
  answered : ∀ c ∈ r.2.calls, Answered bios c
  success : r.1 = true → ∀ i < count, LastWrite lba r.2 i
  failure : r.1 = false → FailedTwice r.2

/-- A pass that leaves: nothing is left to read, or the retry of a single sector failed. -/
theorem readPost_of_body {bios : Int13 β} {s : ReadLoop β}
    {r : Bool × ReadLoop β} (hi : ReadInv bios lba count chunk s)
    (h : ReadLoop.body bios s = .done r) : ReadPost bios lba count chunk r := by
  unfold ReadLoop.body at h
  split at h
  · rename_i h0
    cases h
    refine ⟨hi.sized, hi.falling, hi.chunk_pos, hi.answered, fun _ i hlt => hi.written i ?_, by simp⟩
    have := hi.total
    omega
  · rename_i hcount
    dsimp only at h
    split at h
    · exact absurd h (by simp)
    · rename_i hst
      split at h
      · exact absurd h (by simp)
      · rename_i hn
        have hn1 : s.nextCount = 1 := by
          have := nextCount_pos hi.chunk_pos hcount
          omega
        rw [hn1] at h hst
        split at h
        · exact absurd h (by simp)
        · rename_i hst'
          cases h
          have hcalls : ((ReadLoop.int13 bios 1 (s.failed bios 1)).noteFailure
              ((s.failed bios 1).call bios 1).status 1).calls
              = s.calls ++ [s.call bios 1, (s.failed bios 1).call bios 1] := by simp
          refine ⟨?_, ?_, hi.chunk_pos, ?_, by simp, fun _ => ?_⟩
          · intro c hc
            rw [hcalls, mem_append] at hc
            rcases hc with hc | hc
            · exact hi.sized c hc
            · simp only [mem_cons, not_mem_nil, or_false] at hc
              rcases hc with rfl | rfl
              · exact ⟨Nat.le_refl 1, hi.chunk_pos⟩
              · exact ⟨Nat.le_refl 1, hi.chunk_pos⟩
          · have hlast := pairwise_ge_extend (z := s.st.chunk) hi.falling
              [s.st.chunk, s.st.chunk] (by simp) (Nat.le_refl _)
            rw [Falling, hcalls, map_append]
            exact hlast
          · intro c hc
            rw [hcalls, mem_append] at hc
            rcases hc with hc | hc
            · exact hi.answered c hc
            · simp only [mem_cons, not_mem_nil, or_false] at hc
              rcases hc with rfl | rfl
              · exact (fromState_call bios 1 s).answered
              · exact (fromState_retry bios 1 1 s).answered
          · exact ⟨s.calls, _, _, hcalls, rfl, rfl, rfl, rfl, hst, hst'⟩

theorem readInv_start (bios : Int13 β) (lba : UInt64) (count : UInt16) {st : DiskState β}
    (buf : Nat → List UInt8) (hchunk : 1 ≤ st.chunk) :
    ReadInv bios lba.toNat count.toNat st.chunk (diskReadStart lba count st buf) where
  chunk_pos := hchunk
  chunk_le := Nat.le_refl _
  total := Nat.zero_add _
  position := (u64_of_lt lba.toNat_lt).symm
  sized := by simp [diskReadStart, ReadLoop.calls]
  falling := by simp [Falling, diskReadStart, ReadLoop.calls]
  answered := by simp [diskReadStart, ReadLoop.calls]
  written := by simp [diskReadStart]

/-- `disk_read_lba` ends for every pattern of BIOS answers, with what `ReadPost` says. -/
theorem diskReadLba_spec (bios : Int13 β) (lba : UInt64) (count : UInt16)
    (st : DiskState β) (buf : Nat → List UInt8) (hchunk : 1 ≤ st.chunk) :
    ∃ r, diskReadLba bios lba count st buf = some r ∧
      ReadPost bios lba.toNat count.toNat st.chunk r := by
  have hsize : count.toNat < 2 ^ 16 := count.toNat_lt
  refine Loop.run_spec (ReadInv bios lba.toNat count.toNat st.chunk)
    (ReadPost bios lba.toNat count.toNat st.chunk) (ReadLoop.variant st.chunk) ?_
    (fun s r hi hb => readPost_of_body hi hb) _ _ (readInv_start bios lba count buf hchunk)
    (Nat.lt_succ_self _)
  intro s s' hi hb
  have hcount := count_ne_zero_of_next hb
  have hp := pass_of_body hi.chunk_pos hb
  exact ⟨readInv_step hsize hi hcount hp, variant_lt hsize hi hcount hp⟩

/-- `disk_read_lba` against an arbitrary BIOS: it ends; every call asks for at least one sector
and at most the chunk in force; the chunk never grows and stays positive; after a success each
slot was last written by a successful call for its own sector; and a failure is two failed
requests in a row for one single sector. -/
theorem diskReadLba_correct (bios : Int13 β) (lba : UInt64) (count : UInt16)
    (st : DiskState β) (buf : Nat → List UInt8) (hchunk : 1 ≤ st.chunk) :
    ∃ ok s, diskReadLba bios lba count st buf = some (ok, s) ∧
      (∀ c ∈ s.calls, 1 ≤ c.n ∧ c.n ≤ c.chunk) ∧
      (st.chunk :: s.calls.map BiosCall.chunk ++ [s.st.chunk]).Pairwise (· ≥ ·) ∧
      1 ≤ s.st.chunk ∧
      (ok = true → ∀ i < count.toNat, LastWrite lba.toNat s i) ∧
      (ok = false → FailedTwice s) := by
  obtain ⟨⟨ok, s⟩, hres, hpost⟩ := diskReadLba_spec bios lba count st buf hchunk
  exact ⟨ok, s, hres, hpost.sized, hpost.falling, hpost.chunk_pos, hpost.success, hpost.failure⟩

/-- A BIOS that refuses every transfer of more than two sectors. -/
def pickyBios : Int13 Unit where
  read b _ n := (⟨if n ≤ 2 then 0 else 1, fun _ => []⟩, b)
  reset b := b

def freshDisk : DiskState Unit where
  bios := ()
  chunk := diskMaxChunkSectors
  biosLimit := diskChunkLimit
  stats := ⟨0, diskMaxChunkSectors, diskMaxChunkSectors, 0, 0⟩
  lastError := ⟨0, 0, 0, 0⟩

/-- Twenty sectors from `pickyBios`, with the chunk a boot starts with. -/
theorem diskReadLba_correct_picky :
    ∃ ok s, diskReadLba pickyBios 2048 20 freshDisk (fun _ => []) = some (ok, s) ∧
      (ok = true → ∀ i < 20, LastWrite 2048 s i) ∧ (ok = false → FailedTwice s) := by
  obtain ⟨ok, s, hres, -, -, -, hsuccess, hfailure⟩ :=
    diskReadLba_correct pickyBios 2048 20 freshDisk (fun _ => []) (by decide)
  exact ⟨ok, s, hres, hsuccess, hfailure⟩

/-! ### The hard disk as a backend -/

/-- The BIOS may fail a call, but a call it reports as successful delivered the sectors it
was asked for. -/
def Truthful (bios : Int13 β) (img : Image) : Prop :=
  ∀ b lba n, (bios.read b lba n).1.status = 0 →
    ∀ j < n, (bios.read b lba n).1.data j = img.sector (u64 (lba + j))

/-- A slot last written by a successful call of a truthful BIOS holds its sector. -/
theorem LastWrite.data_eq {bios : Int13 β} (ht : Truthful bios img)
    {s : ReadLoop β} (hans : ∀ c ∈ s.calls, Answered bios c)
    (h : LastWrite lba s i) : s.buf i = img.sector (u64 (lba + i)) := by
  obtain ⟨pre, c, post, hsplit, hok, hcov, hlba, -, hdata⟩ := h
  obtain ⟨b, hb⟩ := hans c (by simp [hsplit])
  have hj : i - c.slot < c.n := by
    have := hcov.1
    have := hcov.2
    omega
  have hread := ht b c.lba c.n (by rw [hb]; exact hok) (i - c.slot) hj
  rw [hb] at hread
  rw [hdata, ← hlba]
  exact hread

/-- On a truthful BIOS the hard-disk driver is a faithful disk: the retry policy never
turns a failed transfer into a reported success. -/
theorem hardDisk_faithful {bios : Int13 β} (ht : Truthful bios img) :
    (hardDisk bios).Faithful img (fun st => 1 ≤ st.chunk) where
  keeps st lba n hst := by
    obtain ⟨r, hr, hpost⟩ := diskReadLba_spec bios (UInt64.ofNat lba) (UInt16.ofNat n) st
      (fun _ => []) hst
    simp only [hardDisk, hr]
    exact hpost.chunk_pos
  truthful st lba n hn hst hok := by
    obtain ⟨r, hr, hpost⟩ := diskReadLba_spec bios (UInt64.ofNat lba) (UInt16.ofNat n) st
      (fun _ => []) hst
    simp only [hardDisk, hr] at hok ⊢
    have hcount : (UInt16.ofNat n).toNat = n := by simpa using Nat.mod_eq_of_lt hn
    rw [Image.read, u16_of_lt hn]
    refine flatMap_congr (fun i hi => ?_)
    rw [(hpost.success hok i (by rw [hcount]; exact mem_range.mp hi)).data_eq ht
      hpost.answered]
    congr 1
    simp [u64]

end ZfsBoot.Proofs.Disk
