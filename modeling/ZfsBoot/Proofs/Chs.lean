import ZfsBoot.Bios.Chs
import ZfsBoot.Proofs.Disk

/-!
# `ZfsBoot.Proofs.Chs`: sectors by cylinder, head and sector

`disk_lba_to_chs` inverts the numbering of a disk's sectors, the registers that
`int13_read_chs` sets carry its answer without loss, and so the calls of one request, read back
from the registers, are the sectors asked for, in order, each inside its track.

* `diskLbaToChs_spec`: the place it returns is the place of that sector.
* `cylinder_regs` and its siblings: AH=02h finds in the registers what was put there.
* `pass_of_body`: what one pass of the loop does; the two invariants of the loop rest on it.
* `chsInt13_truthful`: in CHS mode the driver sits on a truthful BIOS, so what `Proofs.Disk` says
  about `disk_read_lba` holds there too.
-/

set_option autoImplicit false

namespace ZfsBoot.Proofs.Chs

open Lib
open Bios
open Bios.ChsLoop (regs)

variable {g : Geometry} {lba count : Nat} {r : Int13Regs} {img : Image} {β : Type}
  {bios : ChsBios β} {s s' : ChsLoop β}

/-! ### The place of a sector -/

/-- A place on a disk with this geometry, and the sector that is there. -/
structure PlaceOf (heads spt lba : Nat) (chs : Chs) : Prop where
  head_lt : chs.h < heads
  one_le_sector : 1 ≤ chs.s
  sector_le : chs.s ≤ spt
  number : (chs.c * heads + chs.h) * spt + chs.s - 1 = lba
  cylinder_le : chs.c ≤ 1023
  spt_le : spt ≤ 63
  lba_lt : lba < 2 ^ 32
  left_eq : chs.left = spt - (chs.s - 1)

/-- `disk_lba_to_chs` returns the place of the sector it was asked for. -/
theorem diskLbaToChs_spec {heads spt cyls : Nat} {chs : Chs} (hheads : heads ≤ 256)
    (h : diskLbaToChs lba heads spt cyls = some chs) : PlaceOf heads spt lba chs := by
  unfold diskLbaToChs at h
  split at h
  · exact absurd h (by simp)
  rename_i hargs
  have hl : u32 lba = lba := u32_of_lt (by omega)
  have hmul : heads * spt < 2 ^ 32 := by
    calc heads * spt ≤ 256 * 63 := Nat.mul_le_mul hheads (by omega)
      _ < 2 ^ 32 := by decide
  simp only [hl, u32_of_lt hmul] at h
  split at h
  · exact absurd h (by simp)
  rename_i hcyl
  have hsector : lba % spt < spt := Nat.mod_lt _ (by omega)
  have hhead : lba / spt % heads < heads := Nat.mod_lt _ (by omega)
  rw [u16_of_lt (by omega), u16_of_lt (by omega), u8_of_lt (by omega), u8_of_lt (by omega),
    Option.some.injEq] at h
  subst h
  -- the cylinder is the quotient of the track's number, so the two divisions add up again
  have htrack : lba / (heads * spt) * heads + lba / spt % heads = lba / spt := by
    rw [Nat.mul_comm heads spt, ← Nat.div_div_eq_div_mul, Nat.mul_comm]
    exact Nat.div_add_mod _ _
  have hnumber : lba / spt * spt + lba % spt = lba := Nat.div_add_mod' _ _
  exact
    { head_lt := hhead
      one_le_sector := by simp
      sector_le := hsector
      number := by
        show (lba / (heads * spt) * heads + lba / spt % heads) * spt + (lba % spt + 1) - 1 = lba
        rw [htrack]
        omega
      cylinder_le := by
        show lba / (heads * spt) ≤ 1023
        omega
      spt_le := by omega
      lba_lt := by omega
      left_eq := by simp }

/-! ### Into the registers and back -/

/-- The two high bits of a byte. -/
theorem and_c0 (x : Nat) : x &&& 0xc0 = 64 * (x / 64 % 4) := by
  have hbyte : ∀ y < 256, y &&& 0xc0 = 64 * (y / 64) := by decide +kernel
  have hlow : (x &&& 0xc0) % 2 ^ 8 = x % 2 ^ 8 &&& 0xc0 := Nat.and_mod_two_pow
  have hmask := hbyte (x % 2 ^ 8) (Nat.mod_lt _ (by decide))
  rw [Nat.mod_eq_of_lt (Nat.lt_of_le_of_lt Nat.and_le_right (by decide)), hmask] at hlow
  rw [hlow]
  omega

/-- A byte put under another. -/
theorem shiftLeft_or (a : Nat) {b i : Nat} (h : b < 2 ^ i) : a <<< i ||| b = a * 2 ^ i + b := by
  rw [← Nat.shiftLeft_add_eq_or_of_lt h, Nat.shiftLeft_eq]

section Registers

variable (drive : Nat) (chs : Chs) (n buf : Nat)

/-- CX as a number: eight bits of the cylinder, its two high bits, and the sector. -/
theorem cx_regs (hc : chs.c ≤ 1023) (hs : chs.s ≤ 63) :
    (regs drive chs n buf).cx = chs.c % 256 * 256 + chs.c / 256 * 64 + chs.s := by
  have hlow : chs.c &&& 0xff = chs.c % 256 := Nat.and_two_pow_sub_one_eq_mod chs.c 8
  have hhigh : (chs.c >>> 2) &&& 0xc0 = (chs.c / 256) <<< 6 := by
    rw [and_c0, Nat.shiftRight_eq_div_pow, Nat.shiftLeft_eq]
    omega
  have hcl : (chs.c / 256) <<< 6 ||| chs.s = chs.c / 256 * 64 + chs.s :=
    shiftLeft_or _ (by omega)
  have hcx : (chs.c % 256) <<< 8 ||| (chs.c / 256 * 64 + chs.s)
      = chs.c % 256 * 256 + (chs.c / 256 * 64 + chs.s) := shiftLeft_or _ (by omega)
  show u16 (((chs.c &&& 0xff) <<< 8) ||| ((chs.c >>> 2) &&& 0xc0) ||| chs.s) = _
  rw [hlow, hhigh, Nat.or_assoc, hcl, hcx, u16_of_lt (by omega), Nat.add_assoc]

theorem cylinder_regs (hc : chs.c ≤ 1023) (hs : chs.s ≤ 63) :
    (regs drive chs n buf).cylinder = chs.c := by
  have hhigh : (chs.c / 256) <<< 8 ||| chs.c % 256 = chs.c / 256 * 256 + chs.c % 256 :=
    shiftLeft_or _ (Nat.mod_lt _ (by decide))
  have hch : (chs.c % 256 * 256 + chs.c / 256 * 64 + chs.s) >>> 8 = chs.c % 256 := by
    rw [Nat.shiftRight_eq_div_pow]
    omega
  have hcl : ((chs.c % 256 * 256 + chs.c / 256 * 64 + chs.s) &&& 0xc0) <<< 2
      = (chs.c / 256) <<< 8 := by
    rw [and_c0, Nat.shiftLeft_eq, Nat.shiftLeft_eq]
    omega
  rw [Int13Regs.cylinder, cx_regs drive chs n buf hc hs, hch, hcl, Nat.or_comm, hhigh]
  omega

theorem sector_regs (hc : chs.c ≤ 1023) (hs : chs.s ≤ 63) :
    (regs drive chs n buf).sector = chs.s := by
  have hmask : ∀ x, x &&& 0x3f = x % 64 := fun x => Nat.and_two_pow_sub_one_eq_mod x 6
  rw [Int13Regs.sector, cx_regs drive chs n buf hc hs, hmask]
  omega

theorem dx_regs (hh : chs.h < 256) (hd : drive < 256) :
    (regs drive chs n buf).dx = chs.h * 256 + drive := by
  have hdx : (chs.h <<< 8) ||| drive = chs.h * 256 + drive := shiftLeft_or _ hd
  show u16 ((chs.h <<< 8) ||| drive) = _
  rw [hdx, u16_of_lt (by omega)]

theorem ax_regs (hn : n < 256) : (regs drive chs n buf).ax = 2 * 256 + n := by
  have hax : 2 <<< 8 ||| n = 2 * 256 + n := shiftLeft_or 2 hn
  show u16 (0x0200 ||| n) = _
  rw [show 0x0200 ||| n = 2 <<< 8 ||| n from rfl, hax, u16_of_lt (by omega)]

end Registers

/-! ### One pass -/

/-- The registers for `n` sectors from `lba` on: AH=02h for this drive, inside one track. -/
structure Reads (g : Geometry) (drive lba n : Nat) (r : Int13Regs) : Prop where
  service : r.service = 2
  drive : r.drive = drive
  sectors : r.sectors = n
  first : r.first g = lba
  inTrack : r.sector - 1 + n ≤ g.spt

/-- The registers say what `disk_lba_to_chs` found. -/
theorem reads_regs {drive n buf : Nat} {chs : Chs} (hheads : g.heads ≤ 256)
    (hdrive : drive < 256) (hp : PlaceOf g.heads g.spt lba chs) (hn : n ≤ chs.left) :
    Reads g drive lba n (regs drive chs n buf) := by
  have hleft := hp.left_eq
  have hle := hp.sector_le
  have hspt := hp.spt_le
  have hhead := hp.head_lt
  have hax := ax_regs drive chs n buf (by omega)
  have hdx := dx_regs drive chs n buf (by omega) hdrive
  have hsector := sector_regs drive chs n buf hp.cylinder_le (by omega)
  have hcylinder := cylinder_regs drive chs n buf hp.cylinder_le (by omega)
  have hh : (regs drive chs n buf).head = chs.h := by
    rw [Int13Regs.head, hdx]
    omega
  exact
    { service := by rw [Int13Regs.service, hax]; omega
      drive := by rw [Int13Regs.drive, hdx]; omega
      sectors := by rw [Int13Regs.sectors, hax]; omega
      first := by rw [Int13Regs.first, hcylinder, hh, hsector, hp.number]
      inTrack := by rw [hsector]; omega }

/-- What one pass that goes round again does: one call, for the sectors from where the loop
stands to the end of the request or of the track, and the BIOS reported success. -/
structure Pass (bios : ChsBios β) (g : Geometry) (drive : Nat) (s s' : ChsLoop β) (n : Nat)
    (r : Int13Regs) : Prop where
  reads : Reads g drive s.lba n r
  bx : r.bx = u16 s.buf
  n_pos : 1 ≤ n
  n_le : n ≤ s.count
  n_le_track : n ≤ 63
  lba_lt : s.lba < 2 ^ 32
  answered : (bios.call s.bios r).1.failed = false
  after : s' = (s.int13 bios r).advance n

theorem pass_of_body {drive : Nat} (hheads : g.heads ≤ 256) (hdrive : drive < 256)
    (h : ChsLoop.body bios g drive s = .next s') : ∃ n r, Pass bios g drive s s' n r := by
  unfold ChsLoop.body at h
  split at h
  · exact absurd h (by simp)
  rename_i hcount
  split at h
  · exact absurd h (by simp)
  rename_i chs hchs
  have hp := diskLbaToChs_spec hheads hchs
  have hleft := hp.left_eq
  have hone := hp.one_le_sector
  have hle := hp.sector_le
  have hspt := hp.spt_le
  dsimp only at h
  generalize hn : (if s.count < chs.left then s.count else chs.left) = n at h
  have hnle : n ≤ s.count ∧ n ≤ chs.left ∧ 1 ≤ n := by
    rw [← hn]
    split <;> omega
  split at h
  · exact absurd h (by simp)
  rename_i hok
  refine ⟨n, regs drive chs n s.buf, ?_⟩
  exact
    { reads := reads_regs hheads hdrive hp hnle.2.1
      bx := rfl
      n_pos := hnle.2.2
      n_le := hnle.1
      n_le_track := by omega
      lba_lt := hp.lba_lt
      answered := by simpa using hok
      after := by simpa using h.symm }

/-- The pass that leaves with status 0 is the one with nothing left to read. -/
theorem count_of_done {drive : Nat} (h : ChsLoop.body bios g drive s = .done (0, s')) :
    s.count = 0 ∧ s' = s := by
  unfold ChsLoop.body at h
  split at h
  · rename_i hcount
    exact ⟨hcount, by simpa using h.symm⟩
  split at h
  · exact absurd h (by simp)
  rename_i chs _
  dsimp only at h
  generalize (if s.count < chs.left then s.count else chs.left) = n at h
  split at h
  · -- a failed call's status is never 0
    rw [Loop.Step.done.injEq, Prod.mk.injEq, ChsLoop.failure] at h
    split at h
    · exact absurd h.1 ‹_›
    · exact absurd h.1 (by decide)
  · exact absurd h (by simp)

/-! ### The loop -/

/-- How far the loop is: `slot` of the `count` sectors, and every call so far was one of AH=02h
for this drive, inside one track, and succeeded. -/
structure Progress (g : Geometry) (drive lba count : Nat) (s : ChsLoop β) : Prop where
  total : s.slot + s.count = count
  position : s.lba = lba + s.slot
  made : ∀ k ∈ s.calls, k.answer.failed = false ∧ k.regs.service = 2 ∧ k.regs.drive = drive ∧
    k.regs.sector - 1 + k.regs.sectors ≤ g.spt

theorem progress_step {drive n : Nat} (hi : Progress g drive lba count s)
    (hp : Pass bios g drive s s' n r) : Progress g drive lba count s' := by
  have htotal := hi.total
  have hposition := hi.position
  have hle := hp.n_le
  have htrack := hp.n_le_track
  have hlba := hp.lba_lt
  obtain rfl := hp.after
  exact
    { total := by
        show s.slot + n + (s.count - n) = count
        omega
      position := by
        show u64 (s.lba + n) = lba + (s.slot + n)
        rw [u64_of_lt (by omega)]
        omega
      made := by
        intro k hk
        obtain hk | hk := List.mem_append.mp hk
        · exact hi.made k hk
        · obtain rfl := List.mem_singleton.mp hk
          refine ⟨hp.answered, hp.reads.service, hp.reads.drive, ?_⟩
          rw [hp.reads.sectors]
          exact hp.reads.inTrack }

/-- `int13_read_chs` ends, and what every pass keeps holds at the end if it returns 0. -/
theorem int13ReadChs_spec (bios : ChsBios β) (g : Geometry) {drive : Nat} (lba count buf : Nat)
    (b : β) (hheads : g.heads ≤ 256) (hdrive : drive < 256) (Q : ChsLoop β → Prop)
    (hstart : Q (chsStart lba count buf b))
    (hpass : ∀ s s' n r, Progress g drive lba count s → Q s → Pass bios g drive s s' n r → Q s') :
    ∃ status s, int13ReadChs bios g drive lba count buf b = some (status, s) ∧
      (status = 0 → s.slot = count ∧ Progress g drive lba count s ∧ Q s) := by
  have hnext : ∀ s s', Progress g drive lba count s ∧ Q s →
      ChsLoop.body bios g drive s = .next s' →
      (Progress g drive lba count s' ∧ Q s') ∧ s'.count < s.count := by
    intro s s' hi hb
    obtain ⟨n, r, hp⟩ := pass_of_body hheads hdrive hb
    have hlt : s.count - n < s.count :=
      Nat.sub_lt (Nat.le_trans hp.n_pos hp.n_le) hp.n_pos
    exact ⟨⟨progress_step hi.1 hp, hpass s s' n r hi.1 hi.2 hp⟩, by rw [hp.after]; exact hlt⟩
  have hdone : ∀ s r, Progress g drive lba count s ∧ Q s →
      ChsLoop.body bios g drive s = .done r →
      r.1 = 0 → r.2.slot = count ∧ Progress g drive lba count r.2 ∧ Q r.2 := by
    intro s r hi hb hr
    obtain ⟨status, s'⟩ := r
    obtain rfl : status = 0 := hr
    obtain ⟨hcount, rfl⟩ := count_of_done hb
    have htotal := hi.1.total
    exact ⟨by rw [← htotal, hcount, Nat.add_zero], hi⟩
  have hprogress : Progress g drive lba count (chsStart lba count buf b) :=
    ⟨Nat.zero_add count, rfl, fun k hk => absurd hk List.not_mem_nil⟩
  obtain ⟨r, hrun, hpost⟩ := Loop.run_spec _ _ ChsLoop.count hnext hdone (count + 1)
    (chsStart lba count buf b) ⟨hprogress, hstart⟩ (Nat.lt_succ_self count)
  exact ⟨r.1, r.2, hrun, hpost⟩

/-! ### What was read -/

/-- The calls so far cover the first `slot` sectors of the request, in order, one after the
other in the buffer. -/
def Covered (g : Geometry) (lba buf : Nat) (s : ChsLoop β) : Prop :=
  u16 s.buf = u16 (buf + diskSectorSize * s.slot) ∧
    s.calls.flatMap (fun k => k.regs.transfers g) =
      (List.range s.slot).map fun i => (lba + i, u16 buf + diskSectorSize * i)

theorem covered_step {drive buf n : Nat} (hseg : u16 buf + diskSectorSize * count ≤ 2 ^ 16)
    (hi : Progress g drive lba count s) (hc : Covered g lba buf s) (hp : Pass bios g drive s s' n r) :
    Covered g lba buf s' := by
  obtain ⟨hbuf, hcalls⟩ := hc
  have htotal := hi.total
  have hpos := hp.n_pos
  have hle := hp.n_le
  -- the segment has room for the sector the loop stands at, so its offset has not wrapped
  have hbx : r.bx = u16 buf + diskSectorSize * s.slot := by
    rw [hp.bx, hbuf]
    unfold u16 diskSectorSize at *
    omega
  have htransfers : r.transfers g = (List.range n).map fun i =>
      (lba + (s.slot + i), u16 buf + diskSectorSize * (s.slot + i)) := by
    rw [Int13Regs.transfers, hp.reads.sectors, hp.reads.first, hbx, hi.position]
    simp only [Nat.add_assoc, Nat.mul_add]
  obtain rfl := hp.after
  refine ⟨?_, ?_⟩
  · show u16 (u32 (s.buf + u32 (n * diskSectorSize))) = u16 (buf + diskSectorSize * (s.slot + n))
    unfold u16 u32 diskSectorSize at *
    omega
  · have hafter : ((s.int13 bios r).advance n).calls =
        s.calls ++ [⟨r, (bios.call s.bios r).1⟩] := rfl
    have hslot : ((s.int13 bios r).advance n).slot = s.slot + n := rfl
    rw [hafter, hslot, List.flatMap_append, hcalls, List.flatMap_singleton, htransfers,
      List.range_add, List.map_append, List.map_map]
    exact rfl

/-- Both halves of reading by cylinder, head and sector: `disk_lba_to_chs` returns the place of
the sector, and a request that `int13_read_chs` completes was carried out by calls which, read
back from CX, DX and AL, fetch the sectors asked for in order into consecutive positions. A
geometry without heads, or without 1..63 sectors to a track, is refused for every sector. -/
theorem readChs_exact (bios : ChsBios β) (heads spt cyls : UInt16) (drive : UInt8)
    (hheads : heads.toNat ≤ 256) :
    (∀ (lba : UInt64) (chs : Chs),
      diskLbaToChs lba.toNat heads.toNat spt.toNat cyls.toNat = some chs →
      chs.h < heads.toNat ∧ 1 ≤ chs.s ∧ chs.s ≤ spt.toNat ∧
        (chs.c * heads.toNat + chs.h) * spt.toNat + chs.s - 1 = lba.toNat) ∧
    ∀ (lba : UInt64) (count : UInt16) (buf : UInt32) (b : β),
      u16 buf.toNat + diskSectorSize * count.toNat ≤ 2 ^ 16 →
      ∃ status s,
        int13ReadChs bios ⟨heads.toNat, spt.toNat, cyls.toNat⟩ drive.toNat lba.toNat count.toNat
          buf.toNat b = some (status, s) ∧
        (status = 0 →
          (∀ k ∈ s.calls, k.answer.failed = false ∧ k.regs.service = 2 ∧
            k.regs.drive = drive.toNat ∧ k.regs.sector - 1 + k.regs.sectors ≤ spt.toNat) ∧
          s.calls.flatMap (fun k => k.regs.transfers ⟨heads.toNat, spt.toNat, cyls.toNat⟩) =
            (List.range count.toNat).map fun i =>
              (lba.toNat + i, u16 buf.toNat + diskSectorSize * i)) := by
  constructor
  · intro lba chs h
    have hp := diskLbaToChs_spec hheads h
    exact ⟨hp.head_lt, hp.one_le_sector, hp.sector_le, hp.number⟩
  · intro lba count buf b hseg
    have hstart : Covered ⟨heads.toNat, spt.toNat, cyls.toNat⟩ lba.toNat buf.toNat
        (chsStart lba.toNat count.toNat buf.toNat b) := ⟨rfl, rfl⟩
    obtain ⟨status, s, hrun, hpost⟩ := int13ReadChs_spec bios
      ⟨heads.toNat, spt.toNat, cyls.toNat⟩ lba.toNat count.toNat buf.toNat b hheads
      drive.toNat_lt _ hstart fun s s' n r hi hc hp => covered_step hseg hi hc hp
    refine ⟨status, s, hrun, fun hstatus => ?_⟩
    obtain ⟨hslot, hprogress, -, hcalls⟩ := hpost hstatus
    rw [hslot] at hcalls
    exact ⟨hprogress.made, hcalls⟩

/-- A BIOS that never fails. -/
def readyBios : ChsBios Unit where
  call b r := (⟨false, r.ax, fun _ => []⟩, b)
  reset b := b

/-- Forty sectors from sector 1000 of a disk with 16 heads and 63 sectors to a track: the request
ends in the next track. -/
theorem readChs_exact_forty :
    diskLbaToChs 1000 16 63 1024 = some ⟨0, 15, 56, 8⟩ ∧
    ∃ status s, int13ReadChs readyBios ⟨16, 63, 1024⟩ 0x80 1000 40 0x2000 () = some (status, s) ∧
      (status = 0 →
        (∀ k ∈ s.calls, k.answer.failed = false ∧ k.regs.service = 2 ∧
          k.regs.drive = 0x80 ∧ k.regs.sector - 1 + k.regs.sectors ≤ 63) ∧
        s.calls.flatMap (fun k => k.regs.transfers ⟨16, 63, 1024⟩) =
          (List.range 40).map fun i => (1000 + i, 0x2000 + diskSectorSize * i)) :=
  ⟨by decide, (readChs_exact readyBios 16 63 1024 0x80 (by decide)).2 1000 40 0x2000 ()
    (by decide)⟩

/-! ### The driver above it -/

/-- A BIOS that delivers what it reports as read: AH=02h inside one track, and the sectors that
the registers name. -/
def ChsTruthful (bios : ChsBios β) (g : Geometry) (img : Image) : Prop :=
  ∀ b r, r.service = 2 → r.sector - 1 + r.sectors ≤ g.spt → (bios.call b r).1.failed = false →
    ∀ j < r.sectors, (bios.call b r).1.data j = img.sector (r.first g + j)

/-- The buffer holds the first `slot` sectors of the request. -/
def Filled (img : Image) (lba : Nat) (s : ChsLoop β) : Prop :=
  ∀ i < s.slot, s.mem i = img.sector (u64 (lba + i))

theorem filled_step {drive n : Nat} (ht : ChsTruthful bios g img)
    (hi : Progress g drive lba count s) (hf : Filled img lba s) (hp : Pass bios g drive s s' n r) :
    Filled img lba s' := by
  have hposition := hi.position
  have hlba := hp.lba_lt
  have htrack := hp.n_le_track
  have hsectors := hp.reads.sectors
  have hin : r.sector - 1 + r.sectors ≤ g.spt := by
    rw [hsectors]
    exact hp.reads.inTrack
  obtain rfl := hp.after
  intro i hlt
  have hlt : i < s.slot + n := hlt
  show (if s.slot ≤ i ∧ i < s.slot + r.sectors then
    (bios.call s.bios r).1.data (i - s.slot) else s.mem i) = _
  rw [hsectors]
  by_cases hold : i < s.slot
  · rw [if_neg (by omega)]
    exact hf i hold
  · rw [if_pos (by omega), ht s.bios r hp.reads.service hin hp.answered _ (by omega),
      hp.reads.first, u64_of_lt (by omega)]
    congr 1
    omega

/-- In CHS mode `disk_int13_read` is truthful: it reports success only for sectors that the BIOS
delivered. With `hardDisk_faithful` this gives `disk_read_lba` on such a drive. -/
theorem chsInt13_truthful {drive : Nat} (buf : Nat) (hheads : g.heads ≤ 256) (hdrive : drive < 256)
    (ht : ChsTruthful bios g img) : Disk.Truthful (chsInt13 bios g drive buf) img := by
  intro b lba n hstatus j hj
  have hstart : Filled img lba (chsStart lba n buf b) := fun i hi => absurd hi (Nat.not_lt_zero i)
  obtain ⟨status, s, hrun, hpost⟩ := int13ReadChs_spec bios g lba n buf b hheads hdrive _ hstart
    fun s s' n r hi hf hp => filled_step ht hi hf hp
  simp only [chsInt13, hrun] at hstatus ⊢
  obtain ⟨hslot, -, hfilled⟩ := hpost hstatus
  exact hfilled j (by omega)

/-- `disk_read_lba` on a drive without INT 13h extensions. -/
theorem chsDisk_faithful {drive : Nat} (buf : Nat) (hheads : g.heads ≤ 256) (hdrive : drive < 256)
    (ht : ChsTruthful bios g img) :
    (hardDisk (chsInt13 bios g drive buf)).Faithful img (fun st => 1 ≤ st.chunk) :=
  Disk.hardDisk_faithful (chsInt13_truthful buf hheads hdrive ht)

/-- A BIOS over an image. -/
def imageBios (g : Geometry) (img : Image) : ChsBios Unit where
  call b r := (⟨false, r.ax, fun j => img.sector (r.first g + j)⟩, b)
  reset b := b

theorem chsDisk_faithful_zeros :
    let img := .ofBytes fun _ => 0
    (hardDisk (chsInt13 (imageBios ⟨16, 63, 1024⟩ img) ⟨16, 63, 1024⟩ 0x80 0)).Faithful img
      (1 ≤ ·.chunk) := by
  have ht g img : ChsTruthful (imageBios g img) g img := fun _ _ _ _ _ _ _ => rfl
  exact chsDisk_faithful 0 (by decide) (by decide) (ht _ _)

end ZfsBoot.Proofs.Chs
