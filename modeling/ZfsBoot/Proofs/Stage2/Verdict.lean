import ZfsBoot.Proofs.Stage2.Gate
import ZfsBoot.Proofs.Stage2.Landing
import ZfsBoot.Proofs.Tool.PayloadSum

/-!
# `ZfsBoot.Proofs.Stage2.Verdict`: the loader's verdict and the tool's

`alpine-zfsboot verify` says of a KERNEL and an INITRD what the loader would say of them. The two
compute it apart: the tool from the files, the loader from a header it reads again, the sizes of
the directory entries, and RAM. `jump_clean_iff_verify` compares them for a boot whose loads are
fault-free and whose other checks pass.

A kernel without a proper header is refused by both. The tool asks for 518 bytes where the loader
asks for 620, but a kernel that is longer than its real-mode part has more than 1024
(`kernelRamOffset_eq_ok`).
-/

set_option autoImplicit false

namespace ZfsBoot.Proofs.Stage2

open Lib Lib.Halting Bios Fat
open ZfsBoot.Tool.PayloadSum (Manifest kernelRamOffset verify verifyEntry realModeBytes entryFor)

variable {file : List UInt8} {n i kernelLen initrdLen kernelSize initrdSize : Nat} {vol : FatVolume}
  {offset : PayloadSum → Nat} {entry : PayloadSum → PayloadSumEntry} {size : Nat}
  {hdr : SetupHeader} {δ : Type} {pf : Platform δ}

/-! ### The header -/

theorem byteAt_take (h : i < n) :
    byteAt (file.take n) i = byteAt file i := by
  unfold byteAt
  rw [List.getD_eq_getElem?_getD, List.getD_eq_getElem?_getD, List.getElem?_take_of_lt h]

/-- The header as the loader reads it. -/
def headerOf (kernel : List UInt8) : SetupHeader := setupHeader (kernel.take setupHeaderEnd)

/-- The loader's test of the header. -/
def HeaderValid (hdr : SetupHeader) : Prop := hdr.bootFlag = 0xAA55 ∧ hdr.header = 0x53726448

theorem realModeBytes_headerOf (kernel : List UInt8) :
    (headerOf kernel).realModeBytes = realModeBytes kernel := by
  unfold SetupHeader.realModeBytes headerOf setupHeader realModeBytes
  dsimp only
  rw [byteAt_take (by decide)]

theorem le32_drop (file : List UInt8) (i : Nat) : le32 file i = le32 (file.drop i) 0 := by
  simp [le32, le16, byteAt, List.getD_eq_getElem?_getD]

/-- Four bytes, as a number and as a text. -/
theorem le32_eq_magic_iff (h : i + 4 ≤ file.length) :
    le32 file i = 0x53726448 ↔ (file.drop i).take 4 = ascii "HdrS" := by
  have hlen : 4 ≤ (file.drop i).length := by
    rw [List.length_drop]
    omega
  rw [le32_drop, show ascii "HdrS" = [0x48, 0x64, 0x72, 0x53] from rfl]
  generalize file.drop i = word at hlen
  rcases word with _ | ⟨a, _ | ⟨b, _ | ⟨c, _ | ⟨d, rest⟩⟩⟩⟩
  iterate 4 simp at hlen
  have ha := a.toNat_lt
  have hb := b.toNat_lt
  have hc := c.toNat_lt
  show a.toNat + 2 ^ 8 * b.toNat + 2 ^ 16 * (c.toNat + 2 ^ 8 * d.toNat) = _ ↔ [a, b, c, d] = _
  simp only [List.cons.injEq, and_true, ← UInt8.toNat_inj, UInt8.reduceToNat]
  omega

/-- The tool's test of a kernel, in the loader's terms. -/
theorem kernelRamOffset_eq_ok {kernel : List UInt8} {off : Nat} :
    kernelRamOffset kernel = .ok off ↔ setupHeaderEnd ≤ kernel.length ∧
      HeaderValid (headerOf kernel) ∧ (headerOf kernel).realModeBytes < kernel.length ∧
      off = (headerOf kernel).realModeBytes := by
  have hend : setupHeaderEnd = 620 := rfl
  have hreal : 1024 ≤ realModeBytes kernel := by
    unfold realModeBytes
    split <;> omega
  have hflag : (headerOf kernel).bootFlag = le16 kernel 0x1FE := by
    show le16 (kernel.take setupHeaderEnd) 0x1FE = _
    rw [le16, byteAt_take (by decide), byteAt_take (by decide)]
    rfl
  have hmagic : (headerOf kernel).header = le32 kernel 0x202 := by
    show le32 (kernel.take setupHeaderEnd) 0x202 = _
    rw [le32, le16, le16, byteAt_take (by decide), byteAt_take (by decide),
      byteAt_take (by decide), byteAt_take (by decide)]
    rfl
  rw [HeaderValid, hflag, hmagic, realModeBytes_headerOf]
  unfold kernelRamOffset
  constructor
  · intro h
    split_ifs at h with hform hsize
    rw [not_or, not_or, not_not, not_not] at hform
    obtain ⟨hlen, hboot, htext⟩ := hform
    exact ⟨by omega, ⟨hboot, (le32_eq_magic_iff (by omega)).mpr htext⟩, by omega,
      (Except.ok.inj h).symm⟩
  · rintro ⟨hlen, ⟨hboot, hword⟩, hlt, rfl⟩
    have htext := (le32_eq_magic_iff (by omega)).mp hword
    rw [if_neg (by rw [not_or, not_or, not_not, not_not]; exact ⟨by omega, hboot, htext⟩),
      if_neg (by omega)]

/-! ### The tool's verdict -/

/-- The manifest, as the tool has it. -/
def toolManifest (m : PayloadSum) : Manifest where
  kernel := ⟨m.kernel.size, m.kernel.offset, m.kernel.sha256⟩
  initrd := ⟨m.initrd.size, m.initrd.offset, m.initrd.sha256⟩
  mode := m.mode

/-- A file agrees with its entry: size, offset and hash. -/
structure Agrees (e : PayloadSumEntry) (data : List UInt8) (start : Nat) : Prop where
  size : e.size = data.length
  offset : e.offset = start
  digest : Sha256.digest (data.drop start) = e.sha256

theorem verifyEntry_eq_nil {name data : List UInt8} {e : PayloadSumEntry} {offset : Nat} :
    verifyEntry name ⟨e.size, e.offset, e.sha256⟩ data offset = [] ↔ Agrees e data offset := by
  unfold verifyEntry
  constructor
  · intro h
    dsimp only at h
    split_ifs at h with hsize hoff hsum
    exact ⟨(not_not.mp hsize).symm, (not_not.mp hoff).symm, not_not.mp hsum⟩
  · rintro ⟨hsize, hoff, hsum⟩
    rw [if_neg (not_not.mpr hsize.symm), if_neg (not_not.mpr hoff.symm)]
    exact if_neg (not_not.mpr hsum)

theorem verify_eq_nil {m : PayloadSum} {kernel initrd : List UInt8} :
    verify (toolManifest m) kernel initrd = [] ↔ ∃ off, kernelRamOffset kernel = .ok off ∧
      Agrees m.kernel kernel off ∧ Agrees m.initrd initrd 0 := by
  unfold verify
  rcases kernelRamOffset kernel with e | off
  · simp
  · show verifyEntry _ _ kernel off ++ verifyEntry _ _ initrd 0 = [] ↔ _
    rw [List.append_eq_nil_iff]
    constructor
    · rintro ⟨hk, hi⟩
      exact ⟨off, rfl, verifyEntry_eq_nil.mp hk, verifyEntry_eq_nil.mp hi⟩
    · rintro ⟨off', h, hk, hi⟩
      cases h
      exact ⟨verifyEntry_eq_nil.mpr hk, verifyEntry_eq_nil.mpr hi⟩

theorem entryFor_eq_ok {e : PayloadSumEntry} {data : List UInt8} {start : Nat} :
    entryFor data start = .ok ⟨e.size, e.offset, e.sha256⟩
      ↔ data.length ≤ 0xffffffff ∧ Agrees e data start := by
  unfold entryFor
  split
  · exact ⟨nofun, fun h => by omega⟩
  · rename_i hlen
    refine ⟨fun h => ⟨by omega, ?_⟩, fun ⟨_, hsize, hoff, hsum⟩ => by rw [hsize, hoff, hsum]⟩
    injection h with h
    injection h with hsize hoff hsum
    exact ⟨hsize.symm, hoff.symm, hsum⟩

/-! ### What changes the manifest in use -/

/-- A sound boot with a given manifest in use, or with none. -/
structure Holding (inUse : Option PayloadSum) (s : Boot δ) : Prop where
  sound : Sound s
  sum : s.g.sum = inUse

theorem soundStable_holding (inUse : Option PayloadSum) :
    SoundStable (Holding inUse : Boot δ → Prop) where
  alt _ h := h.sound.alt
  keep _ _ h hs := ⟨h.sound.steady hs, hs.sum.trans h.sum⟩
  sound _ h := h.sound
  table _ _ h hs := ⟨hs, h.sum⟩

/-- Of the checks of a size and an offset, only one that passes leaves the manifest in use. -/
theorem checkFile_eq_ok {m : PayloadSum} {s s' : Boot δ}
    (h : payloadSumCheckFile entry size offset s = (.ok (), s')) (hsum : s'.g.sum = some m) :
    s = s' ∧ (entry m).size = size ∧ (entry m).offset = offset m := by
  unfold payloadSumCheckFile at h
  rw [bind_apply, look_apply] at h
  dsimp only at h
  rcases hs : s.g.sum with _ | sum
  all_goals rw [hs] at h
  · cases h
    rw [hs] at hsum
    cases hsum
  · dsimp only at h
    split_ifs at h with hok henforce
    · cases h
      rw [hs] at hsum
      cases hsum
      exact ⟨rfl, layout_of_ok hok⟩
    · cases h
    · cases h
      cases hsum

/-- A check that passes changes nothing. -/
theorem checkFile_of_agrees {m : PayloadSum} {s : Boot δ} (hsum : s.g.sum = some m)
    (hsize : (entry m).size = size) (hoffset : (entry m).offset = offset m) :
    payloadSumCheckFile entry size offset s = (.ok (), s) := by
  have hlayout : payloadSumCheckLayout (entry m) size (offset m) = .ok := by
    unfold payloadSumCheckLayout
    rw [if_neg (not_not.mpr hsize), if_neg (not_not.mpr hoffset)]
  unfold payloadSumCheckFile
  rw [bind_apply, look_apply]
  dsimp only
  rw [hsum]
  dsimp only
  rw [if_pos hlayout]
  rfl

/-! ### Fault-free loads -/

/-- The state in which attempt `n` to read the kernel's header starts. -/
def beforeAttempt (pf : Platform δ) (files : BootFiles) (s : Boot δ) (n : Nat) : Boot δ :=
  (fun t => (headerAttempt pf files.vol files.kernel t).2)^[n] s

/-- The loads of a boot are fault-free, from the state `s` in which the options have been read:
every read of the kernel's header that is made returns the header of KERNEL, both loads return 0,
and what is in RAM after them is what is in the files. -/
structure FaultFree (pf : Platform δ) (files : BootFiles) (kernel initrd : List UInt8)
    (s : Boot δ) : Prop where
  kernelSize : files.kernel.size.toNat = kernel.length
  initrdSize : files.initrd.size.toNat = initrd.length
  header : setupHeaderEnd ≤ kernel.length → ∀ n < gptRetryAttempts,
    (∀ i < n, (headerAttempt pf files.vol files.kernel (beforeAttempt pf files s i)).1 = none) →
    let r := readRange pf files.vol files.kernel 0 setupHeaderEnd pf.headerBuf
      (beforeAttempt pf files s n)
    r.1 = true ∧ setupHeader (ramBytes r.2.m.ram pf.headerBuf setupHeaderEnd) = headerOf kernel
  loads : ∀ hdr t, readKernelHeader pf files s = (.ok hdr, t) → ∃ t₁ t₂,
    loadFile pf false files.vol files.kernel hdr.realModeBytes
      (kernel.length - hdr.realModeBytes) kernelLoadAddr t = (.ok true, t₁) ∧
    loadFile pf true files.vol files.initrd 0 initrd.length initrdLoadAddr t₁ = (.ok true, t₂) ∧
    ramBytes t₂.m.ram kernelLoadAddr (kernel.length - hdr.realModeBytes)
      = kernel.drop hdr.realModeBytes ∧
    ramBytes t₂.m.ram initrdLoadAddr initrd.length = initrd

/-- The checks that have nothing to do with the manifest: the memory map, the A20 gate and
`initrd_addr_max`. -/
structure OtherChecks (pf : Platform δ) (kernel initrd : List UInt8) : Prop where
  layout : ∀ s, checkLayout pf (headerOf kernel)
    (kernel.length - (headerOf kernel).realModeBytes) initrd.length s = (.ok (), s)
  a20 : pf.a20 = true
  addrMax : initrdLoadAddr + initrd.length ≤ (headerOf kernel).initrdAddrMax

/-- The kernel is reached with the manifest still in use: a size or an offset that differs stops
the boot or drops it. Both hashes over RAM, as it is at the jump, are the recorded ones. -/
def CleanJump (pf : Platform δ) (m : PayloadSum) (r : Except Stop Jump × Boot δ) : Prop :=
  ∃ jump, r.1 = .ok jump ∧ r.2.g.sum = some m ∧
    (payloadSumVerify pf m.kernel kernelLoadAddr (jump.kernelSize - jump.realModeBytes) r.2).1
      = true ∧
    (payloadSumVerify pf m.initrd initrdLoadAddr jump.initrdSize r.2).1 = true

/-- `check_layout` leaves the state alone. -/
theorem checkLayout_state (hdr : SetupHeader) (size initrdSize : Nat) (s : Boot δ) :
    (checkLayout pf hdr size initrdSize s).2 = s := by
  have hrequire {e : Stop} {c : Prop} [Decidable c] :
      Triple (fun t => t = s) (require e c) (fun _ t => t = s) (fun (_ : Stop) t => t = s) := by
    refine (triple_require ?_).post fun _ _ h => h.1
    intro t ht _
    exact ht
  have hrun : Triple (fun t => t = s) (checkLayout pf hdr size initrdSize) (fun _ t => t = s)
      (fun _ t => t = s) := by
    refine triple_bind _ hrequire fun _ => triple_bind _ hrequire fun _ => ?_
    dsimp only
    split
    · exact triple_bind _ hrequire fun _ => hrequire
    · exact hrequire
  have hends := hrun.ends s rfl
  rcases hr : checkLayout pf hdr size initrdSize s with ⟨_ | _, t⟩
  all_goals
    rw [hr] at hends
    exact hends

/-- A first read that finds a valid header is the only one, and a run is what it evaluates to. -/
theorem FaultFree.of_runs {files : BootFiles} {kernel initrd : List UInt8} {s t t₁ t₂ : Boot δ}
    {len : Nat} (hk : files.kernel.size.toNat = kernel.length)
    (hi : files.initrd.size.toNat = initrd.length) (hvalid : HeaderValid (headerOf kernel))
    (hread : (readRange pf files.vol files.kernel 0 setupHeaderEnd pf.headerBuf s).1 = true)
    (hfields : setupHeader (ramBytes (readRange pf files.vol files.kernel 0 setupHeaderEnd
      pf.headerBuf s).2.m.ram pf.headerBuf setupHeaderEnd) = headerOf kernel)
    (hheader : readKernelHeader pf files s = (.ok hdr, t))
    (hlen : kernel.length - hdr.realModeBytes = len)
    (hload₁ : loadFile pf false files.vol files.kernel hdr.realModeBytes len kernelLoadAddr t
      = (.ok true, t₁))
    (hload₂ : loadFile pf true files.vol files.initrd 0 initrd.length initrdLoadAddr t₁
      = (.ok true, t₂))
    (hramK : ramBytes t₂.m.ram kernelLoadAddr len = kernel.drop hdr.realModeBytes)
    (hramI : ramBytes t₂.m.ram initrdLoadAddr initrd.length = initrd) :
    FaultFree pf files kernel initrd s where
  kernelSize := hk
  initrdSize := hi
  header _ n _ hbefore := by
    cases n with
    | zero => exact ⟨hread, hfields⟩
    | succ n =>
      -- the first attempt has succeeded
      have hfirst : (headerAttempt pf files.vol files.kernel s).1 = none :=
        hbefore 0 (Nat.succ_pos n)
      unfold headerAttempt at hfirst
      rcases hr : readRange pf files.vol files.kernel 0 setupHeaderEnd pf.headerBuf s
        with ⟨_ | _, s'⟩
      all_goals rw [hr] at hread hfields hfirst
      · cases hread
      · dsimp only at hfirst hfields
        rw [hfields, if_pos (show _ ∧ _ from hvalid)] at hfirst
        cases hfirst
  loads hdr' t' h := by
    cases hheader.symm.trans h
    subst hlen
    exact ⟨t₁, t₂, hload₁, hload₂, hramK, hramI⟩

section Run

variable {files : BootFiles} {kernel initrd : List UInt8} {s : Boot δ}
  (hfree : FaultFree pf files kernel initrd s)

include hfree

/-- What an attempt to read the header makes of it, if the ones before it have failed. -/
theorem headerAttempt_faultFree (hlen : setupHeaderEnd ≤ kernel.length)
    (hn : n < gptRetryAttempts) (hbefore : ∀ i < n,
      (headerAttempt pf files.vol files.kernel (beforeAttempt pf files s i)).1 = none) :
    (headerAttempt pf files.vol files.kernel (beforeAttempt pf files s n)).1
      = if (headerOf kernel).bootFlag = 0xAA55 ∧ (headerOf kernel).header = 0x53726448 then
          some (headerOf kernel) else none := by
  obtain ⟨hok, hram⟩ := hfree.header hlen n hn hbefore
  generalize beforeAttempt pf files s n = t at hok hram
  unfold headerAttempt
  rcases hr : readRange pf files.vol files.kernel 0 setupHeaderEnd pf.headerBuf t with ⟨_ | _, t'⟩
  all_goals rw [hr] at hok hram
  · cases hok
  · dsimp only at hram ⊢
    rw [hram]

/-- The first attempt finds a header that is valid. -/
theorem retry_header (hlen : setupHeaderEnd ≤ kernel.length)
    (hvalid : HeaderValid (headerOf kernel)) :
    Loop.retry id (headerAttempt pf files.vol files.kernel) gptRetryAttempts s
      = (some (headerOf kernel), (headerAttempt pf files.vol files.kernel s).2) := by
  have hfirst := headerAttempt_faultFree hfree hlen (show 0 < gptRetryAttempts by decide)
    fun i hi => absurd hi (Nat.not_lt_zero i)
  rw [if_pos (show _ ∧ _ from hvalid)] at hfirst
  exact Loop.retry_first (Prod.ext hfirst rfl) 9

/-- A header that is accepted is the one of the file. -/
theorem header_of_retry {t : Boot δ} (hlen : setupHeaderEnd ≤ kernel.length)
    (h : Loop.retry id (headerAttempt pf files.vol files.kernel) gptRetryAttempts s
      = (some hdr, t)) : HeaderValid (headerOf kernel) ∧ hdr = headerOf kernel := by
  by_cases hvalid : HeaderValid (headerOf kernel)
  · rw [retry_header hfree hlen hvalid] at h
    cases h
    exact ⟨hvalid, rfl⟩
  · -- every attempt is made, and each one fails
    have hnone : ∀ n < gptRetryAttempts,
        (headerAttempt pf files.vol files.kernel (beforeAttempt pf files s n)).1 = none := by
      intro n
      induction n using Nat.strong_induction_on with
      | _ n ih =>
        intro hn
        rw [headerAttempt_faultFree hfree hlen hn fun i hi => ih i hi (Nat.lt_trans hi hn)]
        exact if_neg hvalid
    have hfail := Loop.retry_none gptRetryAttempts hnone
    rw [h] at hfail
    cases hfail

/-- `stage2_main` from the header to the last check before anything is loaded, if it gets through
with the manifest in use. -/
theorem readKernelHeader_kept (hvol : GoodVolume files.vol) (hsound : Sound s) {t : Boot δ}
    {m : PayloadSum} (h : readKernelHeader pf files s = (.ok hdr, t)) (hsum : t.g.sum = some m) :
    hdr = headerOf kernel ∧ s.g.sum = some m ∧
      kernelRamOffset kernel = .ok m.kernel.offset ∧ m.kernel.size = kernel.length := by
  unfold readKernelHeader at h
  rw [hfree.kernelSize] at h
  obtain ⟨_, _, hshort, h⟩ := bind_eq_ok.mp h
  obtain ⟨hlen, rfl⟩ := require_eq_ok.mp hshort
  obtain ⟨hdr', t₁, hread, h⟩ := bind_eq_ok.mp h
  obtain ⟨_, _, hmore, h⟩ := bind_eq_ok.mp h
  obtain ⟨hreal, rfl⟩ := require_eq_ok.mp hmore
  obtain ⟨⟨⟩, t₂, hcheck, h⟩ := bind_eq_ok.mp h
  obtain ⟨⟨⟩, t₃, hlayout, h⟩ := bind_eq_ok.mp h
  obtain ⟨a20, t₄, ha20, h⟩ := bind_eq_ok.mp h
  obtain ⟨_, _, hopen, h⟩ := bind_eq_ok.mp h
  obtain ⟨-, rfl⟩ := require_eq_ok.mp hopen
  cases h
  -- what comes after the check of the offset leaves the manifest alone
  have hstate : t₃ = t₂ := by
    rw [← checkLayout_state hdr _ _ t₂, hlayout]
  have hkept : t₂.g.sum = some m := by
    rw [← hstate, ← hsum]
    cases ha20
    rfl
  obtain ⟨rfl, hsize, hoffset⟩ := checkFile_eq_ok hcheck hkept
  have hread' := attempt_eq_ok.mp hread
  obtain ⟨hvalid, rfl⟩ := header_of_retry hfree hlen hread'
  have hsteady : Steady s t₁ := by
    have hattempts : Steady s (Loop.retry id (headerAttempt pf files.vol files.kernel)
        gptRetryAttempts s).2 := (Steady.refl hsound.alt).retry (fun _ h => h)
      (fun _ h => headerAttempt_steady pf hvol files.kernel h) gptRetryAttempts
    rwa [hread'] at hattempts
  exact ⟨rfl, hsteady.sum.symm.trans hkept,
    kernelRamOffset_eq_ok.mpr ⟨hlen, hvalid, hreal, hoffset⟩, hsize⟩

/-- And it does get through, if the kernel is as the manifest says. -/
theorem readKernelHeader_passes (hvol : GoodVolume files.vol) (hsound : Sound s) {m : PayloadSum}
    (hsum : s.g.sum = some m) (hoff : kernelRamOffset kernel = .ok m.kernel.offset)
    (hsize : m.kernel.size = kernel.length) (hother : OtherChecks pf kernel initrd) :
    ∃ t, readKernelHeader pf files s = (.ok (headerOf kernel), t) ∧ t.g.sum = some m := by
  obtain ⟨hlen, hvalid, hreal, hoffset⟩ := kernelRamOffset_eq_ok.mp hoff
  have hread := retry_header hfree hlen hvalid
  have hkept : (headerAttempt pf files.vol files.kernel s).2.g.sum = some m :=
    (headerAttempt_steady pf hvol files.kernel (Steady.refl hsound.alt)).sum.trans hsum
  refine ⟨(a20Verify pf (headerAttempt pf files.vol files.kernel s).2).2, ?_, hkept⟩
  unfold readKernelHeader
  rw [hfree.kernelSize, hfree.initrdSize]
  refine bind_eq_ok.mpr ⟨_, _, require_eq_ok.mpr ⟨hlen, rfl⟩, ?_⟩
  refine bind_eq_ok.mpr ⟨_, _, attempt_eq_ok.mpr hread, ?_⟩
  refine bind_eq_ok.mpr ⟨_, _, require_eq_ok.mpr ⟨hreal, rfl⟩, ?_⟩
  refine bind_eq_ok.mpr ⟨_, _, checkFile_of_agrees hkept hsize hoffset, ?_⟩
  refine bind_eq_ok.mpr ⟨_, _, hother.layout _, ?_⟩
  refine bind_eq_ok.mpr ⟨_, _, rfl, ?_⟩
  exact bind_eq_ok.mpr ⟨_, _, require_eq_ok.mpr ⟨hother.a20, rfl⟩, rfl⟩

end Run

/-- A fault-free load, as `stage2_main` goes through it. -/
theorem loadPayload_passes {files : BootFiles} {kernel initrd : List UInt8} {t t₁ t₂ : Boot δ}
    (hk : files.kernel.size.toNat = kernel.length) (hi : files.initrd.size.toNat = initrd.length)
    (haddr : initrdLoadAddr + initrd.length ≤ (headerOf kernel).initrdAddrMax)
    (h₁ : loadFile pf false files.vol files.kernel (headerOf kernel).realModeBytes
      (kernel.length - (headerOf kernel).realModeBytes) kernelLoadAddr t = (.ok true, t₁))
    (h₂ : loadFile pf true files.vol files.initrd 0 initrd.length initrdLoadAddr t₁
      = (.ok true, t₂)) : loadPayload pf files (headerOf kernel) t = (.ok (), t₂) := by
  unfold loadPayload
  rw [hk, hi]
  refine bind_eq_ok.mpr ⟨_, _, h₁, ?_⟩
  refine bind_eq_ok.mpr ⟨_, _, require_eq_ok.mpr ⟨rfl, rfl⟩, ?_⟩
  refine bind_eq_ok.mpr ⟨_, _, require_eq_ok.mpr ⟨haddr, rfl⟩, ?_⟩
  exact bind_eq_ok.mpr ⟨_, _, h₂, require_eq_ok.mpr ⟨rfl, rfl⟩⟩

/-- `verify_loaded` leaves RAM and the manifest alone, and goes on if both hashes agree. -/
theorem verifyLoaded_spec (pf : Platform δ) (hk : kernelLen < 2 ^ 32) (hi : initrdLen < 2 ^ 32)
    {s : Boot δ} (hsound : Sound s) {m : PayloadSum} (hsum : s.g.sum = some m) :
    let r := verifyLoaded pf kernelLen initrdLen s
    r.2.m.ram = s.m.ram ∧ r.2.g.sum = some m ∧
      (DigestAgrees s.m.ram kernelLoadAddr kernelLen m.kernel →
        DigestAgrees s.m.ram initrdLoadAddr initrdLen m.initrd → r.1 = .ok ()) := by
  obtain ⟨now, hnow⟩ : ∃ now : Boot δ, now = { s with
      log := { s.log with verifying := some s.m.ram } } := ⟨_, rfl⟩
  obtain ⟨hok₁, hram₁, hsteady₁⟩ := payloadSumVerify_spec pf m.kernel kernelLoadAddr hk now
  obtain ⟨hok₂, hram₂, hsteady₂⟩ := payloadSumVerify_spec pf m.initrd initrdLoadAddr hi
    (payloadSumVerify pf m.kernel kernelLoadAddr kernelLen now).2
  have halt : ∀ a, now.g.alt = some a → GoodVolume a.vol := by
    rw [hnow]
    exact hsound.alt
  have hsteady := hsteady₂ now (hsteady₁ now (Steady.refl halt))
  rw [hram₁] at hram₂ hok₂
  have hram : now.m.ram = s.m.ram := by rw [hnow]
  have hin : now.g.sum = some m := by rw [hnow]; exact hsum
  rw [hram] at hok₁ hram₂ hok₂
  dsimp only
  unfold verifyLoaded
  simp only [bind_apply, look_apply, Halting.modify, Halting.step, ← hnow, hin]
  unfold require
  split_ifs with hboth
  · exact ⟨hram₂, hsteady.sum.trans hin, fun _ _ => rfl⟩
  · refine ⟨hram₂, hsteady.sum.trans hin, fun hkernel hinitrd => ?_⟩
    exact absurd (.inl ⟨hok₁.mpr hkernel, hok₂.mpr hinitrd⟩) hboth

/-! ### The two verdicts -/

/-- `read_options` up to the manifest. -/
def manifestRead (pf : Platform δ) (vol : FatVolume) (s : Boot δ) : Boot δ :=
  readIntegrity pf (payloadSumLoad pf vol (readChunk pf s))

/-- A check of a size and an offset leaves a sound boot. -/
theorem sound_checkFile (hentry : ∀ cmd sum, entry (inMode cmd sum) = entry sum)
    (hoffset : ∀ cmd sum, offset (inMode cmd sum) = offset sum) {s s' : Boot δ} (hs : Sound s)
    (h : payloadSumCheckFile entry size offset s = (.ok (), s')) : Sound s' := by
  have hchecked : Checked (fun _ => True) s := ⟨hs, fun _ _ _ _ _ => trivial⟩
  have hends := (payloadSumCheckFile_checked size hentry hoffset).ends s hchecked
  rw [h] at hends
  exact hends.sound

/-- The layout checks of `read_options`, if they leave the manifest in use. -/
theorem readOptions_kept (hvol : GoodVolume vol)
    {s t : Boot δ} (hs : Sound (manifestRead pf vol s)) {m : PayloadSum}
    (h : readOptions pf vol kernelSize initrdSize s = (.ok (), t)) (hsum : t.g.sum = some m) :
    (manifestRead pf vol s).g.sum = some m ∧
      m.kernel.size = kernelSize ∧ m.initrd.size = initrdSize ∧ m.initrd.offset = 0 := by
  unfold readOptions at h
  obtain ⟨_, s₁, hchunk, h⟩ := bind_eq_ok.mp h
  obtain ⟨_, s₂, hload, h⟩ := bind_eq_ok.mp h
  obtain ⟨_, s₃, hmode, h⟩ := bind_eq_ok.mp h
  cases hchunk
  cases hload
  cases hmode
  obtain ⟨⟨⟩, s₄, hkernel, h⟩ := bind_eq_ok.mp h
  obtain ⟨⟨⟩, s₅, hinitrd, h⟩ := bind_eq_ok.mp h
  cases h
  have hs₄ := sound_checkFile (fun _ _ => rfl) (fun _ _ => rfl) hs hkernel
  have hs₅ := sound_checkFile (fun _ _ => rfl) (fun _ _ => rfl) hs₄ hinitrd
  -- BLKSUM is looked for, and the manifest stays as it is
  have hkept : s₅.g.sum = some m :=
    ((soundStable_holding s₅.g.sum).blksumLoad pf hvol ⟨hs₅, rfl⟩).sum.symm.trans hsum
  obtain ⟨rfl, hisize, hioff⟩ := checkFile_eq_ok hinitrd hkept
  obtain ⟨hstate, hksize, -⟩ := checkFile_eq_ok hkernel hkept
  exact ⟨by rw [manifestRead, hstate]; exact hkept, hksize, hisize, hioff⟩

/-- And they do, if the sizes are the recorded ones. -/
theorem readOptions_passes {s : Boot δ}
    {m : PayloadSum} (hsum : (manifestRead pf vol s).g.sum = some m)
    (hk : m.kernel.size = kernelSize) (hi : m.initrd.size = initrdSize)
    (hoff : m.initrd.offset = 0) : readOptions pf vol kernelSize initrdSize s
      = (.ok (), blksumLoad pf vol (manifestRead pf vol s)) := by
  unfold readOptions
  refine bind_eq_ok.mpr ⟨_, _, rfl, ?_⟩
  refine bind_eq_ok.mpr ⟨_, _, rfl, ?_⟩
  refine bind_eq_ok.mpr ⟨_, _, rfl, ?_⟩
  refine bind_eq_ok.mpr ⟨_, _, checkFile_of_agrees hsum hk rfl, ?_⟩
  exact bind_eq_ok.mpr ⟨_, _, checkFile_of_agrees hsum hi hoff, rfl⟩

/-- The manifest that `verify_loaded` leaves in use is the one it found. -/
theorem sum_of_verifyLoaded (hk : kernelLen < 2 ^ 32)
    (hi : initrdLen < 2 ^ 32) {s s' : Boot δ} (hsound : Sound s) {m : PayloadSum}
    {r : Except Stop Unit} (h : verifyLoaded pf kernelLen initrdLen s = (r, s'))
    (hsum : s'.g.sum = some m) : s.g.sum = some m := by
  rcases hs : s.g.sum with _ | sum
  · unfold verifyLoaded at h
    simp only [bind_apply, look_apply, Halting.modify, hs, pure_apply] at h
    cases h
    rw [← hs]
    exact hsum
  · have hkept := (verifyLoaded_spec pf hk hi hsound hs).2.1
    rw [h] at hkept
    rw [← hkept]
    exact hsum

section Verdicts

variable {driveNumber : Nat} {mach : Machine δ} {files : BootFiles} {s₁ s₂ : Boot δ}
  {m : PayloadSum} {kernel initrd : List UInt8}
  (hfiles : findFiles pf driveNumber (Boot.start mach) = (.ok files, s₁))
  (hcmdline : readCmdline pf files.vol files.cmdline s₁ = (.ok (), s₂))
  (hsum : (manifestRead pf files.vol s₂).g.sum = some m)
  (hfree : FaultFree pf files kernel initrd
    (readOptions pf files.vol files.kernel.size.toNat files.initrd.size.toNat s₂).2)
  (hother : ∀ off, kernelRamOffset kernel = .ok off → OtherChecks pf kernel initrd)

include hfiles hcmdline

/-- What is known of the boot when the options are read. -/
theorem options_ready : FilesOk files ∧ Typed pf s₂ ∧ Sound (manifestRead pf files.vol s₂) := by
  have hearly := (findFiles_early pf driveNumber).ends _ (early_start mach)
  rw [hfiles] at hearly
  have htyped := (readCmdline_typed pf hearly.2.vol files.cmdline).ends _ hearly.1
  rw [hcmdline] at htyped
  exact ⟨hearly.2, htyped,
    readIntegrity_sound pf (payloadSumLoad_summed pf hearly.2.vol (readChunk_typed pf htyped))⟩

include hfree hother

theorem verify_of_clean (h : CleanJump pf m (stage2Main pf driveNumber (Boot.start mach))) :
    verify (toolManifest m) kernel initrd = [] := by
  obtain ⟨hok, htyped, hsound⟩ := options_ready hfiles hcmdline
  obtain ⟨jump, hjump, hin, hkernel, hinitrd⟩ := h
  obtain ⟨s', hrun⟩ : ∃ s', stage2Main pf driveNumber (Boot.start mach) = (.ok jump, s') :=
    ⟨_, Prod.ext hjump rfl⟩
  rw [hrun] at hin hkernel hinitrd
  -- the phases, one after the other
  unfold stage2Main at hrun
  obtain ⟨_, _, hf, hrun⟩ := bind_eq_ok.mp hrun
  rw [hfiles] at hf
  cases hf
  obtain ⟨⟨⟩, _, hc, hrun⟩ := bind_eq_ok.mp hrun
  rw [hcmdline] at hc
  cases hc
  obtain ⟨⟨⟩, s₃, hoptions, hrun⟩ := bind_eq_ok.mp hrun
  obtain ⟨hdr, s₄, hheader, hrun⟩ := bind_eq_ok.mp hrun
  obtain ⟨⟨⟩, s₅, hload, hrun⟩ := bind_eq_ok.mp hrun
  obtain ⟨⟨⟩, s₆, hverify, hrun⟩ := bind_eq_ok.mp hrun
  cases hrun
  have hmaxKernel : maxKernelSize = 50331648 := rfl
  have hklt : files.kernel.size.toNat - hdr.realModeBytes < 2 ^ 32 := by
    have := hok.kernel
    omega
  have hilt : files.initrd.size.toNat < 2 ^ 32 := files.initrd.size.toNat_lt
  -- the boot is sound all the way
  have hs₃ := (readOptions_checked pf hok).ends _ htyped
  rw [hoptions] at hs₃ hfree
  have hs₄ := (readKernelHeader_checked pf hok).ends _ hs₃
  rw [hheader] at hs₄
  have hs₅ := ((soundStable_holding s₄.g.sum).loadPayload pf hok hdr).ends s₄ ⟨hs₄.sound, rfl⟩
  rw [hload] at hs₅
  -- and the manifest is in use from the end back to the start
  have hsum₅ : s₅.g.sum = some m := sum_of_verifyLoaded hklt hilt hs₅.sound hverify hin
  have hsum₄ : s₄.g.sum = some m := hs₅.sum.symm.trans hsum₅
  obtain ⟨rfl, hsum₃, hoff, hksize⟩ :=
    readKernelHeader_kept hfree hok.vol hs₃.sound hheader hsum₄
  obtain ⟨-, -, hisize, hioff⟩ := readOptions_kept hok.vol hsound hoptions hsum₃
  obtain ⟨-, -, -, hreal⟩ := kernelRamOffset_eq_ok.mp hoff
  -- RAM holds the files, then and at the jump
  obtain ⟨t₁, t₂, hload₁, hload₂, hramK, hramI⟩ := hfree.loads _ _ hheader
  have hpass := loadPayload_passes hfree.kernelSize hfree.initrdSize (hother _ hoff).addrMax hload₁
    hload₂
  rw [hload] at hpass
  cases hpass
  have hram := (verifyLoaded_spec pf hklt hilt hs₅.sound hsum₅).1
  rw [hverify] at hram
  have hdk := (payloadSumVerify_spec pf m.kernel kernelLoadAddr hklt s').1.mp hkernel
  have hdi := (payloadSumVerify_spec pf m.initrd initrdLoadAddr hilt s').1.mp hinitrd
  rw [DigestAgrees, hram, hfree.kernelSize, hramK, ← hreal] at hdk
  rw [DigestAgrees, hram, hfree.initrdSize, hramI] at hdi
  rw [hfree.initrdSize] at hisize
  exact verify_eq_nil.mpr ⟨_, hoff, ⟨hksize, rfl, hdk⟩, ⟨hisize, hioff, hdi⟩⟩

include hsum

theorem clean_of_verify (h : verify (toolManifest m) kernel initrd = []) :
    CleanJump pf m (stage2Main pf driveNumber (Boot.start mach)) := by
  obtain ⟨hok, htyped, hsound⟩ := options_ready hfiles hcmdline
  obtain ⟨off, hoff, hkernel, hinitrd⟩ := verify_eq_nil.mp h
  obtain rfl := hkernel.offset
  have hreads := hother _ hoff
  obtain ⟨-, -, -, hreal⟩ := kernelRamOffset_eq_ok.mp hoff
  -- the options are read and the manifest stays in use
  have hoptions := readOptions_passes hsum (hkernel.size.trans hfree.kernelSize.symm)
    (hinitrd.size.trans hfree.initrdSize.symm) hinitrd.offset
  rw [hoptions] at hfree
  have hs₃ := (soundStable_holding (some m)).blksumLoad pf hok.vol ⟨hsound, hsum⟩
  -- the header is accepted
  obtain ⟨s₄, hheader, hsum₄⟩ := readKernelHeader_passes hfree hok.vol hs₃.sound hs₃.sum hoff
    hkernel.size hreads
  have hs₄ := (readOptions_checked pf hok).ends _ htyped
  rw [hoptions] at hs₄
  replace hs₄ := (readKernelHeader_checked pf hok).ends _ hs₄
  rw [hheader] at hs₄
  -- the files are loaded
  obtain ⟨t₁, s₅, hload₁, hload₂, hramK, hramI⟩ := hfree.loads _ _ hheader
  have hload := loadPayload_passes hfree.kernelSize hfree.initrdSize hreads.addrMax hload₁ hload₂
  have hs₅ := ((soundStable_holding (some m)).loadPayload pf hok (headerOf kernel)).ends s₄
    ⟨hs₄.sound, hsum₄⟩
  rw [hload] at hs₅
  -- and both hashes agree
  have hklt : files.kernel.size.toNat - (headerOf kernel).realModeBytes < 2 ^ 32 :=
    Nat.lt_of_le_of_lt (Nat.sub_le _ _) files.kernel.size.toNat_lt
  have hilt : files.initrd.size.toNat < 2 ^ 32 := files.initrd.size.toNat_lt
  have hdk : DigestAgrees s₅.m.ram kernelLoadAddr
      (files.kernel.size.toNat - (headerOf kernel).realModeBytes) m.kernel := by
    rw [DigestAgrees, hfree.kernelSize, hramK, ← hreal]
    exact hkernel.digest
  have hdi : DigestAgrees s₅.m.ram initrdLoadAddr files.initrd.size.toNat m.initrd := by
    rw [DigestAgrees, hfree.initrdSize, hramI]
    exact hinitrd.digest
  obtain ⟨hram, hsum₆, hgoes⟩ := verifyLoaded_spec pf hklt hilt hs₅.sound hs₅.sum
  obtain ⟨s₆, hverify⟩ : ∃ s₆, verifyLoaded pf
      (files.kernel.size.toNat - (headerOf kernel).realModeBytes) files.initrd.size.toNat s₅
        = (.ok (), s₆) := ⟨_, Prod.ext (hgoes hdk hdi) rfl⟩
  rw [hverify] at hram hsum₆
  have hrun : stage2Main pf driveNumber (Boot.start mach) = (.ok ⟨(headerOf kernel).code32Start,
      files.kernel.size.toNat, (headerOf kernel).realModeBytes, files.initrd.size.toNat⟩, s₆) := by
    unfold stage2Main
    refine bind_eq_ok.mpr ⟨_, _, hfiles, bind_eq_ok.mpr ⟨_, _, hcmdline, ?_⟩⟩
    refine bind_eq_ok.mpr ⟨_, _, hoptions, bind_eq_ok.mpr ⟨_, _, hheader, ?_⟩⟩
    exact bind_eq_ok.mpr ⟨_, _, hload, bind_eq_ok.mpr ⟨_, _, hverify, rfl⟩⟩
  rw [hrun]
  refine ⟨_, rfl, hsum₆, ?_, ?_⟩
  · refine (payloadSumVerify_spec pf m.kernel kernelLoadAddr hklt s₆).1.mpr ?_
    rw [hram]
    exact hdk
  · refine (payloadSumVerify_spec pf m.initrd initrdLoadAddr hilt s₆).1.mpr ?_
    rw [hram]
    exact hdi

/-- The tool's own manifest never stands in the way of its payload. If `New` makes one for the two
files, the loader that has these entries in use reaches the kernel with no mismatch, whatever mode
it is in. -/
theorem new_boots_clean {text : List UInt8} {mode : PayloadSumMode}
    (hnew : Tool.PayloadSum.new kernel initrd text
      = .ok ⟨(toolManifest m).kernel, (toolManifest m).initrd, mode⟩) :
    CleanJump pf m (stage2Main pf driveNumber (Boot.start mach)) := by
  unfold Tool.PayloadSum.new at hnew
  split at hnew
  · cases hnew
  obtain ⟨off, hoff, hnew⟩ := Lib.bind_eq_ok.1 hnew
  obtain ⟨k, hk, hnew⟩ := Lib.bind_eq_ok.1 hnew
  obtain ⟨i, hi, hnew⟩ := Lib.bind_eq_ok.1 hnew
  cases hnew
  exact clean_of_verify hfiles hcmdline hsum hfree hother
    (verify_eq_nil.2 ⟨off, hoff, (entryFor_eq_ok.1 hk).2, (entryFor_eq_ok.1 hi).2⟩)

end Verdicts

/-! ### A boot

A disk with one FAT volume and the four files of a boot on it. Everything the loader does on it is
evaluated. -/

/-- A kernel of two bytes, after a real-mode part of 1024. -/
def sampleKernel : List UInt8 :=
  List.replicate 0x1F1 0 ++ [1] ++ List.replicate 12 0 ++ [0x55, 0xAA, 0, 0] ++ ascii "HdrS"
    ++ List.replicate 38 0 ++ [0xFF, 0xFF, 0xFF, 0x7F] ++ List.replicate 466 0

def sampleManifest : PayloadSum where
  kernel := ⟨1026, 1024, #v[0x96, 0xA2, 0x96, 0xD2, 0x24, 0xF2, 0x85, 0xC6, 0x7B, 0xEE, 0x93, 0xC3,
    0x0F, 0x8A, 0x30, 0x91, 0x57, 0xF0, 0xDA, 0xA3, 0x5D, 0xC5, 0xB8, 0x7E, 0x41, 0x0B, 0x78, 0x63,
    0x0A, 0x09, 0xCF, 0xC7]⟩
  initrd := ⟨1, 0, #v[0x4B, 0xF5, 0x12, 0x2F, 0x34, 0x45, 0x54, 0xC5, 0x3B, 0xDE, 0x2E, 0xBB, 0x8C,
    0xD2, 0xB7, 0xE3, 0xD1, 0x60, 0x0A, 0xD6, 0x31, 0xC3, 0x85, 0xA5, 0xD7, 0xCC, 0xE2, 0x3C, 0x77,
    0x85, 0x45, 0x9A]⟩
  mode := .enforce

theorem verify_sample : verify (toolManifest sampleManifest) sampleKernel [1] = [] := by
  refine verify_eq_nil.mpr ⟨1024, by decide +kernel, ⟨by decide +kernel, rfl, ?_⟩, ⟨rfl, rfl, ?_⟩⟩
  · rw [Sha256.digest_short (by decide +kernel)]
    decide +kernel
  · rw [Sha256.digest_short (by decide +kernel)]
    decide +kernel

def sampleDirent (name : String) (attr : UInt8) (cluster size : Nat) : List UInt8 :=
  fatPackName (ascii name) ++ attr :: List.replicate 14 0 ++ [UInt8.ofNat cluster, 0]
    ++ le32Bytes size

/-- The sectors that hold something: the MBR with one entry, the FAT volume from sector 2 on, its
three directories and the files. CHECKSUM is as the tool writes it. -/
def bootSectors : List (Nat × List UInt8) :=
  let checksum := Tool.PayloadSum.encode (toolManifest sampleManifest)
  let eoc := 0x0FFFFFFF
  [(0, List.replicate 446 0 ++ [0, 0, 0, 0, 0x2E, 0, 0, 0] ++ le32Bytes 2 ++ le32Bytes 66038
      ++ List.replicate 48 0 ++ [0x55, 0xAA]),
    (2, (List.range 512).map (sampleBoot 1)),
    (3, [0, 0, eoc, eoc, eoc, 6, 7, eoc, eoc, eoc, eoc].flatMap le32Bytes),
    (515, sampleDirent "EFI" 0x10 3 0),
    (516, sampleDirent "ALPINE" 0x10 4 0),
    (517, sampleDirent "KERNEL" 0 5 1026 ++ sampleDirent "INITRD" 0 8 1
      ++ sampleDirent "CMDLINE" 0 9 5 ++ sampleDirent "CHECKSUM" 0 10 checksum.length),
    (518, sampleKernel), (519, sampleKernel.drop 512), (520, sampleKernel.drop 1024),
    (521, [1]), (522, ascii "quiet"), (523, checksum)]

def bootDisk : Image where
  sector lba := ((bootSectors.lookup lba).getD [] ++ List.replicate 512 0).take 512
  length_sector lba := by
    show _ = 512
    rw [List.length_take, List.length_append, List.length_replicate]
    omega

/-- A machine with 2 GiB of RAM. -/
def bootPlatform : Platform Unit :=
  { samplePlatform bootDisk with
    e820 := fun _ _ => ⟨false, 0x534D4150, 20, 0, ⟨0, 0x80000000, e820TypeRam⟩⟩ }

def sampleFiles : BootFiles where
  vol := ⟨2, 512, 1, 1, 512, 2, 65525, 3, 515⟩
  kernel := ⟨5, 1026⟩
  initrd := ⟨8, 1⟩
  cmdline := ⟨9, 5⟩

def sampleFound : Except Stop BootFiles × Boot Unit :=
  findFiles bootPlatform 0 (Boot.start (blankMachine []))

def sampleTyped : Except Stop Unit × Boot Unit :=
  readCmdline bootPlatform sampleFiles.vol sampleFiles.cmdline sampleFound.2

def sampleOptions : Except Stop Unit × Boot Unit :=
  readOptions bootPlatform sampleFiles.vol sampleFiles.kernel.size.toNat
    sampleFiles.initrd.size.toNat sampleTyped.2

def sampleHeaderRead : Bool × Boot Unit :=
  readRange bootPlatform sampleFiles.vol sampleFiles.kernel 0 setupHeaderEnd bootPlatform.headerBuf
    sampleOptions.2

def sampleHeader : Except Stop SetupHeader × Boot Unit :=
  readKernelHeader bootPlatform sampleFiles sampleOptions.2

def sampleKernelLoad : Except Stop Bool × Boot Unit :=
  loadFile bootPlatform false sampleFiles.vol sampleFiles.kernel 1024 2 kernelLoadAddr
    sampleHeader.2

def sampleInitrdLoad : Except Stop Bool × Boot Unit :=
  loadFile bootPlatform true sampleFiles.vol sampleFiles.initrd 0 1 initrdLoadAddr
    sampleKernelLoad.2

/-- The fields of a header, to compare two of them. -/
def headerFields (h : SetupHeader) : List Nat :=
  [h.setupSects, h.bootFlag, h.header, h.version, h.code32Start, h.initrdAddrMax,
    h.kernelAlignment, h.relocatableKernel, h.prefAddress, h.initSize]

theorem headerFields_inj {h h' : SetupHeader} (heq : headerFields h = headerFields h') :
    h = h' := by
  obtain ⟨_, _, _, _, _, _, _, _, _, _⟩ := h
  obtain ⟨_, _, _, _, _, _, _, _, _, _⟩ := h'
  simpa [headerFields] using heq

/-- The steps of the boot. -/
theorem sample_steps :
    (returns (fun f => decide (f.vol = sampleFiles.vol
        ∧ (f.kernel.firstCluster, f.kernel.size) = (5, 1026)
        ∧ (f.initrd.firstCluster, f.initrd.size) = (8, 1)
        ∧ (f.cmdline.firstCluster, f.cmdline.size) = (9, 5))) sampleFound
      ∧ returns (fun _ => true) sampleTyped
      ∧ (manifestRead bootPlatform sampleFiles.vol sampleTyped.2).g.sum = some sampleManifest)
    ∧ (sampleHeaderRead.1 = true ∧ headerFields (setupHeader (ramBytes sampleHeaderRead.2.m.ram
        bootPlatform.headerBuf setupHeaderEnd)) = headerFields (headerOf sampleKernel))
    ∧ (returns (fun h => decide (h.realModeBytes = 1024)) sampleHeader
      ∧ returns id sampleKernelLoad ∧ returns id sampleInitrdLoad)
    ∧ ramBytes sampleInitrdLoad.2.m.ram kernelLoadAddr 2 = [0, 0]
    ∧ ramBytes sampleInitrdLoad.2.m.ram initrdLoadAddr 1 = [1] := by
  decide +kernel

theorem sampleFound_eq : sampleFound = (.ok sampleFiles, sampleFound.2) := by
  obtain ⟨⟨vol, ⟨kernel, kernelSize⟩, ⟨initrd, initrdSize⟩, ⟨cmdline, cmdlineSize⟩⟩, hfound, h⟩ :=
    returns_spec sample_steps.1.1
  obtain ⟨rfl, hkernel, hinitrd, hcmdline⟩ := of_decide_eq_true h
  cases hkernel
  cases hinitrd
  cases hcmdline
  exact hfound

theorem faultFree_sample : FaultFree bootPlatform sampleFiles sampleKernel [1] sampleOptions.2 := by
  obtain ⟨-, ⟨hread, hfields⟩, ⟨hheader, hkernel, hinitrd⟩, hramK, hramI⟩ := sample_steps
  obtain ⟨hdr, hrun, hreal⟩ := returns_spec hheader
  obtain ⟨ok, hrunK, rfl⟩ := returns_spec hkernel
  obtain ⟨ok, hrunI, rfl⟩ := returns_spec hinitrd
  have hlength : sampleKernel.length = 1026 := by decide +kernel
  have hrest : sampleKernel.drop 1024 = [0, 0] := by decide +kernel
  have hvalid : HeaderValid (headerOf sampleKernel) := ⟨by decide +kernel, by decide +kernel⟩
  replace hreal : hdr.realModeBytes = 1024 := of_decide_eq_true hreal
  have hlen : sampleKernel.length - hdr.realModeBytes = 2 := by rw [hreal, hlength]
  rw [← hreal] at hrest
  have hload₁ : loadFile bootPlatform false sampleFiles.vol sampleFiles.kernel hdr.realModeBytes 2
      kernelLoadAddr sampleHeader.2 = (.ok true, sampleKernelLoad.2) := by
    rw [hreal]
    exact hrunK
  unfold sampleHeaderRead at hread hfields
  exact .of_runs hlength.symm rfl hvalid hread (headerFields_inj hfields) hrun hlen hload₁ hrunI
    (hramK.trans hrest.symm) hramI

/-- Of the 2 GiB everything is RAM. -/
theorem otherChecks_sample : OtherChecks bootPlatform sampleKernel [1] := by
  have hsize : sampleKernel.length - (headerOf sampleKernel).realModeBytes = 2 := by
    decide +kernel
  have hrange : kernelRuntimeRange (headerOf sampleKernel) kernelLoadAddr = none := by
    decide +kernel
  refine ⟨fun s => ?_, rfl, by decide +kernel⟩
  generalize headerOf sampleKernel = hdr at hsize hrange
  rw [hsize]
  unfold checkLayout
  rw [hrange]
  refine bind_eq_ok.mpr ⟨_, _, require_eq_ok.mpr ⟨by decide +kernel, rfl⟩, ?_⟩
  refine bind_eq_ok.mpr ⟨_, _, require_eq_ok.mpr ⟨by decide +kernel, rfl⟩, ?_⟩
  exact require_eq_ok.mpr ⟨by decide +kernel, rfl⟩

theorem new_boots_clean_sample : CleanJump bootPlatform sampleManifest
    (stage2Main bootPlatform 0 (Boot.start (blankMachine []))) := by
  obtain ⟨off, hoff, hk, hi⟩ := verify_eq_nil.mp verify_sample
  obtain ⟨_, htyped, -⟩ := returns_spec sample_steps.1.2.1
  have hnew : Tool.PayloadSum.new sampleKernel [1] (ascii "enforce")
      = .ok (toolManifest sampleManifest) := by
    refine Lib.bind_eq_ok.2 ⟨off, hoff, Lib.bind_eq_ok.2 ⟨_, entryFor_eq_ok.2 ⟨?_, hk⟩, ?_⟩⟩
    · decide +kernel
    · exact Lib.bind_eq_ok.2 ⟨_, entryFor_eq_ok.2 ⟨by decide, hi⟩, rfl⟩
  exact new_boots_clean sampleFound_eq htyped sample_steps.1.2.2 faultFree_sample
    (fun _ _ => otherChecks_sample) hnew

end ZfsBoot.Proofs.Stage2
