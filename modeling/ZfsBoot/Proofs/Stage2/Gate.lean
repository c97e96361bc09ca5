import ZfsBoot.Proofs.Stage2.Phases

/-!
# `ZfsBoot.Proofs.Stage2.Gate`: the integrity gate of a whole boot

`verify_loaded` hashes RAM in pieces of the staging buffer; `payloadSumVerify_spec` says that this
is SHA-256 of the range. `stage2Main_gate` puts the phases of the boot after one another, and
`integrity_gate` reads off the two halves of the gate, for every machine, drive, BIOS and disk.
-/

set_option autoImplicit false

namespace ZfsBoot.Proofs.Stage2

open Lib Lib.Halting Lib.Sha256 Bios Fat
  ZfsBoot.Proofs.Sha256

variable {δ : Type} (pf : Platform δ) {s : Boot δ}

/-! ### Hashing RAM -/

/-- What `payload_sum_verify` leaves: RAM as it was, and its part of the message hashed. -/
structure Hashing (s : Boot δ) (s₀ : State) (msg : List UInt8) (total : Nat)
    (r : Sha256Ctx × Boot δ) : Prop where
  holds : Holds s₀ msg r.1
  total : r.1.total = total
  ram : r.2.m.ram = s.m.ram
  steady : ∀ ref, Steady ref s → Steady ref r.2

theorem verifyLoop_spec {s₀ : State} (left : Nat) : ∀ (p : Nat) (c : Sha256Ctx) (s : Boot δ)
    (msg : List UInt8), Holds s₀ msg c → c.total + left < 2 ^ 32 →
    Hashing s s₀ (msg ++ ramBytes s.m.ram p left) (c.total + left) (verifyLoop pf p left c s) := by
  induction left using Nat.strong_induction_on with
  | _ left ih =>
    intro p c s msg hc htotal
    rw [verifyLoop]
    split
    · rename_i hleft
      subst hleft
      exact ⟨by simpa [ramBytes] using hc, rfl, rfl, fun _ h => h⟩
    · -- one piece of the staging buffer, then the rest
      rename_i hleft
      have hpos := pf.ioBufSize_pos
      have hn : min left pf.ioBufSize ≤ left := Nat.min_le_left _ _
      obtain ⟨hupdate, hcount⟩ := update_holds hc (ramBytes s.m.ram p (min left pf.ioBufSize))
      rw [length_ramBytes, u32_of_lt (by omega)] at hcount
      have hrest := ih (left - min left pf.ioBufSize) (by omega)
        (u32 (p + min left pf.ioBufSize)) _ (unrealRead p (min left pf.ioBufSize) s).2 _ hupdate
        (by omega)
      refine ⟨?_, hrest.total.trans (by omega), hrest.ram, fun ref h => hrest.steady ref (h.machine _)⟩
      have hwrap := ramBytes_u32 s.m.ram 0 (p + min left pf.ioBufSize)
        (left - min left pf.ioBufSize)
      rw [Nat.zero_add, Nat.zero_add] at hwrap
      have hjoin : msg ++ ramBytes s.m.ram p left = msg ++ ramBytes s.m.ram p (min left pf.ioBufSize)
          ++ ramBytes s.m.ram (u32 (p + min left pf.ioBufSize)) (left - min left pf.ioBufSize) := by
        rw [hwrap, List.append_assoc, ← ramBytes_add, Nat.add_sub_cancel' hn]
      rw [hjoin]
      exact hrest.holds

/-- The bytes in RAM have the digest of the entry. -/
def DigestAgrees (ram : Nat → UInt8) (phys len : Nat) (e : PayloadSumEntry) : Prop :=
  digest (ramBytes ram phys len) = e.sha256

/-- `payload_sum_verify` compares the SHA-256 of the range. -/
theorem payloadSumVerify_spec (e : PayloadSumEntry) (phys : Nat) {len : Nat} (hlen : len < 2 ^ 32)
    (s : Boot δ) :
    ((payloadSumVerify pf e phys len s).1 = true ↔ DigestAgrees s.m.ram phys len e) ∧
    (payloadSumVerify pf e phys len s).2.m.ram = s.m.ram ∧
    ∀ ref, Steady ref s → Steady ref (payloadSumVerify pf e phys len s).2 := by
  have hinit : Holds Sha256Ctx.zero.init.h [] Sha256Ctx.zero.init := holds_nil rfl
  obtain ⟨hholds, htotal, hram, hsteady⟩ := verifyLoop_spec pf len phys Sha256Ctx.zero.init s [] hinit
    (by rw [show Sha256Ctx.zero.init.total = 0 from rfl]; omega)
  refine ⟨?_, hram, hsteady⟩
  rw [List.nil_append] at hholds
  have hfinal := final_eq hholds (show 0 % 64 = 0 from rfl) (by rw [length_ramBytes]; omega)
    (by rw [htotal, length_ramBytes]; rfl)
  rw [Nat.zero_add] at hfinal
  rw [payloadSumVerify, DigestAgrees, digest, show initial = Sha256Ctx.zero.init.h from rfl, ← hfinal, beq_iff_eq]

/-! ### The gate -/

/-- Between the two hashes: RAM is as it was when `verify_loaded` began. -/
structure Verifying (p : PayloadSum → Prop) (now s : Boot δ) : Prop where
  checked : Checked p s
  steady : Steady now s
  ram : s.m.ram = now.m.ram
  log : now.log.verifying = some now.m.ram

/-- One hash, with its verdict `ok` on the RAM of the log. -/
theorem payloadSumVerify_verifying (p : PayloadSum → Prop) (now : Boot δ) {e : PayloadSumEntry}
    {phys len : Nat} (hlen : len < 2 ^ 32) {a : Prop} :
    Triple (fun s => Verifying p now s ∧ a) (step (payloadSumVerify pf e phys len))
      (fun ok s => Verifying p now s ∧ a ∧ (ok = true ↔ DigestAgrees now.m.ram phys len e))
      (StopOk : Stop → Boot δ → Prop) := by
  refine triple_step fun s ⟨h, ha⟩ => ?_
  obtain ⟨hok, hram, hsteady⟩ := payloadSumVerify_spec pf e phys hlen s
  rw [h.ram] at hok
  exact ⟨⟨(stable_checked p).after h.checked (hsteady s), hsteady now h.steady,
    hram.trans h.ram, h.log⟩, ha, hok⟩

theorem verifyLoaded_checked (p : PayloadSum → Prop) {protectedModeSize initrdSize : Nat}
    (hk : protectedModeSize < 2 ^ 32) (hi : initrdSize < 2 ^ 32) :
    Triple (Checked p) (verifyLoaded pf protectedModeSize initrdSize)
      (fun _ s => Checked (fun sum => p sum ∧ ∃ ram, s.log.verifying = some ram ∧
        DigestAgrees ram kernelLoadAddr protectedModeSize sum.kernel ∧
        DigestAgrees ram initrdLoadAddr initrdSize sum.initrd) s) StopOk := by
  refine triple_bind (fun _ s => Checked p s ∧ s.log.verifying = some s.m.ram)
    (triple_modify fun s h => ⟨?_, rfl⟩) fun _ => ?_
  · exact ⟨⟨h.sound.free, fun cmd text sum hl => h.sound.mode cmd text sum ⟨hl.1, hl.2⟩,
      fun cmd text sum hl => h.sound.inUse cmd text sum ⟨hl.1, hl.2⟩, h.sound.blk, h.sound.alt⟩,
      fun cmd text sum hl => h.enforced cmd text sum ⟨hl.1, hl.2⟩⟩
  refine triple_look fun now ⟨h, hlog⟩ => ?_
  split
  · rename_i hsum
    refine triple_pure ?_
    rintro s rfl
    refine ⟨h.sound, fun cmd text sum hl hmode => ?_⟩
    have := h.sound.sum_of_enforce hl hmode
    rw [hsum] at this
    cases this
  · rename_i inUse hsum
    -- the two hashes are over the same RAM, the one of the log
    refine triple_bind _ ((payloadSumVerify_verifying pf p now hk (a := True)).pre ?_)
      fun kernelOk => ?_
    · rintro s rfl
      exact ⟨⟨h, Steady.refl h.sound.alt, rfl, hlog⟩, trivial⟩
    refine triple_bind _ (payloadSumVerify_verifying pf p now hi) fun initrdOk => ?_
    refine (triple_require fun s h hc => ?_).post fun _ s h => ?_
    · rw [not_or, not_not] at hc
      exact h.1.checked.sound.stopOk_of_enforce (h.1.steady.sum.trans hsum) hc.2 _
    · obtain ⟨⟨h, ⟨-, hkernel⟩, hinitrd⟩, hc⟩ := h
      refine ⟨h.checked.sound, fun cmd text sum hl hmode =>
        ⟨h.checked.enforced cmd text sum hl hmode, ?_⟩⟩
      have hin := h.checked.sound.sum_of_enforce hl hmode
      rw [h.steady.sum, hsum] at hin
      cases hin
      have hboth := hc.resolve_right fun hne => hne hmode
      exact ⟨_, (congrArg BootLog.verifying h.steady.log).trans h.log, hkernel.mp hboth.1,
        hinitrd.mp hboth.2⟩

/-- The payload of the jump is the recorded one: its sizes, the kernel's load offset, and the
SHA-256 of the two ranges of RAM. -/
structure Recorded (sum : PayloadSum) (j : Jump) (ram : Nat → UInt8) : Prop where
  kernelSize : sum.kernel.size = j.kernelSize
  initrdSize : sum.initrd.size = j.initrdSize
  kernelOffset : sum.kernel.offset = j.realModeBytes
  kernel : DigestAgrees ram kernelLoadAddr (j.kernelSize - j.realModeBytes) sum.kernel
  initrd : DigestAgrees ram initrdLoadAddr j.initrdSize sum.initrd

/-- All phases of a boot, in their order. -/
theorem stage2Main_gate (driveNumber : Nat) :
    Triple Early (stage2Main pf driveNumber)
      (fun j s => Checked (fun sum => ∃ ram, s.log.verifying = some ram ∧ Recorded sum j ram) s)
      StopOk := by
  refine triple_bind _ (findFiles_early pf driveNumber) fun files => triple_of_and fun hf => ?_
  refine triple_bind _ (readCmdline_typed pf hf.vol files.cmdline) fun _ => ?_
  refine triple_bind _ (readOptions_checked pf hf) fun _ => ?_
  refine triple_bind _ (readKernelHeader_checked pf hf) fun hdr => ?_
  refine triple_bind _ ((soundStable_checked _).loadPayload pf hf hdr) fun _ => ?_
  have hkernel := hf.kernel
  have hinitrd := hf.initrd
  have hmaxKernel : maxKernelSize = 50331648 := rfl
  have hmaxInitrd : maxInitrdSize = 536870912 := rfl
  refine triple_bind _ (verifyLoaded_checked pf _ (by omega) (by omega)) fun _ => ?_
  refine triple_pure fun s h => ⟨h.sound, fun cmd text sum hl hmode => ?_⟩
  obtain ⟨⟨⟨hk, hi⟩, hoffset⟩, ram, hram, hdk, hdi⟩ := h.enforced cmd text sum hl hmode
  exact ⟨ram, hram, hk, hi, hoffset, hdk, hdi⟩

theorem early_start (m : Machine δ) : Early (Boot.start m) :=
  ⟨rfl, rfl, rfl, rfl, fun _ h => by cases h⟩

/-- The integrity gate. Let the boot have read its command line and a manifest (`Logged`). In mode
`enforce` it reaches the kernel only with the recorded payload, as RAM was when `verify_loaded`
began. In the other modes it stops for no mismatch. The mode is the command line's first
`alpine-zfsboot.integrity=` word if that names one, and else the manifest's. -/
theorem integrity_gate (driveNumber : Nat) (m : Machine δ) :
    (stage2Main pf driveNumber (Boot.start m)).2.log.stuck = false ∧
    ∀ cmd text sum, Logged (stage2Main pf driveNumber (Boot.start m)).2 cmd text sum →
      ((0 : UInt8) ∉ text → sum.mode = manifestMode text) ∧
      (effectiveMode cmd sum.mode = .enforce →
        ∀ j, (stage2Main pf driveNumber (Boot.start m)).1 = .ok j →
          ∃ ram, (stage2Main pf driveNumber (Boot.start m)).2.log.verifying = some ram ∧
            Recorded sum j ram) ∧
      (effectiveMode cmd sum.mode ≠ .enforce →
        ∀ e, (stage2Main pf driveNumber (Boot.start m)).1 = .error e → e.integrity = false) := by
  have hgate := (stage2Main_gate pf driveNumber).ends (Boot.start m) (early_start m)
  revert hgate
  rcases stage2Main pf driveNumber (Boot.start m) with ⟨e | j, s⟩
  · intro hstop
    refine ⟨hstop.free, fun cmd text sum hl => ⟨hstop.mode cmd text sum hl, ?_, ?_⟩⟩
    · intro _ j hj
      cases hj
    · intro hmode e' he
      cases he
      exact hstop.cause cmd text sum hl hmode
  · intro hjump
    refine ⟨hjump.sound.free, fun cmd text sum hl => ⟨hjump.sound.mode cmd text sum hl, ?_, ?_⟩⟩
    · intro hmode j' hj
      cases hj
      exact hjump.enforced cmd text sum hl hmode
    · intro _ e he
      cases he

end ZfsBoot.Proofs.Stage2
