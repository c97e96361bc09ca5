import ZfsBoot.Proofs.Fat.Delivery
import ZfsBoot.Proofs.Fat.Frame

/-!
# `ZfsBoot.Proofs.Fat.Landing`: what a read leaves in RAM

`Proofs.Fat.Delivery` is about the log of a call; this module is about the machine and about the
callback's own context. The callback may read from the disk and write to RAM itself.
`readRange_lands` is a rule for that: an invariant over the context, the machine and the number of
bytes that have landed, kept by whatever leaves RAM alone (`KeptQuietly`) and by every landing
together with the callback after it (`KeptByLandings`).

Its two uses are the load of a payload file, with the block verifier in the callback, and
`readRange_writes`, a read without a callback: it changes RAM only to the bytes of the file.
-/

set_option autoImplicit false

namespace ZfsBoot.Proofs.Fat

open Lib Bios

variable {j : Nat} {δ κ : Type} {bk : Backend δ} {img : Image}
  {I : δ → Prop} {vol : FatVolume} {ps batch : Nat}

/-- A copy puts its bytes where they belong. -/
theorem ram_unrealCopy (dst : Nat) {bytes : List UInt8} (m : Machine δ)
    (hj : j < bytes.length) (hlen : bytes.length ≤ 2 ^ 32) :
    (unrealCopy dst bytes m).ram (u32 (dst + j)) = bytes.getD j 0 := by
  have hback : u32 (u32 (dst + j) + 2 ^ 32 - u32 dst) = j := by
    unfold u32
    omega
  show (if u32 (dst + j) < 2 ^ 32 ∧ u32 (u32 (dst + j) + 2 ^ 32 - u32 dst) < bytes.length then
    bytes.getD (u32 (u32 (dst + j) + 2 ^ 32 - u32 dst)) 0 else _) = _
  rw [hback, if_pos ⟨u32_lt _, hj⟩]

section Rule

variable {file : FatFile} {offset length dst : UInt32} {progress : Option (Progress δ κ)}
  {J : κ → Machine δ → Nat → Prop}

/-- `fat_read_range` with any arguments: it ends, some first part of the range has landed, and on
success that is all of it. -/
theorem readRange_lands (hquiet : KeptQuietly img I J)
    (hlands : offset.toNat + length.toNat ≤ file.size.toNat → KeptByLandings img I progress
      (chainRange img vol file offset.toNat length.toNat) dst.toNat J) (hf : bk.Faithful img I) (hm : Mounted vol ps) (h1 : 1 ≤ batch) (hbatch : batch < 2 ^ 16)
    {c : κ} {m : Machine δ} (hready : Ready img I m) (h0 : J c m 0) :
    ∃ r, fatReadRange bk vol batch file offset length dst progress c m = some r ∧
      ∃ landed, Landed img I progress (chainRange img vol file offset.toNat length.toNat) dst.toNat
        length.toNat landed J r ∧
        (r.1 = true ∨ 0 < landed → offset.toNat + length.toNat ≤ file.size.toNat) := by
  -- the calls that end before the first lookup
  have hearly : ∀ (ok : Bool) (st : FatRun δ), st.m.ram = m.ram → Ready img I st.m →
      st.events = [] → (ok = true → 0 = length.toNat) →
      Landed img I progress (chainRange img vol file offset.toNat length.toNat) dst.toNat
        length.toNat 0 J (ok, c, st) := by
    intro ok st hram hst hevents hok
    refine ⟨hst, Nat.zero_le _, hquiet _ _ _ _ h0 hram hst, hok, fun _ => ?_⟩
    show LogOk _ _ st.events ∧ reported st.events = 0
    rw [hevents]
    exact ⟨logOk_nil _ _, rfl⟩
  have hclear : Ready img I m.start.clearError.m := ⟨hready.disk, hready.cache, hready.cache2⟩
  by_cases hin : (offset.toNat + length.toNat ≤ file.size.toNat ∧ 0 < length.toNat) ∧
      fatClusterInRange vol file.firstCluster.toNat
  · obtain ⟨r, hr, landed, hlanded, -⟩ := readRange_lands_inside hquiet (hlands hin.1.1) hf hm h1
      hbatch hready h0 hin.1.1 hin.1.2 hin.2
    exact ⟨r, hr, landed, hlanded, fun _ => hin.1.1⟩
  · have hspc := hm.spc_pos
    unfold fatReadRange
    dsimp only
    rw [if_neg (by rw [hm.bps]; omega)]
    split
    · exact ⟨_, rfl, 0, hearly _ _ rfl ((hclear.setRemaining _).fail _ _ _ _) rfl (by simp),
        by simp⟩
    rename_i hsize
    rw [inside_iff] at hsize
    split
    · rename_i hzero
      exact ⟨_, rfl, 0, hearly _ _ rfl hclear rfl (fun _ => by rw [hzero]; rfl), fun _ => hsize⟩
    rename_i hne
    have hlen : 0 < length.toNat :=
      Nat.pos_of_ne_zero fun h => hne (UInt32.toNat_inj.mp h)
    rw [if_pos (fun hfirst => hin ⟨⟨hsize, hlen⟩, hfirst⟩)]
    exact ⟨_, rfl, 0, hearly _ _ rfl ((hclear.setRemaining _).fail _ _ _ _) rfl (by simp), by simp⟩

end Rule

/-! ### A read without a callback -/

/-- RAM after a read: every byte is as before, or it is the byte of the range that belongs
there. -/
def WritesOnly (range : List UInt8) (dst : Nat) (ram ram' : Nat → UInt8) : Prop :=
  ∀ a, ram' a = ram a ∨ ∃ j, a = u32 (dst + j) ∧ range[j]? = some (ram' a)

theorem landings_writeOnly (img : Image) (I : δ → Prop) {range : List UInt8}
    (hlen : range.length < 2 ^ 32) (dst : Nat) (ram : Nat → UInt8) :
    KeptByLandings img I (none : Option (Progress δ κ)) range dst
      (fun _ m _ => WritesOnly range dst ram m.ram) := by
  intro c m d n c' m' h hready _ hle hcall
  obtain ⟨-, rfl⟩ := Prod.mk.inj hcall
  refine ⟨fun a => ?_, hready.disk, hready.cache, hready.cache2⟩
  have hpart : ((range.drop d).take n).length = n := by
    rw [List.length_take, List.length_drop]
    omega
  by_cases hin : ∃ j < n, a = u32 (u32 (dst + d) + j)
  · -- a byte of this landing
    obtain ⟨j, hj, rfl⟩ := hin
    have hbyte := ram_unrealCopy (u32 (dst + d)) m
      (hpart.symm ▸ hj : j < ((range.drop d).take n).length) (by omega)
    refine .inr ⟨d + j, by rw [u32_add_u32, Nat.add_assoc], ?_⟩
    rw [hbyte, List.getD_eq_getElem?_getD, List.getElem?_take_of_lt hj, List.getElem?_drop,
      List.getElem?_eq_getElem (by omega), Option.getD_some]
  · have hsame : (unrealCopy (u32 (dst + d)) ((range.drop d).take n) m).ram a = m.ram a :=
      sameOutside_unrealCopy m (Nat.le_of_eq hpart) a fun j hj heq => hin ⟨j, hj, heq⟩
    rw [hsame]
    exact h a

/-- A read without a callback leaves the machine in order. It changes RAM only if its range is in
the file, and then to bytes of the file. -/
theorem readRange_writes (hf : bk.Faithful img I) (hm : Mounted vol ps) (h1 : 1 ≤ batch)
    (hbatch : batch < 2 ^ 16) (file : FatFile) (offset length dst : UInt32) (ctx : κ)
    {m : Machine δ} (hready : Ready img I m) :
    ∃ r, fatReadRange bk vol batch file offset length dst none ctx m = some r ∧
      Ready img I r.2.2.m ∧
      (r.2.2.m.ram = m.ram ∨ offset.toNat + length.toNat ≤ file.size.toNat ∧
        WritesOnly (chainRange img vol file offset.toNat length.toNat) dst.toNat m.ram
          r.2.2.m.ram) := by
  have hlen : (chainRange img vol file offset.toNat length.toNat).length < 2 ^ 32 :=
    Nat.lt_of_le_of_lt (List.length_take_le _ _) length.toNat_lt
  have hquiet : KeptQuietly img I (κ := κ) (fun _ m' d => (d = 0 → m'.ram = m.ram) ∧
      WritesOnly (chainRange img vol file offset.toNat length.toNat) dst.toNat m.ram m'.ram) := by
    intro c m₁ m₂ d hi hram _
    rw [hram]
    exact hi
  have hlands : KeptByLandings img I (none : Option (Progress δ κ))
      (chainRange img vol file offset.toNat length.toNat) dst.toNat
      (fun _ m' d => (d = 0 → m'.ram = m.ram) ∧
        WritesOnly (chainRange img vol file offset.toNat length.toNat) dst.toNat m.ram m'.ram) := by
    intro c m₁ d n c' m' hi hready₁ hn hle hcall
    obtain ⟨hwrites, hready₂⟩ := landings_writeOnly img I hlen dst.toNat m.ram c m₁ d n c' m' hi.2
      hready₁ hn hle hcall
    exact ⟨⟨fun h0 => by omega, hwrites⟩, hready₂⟩
  obtain ⟨r, hr, landed, hlanded, hinside⟩ := readRange_lands hquiet (fun _ => hlands) hf hm h1
    hbatch hready (c := ctx) ⟨fun _ => rfl, fun _ => .inl rfl⟩
  refine ⟨r, hr, hlanded.ready, ?_⟩
  cases landed with
  | zero => exact .inl (hlanded.inv.1 rfl)
  | succ landed => exact .inr ⟨hinside (.inr (Nat.succ_pos _)), hlanded.inv.2⟩

end ZfsBoot.Proofs.Fat
