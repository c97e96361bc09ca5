import Mathlib.Data.List.Induction
import ZfsBoot.Bios.Atapi

/-!
# `ZfsBoot.Proofs.Atapi`: what a PACKET command leaves in memory

The loop over the data phases keeps `Sent`: after some phases the buffer has the first bytes that
they supplied, up to what was asked for, and nothing else in memory has changed. A device may split
its data in any way, supply more or stop early. `sendPacket_exact` is the account of a whole command.
-/

set_option autoImplicit false

namespace ZfsBoot.Proofs.Atapi

open List
open Lib Bios

variable {byte : Nat → UInt8} {dst j n want : Nat} {ram : Nat → UInt8} {buf : UInt32}
  {done : List AtapiPhase} {t : AtapiTransfer} {c : AtapiCommand} {dataLen : UInt16}

/-! ### `rep insw` -/

theorem repInsw_self (hdst : dst < 2 ^ 32) (hn : 2 * n ≤ 2 ^ 32) (hj : j < 2 * n) :
    repInsw byte dst ram n (u32 (dst + j)) = byte j := by
  have hback : u32 (u32 (dst + j) + 2 ^ 32 - dst) = j := by
    unfold u32
    omega
  rw [repInsw, hback, if_pos ⟨u32_lt _, hj⟩]

theorem sameOutside_repInsw (hdst : dst < 2 ^ 32) :
    SameOutside dst (2 * n) ram (repInsw byte dst ram n) := by
  refine fun a ha => if_neg fun ⟨hlt, hi⟩ => ha _ hi ?_
  unfold u32
  omega

/-! ### The phases -/

/-- The words that a phase announces. -/
def phaseWords (p : AtapiPhase) : Nat := p.actualLen.toNat / 2

/-- The bytes of the words that the phases announce, one phase after the other. -/
def supplied (ps : List AtapiPhase) : List UInt8 :=
  ps.flatMap fun p => (range (2 * phaseWords p)).map p.byte

theorem supplied_append (p : AtapiPhase) :
    supplied (done ++ [p]) = supplied done ++ (range (2 * phaseWords p)).map p.byte := by
  rw [supplied, flatMap_append, flatMap_singleton, ← supplied]

/-- The loop has gone through `done`. -/
structure Sent (buf : UInt32) (want : Nat) (ram : Nat → UInt8) (done : List AtapiPhase)
    (t : AtapiTransfer) : Prop where
  got : 2 * t.gotWords = min (2 * want) (supplied done).length
  dst : t.dataBuf = u32 (buf.toNat + 2 * t.gotWords)
  data : ∀ i < 2 * t.gotWords, (supplied done)[i]? = some (t.ram (u32 (buf.toNat + i)))
  frame : SameOutside buf.toNat (2 * want) ram t.ram
  reads : t.reads = done.map phaseWords

theorem sent_start (buf : UInt32) (want : Nat) (ram : Nat → UInt8) :
    Sent buf want ram [] ⟨ram, buf.toNat, 0, []⟩ :=
  ⟨(Nat.min_zero _).symm, (u32_of_lt buf.toNat_lt).symm,
    fun _ h => absurd h (Nat.not_lt_zero _), .refl _ _ _, rfl⟩

theorem atapiTake_eq (want got actual : Nat) :
    atapiTake want got actual = min actual (want - got) := by
  unfold atapiTake
  dsimp only
  split_ifs <;> omega

/-- A phase adds `n` words; if there are none to add, nothing is touched. -/
theorem Sent.pass_eq (h : Sent buf want ram done t) (hwant : want < 2 ^ 15) (p : AtapiPhase)
    (hn : n = min (phaseWords p) (want - t.gotWords)) :
    atapiPass want t p = ⟨repInsw p.byte t.dataBuf t.ram n, u32 (t.dataBuf + n * 2), t.gotWords + n,
      t.reads ++ [phaseWords p]⟩ := by
  have hgot := h.got
  have hreads : n + (phaseWords p - n) = phaseWords p := Nat.add_sub_cancel' (by omega)
  unfold atapiPass
  dsimp only
  rw [show p.actualLen.toNat / 2 = phaseWords p from rfl, atapiTake_eq, ← hn, hreads]
  split_ifs with hpos
  · rw [atapiAdvanceAfterPhase, u16_of_lt (show t.gotWords + n < 2 ^ 16 by omega)]
  · obtain rfl : n = 0 := by omega
    have hram : repInsw p.byte t.dataBuf t.ram 0 = t.ram := funext fun a => if_neg (by omega)
    rw [hram, Nat.zero_mul, Nat.add_zero, Nat.add_zero, u32_of_lt (h.dst ▸ u32_lt _)]

/-- One phase more. -/
theorem Sent.pass (h : Sent buf want ram done t) (hwant : want < 2 ^ 15) (p : AtapiPhase) :
    Sent buf want ram (done ++ [p]) (atapiPass want t p) := by
  have hgot := h.got
  obtain ⟨n, hn⟩ : ∃ n, n = min (phaseWords p) (want - t.gotWords) := ⟨_, rfl⟩
  have hframe : SameOutside t.dataBuf (2 * n) t.ram (repInsw p.byte t.dataBuf t.ram n) :=
    sameOutside_repInsw (h.dst ▸ u32_lt _)
  rw [h.pass_eq hwant p hn]
  refine ⟨?_, ?_, fun i hi => ?_, h.frame.trans ?_, by rw [h.reads, map_append, map_singleton]⟩
  all_goals rw [h.dst] at hframe ⊢; dsimp only at *
  · rw [supplied_append, length_append, length_map, length_range]
    omega
  · rw [u32_add_u32]
    congr 1
    omega
  · rw [supplied_append]
    by_cases hold : i < 2 * t.gotWords
    · -- a byte that was there before
      rw [getElem?_append_left (by omega), h.data i hold, hframe]
      unfold u32
      omega
    · -- a byte of this phase: all that came before it is in the buffer
      obtain ⟨k, rfl⟩ := Nat.exists_eq_add_of_le (Nat.le_of_not_lt hold)
      have hk : k < 2 * n := by omega
      rw [getElem?_append_right (by omega), ← Nat.add_assoc, ← u32_add_u32 (buf.toNat + _),
        repInsw_self (u32_lt _) (by omega) hk, show 2 * t.gotWords + k - _ = k by omega,
        getElem?_map, getElem?_range (by omega)]
      rfl
  · exact hframe.widen (by omega)

theorem sent_foldl (hwant : want < 2 ^ 15) (buf : UInt32) (ram : Nat → UInt8)
    (ps : List AtapiPhase) :
    Sent buf want ram ps (ps.foldl (atapiPass want) ⟨ram, buf.toNat, 0, []⟩) := by
  induction ps using List.reverseRecOn with
  | nil => exact sent_start buf want ram
  | append_singleton ps p ih =>
    rw [foldl_append]
    exact ih.pass hwant p

/-! ### The command -/

theorem sendPacket_sent (ha : c.accepts) (hlen : dataLen ≠ 0) :
    Sent buf (dataLen.toNat / 2) ram c.phases (atapiSendPacket c buf dataLen ram).2 ∧
      ((atapiSendPacket c buf dataLen ram).1 = true ↔
        c.completes ∧ (atapiSendPacket c buf dataLen ram).2.gotWords = dataLen.toNat / 2) := by
  have hsize := dataLen.toNat_lt
  rw [atapiSendPacket, if_neg (not_not.2 ha), if_neg hlen]
  exact ⟨sent_foldl (by omega) buf ram c.phases, by simp [atapiTransferComplete]⟩

/-- A command succeeds if and only if the device takes it, completes it and supplies at least what
was asked for. The buffer then has the first bytes that it supplied. A command never writes outside
the buffer, and it reads every word that a phase announces. -/
theorem sendPacket_exact (c : AtapiCommand) (buf : UInt32) (dataLen : UInt16) (ram : Nat → UInt8) :
    let r := atapiSendPacket c buf dataLen ram
    let want := dataLen.toNat / 2
    (r.1 = true ↔ c.accepts ∧ c.completes ∧ 2 * want ≤ (supplied c.phases).length) ∧
      (r.1 = true → ∀ i < 2 * want,
        (supplied c.phases)[i]? = some (r.2.ram (u32 (buf.toNat + i)))) ∧
      SameOutside buf.toNat (2 * want) ram r.2.ram ∧
      (c.accepts → dataLen ≠ 0 → r.2.reads = c.phases.map phaseWords) := by
  dsimp only
  by_cases ha : c.accepts
  · by_cases hlen : dataLen = 0
    · -- no data phase
      subst hlen
      have hrun : atapiSendPacket c buf 0 ram = (c.completes, ⟨ram, buf.toNat, 0, []⟩) := by
        rw [atapiSendPacket, if_neg (not_not.2 ha), if_pos rfl]
      rw [hrun]
      exact ⟨⟨fun h => ⟨ha, h, Nat.zero_le _⟩, fun h => h.2.1⟩,
        fun _ _ h => absurd h (Nat.not_lt_zero _), .refl _ _ _, fun _ h => absurd rfl h⟩
    · obtain ⟨hsent, hok⟩ := @sendPacket_sent ram buf c dataLen ha hlen
      refine ⟨?_, fun h i hi => hsent.data i ?_, hsent.frame, fun _ _ => hsent.reads⟩
      · have hgot := hsent.got
        exact hok.trans ⟨fun h => ⟨ha, h.1, by omega⟩, fun h => ⟨h.2.1, by omega⟩⟩
      · rwa [(hok.1 h).2]
  · rw [atapiSendPacket, if_pos ha]
    exact ⟨⟨nofun, fun h => absurd h.1 ha⟩, nofun, .refl _ _ _, fun h => absurd h ha⟩

end ZfsBoot.Proofs.Atapi
