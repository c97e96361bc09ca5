import ZfsBoot.Lib.Memory

/-!
# `ZfsBoot.Bios.Atapi`: a PACKET command

The model of `atapi_send_packet` in `bios/ata_atapi.c`. A device is what the driver sees of it. It
takes the command or not. In each data phase it announces a number of bytes and puts words on its
data port, and when it has no more to say the status shows whether the command is complete. How many
phases there are, and how long each one is, is up to the device.
-/

set_option autoImplicit false

namespace ZfsBoot.Bios

open Lib

/-- A data phase: `actual_len`, and the bytes on the data port, two for each read. -/
structure AtapiPhase where
  actualLen : UInt16
  byte : Nat → UInt8

/-- How a device goes through one command. -/
structure AtapiCommand where
  /-- BSY clears in time, and DRQ asks for the CDB without ERR. -/
  accepts : Bool
  phases : List AtapiPhase
  /-- After the last phase BSY clears in time, without ERR. -/
  completes : Bool

/-- The loop's `data_buf` and `got_words`, memory, and the reads of the data port in each phase. -/
structure AtapiTransfer where
  ram : Nat → UInt8
  dataBuf : Nat
  gotWords : Nat
  reads : List Nat

/-- `rep insw`: the bytes of some words to consecutive addresses from `dst` on. -/
def repInsw (byte : Nat → UInt8) (dst : Nat) (ram : Nat → UInt8) (words a : Nat) : UInt8 :=
  let i := u32 (a + 2 ^ 32 - dst)
  if a < 2 ^ 32 ∧ i < 2 * words then byte i else ram a

/-- `atapi_advance_after_phase`. -/
def atapiAdvanceAfterPhase (take : Nat) (t : AtapiTransfer) : AtapiTransfer :=
  { t with dataBuf := u32 (t.dataBuf + take * 2), gotWords := u16 (t.gotWords + take) }

/-- `atapi_transfer_complete`. -/
def atapiTransferComplete (gotWords wantWords : Nat) : Bool := gotWords = wantWords

/-- `take`: the words of a phase that are still wanted. -/
def atapiTake (wantWords gotWords actualWords : Nat) : Nat :=
  let remainingWant := if gotWords < wantWords then wantWords - gotWords else 0
  if actualWords < remainingWant then actualWords else remainingWant

/-- The loop's body for a phase. -/
def atapiPass (wantWords : Nat) (t : AtapiTransfer) (p : AtapiPhase) : AtapiTransfer :=
  let actualWords := p.actualLen.toNat / 2
  let take := atapiTake wantWords t.gotWords actualWords
  let t := if take > 0 then
    atapiAdvanceAfterPhase take { t with ram := repInsw p.byte t.dataBuf t.ram take } else t
  -- the words beyond that are drained
  { t with reads := t.reads ++ [take + (actualWords - take)] }

/-- `atapi_send_packet`. -/
def atapiSendPacket (c : AtapiCommand) (dataBuf : UInt32) (dataLen : UInt16) (ram : Nat → UInt8) :
    Bool × AtapiTransfer :=
  let t : AtapiTransfer := ⟨ram, dataBuf.toNat, 0, []⟩
  if ¬ c.accepts then (false, t)
  else if dataLen = 0 then (c.completes, t)
  else
    let wantWords := dataLen.toNat / 2
    let t := c.phases.foldl (atapiPass wantWords) t
    (c.completes && atapiTransferComplete t.gotWords wantWords, t)

end ZfsBoot.Bios
