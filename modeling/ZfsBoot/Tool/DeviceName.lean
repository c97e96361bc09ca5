import ZfsBoot.Bios.PayloadSum
import ZfsBoot.Lib.Text

/-!
# `ZfsBoot.Tool.DeviceName`: the disk of a partition, by its name

The model of `DevicePartitionBase` of `internal/bootenv`, with its three patterns. A name is its
bytes. A dot stands for any byte but a newline: no byte that is not valid UTF-8 stops it.
-/

set_option autoImplicit false

namespace ZfsBoot.Tool

open Lib
open Bios (ascii)

/-- `\d+`. -/
def isNumber (s : List UInt8) : Bool := s ≠ [] ∧ s.all isDigit

/-- `[a-zA-Z]`. -/
def isLetter (c : UInt8) : Bool := (0x61 ≤ c ∧ c ≤ 0x7A) ∨ (0x41 ≤ c ∧ c ≤ 0x5A)

/-- `.*` and one byte of a class. -/
def endsIn (cls : UInt8 → Bool) (s : List UInt8) : Bool := 0x0A ∉ s ∧ s.getLast?.any cls

/-- The first group of `^(…)…$`. Its `.*` is greedy, so a longer head is tried before a shorter
one. -/
def firstGroup (group rest : List UInt8 → Bool) (s : List UInt8) : Option (List UInt8) :=
  s.inits.reverse.find? fun head => group head && rest (s.drop head.length)

/-- The first group of `partitionSuffixP`, `^(.*\d)p(\d+)$`. -/
def partitionSuffixP : List UInt8 → Option (List UInt8) :=
  firstGroup (endsIn isDigit) fun rest => rest.head? = some 0x70 ∧ isNumber rest.tail

/-- The first group of `partitionSuffixPlain`, `^(.*[a-zA-Z])(\d+)$`. -/
def partitionSuffixPlain : List UInt8 → Option (List UInt8) := firstGroup (endsIn isLetter) isNumber

/-- `name\d+`. -/
def isNumbered (name s : List UInt8) : Bool := name.isPrefixOf s && isNumber (s.drop name.length)

/-- `nvme\d+n\d+`. -/
def isNvme (s : List UInt8) : Bool :=
  (ascii "nvme").isPrefixOf s
    && isNumber ((s.drop 4).takeWhile isDigit) && isNumbered (ascii "n") ((s.drop 4).dropWhile isDigit)

/-- The names of `pSuffixWholeDisk` that a number follows. -/
def numberedNames : List (List UInt8) := [ascii "mmcblk", ascii "loop", ascii "nbd", ascii "md"]

/-- `pSuffixWholeDisk`. The pattern is not anchored at the start. -/
def pSuffixWholeDisk (s : List UInt8) : Bool :=
  s.tails.any fun t => isNvme t || numberedNames.any (isNumbered · t)

/-- `DevicePartitionBase`. -/
def devicePartitionBase (part : List UInt8) : List UInt8 :=
  match partitionSuffixP part with
  | some disk => disk
  | none =>
    if pSuffixWholeDisk part then part
    else
      match partitionSuffixPlain part with
      | some disk => disk
      | none => part

end ZfsBoot.Tool
