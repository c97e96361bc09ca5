import ZfsBoot.Lib.Word

/-!
# `ZfsBoot.Bios.Cmdline`: the loader's own words on the kernel command line

The model of `bios/cmdline_opt.c`. A command line is the bytes of the C string before its
terminator.
-/

set_option autoImplicit false

namespace ZfsBoot.Bios

/-- `while (*p && *p != ' ') p++; while (*p == ' ') p++;`: the start of the next word. -/
def nextWord (cmd : List UInt8) : List UInt8 :=
  (cmd.dropWhile (· ≠ 0x20)).dropWhile (· = 0x20)

theorem length_nextWord_lt {c : UInt8} {cmd : List UInt8} :
    (nextWord (c :: cmd)).length < (c :: cmd).length := by
  have hspaces : ∀ l : List UInt8, (l.dropWhile (· = 0x20)).length ≤ l.length := fun l =>
    (List.dropWhile_sublist _).length_le
  have hword : ∀ l : List UInt8, (l.dropWhile (· ≠ 0x20)).length ≤ l.length := fun l =>
    (List.dropWhile_sublist _).length_le
  rw [nextWord]
  by_cases hc : c = 0x20
  · rw [List.dropWhile_cons_of_neg (by simpa using hc),
      List.dropWhile_cons_of_pos (by simpa using hc)]
    exact Nat.lt_succ_of_le (hspaces cmd)
  · rw [List.dropWhile_cons_of_pos (by simpa using hc)]
    exact Nat.lt_succ_of_le (Nat.le_trans (hspaces _) (hword cmd))

/-- `cmdline_value`: the bytes that `*n` counts from the pointer it returns. -/
def cmdlineValue (key : List UInt8) : List UInt8 → Option (List UInt8)
  | [] => none
  | c :: cmd =>
    if key.isPrefixOf (c :: cmd) then
      some (((c :: cmd).drop key.length).takeWhile fun b => b ≠ 0x20 ∧ b ≠ 0x0A)
    else cmdlineValue key (nextWord (c :: cmd))
termination_by cmd => cmd.length
decreasing_by exact length_nextWord_lt

/-- The loop of `cmdline_parse_chunk`. -/
def parseChunkLoop (val : Nat) : List UInt8 → Option Nat
  | [] => some val
  | c :: v =>
    if c < 0x30 ∨ c > 0x39 then none else parseChunkLoop (val * 10 + (c.toNat - 0x30)) v

/-- `cmdline_parse_chunk`: at most five digits, so the 32-bit value cannot wrap. -/
def cmdlineParseChunk (v : List UInt8) (max : Nat) : Option Nat :=
  if v.length = 0 ∨ v.length > 5 then none
  else
    match parseChunkLoop 0 v with
    | none => none
    | some val => if val < 1 ∨ val > max then none else some val

end ZfsBoot.Bios
