import Mathlib.Data.List.Lex
import Mathlib.Data.List.DropRight
import ZfsBoot.Tool.PayloadSum

/-!
# `ZfsBoot.Tool.Cmdline`: the tool's own words in CMDLINE

CMDLINE is the kernel command line of a BIOS install. The tool reads and edits its first line only,
with one exception: `cmdlineIntegrity` reads all of it. Three words in it are the tool's own: the
transfer cap and the integrity mode, which stage2 reads, and the mirror's words for init.

Two ways of taking a line apart are in use. `setCmdlineInt13Chunk` splits it at each blank, so that
every other word and every blank between them stays; the rest goes through `strings.Fields`.
-/

set_option autoImplicit false

namespace ZfsBoot.Tool.Cmdline

open Lib ZfsBoot.Tool.PayloadSum
open Bios (ascii)

/-- `Int13ChunkKey`, with the `=` that every use of it adds. -/
def int13ChunkKey : List UInt8 := ascii "alpine-zfsboot.int13chunk="

/-- `Int13ChunkMax`. -/
def int13ChunkMax : Nat := 127

/-- The key that `cmdlineIntegrity` looks for. -/
def integrityKey : List UInt8 := ascii "alpine-zfsboot.integrity="

/-- `CmdlineMaxBytes`. -/
def cmdlineMaxBytes : Nat := 511

/-- `firstCmdlineLine`. -/
def firstCmdlineLine (s : List UInt8) : List UInt8 := s.takeWhile (· ≠ 0x0A)

/-- What follows the first line, with its newline. -/
def afterFirstLine (s : List UInt8) : List UInt8 := s.dropWhile (· ≠ 0x0A)

/-- What follows `key` in the first of the words that start with it. -/
def firstMatch (key : List UInt8) (ws : List (List UInt8)) : Option (List UInt8) :=
  (ws.find? key.isPrefixOf).map (·.drop key.length)

/-! ### The transfer cap -/

/-- `parseInt13Chunk`; without a value the key is removed. -/
def parseInt13Chunk (v : List UInt8) : Option (List UInt8) :=
  if v = ascii "default" then some []
  else
    match atoi v with
    | none => none
    | some n =>
      if n < 1 ∨ n > int13ChunkMax ∨ v.all isDigit = false then none
      else some (decimal n.toNat)

/-- The check of `cmdlineInt13Chunk`: would stage2 take the value. -/
def validInt13Chunk (v : List UInt8) : Bool :=
  match atoi v with
  | none => false
  | some n => 1 ≤ n ∧ n ≤ int13ChunkMax ∧ v.length ≤ 5 ∧ v.all isDigit

/-- `cmdlineInt13Chunk`: the value, and whether it is valid. -/
def cmdlineInt13Chunk (cmd : List UInt8) : List UInt8 × Bool :=
  match firstMatch int13ChunkKey (fields (firstCmdlineLine cmd)) with
  | some v => (v, validInt13Chunk v)
  | none => ([], false)

/-- `strings.TrimRight(line, " ")`. -/
def trimRight (line : List UInt8) : List UInt8 := line.rdropWhile (· = 0x20)

/-- `setCmdlineInt13Chunk`. -/
def setCmdlineInt13Chunk (raw value : List UInt8) : List UInt8 :=
  let words := ((firstCmdlineLine raw).splitOn 0x20).filter fun w => ¬ int13ChunkKey.isPrefixOf w
  let line := [0x20].intercalate words
  let line := if value ≠ [] then trimRight line ++ 0x20 :: int13ChunkKey ++ value else line
  line ++ afterFirstLine raw

/-! ### The integrity mode -/

/-- `cmdlineIntegrity`: the first such word counts, and a mode stage2 does not know is none. -/
def cmdlineIntegrity (cmd : List UInt8) : List UInt8 :=
  match firstMatch integrityKey (fields cmd) with
  | some v => if (validMode v).isSome then v else []
  | none => []

/-! ### The mirror's words -/

/-- `ESPSelfKey`, with the `=` that every use of it adds. -/
def espSelfWord : List UInt8 := ascii "alpine-zfsboot.esp-self="

/-- `ESPUUIDsKey`, with its `=`. -/
def espUuidsWord : List UInt8 := ascii "alpine-zfsboot.esp-uuids="

/-- `cmdlineValue`: the last such word counts. -/
def cmdlineValue (line key : List UInt8) : List UInt8 :=
  (((fields (firstCmdlineLine line)).filter key.isPrefixOf).getLast?.map (·.drop key.length)).getD []

/-- `setCmdlineWord`. -/
def setCmdlineWord (raw key value : List UInt8) : List UInt8 :=
  let words := (fields (firstCmdlineLine raw)).filter fun w => ¬ key.isPrefixOf w
  let words := if value ≠ [] then words ++ [key ++ value] else words
  [0x20].intercalate words ++ afterFirstLine raw

/-- `stripMirrorWords`. -/
def stripMirrorWords (raw : List UInt8) : List UInt8 :=
  setCmdlineWord (setCmdlineWord raw espSelfWord []) espUuidsWord []

/-! ### What a build says of itself -/

/-- `cmdline.Info`, without what is only displayed. A text has no architecture. -/
structure BuildInfo where
  arch : String
  version : List UInt8
  buildStamp : List UInt8
  pool : List UInt8
  deriving DecidableEq

/-- `valueOf`: the first such word counts. -/
def valueOf (line key : List UInt8) : List UInt8 := (firstMatch key (fields line)).getD []

/-- `firstLine`. -/
def firstLine (raw : List UInt8) : List UInt8 := (raw.takeWhile (· ≠ 0)).takeWhile (· ≠ 0x0A)

/-- `ParseText`. -/
def parseText (raw : List UInt8) : BuildInfo where
  arch := ""
  version := valueOf (firstLine raw) (ascii "alpine-zfsboot.version=")
  buildStamp := valueOf (firstLine raw) (ascii "alpine-zfsboot.buildstamp=")
  pool := valueOf (firstLine raw) (ascii "alpine-zfsboot.pool=")

/-- Go's `<=` on two build stamps: byte by byte. -/
def stampLe (a b : List UInt8) : Bool := a.map UInt8.toNat ≤ b.map UInt8.toNat

/-! ### `config` -/

/-- `ConfigValue` with both of its results: a key that is not found has none. -/
def configFound (content key : List UInt8) : Option (List UInt8) :=
  (((content.splitOn 0x0A).map dropCr).filter key.isPrefixOf).getLast?.map (·.drop key.length)

/-- `ConfigValue`: the last such line counts. -/
def configValue (content key : List UInt8) : List UInt8 :=
  ((((content.splitOn 0x0A).map dropCr).filter key.isPrefixOf).getLast?.map (·.drop key.length)).getD []

/-- The lines of a file. What follows the last newline is one if it is not empty. -/
def configLines (raw : List UInt8) : List (List UInt8) :=
  let lines := raw.splitOn 0x0A
  if lines.getLast? = some [] then lines.dropLast else lines

/-- What `SetConfigKey` writes. -/
def setConfigKey (raw key value : List UInt8) : List UInt8 :=
  ((configLines raw).filter fun line => ¬ key.isPrefixOf line).flatMap (· ++ [0x0A])
    ++ if value ≠ [] then key ++ value ++ [0x0A] else []

end ZfsBoot.Tool.Cmdline
