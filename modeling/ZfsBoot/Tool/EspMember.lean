import Mathlib.Order.Lattice
import Mathlib.Data.List.Lex
import ZfsBoot.Bios.PayloadSum
import ZfsBoot.Lib.Outcome
import ZfsBoot.Lib.Text

/-!
# `ZfsBoot.Tool.EspMember`: the identity marker of an ESP

The model of `internal/espmember`. `EFI/ALPINE/MEMBER` says which installation an ESP belongs to,
which ESP it was written for, and a generation that grows with every write of the set.

A FAT volume UUID and an installation id are types of their own here: `NormalizeFATUUID` and the
regular expressions of the package are the only ways to make one, so a value that is malformed
cannot be built. In Go both are strings, and an empty one stands for none; that is an `Option`.
-/

set_option autoImplicit false

namespace ZfsBoot.Tool

open Lib
open Bios (ascii)

/-! ### UUIDs -/

/-- Groups of digits of the given lengths, with dashes between them. -/
def isGroups (digit : UInt8 → Bool) (lengths : List Nat) (s : List UInt8) : Bool :=
  (s.splitOn 0x2D).map List.length = lengths ∧ (s.splitOn 0x2D).all (·.all digit)

/-- `[0-9A-F]`. -/
def isUpperHex (c : UInt8) : Bool := (0x30 ≤ c ∧ c ≤ 0x39) ∨ (0x41 ≤ c ∧ c ≤ 0x46)

/-- `fatUUIDRE`. -/
def isFatUuid (s : List UInt8) : Bool := isGroups isUpperHex [4, 4] s

/-- `installIDRE`. -/
def isInstallId (s : List UInt8) : Bool := isGroups isHexDigit [8, 4, 4, 4, 12] s

/-- The UUID of a FAT volume, as `blkid` prints it. -/
@[ext] structure FatUuid where
  val : List UInt8
  isFatUuid_val : isFatUuid val = true
  deriving DecidableEq

/-- The id of an installation. -/
@[ext] structure InstallId where
  val : List UInt8
  isInstallId_val : isInstallId val = true
  deriving DecidableEq

/-- The value of a byte string in the order of Go: byte by byte. -/
def FatUuid.key (u : FatUuid) : List Nat := u.val.map UInt8.toNat

theorem FatUuid.key_injective : Function.Injective FatUuid.key := by
  rintro ⟨u, hu⟩ ⟨v, hv⟩ h
  have hmap : u.map UInt8.toNat = v.map UInt8.toNat := h
  obtain rfl := (List.map_injective_iff.2 fun a b => UInt8.toNat_inj.1) hmap
  rfl

instance : LinearOrder FatUuid := LinearOrder.lift' FatUuid.key FatUuid.key_injective

/-- The characters of an ASCII string. -/
def asciiText (s : List UInt8) : String := String.ofList (s.map fun c => Char.ofNat c.toNat)

/-- `strings.ToUpper` on ASCII. No other character has an upper-case form in `[0-9A-F-]`. -/
def upper (c : UInt8) : UInt8 := if 0x61 ≤ c ∧ c ≤ 0x7A then c - 0x20 else c

/-- The errors of `NormalizeFATUUID` and `ParseUUIDList`. -/
inductive UuidError where
  | malformed (s : List UInt8)
  | listedTwice (u : FatUuid)
  deriving DecidableEq

/-- `NormalizeFATUUID`. -/
def normalizeFatUuid (s : List UInt8) : Except UuidError FatUuid :=
  let u := (trimSpace s).map upper
  if h : isFatUuid u = true then .ok ⟨u, h⟩ else .error (.malformed s)

/-- One entry of a list, after the entries `out`. -/
def parseUuidEntry (out : List FatUuid) (part : List UInt8) : Except UuidError (List FatUuid) := do
  let u ← normalizeFatUuid part
  if u ∈ out then .error (.listedTwice u) else .ok (out ++ [u])

/-- `ParseUUIDList`. -/
def parseUuidList (s : List UInt8) : Except UuidError (List FatUuid) :=
  if trimSpace s = [] then .ok [] else (s.splitOn 0x2C).foldlM parseUuidEntry []

/-- `strings.Join` of a list of UUIDs with commas. -/
def joinUuids (us : List FatUuid) : List UInt8 := [0x2C].intercalate (us.map FatUuid.val)

/-! ### MEMBER -/

/-- `headerPrefix`. -/
def headerPrefix : List UInt8 := ascii "alpine-zfsboot esp-member "

/-- `Format`. -/
def memberFormat : Nat := 1

/-- `Header`. -/
def memberHeader : List UInt8 := ascii "alpine-zfsboot esp-member 1"

/-- `Member`. -/
structure Member where
  installId : InstallId
  generation : Nat
  espUuid : FatUuid
  members : List FatUuid
  pool : List UInt8
  disk : List UInt8
  written : List UInt8
  deriving DecidableEq

/-- The errors of `Decode`. -/
inductive MemberError where
  | firstLine (line : List UInt8)
  | format (v : List UInt8)
  | notKeyValue (line : List UInt8)
  | installId (v : List UInt8)
  | generation (v : List UInt8)
  | espUuid (v : List UInt8)
  | members (err : UuidError)
  | info (key : List UInt8)
  | missing
  deriving DecidableEq

/-- A line `KEY=value`. -/
def keyLine (key value : List UInt8) : List UInt8 := key ++ 0x3D :: value

/-- A line for an informational field, if it has a value. -/
def infoLine (key value : List UInt8) : List (List UInt8) :=
  if value = [] then [] else [keyLine key value]

/-- The lines of a MEMBER file. -/
def memberLines (m : Member) : List (List UInt8) :=
  [memberHeader, keyLine (ascii "INSTALL_ID") m.installId.val,
    keyLine (ascii "GENERATION") (decimal m.generation), keyLine (ascii "ESP_UUID") m.espUuid.val,
    keyLine (ascii "MEMBERS") (joinUuids m.members)]
    ++ infoLine (ascii "POOL") m.pool ++ infoLine (ascii "DISK") m.disk
    ++ infoLine (ascii "WRITTEN") m.written

/-- `Encode`: every line ends in a newline. -/
def encodeMember (m : Member) : List UInt8 := (memberLines m).flatMap (· ++ [0x0A])

/-- `genRE`. -/
def isGeneration (v : List UInt8) : Bool := v ≠ [] ∧ v.length ≤ 18 ∧ v.all isDigit

/-- The characters of `infoRE`. -/
def isInfoChar (c : UInt8) : Bool :=
  (0x41 ≤ c ∧ c ≤ 0x5A) ∨ (0x61 ≤ c ∧ c ≤ 0x7A) ∨ isDigit c ∨ c ∈ ascii " ._:/@+,()-"

/-- `infoRE`. -/
def isInfo (v : List UInt8) : Bool := v.length ≤ 128 ∧ v.all isInfoChar

/-- The locals of `Decode`: `haveID`, `haveGen` and `haveUUID` are the `Option`s. -/
structure MemberFields where
  installId : Option InstallId
  generation : Option Nat
  espUuid : Option FatUuid
  members : List FatUuid
  pool : List UInt8
  disk : List UInt8
  written : List UInt8

/-- The locals at the start. -/
def MemberFields.start : MemberFields := ⟨none, none, none, [], [], [], []⟩

/-- `Decode` on the field `key`. A key that it does not know is ignored. -/
def decodeField (m : MemberFields) (key v : List UInt8) : Except MemberError MemberFields :=
  if key = ascii "INSTALL_ID" then
    if h : isInstallId v = true then .ok { m with installId := some ⟨v, h⟩ }
    else .error (.installId v)
  else if key = ascii "GENERATION" then
    if isGeneration v then .ok { m with generation := some (ofDecimal v) }
    else .error (.generation v)
  else if key = ascii "ESP_UUID" then
    match normalizeFatUuid v with
    | .ok u => if u.val ≠ v then .error (.espUuid v) else .ok { m with espUuid := some u }
    | .error _ => .error (.espUuid v)
  else if key = ascii "MEMBERS" then
    match parseUuidList v with
    | .ok l => .ok { m with members := l }
    | .error err => .error (.members err)
  else if key = ascii "POOL" then
    if isInfo v then .ok { m with pool := v } else .error (.info key)
  else if key = ascii "DISK" then
    if isInfo v then .ok { m with disk := v } else .error (.info key)
  else if key = ascii "WRITTEN" then
    if isInfo v then .ok { m with written := v } else .error (.info key)
  else .ok m

/-- `Decode` on one line after the first. -/
def decodeMemberLine (m : MemberFields) (line : List UInt8) : Except MemberError MemberFields :=
  if line = [] then .ok m
  else
    match cut 0x3D line with
    | none => .error (.notKeyValue line)
    | some (key, v) => decodeField m key v

/-- The lines that `Decode` sees. -/
def decodedLines (raw : List UInt8) : List (List UInt8) := (crlfToLf raw).splitOn 0x0A

/-- `Decode`. -/
def decodeMember (raw : List UInt8) : Except MemberError Member := do
  match decodedLines raw with
  | [] => .error (.firstLine []) -- a split has at least one part
  | first :: lines =>
    if headerPrefix.isPrefixOf first = false then .error (.firstLine first)
    else if first.drop headerPrefix.length ≠ decimal memberFormat then
      .error (.format (first.drop headerPrefix.length))
    else
      match ← lines.foldlM decodeMemberLine .start with
      | ⟨some id, some gen, some u, members, pool, disk, written⟩ =>
        return ⟨id, gen, u, members, pool, disk, written⟩
      | _ => .error .missing

/-- `SanitizeInfo`. -/
def sanitizeInfo (s : List UInt8) : List UInt8 :=
  (s.map fun c => if isInfoChar c then c else 0x5F).take 128

/-- The errors of `Validate`. -/
inductive ValidateError where
  | notDecoding (err : MemberError)
  | notRoundTrip
  deriving DecidableEq

/-- `Validate`. -/
def validateMember (m : Member) : Except ValidateError Unit :=
  match decodeMember (encodeMember m) with
  | .error err => .error (.notDecoding err)
  | .ok got =>
    if got.installId ≠ m.installId ∨ got.espUuid ≠ m.espUuid ∨ got.generation ≠ m.generation then
      .error .notRoundTrip
    else .ok ()

end ZfsBoot.Tool
