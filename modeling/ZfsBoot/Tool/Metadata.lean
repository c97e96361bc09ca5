import Mathlib.Data.List.DropRight
import ZfsBoot.Bios.PayloadSum
import ZfsBoot.Lib.Text

/-!
# `ZfsBoot.Tool.Metadata`: the manifest of a build

The model of `internal/metadata`, and of `checkMetadataEncodable` of `cmd/tool`, which every writer
of METADATA goes through. The manifest is a small text of `key=value` lines.
-/

set_option autoImplicit false

namespace ZfsBoot.Tool.Metadata

open Lib
open Bios (ascii)

/-- `Manifest`. -/
structure Manifest where
  version : List UInt8
  buildStamp : List UInt8
  arch : List UInt8
  kernel : List UInt8
  openZfs : List UInt8
  kernelSha256 : List UInt8
  initrdSha256 : List UInt8
  deriving DecidableEq

/-- `Format`. -/
def format : Nat := 1

/-- `requiredFields`. -/
def requiredFields : List (List UInt8) :=
  [ascii "version", ascii "buildstamp", ascii "arch", ascii "kernel", ascii "openzfs",
    ascii "kernel_sha256", ascii "initrd_sha256"]

/-- `knownFields`. -/
def knownFields : List (List UInt8) := ascii "format" :: requiredFields

/-- The fields of a manifest, under their keys. -/
def Manifest.entries (m : Manifest) : List (List UInt8 × List UInt8) :=
  [(ascii "version", m.version), (ascii "buildstamp", m.buildStamp), (ascii "arch", m.arch),
    (ascii "kernel", m.kernel), (ascii "openzfs", m.openZfs), (ascii "kernel_sha256", m.kernelSha256),
    (ascii "initrd_sha256", m.initrdSha256)]

/-- A line `key=value`. -/
def entryLine (e : List UInt8 × List UInt8) : List UInt8 := e.1 ++ 0x3D :: e.2

/-- `Encode`. -/
def encode (m : Manifest) : List UInt8 :=
  ((ascii "format", decimal format) :: m.entries).flatMap (entryLine · ++ [0x0A])

/-- The errors of `Decode`. -/
inductive MetadataError where
  | contentAfterNul (offset : Nat)
  | malformed (line : List UInt8)
  | unknown (key : List UInt8)
  | duplicate (key : List UInt8)
  | noFormat
  | formatNumber (v : List UInt8)
  | formatOther (n : Int)
  | missing (keys : List (List UInt8))
  | notSha256 (key : List UInt8)
  deriving DecidableEq

/-- The map of `Decode`. -/
abbrev Fields : Type := List (List UInt8 × List UInt8)

/-- `fields[k]`: a key that is not there has the empty value. -/
def Fields.get (fields : Fields) (key : List UInt8) : List UInt8 := (fields.lookup key).getD []

/-- `Decode` on one line. -/
def decodeLine (fields : Fields) (line : List UInt8) : Except MetadataError Fields :=
  let line := trimSpace line
  if line = [] then .ok fields
  else
    match cut 0x3D line with
    | none => .error (.malformed line)
    | some (k, v) =>
      if k ∉ knownFields then .error (.unknown k)
      else if (fields.lookup k).isSome then .error (.duplicate k)
      else .ok (fields ++ [(k, v)])

/-- The text before NUL padding. -/
def unpadded (raw : List UInt8) : Except MetadataError (List UInt8) :=
  let text := raw.takeWhile (· ≠ 0)
  if (raw.dropWhile (· ≠ 0)).any (· ≠ 0) then .error (.contentAfterNul text.length) else .ok text

/-- `strings.TrimRight(text, "\n")`. -/
def trimNewlines (text : List UInt8) : List UInt8 := text.rdropWhile (· = 0x0A)

/-- `sha256HexPattern`. -/
def isSha256Hex (v : List UInt8) : Bool := v.length = 64 ∧ v.all isHexDigit

/-- `Decode` once the lines are read. -/
def ofFields (fields : Fields) : Except MetadataError Manifest :=
  match fields.lookup (ascii "format") with
  | none => .error .noFormat
  | some v =>
    match atoi v with
    | none => .error (.formatNumber v)
    | some n =>
      if n ≠ format then .error (.formatOther n)
      else if (requiredFields.filter (fields.get · = [])) ≠ [] then
        .error (.missing (requiredFields.filter (fields.get · = [])))
      else if isSha256Hex (fields.get (ascii "kernel_sha256")) = false then
        .error (.notSha256 (ascii "kernel_sha256"))
      else if isSha256Hex (fields.get (ascii "initrd_sha256")) = false then
        .error (.notSha256 (ascii "initrd_sha256"))
      else .ok ⟨fields.get (ascii "version"), fields.get (ascii "buildstamp"),
        fields.get (ascii "arch"), fields.get (ascii "kernel"), fields.get (ascii "openzfs"),
        fields.get (ascii "kernel_sha256"), fields.get (ascii "initrd_sha256")⟩

/-- `Decode`. -/
def decode (raw : List UInt8) : Except MetadataError Manifest := do
  let text ← unpadded raw
  let fields ← ((trimNewlines text).splitOn 0x0A).foldlM decodeLine []
  ofFields fields

/-- `checkMetadataEncodable`: what is accepted decodes. -/
def checkMetadataEncodable (m : Manifest) : Except MetadataError (List UInt8) :=
  match decode (encode m) with
  | .error err => .error err
  | .ok _ => .ok (encode m)

end ZfsBoot.Tool.Metadata
