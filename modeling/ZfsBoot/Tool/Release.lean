import Mathlib.Logic.Function.Basic
import ZfsBoot.Lib.Halting
import ZfsBoot.Tool.PayloadSum

/-!
# `ZfsBoot.Tool.Release`: where the five BIOS files come from

The model of `ResolveBIOS` in internal/release, with the functions it calls. Each of the five files
is a copy of a local file, a download from a URL of the operator's, or the asset of the latest
release. What it returns is five temporary files.

The server is outside: `Outside.respond` answers each request as it likes, also two requests for one
URL in two ways. So are the results of file operations that can fail, the local files, and three
functions of other packages: the JSON decoder, `net/url` and `minisign.Verify` under the tool's keys.
Removals succeed.

A temporary file is named by its number. `requests` is the log of the answers, the newest first.
-/

set_option autoImplicit false

namespace ZfsBoot.Tool.Release

open Lib Lib.Halting
open Bios (ascii)
open ZfsBoot.Tool.PayloadSum (lower)

abbrev Bytes := List UInt8

/-- What a request leads to: no response, a response with another status than 200, or a body, which
may break off. -/
inductive Response where
  | unreachable
  | status (code : Nat)
  | body (bytes : Bytes) (complete : Bool)
  deriving DecidableEq

/-- What the functions do not decide themselves. -/
structure Outside where
  /-- The answer to a request, by the number of requests before it. -/
  respond : Nat → Bytes → Response
  /-- Whether a file operation fails, by the number of operations before it. -/
  fails : Nat → Bool
  /-- A local file, if it can be opened, and whether it can be read to its end. -/
  localFile : Bytes → Option (Bytes × Bool)
  /-- The `tag_name` that the JSON decoder finds in a body. -/
  decodeTag : Bytes → Bool → Option Bytes
  /-- The URL of the detached signature: `.minisig` after the path. -/
  minisigUrl : Bytes → Bytes
  /-- `minisign.Verify` of data and signature: the trusted comment. -/
  verify : Bytes → Bytes → Option Bytes

/-- What the functions read and change. -/
structure World where
  requests : List (Bytes × Response)
  ops : Nat
  created : Nat
  temps : Nat → Option Bytes

/-- Before the first request. -/
def World.start : World := ⟨[], 0, 0, fun _ => none⟩

def World.setTemp (tmp : Nat) (content : Option Bytes) (w : World) : World :=
  { w with temps := Function.update w.temps tmp content }

/-- The five BIOS files, in the order of the loop. -/
inductive Slot where
  | stage1 | stage2 | kernel | initrd | cmdline
  deriving DecidableEq, Repr

def slots : List Slot := [.stage1, .stage2, .kernel, .initrd, .cmdline]

/-- `BIOSAssetName`. -/
def biosAssetName (arch : Bytes) : Slot → Bytes
  | .stage1 => ascii "alpine-zfsboot-" ++ arch ++ ascii "-bios-stage1.bin"
  | .stage2 => ascii "alpine-zfsboot-" ++ arch ++ ascii "-bios-stage2.bin"
  | .kernel => ascii "alpine-zfsboot-" ++ arch ++ ascii "-vmlinuz"
  | .initrd => ascii "alpine-zfsboot-" ++ arch ++ ascii "-initramfs.img"
  | .cmdline => ascii "alpine-zfsboot-" ++ arch ++ ascii "-cmdline.txt"

/-- `Source`: a text that is empty is not set. -/
structure Source where
  file : Bytes
  url : Bytes
  deriving DecidableEq

/-- Neither is set. -/
def Source.isDefault (s : Source) : Prop := s.file = [] ∧ s.url = []

instance (s : Source) : Decidable s.isDefault := inferInstanceAs (Decidable (_ ∧ _))

/-- `BIOSAssets`: the temporary files so far. -/
abbrev Assets := Slot → Option Nat

/-- The errors of the package. -/
inductive ReleaseError where
  | fetching (url : Bytes)
  | http (url : Bytes) (code : Nat)
  | tempForDownload
  | downloading (url : Bytes)
  | openingLocal (src : Bytes)
  | tempForFile (src : Bytes)
  | copying (src : Bytes)
  | latestUnreachable
  | latestHttp (code : Nat)
  | latestParse
  | latestNoTag
  | sumsUnreachable
  | sumsHttp (code : Nat)
  | sumsRead
  | sumsMalformed (line : Bytes)
  | sumsNotHex (field : Bytes)
  | notListed (name : Bytes)
  | checksumRead (name : Bytes)
  | checksumMismatch (name got want : Bytes)
  | signatureFetch (url : Bytes) (err : ReleaseError)
  | signatureRead (url : Bytes)
  | dataRead (url : Bytes)
  | signatureFailed (url : Bytes)
  | signedOtherwise (url comment want : Bytes)
  | signedForOther (url comment assetFile : Bytes)
  | resolvingAssets (err : ReleaseError)
  | resolving (slot : Slot) (err : ReleaseError)

section
variable (env : Outside)

/-! ### Requests and temporary files -/

/-- `httpClient.Get`. -/
def request (url : Bytes) : Halting ReleaseError World Response := fun w =>
  let r := env.respond w.requests.length url
  (.ok r, { w with requests := (url, r) :: w.requests })

/-- Whether the next file operation succeeds. -/
def fileOp : Halting ReleaseError World Bool := fun w =>
  (.ok (!env.fails w.ops), { w with ops := w.ops + 1 })

/-- `os.CreateTemp`. -/
def createTemp (e : ReleaseError) : Halting ReleaseError World Nat := do
  let ok ← fileOp env
  if ok then
    fun w => (.ok w.created, { w.setTemp w.created (some []) with created := w.created + 1 })
  else stop e

/-- `os.Remove`. -/
def remove (tmp : Nat) : Halting ReleaseError World Unit := modify (World.setTemp tmp none)

/-- `io.Copy` into the file. What got into it before a failure goes with the file. -/
def copyInto (tmp : Nat) (bytes : Bytes) (complete : Bool) (e : ReleaseError) :
    Halting ReleaseError World Nat := do
  let ok ← fileOp env
  if ok ∧ complete then
    modify (World.setTemp tmp (some bytes))
    return tmp
  else
    remove tmp
    stop e

/-- `os.ReadFile`. -/
def readTemp (tmp : Nat) (e : ReleaseError) : Halting ReleaseError World Bytes := do
  let ok ← fileOp env
  let w ← look
  match w.temps tmp with
  | some content => if ok then return content else stop e
  | none => stop e

/-- `downloadAsset`. -/
def downloadAsset (url : Bytes) : Halting ReleaseError World Nat := do
  match ← request env url with
  | .unreachable => stop (.fetching url)
  | .status code => stop (.http url code)
  | .body bytes complete =>
    let tmp ← createTemp env .tempForDownload
    copyInto env tmp bytes complete (.downloading url)

/-- `copyToTemp`. -/
def copyToTemp (src : Bytes) : Halting ReleaseError World Nat := do
  match env.localFile src with
  | none => stop (.openingLocal src)
  | some (bytes, complete) =>
    let tmp ← createTemp env (.tempForFile src)
    copyInto env tmp bytes complete (.copying src)

/-! ### The release and its checksums -/

/-- `apiLatestReleaseURL`. -/
def apiLatestReleaseUrl : Bytes :=
  ascii "https://api.github.com/repos/unidoc/alpine-zfsboot/releases/latest"

/-- `downloadBaseURLTemplate` with a tag. -/
def tagBase (tag : Bytes) : Bytes :=
  ascii "https://github.com/unidoc/alpine-zfsboot/releases/download/" ++ tag ++ ascii "/"

/-- `resolveTag`. -/
def resolveTag : Halting ReleaseError World Bytes := do
  match ← request env apiLatestReleaseUrl with
  | .unreachable => stop .latestUnreachable
  | .status code => stop (.latestHttp code)
  | .body bytes complete =>
    match env.decodeTag bytes complete with
    | none => stop .latestParse
    | some tag => if tag = [] then stop .latestNoTag else return tag

/-- One line of SHA256SUMS. -/
def parseSumsLine (sums : List (Bytes × Bytes)) (line : Bytes) :
    Except ReleaseError (List (Bytes × Bytes)) :=
  let line := trimSpace line
  if line = [] then .ok sums
  else
    match fields line with
    | [sum, name] =>
      if sum.length ≠ 64 ∨ sum.any fun c => (hexValue c).isNone then .error (.sumsNotHex sum)
      else
        -- a later line for the same name counts
        .ok ((if name.head? = some 0x2A then name.tail else name, sum.map lower) :: sums)
    | _ => .error (.sumsMalformed line)

/-- The map of `fetchChecksums`. -/
def parseSums (data : Bytes) : Except ReleaseError (List (Bytes × Bytes)) :=
  (data.splitOn 0x0A).foldlM parseSumsLine []

/-- `fetchChecksums`. -/
def fetchChecksums (tag : Bytes) : Halting ReleaseError World (List (Bytes × Bytes)) := do
  match ← request env (tagBase tag ++ ascii "SHA256SUMS") with
  | .unreachable => stop .sumsUnreachable
  | .status code => stop (.sumsHttp code)
  | .body bytes complete => if complete then ofExcept (parseSums bytes) else stop .sumsRead

/-- `verifyChecksum`. -/
def verifyChecksum (name : Bytes) (path : Nat) (sums : List (Bytes × Bytes)) :
    Halting ReleaseError World Unit := do
  match sums.lookup name with
  | none => stop (.notListed name)
  | some want =>
    let data ← readTemp env path (.checksumRead name)
    let got := hexEncode (Sha256.digest data).toList
    require (.checksumMismatch name got want) (got = want)

/-! ### Signatures -/

/-- `expectedTrustedComment`. -/
def expectedTrustedComment (tag assetFile : Bytes) : Bytes :=
  ascii "alpine-zfsboot " ++ tag ++ ascii " - " ++ assetFile

/-- The trusted comment is for the asset, and for the release if its tag is known. -/
def CommentFor (tag assetFile comment : Bytes) : Prop :=
  if tag ≠ [] then comment = expectedTrustedComment tag assetFile
  else ascii "alpine-zfsboot " <+: comment ∧ ascii " - " ++ assetFile <:+ comment

instance (tag assetFile comment : Bytes) : Decidable (CommentFor tag assetFile comment) :=
  inferInstanceAs (Decidable (ite _ _ _))

/-- `verifySignatureAtURL`. -/
def verifySignatureAtUrl (url : Bytes) (path : Nat) (assetFile tag : Bytes) :
    Halting ReleaseError World Unit := do
  let sigPath ← (downloadAsset env (env.minisigUrl url)).relabel (.signatureFetch url)
  ensure (do
    let sigData ← readTemp env sigPath (.signatureRead url)
    let data ← readTemp env path (.dataRead url)
    match env.verify data sigData with
    | none => stop (.signatureFailed url)
    | some comment =>
      require (if tag ≠ [] then .signedOtherwise url comment (expectedTrustedComment tag assetFile)
        else .signedForOther url comment assetFile) (CommentFor tag assetFile comment))
    (World.setTemp sigPath none)

/-! ### The five files -/

/-- `Source.resolve`. -/
def Source.resolve (s : Source) (defaultUrl assetFile : Bytes) : Halting ReleaseError World Nat :=
  if s.file ≠ [] then copyToTemp env s.file
  else if s.url ≠ [] then do
    let path ← downloadAsset env s.url
    (verifySignatureAtUrl env s.url path assetFile []).rescue fun e => do
      remove path
      stop e
    return path
  else downloadAsset env defaultUrl

/-- `RemoveAll`. -/
def removeAll (assets : Assets) : List Slot → Halting ReleaseError World Unit
  | [] => pure ()
  | slot :: slots => do
      match assets slot with
      | some path => remove path
      | none => pure ()
      removeAll assets slots

/-- The loop's body for one file, up to the assignment. -/
def resolveSlot (src : Slot → Source) (arch tag : Bytes) (sums : List (Bytes × Bytes)) (slot : Slot) :
    Halting ReleaseError World Nat := do
  let assetFile := biosAssetName arch slot
  if (src slot).isDefault then
    let path ← (src slot).resolve env (tagBase tag ++ assetFile) assetFile
    (do
      verifyChecksum env assetFile path sums
      verifySignatureAtUrl env (tagBase tag ++ assetFile) path assetFile tag).rescue fun e => do
        remove path
        stop e
    return path
  else (src slot).resolve env [] assetFile

/-- The loop over the files; on a failure the ones so far are removed. -/
def resolveSlots (src : Slot → Source) (arch tag : Bytes) (sums : List (Bytes × Bytes)) :
    List Slot → Assets → Halting ReleaseError World Assets
  | [], assets => pure assets
  | slot :: rest, assets => do
      let path ← (resolveSlot env src arch tag sums slot).rescue fun e => do
        removeAll assets slots
        stop (.resolving slot e)
      resolveSlots src arch tag sums rest (Function.update assets slot (some path))

/-- `ResolveBIOS`. -/
def resolveBios (src : Slot → Source) (arch : Bytes) : Halting ReleaseError World Assets := do
  if ∃ slot ∈ slots, (src slot).isDefault then
    let tag ← (resolveTag env).relabel .resolvingAssets
    let sums ← (fetchChecksums env tag).relabel .resolvingAssets
    resolveSlots env src arch tag sums slots fun _ => none
  else resolveSlots env src arch [] [] slots fun _ => none

end

end ZfsBoot.Tool.Release
