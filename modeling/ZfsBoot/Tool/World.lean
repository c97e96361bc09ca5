import Mathlib.Logic.Function.Basic
import ZfsBoot.Lib.Journal
import ZfsBoot.Tool.PartTable

/-!
# `ZfsBoot.Tool.World`: what the tool reads and writes

The tool works on two kinds of things. An ESP is mounted somewhere, and its files are replaced or
removed whole: `espconfig.WriteFile` writes a temporary file, syncs it and renames it over the old
one, so a crash leaves either. A disk is written in place, at an offset.

Every operation is an event of a `Journal`. The part of the program that asks for it is recorded
with it, because what a failed write leaves depends on how its rollback went.
-/

set_option autoImplicit false

namespace ZfsBoot.Tool

open Lib

/-- The files of an ESP, as `internal/layout` names them. -/
inductive EspFile where
  | kernel | initrd | cmdline | metadata | payloadSum | blkSum
  | config | authorizedKeys | sshHostKey | member
  /-- the UEFI loader of an architecture, and the copy of the one before it -/
  | loader (name : String) | previousLoader (name : String)
  deriving DecidableEq, Repr

/-- The path of a file on the ESP. -/
def EspFile.path : EspFile → String
  | .kernel => "EFI/ALPINE/KERNEL"
  | .initrd => "EFI/ALPINE/INITRD"
  | .cmdline => "EFI/ALPINE/CMDLINE"
  | .metadata => "EFI/ALPINE/metadata"
  | .payloadSum => "EFI/ALPINE/CHECKSUM"
  | .blkSum => "EFI/ALPINE/BLKSUM"
  | .config => "EFI/ALPINE/config"
  | .authorizedKeys => "EFI/ALPINE/authorized_keys"
  | .sshHostKey => "EFI/ALPINE/ssh_host_ed25519_key"
  | .member => "EFI/ALPINE/MEMBER"
  | .loader name => "EFI/BOOT/" ++ name
  | .previousLoader name => "EFI/BOOT/" ++ name ++ ".previous"

/-- The contents of the files of one ESP. A file that is absent is `none`. -/
abbrev EspFiles : Type := EspFile → Option (List UInt8)

/-- All ESPs, by mountpoint, and all disks, by device. -/
structure World where
  files : String → EspFiles
  disk : String → DiskImage

/-- The part of the program that asks for an operation. -/
inductive Part where
  | write | rollback
  /-- the lists of UUIDs in config and CMDLINE -/
  | lists
  deriving DecidableEq, Repr

/-- The operations on an ESP and on a disk. -/
inductive Action where
  /-- `os.ReadFile` -/
  | readFile (mountpoint : String) (f : EspFile)
  /-- `espconfig.WriteFile` -/
  | writeFile (mountpoint : String) (f : EspFile) (content : List UInt8)
  /-- `os.Remove` -/
  | remove (mountpoint : String) (f : EspFile)
  /-- `biosboot.CheckSectorSize`, which only asks -/
  | checkSectorSize (disk : String)
  /-- `bootenv.CheckStage2ExtentFree`, which only reads -/
  | checkExtent (disk : String)
  /-- `os.OpenFile` -/
  | openDisk (disk : String)
  /-- `ReadAt` -/
  | readAt (disk : String) (off n : Nat)
  /-- `WriteAt` -/
  | writeAt (disk : String) (off : Nat) (bytes : List UInt8)
  /-- `Sync` -/
  | sync (disk : String)
  deriving DecidableEq, Repr

/-- An operation, and who asks for it. -/
structure Op where
  part : Part
  action : Action
  deriving DecidableEq, Repr

/-- One file of an ESP with other contents. -/
def World.setFile (w : World) (mountpoint : String) (f : EspFile) (content : Option (List UInt8)) :
    World :=
  { w with
    files := Function.update w.files mountpoint (Function.update (w.files mountpoint) f content) }

/-- The bytes from position `off` on replaced. -/
def DiskImage.writeAt (img : DiskImage) (off : Nat) (bytes : List UInt8) : DiskImage :=
  { img with
    byte := fun i =>
      if off ≤ i ∧ i < off + bytes.length then bytes.getD (i - off) 0 else img.byte i }

/-- One disk with other contents. -/
def World.setDisk (w : World) (disk : String) (img : DiskImage) : World :=
  { w with disk := Function.update w.disk disk img }

/-- What an operation does when it is carried out. -/
def Action.act : Action → World → World
  | .writeFile mountpoint f content, w => w.setFile mountpoint f (some content)
  | .remove mountpoint f, w => w.setFile mountpoint f none
  | .writeAt disk off bytes, w => w.setDisk disk ((w.disk disk).writeAt off bytes)
  | _, w => w

instance : Acts Op World := ⟨fun op => op.action.act⟩

@[simp] theorem act_op (op : Op) (w : World) : Acts.act op w = op.action.act w := rfl

@[simp] theorem act_readFile (mountpoint : String) (f : EspFile) (w : World) :
    (Action.readFile mountpoint f).act w = w := rfl

@[simp] theorem act_writeFile (mountpoint : String) (f : EspFile) (content : List UInt8)
    (w : World) :
    (Action.writeFile mountpoint f content).act w = w.setFile mountpoint f (some content) := rfl

@[simp] theorem act_remove (mountpoint : String) (f : EspFile) (w : World) :
    (Action.remove mountpoint f).act w = w.setFile mountpoint f none := rfl

@[simp] theorem act_checkSectorSize (disk : String) (w : World) :
    (Action.checkSectorSize disk).act w = w := rfl

@[simp] theorem act_checkExtent (disk : String) (w : World) :
    (Action.checkExtent disk).act w = w := rfl

@[simp] theorem act_openDisk (disk : String) (w : World) : (Action.openDisk disk).act w = w := rfl

@[simp] theorem act_readAt (disk : String) (off n : Nat) (w : World) :
    (Action.readAt disk off n).act w = w := rfl

@[simp] theorem act_sync (disk : String) (w : World) : (Action.sync disk).act w = w := rfl

/-- A run of the tool. -/
abbrev Run : Type := Journal Op World

/-- A part of the tool that stops with an error `ε`. -/
abbrev ToolM (ε α : Type) : Type := Halting ε Run α

@[simp] theorem World.setFile_files_self (w : World) (mountpoint : String) (f : EspFile)
    (content : Option (List UInt8)) :
    (w.setFile mountpoint f content).files mountpoint
      = Function.update (w.files mountpoint) f content := by
  simp [World.setFile]

/-- Setting a file touches one ESP. -/
theorem World.setFile_files_of_ne (w : World) {mountpoint mp : String} (f : EspFile)
    (content : Option (List UInt8)) (h : mp ≠ mountpoint) :
    (w.setFile mountpoint f content).files mp = w.files mp := by
  simp [World.setFile, h]

end ZfsBoot.Tool
