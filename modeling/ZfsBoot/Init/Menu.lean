import Mathlib.Data.List.Basic

/-!
# `ZfsBoot.Init.Menu`: the position in the boot menu

The model of `_apply_nav_keys` of `init/menu.py`, and of what the loop of
`_run_dialog_with_activity` does with the bytes it reads from the terminal. `dialog` itself sees the
same bytes; the position is kept beside it, for the menu that the next tick draws.
-/

set_option autoImplicit false

namespace ZfsBoot.Init

/-- `m.group(1)`: `A` or `B`. -/
inductive NavKey where
  | up
  | down

/-- `re.finditer(rb"\x1b\[([AB])", scan)`: it goes on behind each match. -/
def navKeys : List UInt8 → List NavKey
  | 0x1B :: 0x5B :: 0x41 :: rest => .up :: navKeys rest
  | 0x1B :: 0x5B :: 0x42 :: rest => .down :: navKeys rest
  | _ :: rest => navKeys rest
  | [] => []

/-- The body of the loop of `_apply_nav_keys`. -/
def NavKey.apply (itemCount position : Int) : NavKey → Int
  | .down => if position < itemCount - 1 then position + 1 else position
  | .up => if position > 0 then position - 1 else position

/-- `_apply_nav_keys`. -/
def applyNavKeys (scan : List UInt8) (position itemCount : Int) : Int :=
  (navKeys scan).foldl (NavKey.apply itemCount) position

/-- What `_run_dialog_with_activity` keeps between two reads from the terminal. -/
structure Dialog where
  activity : Bool
  position : Int
  pendingEsc : List UInt8

/-- The state before the loop. -/
def Dialog.start (defaultItem : Int) : Dialog := ⟨false, defaultItem, []⟩

/-- One read from the terminal. A read that fails or gives nothing changes nothing. -/
def Dialog.read (itemCount : Int) (d : Dialog) (chunk : List UInt8) : Dialog :=
  if chunk = [] then d
  else
    let scan := d.pendingEsc ++ chunk
    { activity := true
      position := applyNavKeys scan d.position itemCount
      pendingEsc := scan.drop (scan.length - 2) }

/-- The state after the reads of a whole run. -/
def runDialog (defaultItem itemCount : Int) (chunks : List (List UInt8)) : Dialog :=
  chunks.foldl (Dialog.read itemCount) (.start defaultItem)

end ZfsBoot.Init
