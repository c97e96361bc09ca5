import Mathlib.Logic.Function.Basic
import ZfsBoot.Lib.Schedule

/-!
# `ZfsBoot.Init.Lock`: the lock directories of init's shells

The model of `boot_lock_acquire` and `release_boot_lock` in boot-dataset.sh, and of `zfs_op_lock`
and `zfs_op_unlock` in zfs-unlock.sh. The two pairs run the same commands on the lock directory of
one dataset, or of one encryption root; they differ in the texts they print and in the variable that
remembers the lock.

A process is where its next command is (`Pc`), together with the shell variables that the rest of
the function reads. Every command on the lock directory is one step. The tests of shell variables
after a command, and the `sleep` before one, are part of its step. A process that is killed runs no
command any more, and its pid is not used again.

`mv` onto a directory that exists moves the source into it. `LockDir.inside` has what got into a
lock directory that way. No command reads it, but `rmdir` fails on it.
-/

set_option autoImplicit false

namespace ZfsBoot.Init.Lock

abbrev Pid := Nat

/-- The base name of a directory: the lock's, or `<lock>.stale.$$`. -/
inductive DirName where
  | lock
  | stale (p : Pid)
  deriving DecidableEq

/-- A lock directory. -/
structure LockDir where
  /-- The process that made it. No command reads this. -/
  creator : Pid
  /-- The file `pid`. -/
  pid : Option Pid
  /-- The directories that are in it by a `mv`, and whether they are empty. -/
  inside : List (DirName × Bool)
  deriving DecidableEq

/-- `rmdir` removes an empty directory only. -/
def LockDir.isEmpty (d : LockDir) : Bool := d.pid.isNone && d.inside.isEmpty

/-- `cat "$dir/pid"`. -/
def pidOf (dir : Option LockDir) : Option Pid := dir.bind (·.pid)

/-- `mv` of `d` into a directory that exists. A directory of that name in it is replaced if it is
empty. -/
def moveInto (d : LockDir) (name : DirName) (target : LockDir) : Option LockDir :=
  match target.inside.lookup name with
  | some false => none
  | _ => some { target with
      inside := (name, d.isEmpty) :: target.inside.filter fun e => e.1 ≠ name }

/-- Where a process is: its next command. -/
inductive Pc where
  /-- Not in the functions, and without the lock. -/
  | outside
  /-- `mkdir "$lock_dir"`. -/
  | make
  /-- `echo "$$" > "$lock_dir/pid"`, after a `mkdir` that succeeded. -/
  | record
  /-- `lock_pid="$(cat "$lock_dir/pid")"`. -/
  | read
  /-- The same in the loop that waits for a pid, with `_i`. -/
  | poll (i : Nat)
  /-- `mv "$lock_dir" "$stale"`, after no pid appeared. -/
  | moveAbandoned
  /-- `moved_pid="$(cat "$stale/pid")"`, after no pid appeared. -/
  | rereadAbandoned
  /-- `command -v _pid_alive` and `_pid_alive "$lock_pid"`. -/
  | judge (lockPid : Pid)
  /-- `mv "$lock_dir" "$stale"`, after the holder was found dead. -/
  | moveDead (lockPid : Pid)
  /-- `moved_pid="$(cat "$stale/pid")"`, after the holder was found dead. -/
  | rereadDead (lockPid : Pid)
  /-- `[ ! -e "$lock_dir" ]`, to put back what was moved. -/
  | probe
  /-- `mv "$stale" "$lock_dir"`. -/
  | moveBack
  /-- `rm -rf "$stale"`, when there is another lock already. -/
  | discard
  /-- `rm -rf "$stale"`, before the lock is made again. -/
  | clear
  /-- The `mkdir` after that. -/
  | remake
  /-- The function has returned 0. -/
  | held
  /-- `rm -f "$lock_dir/pid"`. -/
  | unrecord
  /-- `rmdir "$lock_dir"`. -/
  | unmake
  deriving DecidableEq

/-- The processes and the directories of one lock. -/
structure State where
  alive : Pid → Bool
  pc : Pid → Pc
  /-- `$lock_dir`. -/
  lock : Option LockDir
  /-- `$lock_dir.stale.$$` of each process. -/
  stale : Pid → Option LockDir

namespace State

/-- The process goes on with another command. -/
def goto (p : Pid) (pc : Pc) (s : State) : State := { s with pc := Function.update s.pc p pc }

def setLock (dir : Option LockDir) (s : State) : State := { s with lock := dir }

def setStale (p : Pid) (dir : Option LockDir) (s : State) : State :=
  { s with stale := Function.update s.stale p dir }

end State

/-- `mv "$lock_dir" "$stale"`. -/
def moveAside (p : Pid) (s : State) : Option State :=
  match s.lock, s.stale p with
  | none, _ => none
  | some d, none => some ((s.setLock none).setStale p (some d))
  | some d, some t => (moveInto d .lock t).map fun t => (s.setLock none).setStale p (some t)

/-- `mv "$stale" "$lock_dir"`; nothing looks at its result. -/
def moveBack (p : Pid) (s : State) : State :=
  match s.stale p, s.lock with
  | none, _ => s
  | some d, none => (s.setLock (some d)).setStale p none
  | some d, some t =>
    match moveInto d (.stale p) t with
    | none => s
    | some t => (s.setLock (some t)).setStale p none

/-- `mkdir "$lock_dir"`, and where it leads if it fails. -/
def mkdir (p : Pid) (otherwise : Pc) (s : State) : State :=
  match s.lock with
  | none => (s.setLock (some ⟨p, none, []⟩)).goto p .record
  | some _ => s.goto p otherwise

/-- The next command of a process. `judges` says which processes have `_pid_alive`. -/
def exec (judges : Pid → Bool) (p : Pid) (s : State) : State :=
  match s.pc p with
  | .outside => s.goto p .make
  | .make => mkdir p .read s
  | .record => (s.setLock (s.lock.map fun d => { d with pid := some p })).goto p .held
  | .read =>
    match pidOf s.lock with
    | none => s.goto p (.poll 0)
    | some q => s.goto p (.judge q)
  | .poll i =>
    match pidOf s.lock with
    | some _ => s.goto p .outside
    | none => s.goto p (if i + 1 < 5 then .poll (i + 1) else .moveAbandoned)
  | .moveAbandoned =>
    match moveAside p s with
    | none => s.goto p .outside
    | some s => s.goto p .rereadAbandoned
  | .rereadAbandoned => s.goto p (if (pidOf (s.stale p)).isSome then .probe else .clear)
  | .judge q => s.goto p (if judges p ∧ s.alive q = false then .moveDead q else .outside)
  | .moveDead q =>
    match moveAside p s with
    | none => s.goto p .outside
    | some s => s.goto p (.rereadDead q)
  | .rereadDead q => s.goto p (if pidOf (s.stale p) = some q then .clear else .probe)
  | .probe => s.goto p (if s.lock = none then .moveBack else .discard)
  | .moveBack => (moveBack p s).goto p .outside
  | .discard => (s.setStale p none).goto p .outside
  | .clear => (s.setStale p none).goto p .remake
  | .remake => mkdir p .outside s
  | .held => s.goto p .unrecord
  | .unrecord => (s.setLock (s.lock.map fun d => { d with pid := none })).goto p .unmake
  | .unmake => (s.setLock (s.lock.filter fun d => ¬ d.isEmpty)).goto p .outside

/-- What can happen: a process runs its next command, or it is killed. -/
inductive Action where
  | exec (p : Pid)
  | kill (p : Pid)
  deriving DecidableEq

def step (judges : Pid → Bool) : Action → State → State
  | .exec p, s => if s.alive p then exec judges p s else s
  | .kill p, s => { s with alive := Function.update s.alive p false }

/-- No process has started yet, and there is no directory. -/
def start : State where
  alive := fun _ => true
  pc := fun _ => .outside
  lock := none
  stale := fun _ => none

/-- Where a process has the lock: its acquire has returned success,
and its release has not removed the directory yet. -/
def Pc.holds : Pc → Bool
  | .held | .unrecord | .unmake => true
  | _ => false

/-- A live process that has the lock. -/
def Holds (s : State) (p : Pid) : Prop := s.alive p = true ∧ (s.pc p).holds = true

/-- At most one live process has the lock. -/
def Exclusive (s : State) : Prop := ∀ p q, Holds s p → Holds s q → p = q

end ZfsBoot.Init.Lock
