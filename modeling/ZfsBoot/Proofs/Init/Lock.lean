import Mathlib.Data.Set.Finite.Basic
import ZfsBoot.Init.Lock

/-!
# `ZfsBoot.Proofs.Init.Lock`: when the lock directory excludes

From its `mkdir` to its `rmdir` a process takes the lock directory for its own (`Pc.owns`). The
invariant is that it is right: the directory at the lock's path is the one that it made (`Owned`).
There is one such path, so there is one such process, and the lock excludes.

All commands but one keep the invariant. The exception is the `mv` that moves the lock aside. It
comes some commands after the test that found the lock abandoned or its holder dead, and by then the
path may hold the directory of a live owner (`Steals`). The pid is read again after the `mv`, but the
path is free in between.

`exclusive_iff_no_steal` says that this is the only way to lose exclusion, and that each such `mv`
can lose it. `two_holders` is the shortest case: an owner that is paused before it has recorded its
pid.
-/

set_option autoImplicit false

namespace ZfsBoot.Proofs.Init.Lock

open Lib.Schedule ZfsBoot.Init.Lock

variable {s' : State} {s : State} {p r : Pid} {pc : Pc} {judges : Pid → Bool}

/-- The process has made the directory, and not removed it yet. -/
def owns : Pc → Bool
  | .record | .held | .unrecord | .unmake => true
  | _ => false

/-- The next command moves the lock aside. -/
def moves : Pc → Bool
  | .moveAbandoned | .moveDead _ => true
  | _ => false

/-- What a live owner takes for its directory is at the lock's path. -/
def Owned (s : State) : Prop :=
  ∀ p, s.alive p = true → owns (s.pc p) = true → ∃ d, s.lock = some d ∧ d.creator = p

/-- The next command of the process moves the directory of a live owner aside. -/
structure Steals (p : Pid) (s : State) : Prop where
  alive : s.alive p = true
  moves : moves (s.pc p) = true
  succeeds : (moveAside p s).isSome = true
  owned : ∃ d, s.lock = some d ∧ s.alive d.creator = true ∧ owns (s.pc d.creator) = true

/-- The action takes the directory of a live owner. -/
def stealing : Action → State → Prop
  | .exec p, s => Steals p s
  | .kill _, _ => False

theorem owns_of_holds (h : pc.holds = true) : owns pc = true := by
  cases pc <;> first | rfl | cases h

theorem owns_of_moves (h : moves pc = true) : owns pc = false := by
  cases pc <;> first | rfl | cases h

/-- One path has one directory, and it has one maker. -/
theorem Owned.exclusive (h : Owned s) : Exclusive s := by
  intro p q hp hq
  obtain ⟨d, hd, rfl⟩ := h p hp.1 (owns_of_holds hp.2)
  obtain ⟨d', hd', rfl⟩ := h q hq.1 (owns_of_holds hq.2)
  rw [hd, Option.some_inj] at hd'
  rw [hd']

/-! ### One command -/

/-- What a command does to the lock's path, if the process is at `pc` after it. -/
inductive Effect (p : Pid) (s s' : State) (pc : Pc) : Prop
  /-- The directory stays, or there is none before and after. -/
  | same (hlock : s'.lock.map (·.creator) = s.lock.map (·.creator))
      (howns : owns pc = true → owns (s.pc p) = true)
  /-- The process makes it. -/
  | made (hbefore : s.lock = none) (d : LockDir) (hlock : s'.lock = some d) (hcreator : d.creator = p)
  /-- The process puts a directory back. -/
  | restored (hbefore : s.lock = none) (howns : owns pc = false)
  /-- The process moves it aside. -/
  | moved (hmoves : moves (s.pc p) = true) (hsucceeds : (moveAside p s).isSome = true)
      (hlock : s'.lock = none) (howns : owns pc = false)
  /-- The process removes it. -/
  | removed (hbefore : owns (s.pc p) = true) (howns : owns pc = false)

theorem moveAside_eq (h : moveAside p s = some s') :
    s'.alive = s.alive ∧ s'.pc = s.pc ∧ s'.lock = none ∧ ∀ q ≠ p, s'.stale q = s.stale q := by
  unfold moveAside at h
  split at h
  · cases h
  · obtain rfl := Option.some.inj h
    exact ⟨rfl, rfl, rfl, fun q hq => Function.update_of_ne hq ..⟩
  · obtain ⟨t, -, rfl⟩ := Option.map_eq_some_iff.1 h
    exact ⟨rfl, rfl, rfl, fun q hq => Function.update_of_ne hq ..⟩

theorem moveInto_creator {d t t' : LockDir} {name : DirName} (h : moveInto d name t = some t') :
    t'.creator = t.creator := by
  unfold moveInto at h
  split at h
  · cases h
  · obtain rfl := Option.some.inj h
    rfl

theorem moveBack_eq (p : Pid) (s : State) :
    (moveBack p s).alive = s.alive ∧ (moveBack p s).pc = s.pc
      ∧ (s.lock = none ∨ (moveBack p s).lock.map (·.creator) = s.lock.map (·.creator))
      ∧ ∀ q ≠ p, (moveBack p s).stale q = s.stale q := by
  unfold moveBack
  split
  · exact ⟨rfl, rfl, .inr rfl, fun _ _ => rfl⟩
  · rename_i hlock
    exact ⟨rfl, rfl, .inl hlock, fun q hq => Function.update_of_ne hq ..⟩
  · rename_i t _ hlock
    split
    · exact ⟨rfl, rfl, .inr rfl, fun _ _ => rfl⟩
    · rename_i t' hinto
      refine ⟨rfl, rfl, .inr ?_, fun q hq => Function.update_of_ne hq ..⟩
      rw [hlock]
      exact congrArg some (moveInto_creator hinto)

/-- A command reached `s'`, and it did nothing else than the effects above. -/
def Does (p : Pid) (s s' : State) : Prop :=
  ∃ pc, s'.alive = s.alive ∧ s'.pc = Function.update s.pc p pc ∧ Effect p s s' pc

/-- A command that only reads. -/
theorem does_goto (h : owns pc = true → owns (s.pc p) = true) :
    Does p s (s.goto p pc) := ⟨pc, rfl, rfl, .same rfl h⟩

theorem does_mkdir (h : owns pc = false) :
    Does p s (mkdir p pc s) := by
  unfold mkdir
  split
  · rename_i hlock
    exact ⟨.record, rfl, rfl, .made hlock _ rfl rfl⟩
  · exact does_goto (by simp [h])

theorem does_moveAside (hmoves : moves (s.pc p) = true) (h : owns pc = false) :
    Does p s (match moveAside p s with
      | none => s.goto p .outside
      | some s => s.goto p pc) := by
  cases haside : moveAside p s with
  | none => exact does_goto (fun h => by cases h)
  | some s' =>
    obtain ⟨halive, hpc, hlock, -⟩ := moveAside_eq haside
    show Does p s (s'.goto p pc)
    exact ⟨pc, halive, by rw [State.goto, hpc], .moved hmoves (by rw [haside]; rfl) hlock h⟩

/-- All that a command can do. -/
theorem exec_does (judges : Pid → Bool) (p : Pid) (s : State) : Does p s (exec judges p s) := by
  unfold exec
  cases h : s.pc p with
  | outside | held => exact does_goto (by simp [owns, h])
  | make | remake => exact does_mkdir rfl
  | record | unrecord =>
    refine ⟨_, rfl, rfl, .same ?_ (by simp [owns, h])⟩
    show (s.lock.map _).map _ = s.lock.map _
    rw [Option.map_map]
    rfl
  | read =>
    dsimp only
    split <;> exact does_goto (by simp [owns])
  | poll i =>
    dsimp only
    split
    · exact does_goto (by simp [owns])
    · refine does_goto ?_
      split <;> simp [owns]
  | moveAbandoned | moveDead => exact does_moveAside (by rw [h]; rfl) rfl
  | rereadAbandoned | judge | rereadDead | probe =>
    refine does_goto ?_
    split <;> simp [owns]
  | moveBack =>
    obtain ⟨halive, hpc, hlock, -⟩ := moveBack_eq p s
    show Does p s ((moveBack p s).goto p .outside)
    refine ⟨.outside, halive, by rw [State.goto, hpc], ?_⟩
    rcases hlock with hlock | hlock
    · exact .restored hlock rfl
    · exact .same hlock (by simp [owns])
  | discard | clear => exact ⟨_, rfl, rfl, .same rfl (by simp [owns])⟩
  | unmake => exact ⟨.outside, rfl, rfl, .removed (by rw [h]; rfl) rfl⟩

/-! ### Runs -/

/-- A command that does not steal keeps what the owners believe. -/
theorem Owned.exec (h : Owned s)
    (halive : s.alive p = true) (hsteal : ¬ Steals p s) : Owned (exec judges p s) := by
  obtain ⟨pc, halives, hpcs, heffect⟩ := exec_does judges p s
  intro q hq howns
  rw [halives] at hq
  rw [hpcs] at howns
  by_cases hqp : q = p
  · subst hqp
    rw [Function.update_self] at howns
    cases heffect with
    | same hlock hbefore =>
      obtain ⟨d, hd, hcreator⟩ := h q hq (hbefore howns)
      rw [hd, Option.map_some, Option.map_eq_some_iff] at hlock
      obtain ⟨d', hd', hsame⟩ := hlock
      exact ⟨d', hd', hsame.trans hcreator⟩
    | made hbefore d hlock hcreator => exact ⟨d, hlock, hcreator⟩
    | restored _ hno | moved _ _ _ hno | removed _ hno =>
      rw [hno] at howns
      cases howns
  · rw [Function.update_of_ne hqp] at howns
    obtain ⟨d, hd, hcreator⟩ := h q hq howns
    cases heffect with
    | same hlock hbefore =>
      rw [hd, Option.map_some, Option.map_eq_some_iff] at hlock
      obtain ⟨d', hd', hsame⟩ := hlock
      exact ⟨d', hd', hsame.trans hcreator⟩
    | made hbefore | restored hbefore =>
      rw [hd] at hbefore
      cases hbefore
    | moved hmoves hsucceeds =>
      subst hcreator
      exact absurd ⟨halive, hmoves, hsucceeds, d, hd, hq, howns⟩ hsteal
    | removed hbefore =>
      -- the process that removes the directory is its owner, and so is `q`
      obtain ⟨d', hd', rfl⟩ := h p halive hbefore
      rw [hd, Option.some_inj] at hd'
      exact absurd (hcreator.symm.trans (congrArg LockDir.creator hd')) hqp

theorem step_exec (judges : Pid → Bool) (h : s.alive p = true) :
    step judges (.exec p) s = Init.Lock.exec judges p s := if_pos h

theorem step_dead (judges : Pid → Bool) (h : ¬ s.alive p = true) :
    step judges (.exec p) s = s := if_neg h

theorem Owned.step (h : Owned s) (judges : Pid → Bool) {a : Action}
    (hsteal : ¬ stealing a s) : Owned (step judges a s) := by
  cases a with
  | exec p =>
    by_cases halive : s.alive p = true
    · rw [step_exec judges halive]
      exact h.exec halive hsteal
    · rw [step_dead judges halive]
      exact h
  | kill p =>
    intro q hq howns
    refine h q ?_ howns
    by_cases hqp : q = p
    · subst hqp
      simp [Init.Lock.step] at hq
    · simpa [Init.Lock.step, Function.update_of_ne hqp] using hq

theorem owned_start : Owned start := fun _ _ h => by cases h

/-- The process has not run any command. -/
def Fresh (r : Pid) (s : State) : Prop := s.alive r = true ∧ s.pc r = .outside

/-- A command uses its own name for a stale lock only. -/
theorem stale_exec (judges : Pid → Bool) (s : State) (hne : r ≠ p) :
    (exec judges p s).stale r = s.stale r := by
  unfold exec
  cases hpc : s.pc p with
  | moveAbandoned | moveDead =>
    cases haside : moveAside p s with
    | none => rfl
    | some s' => exact (moveAside_eq haside).2.2.2 r hne
  | moveBack => exact (moveBack_eq p s).2.2.2 r hne
  | discard | clear => exact Function.update_of_ne hne ..
  | make | remake | read | poll =>
    dsimp only [mkdir]
    split <;> rfl
  | _ => rfl

/-- The process that acts. -/
def actor : Action → Pid
  | .exec p | .kill p => p

/-- A process that does not occur in the history has left no trace. -/
theorem fresh_of_new (judges : Pid → Bool) {as : List Action} (hnew : ∀ a ∈ as, r ≠ actor a) :
    Fresh r (run (step judges) as start) ∧ (run (step judges) as start).stale r = none := by
  refine run_keeps (step judges) (fun s => Fresh r s ∧ s.stale r = none) (fun a ha s hs => ?_)
    ⟨⟨rfl, rfl⟩, rfl⟩
  cases a with
  | exec p =>
    have hne : r ≠ p := hnew _ ha
    by_cases halive : s.alive p = true
    · obtain ⟨pc, halives, hpcs, -⟩ := exec_does judges p s
      rw [step_exec judges halive]
      exact ⟨⟨by rw [halives, hs.1.1], by rw [hpcs, Function.update_of_ne hne, hs.1.2]⟩,
        (stale_exec judges s hne).trans hs.2⟩
    · rw [step_dead judges halive]
      exact hs
  | kill p => exact ⟨⟨by rw [← hs.1.1]; exact Function.update_of_ne (hnew _ ha) .., hs.1.2⟩, hs.2⟩

/-- There is always a process that has not run any command yet. -/
theorem exists_fresh (judges : Pid → Bool) (as : List Action) :
    ∃ r, Fresh r (run (step judges) as start) := by
  obtain ⟨r, hr⟩ := Infinite.exists_notMem_finset (as.map actor).toFinset
  rw [List.mem_toFinset, List.mem_map, not_exists] at hr
  exact ⟨r, (fresh_of_new judges fun a ha h => hr a ⟨ha, h.symm⟩).1⟩

/-- A command that does not move the lock aside is no theft. -/
theorem not_steals (h : moves (s.pc p) = false) : ¬ stealing (.exec p) s := by
  intro hsteal
  rw [hsteal.moves] at h
  cases h

/-- A fresh process that finds no lock has one after three commands. -/
theorem take_free (judges : Pid → Bool) (hr : Fresh r s) (hlock : s.lock = none) :
    Avoids (step judges) stealing [.exec r, .exec r, .exec r] s
      ∧ (run (step judges) [.exec r, .exec r, .exec r] s).alive = s.alive
      ∧ (run (step judges) [.exec r, .exec r, .exec r] s).pc = Function.update s.pc r .held := by
  obtain ⟨halive, hpc⟩ := hr
  have h1 : step judges (.exec r) s = s.goto r .make := by
    rw [step_exec judges halive, Init.Lock.exec, hpc]
  have h2 : step judges (.exec r) (s.goto r .make)
      = ((s.goto r .make).setLock (some ⟨r, none, []⟩)).goto r .record := by
    rw [step_exec judges (show (s.goto r .make).alive r = true from halive), Init.Lock.exec]
    simp [State.goto, mkdir, hlock]
  have h3 : step judges (.exec r) (((s.goto r .make).setLock (some ⟨r, none, []⟩)).goto r .record)
      = ((s.goto r .held).setLock (some ⟨r, some r, []⟩)) := by
    rw [step_exec judges (by exact halive), Init.Lock.exec]
    simp [State.goto, State.setLock]
  simp only [Avoids, run, h1, h2, h3, and_true]
  refine ⟨⟨not_steals (by rw [hpc]; rfl), not_steals ?_, not_steals ?_⟩, rfl, rfl⟩ <;>
    simp [State.goto, moves]

theorem exec_moves (hmoves : moves (s.pc p) = true)
    (h : moveAside p s = some s') : ∃ pc, exec judges p s = s'.goto p pc := by
  unfold exec
  cases hpc : s.pc p with
  | moveAbandoned => exact ⟨.rereadAbandoned, by simp only [h]⟩
  | moveDead q => exact ⟨.rereadDead q, by simp only [h]⟩
  | _ =>
    rw [hpc] at hmoves
    cases hmoves

/-- An owner that is still to record its pid goes on to hold the lock, whoever else does. -/
theorem two_holders_of_owner {q : Pid} (hqr : q ≠ r) {τ : List Action}
    (hτ : Avoids (step judges) stealing τ s) (hr : Holds (run (step judges) τ s) r)
    (halive : (run (step judges) τ s).alive q = true)
    (howns : owns ((run (step judges) τ s).pc q) = true) :
    ∃ τ, Avoids (step judges) stealing τ s ∧ ¬ Exclusive (run (step judges) τ s) := by
  by_cases hholds : ((run (step judges) τ s).pc q).holds = true
  · exact ⟨τ, hτ, fun h => hqr (h q r ⟨halive, hholds⟩ hr)⟩
  · have hpc : (run (step judges) τ s).pc q = .record := by
      cases hpc : (run (step judges) τ s).pc q <;> simp_all [owns, Pc.holds]
    refine ⟨τ ++ [.exec q], avoids_append _ _ hτ ⟨not_steals (by rw [hpc]; rfl), trivial⟩,
      fun h => hqr (h q r ?_ ?_)⟩
    all_goals
      rw [run_append, run, run, step_exec judges halive, Init.Lock.exec, hpc]
    · exact ⟨halive, by simp [State.goto, Pc.holds]⟩
    · refine ⟨hr.1, ?_⟩
      have := hr.2
      simpa [State.goto, State.setLock, Function.update_of_ne hqr.symm] using this

/-- After a theft the owner and a fresh process both get to hold the lock. -/
theorem two_holders_of_steal (h : Steals p s) (hr : Fresh r s) :
    ∃ τ, Avoids (step judges) stealing τ (step judges (.exec p) s)
      ∧ ¬ Exclusive (run (step judges) τ (step judges (.exec p) s)) := by
  obtain ⟨halive, hmoves, hsucceeds, d, hd, hq, howns⟩ := h
  obtain ⟨s', haside⟩ := Option.isSome_iff_exists.1 hsucceeds
  obtain ⟨pc, hexec⟩ := exec_moves hmoves haside
  obtain ⟨halives, hpcs, hlock, -⟩ := moveAside_eq haside
  rw [step_exec judges halive, hexec]
  generalize d.creator = q at hq howns
  have hqp : q ≠ p := by
    rintro rfl
    rw [owns_of_moves hmoves] at howns
    cases howns
  have hrp : r ≠ p := by
    rintro rfl
    rw [hr.2] at hmoves
    cases hmoves
  have hqr : q ≠ r := by
    rintro rfl
    rw [hr.2] at howns
    cases howns
  have hpc1 : ∀ x, x ≠ p → (s'.goto p pc).pc x = s.pc x := by
    intro x hx
    rw [← hpcs]
    exact Function.update_of_ne hx _ _
  have halive1 : (s'.goto p pc).alive = s.alive := halives
  have hfresh : Fresh r (s'.goto p pc) := ⟨by rw [halive1, hr.1], by rw [hpc1 r hrp, hr.2]⟩
  obtain ⟨havoids, halive3, hpc3⟩ := take_free judges hfresh hlock
  refine two_holders_of_owner hqr havoids ?_ ?_ ?_
  · exact ⟨by rw [halive3, halive1, hr.1], by rw [hpc3, Function.update_self]; rfl⟩
  · rw [halive3, halive1, hq]
  · rw [hpc3, Function.update_of_ne hqr, hpc1 q hqp, howns]

/-- The lock excludes as long as no command takes the directory of a live owner away, and only as
long: after such a command some continuation without another one ends with two holders. -/
theorem exclusive_iff_no_steal (judges : Pid → Bool) {as : List Action}
    (has : Avoids (step judges) stealing as start) :
    Exclusive (run (step judges) as start)
      ∧ ∀ p, Steals p (run (step judges) as start)
        ↔ ∃ τ, Avoids (step judges) stealing τ (step judges (.exec p) (run (step judges) as start))
          ∧ ¬ Exclusive (run (step judges) τ
            (step judges (.exec p) (run (step judges) as start))) := by
  have howned := run_invariant _ _ (fun a s h => h.step judges) has owned_start
  obtain ⟨r, hfresh⟩ := exists_fresh judges as
  refine ⟨howned.exclusive, fun p => ⟨fun hsteal => ?_, fun ⟨τ, hτ, hnot⟩ => ?_⟩⟩
  · exact two_holders_of_steal hsteal hfresh
  · by_contra hsteal
    have hnext := howned.step judges (a := .exec p) hsteal
    exact hnot (run_invariant _ _ (fun a s h => h.step judges) hτ hnext).exclusive

/-- Process 1 makes the directory and is paused there. Process 2 finds it, reads no pid five more
times, and comes to its `mv`. -/
def pausedOwner : List Action :=
  List.replicate 2 (.exec 1) ++ List.replicate 8 (.exec 2)

/-- Process 2 takes the lock over and holds it. Then process 1 records its pid, in the directory of
process 2, and holds it too. -/
theorem two_holders :
    let s := run (step fun _ => true) (pausedOwner ++ List.replicate 5 (.exec 2) ++ [.exec 1]) start
    Holds s 1 ∧ Holds s 2 ∧ ¬ Exclusive s := by
  intro s
  have h1 : Holds s 1 := ⟨rfl, rfl⟩
  have h2 : Holds s 2 := ⟨rfl, rfl⟩
  exact ⟨h1, h2, fun h => absurd (h 1 2 h1 h2) (by decide)⟩

theorem exclusive_iff_no_steal_pausedOwner :
    Exclusive (run (step fun _ => true) pausedOwner start)
      ∧ ∃ τ, ¬ Exclusive (run (step fun _ => true) τ
        (step (fun _ => true) (.exec 2) (run (step fun _ => true) pausedOwner start))) := by
  have has : Avoids (step fun _ => true) stealing pausedOwner start :=
    ⟨not_steals rfl, not_steals rfl, not_steals rfl, not_steals rfl, not_steals rfl, not_steals rfl,
      not_steals rfl, not_steals rfl, not_steals rfl, not_steals rfl, trivial⟩
  obtain ⟨hexclusive, hiff⟩ := exclusive_iff_no_steal (fun _ => true) has
  obtain ⟨τ, -, hτ⟩ := (hiff 2).1 ⟨rfl, rfl, rfl, ⟨1, none, []⟩, rfl, rfl, rfl⟩
  exact ⟨hexclusive, τ, hτ⟩

/-! ### An acquire that runs alone -/

/-- The rest of the acquire of `r` returns 0 if no other process runs. -/
inductive Acquires (judges : Pid → Bool) (r : Pid) : State → Prop
  | returned {s : State} (h : s.pc r = .held) : Acquires judges r s
  | next {s : State} (h : s.pc r ≠ .outside) (hnext : Acquires judges r (exec judges r s)) :
      Acquires judges r s

theorem acquires_held (h : s.pc r = .held) : Acquires judges r s ↔ True :=
  iff_true_intro (.returned h)

theorem acquires_outside (hpc : s.pc r = .outside) : Acquires judges r s ↔ False := by
  refine iff_false_intro fun h => ?_
  cases h with
  | returned h => cases hpc.symm.trans h
  | next h => exact h hpc

theorem acquires_exec (houtside : s.pc r ≠ .outside) (hheld : s.pc r ≠ .held) :
    Acquires judges r s ↔ Acquires judges r (exec judges r s) := by
  refine ⟨fun h => ?_, .next houtside⟩
  cases h with
  | returned h => exact absurd h hheld
  | next _ h => exact h

/-- Process 1 gets the lock and is killed. Process 2 finds it dead. Process 3 does too, and takes the
lock over. Process 2 moves the new lock aside, process 3 releases it and finds nothing to remove, and
process 2 puts it back. -/
def putBack : List Action :=
  List.replicate 3 (.exec 1) ++ .kill 1 :: List.replicate 4 (.exec 2) ++ List.replicate 9 (.exec 3)
    ++ .exec 2 :: List.replicate 3 (.exec 3) ++ List.replicate 3 (.exec 2)

end ZfsBoot.Proofs.Init.Lock
