import Mathlib.Tactic.Common

/-!
# `ZfsBoot.Lib.Schedule`: runs of processes that interleave

A system is a function from an action and a state to the next state. A schedule is a list of
actions, and `run` is the state it leads to. Which process moves when, which one is paused and
which one is killed is all in the schedule.

A property that every action keeps holds along every run. Often it is kept by most actions only:
`Avoids bad` says that no action of a schedule is a bad one in the state in which it happens, and
`run_invariant` is the rule for such schedules.
-/

set_option autoImplicit false

namespace ZfsBoot.Lib.Schedule

variable {σ α : Type} (step : α → σ → σ) (bad : α → σ → Prop)

/-- The state after a schedule. -/
def run : List α → σ → σ
  | [], s => s
  | a :: as, s => run as (step a s)

/-- No action of the schedule is a bad one where it happens. -/
def Avoids : List α → σ → Prop
  | [], _ => True
  | a :: as, s => ¬ bad a s ∧ Avoids as (step a s)

theorem run_append (as bs : List α) (s : σ) :
    run step (as ++ bs) s = run step bs (run step as s) := by
  induction as generalizing s with
  | nil => rfl
  | cons a as ih => exact ih (step a s)

theorem avoids_append {as bs : List α} {s : σ} (has : Avoids step bad as s)
    (hbs : Avoids step bad bs (run step as s)) : Avoids step bad (as ++ bs) s := by
  induction as generalizing s with
  | nil => exact hbs
  | cons a as ih => exact ⟨has.1, ih has.2 hbs⟩

/-- What every action but the bad ones keeps holds at the end of a schedule that avoids them. -/
theorem run_invariant {Inv : σ → Prop} (hstep : ∀ a s, Inv s → ¬ bad a s → Inv (step a s))
    {as : List α} {s : σ} (h : Avoids step bad as s) (hs : Inv s) : Inv (run step as s) := by
  induction as generalizing s with
  | nil => exact hs
  | cons a as ih => exact ih h.2 (hstep a s hs h.1)

/-- What every action of the schedule keeps holds at its end. -/
theorem run_keeps (Inv : σ → Prop) {as : List α} (hstep : ∀ a ∈ as, ∀ s, Inv s → Inv (step a s))
    {s : σ} (hs : Inv s) : Inv (run step as s) := by
  induction as generalizing s with
  | nil => exact hs
  | cons a as ih =>
    exact ih (fun b hb => hstep b (List.mem_cons_of_mem _ hb)) (hstep a List.mem_cons_self s hs)

end ZfsBoot.Lib.Schedule
