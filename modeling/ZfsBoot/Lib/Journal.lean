import ZfsBoot.Lib.Halting

/-!
# `ZfsBoot.Lib.Journal`: operations that may fail, and what a crash leaves

A tool that writes to a disk asks for one operation after the other. Each may fail, and a power
cut may come between any two. `Journal` is the state of such a run: what the medium holds now,
and every operation that was asked for, with how it went and what the medium held after it. The
`after`s of the events are the states a crash can leave.

How operations go is a function from their number to a `Fate`. A statement for every such function
is one for every set of failing operations. A `Fate` is `late` when the operation is carried out
and reported as failed all the same: a rename that succeeds before the sync of its directory fails.

`triple_perform` is the rule for one operation. The rest is the logic of `Halting`.
-/

set_option autoImplicit false

namespace ZfsBoot.Lib

/-- How an operation goes. -/
inductive Fate where
  /-- It is carried out. -/
  | done
  /-- It fails, and nothing changes. -/
  | failed
  /-- It is carried out, and reported as failed. -/
  | late
  deriving DecidableEq, Repr

/-- The operations `ω` act on a medium `δ`. -/
class Acts (ω : Type) (δ : outParam Type) where
  act : ω → δ → δ

/-- What the medium holds after an operation. -/
def Fate.after {ω δ : Type} [Acts ω δ] : Fate → ω → δ → δ
  | .failed, _, d => d
  | _, op, d => Acts.act op d

@[simp] theorem after_done {ω δ : Type} [Acts ω δ] (op : ω) (d : δ) :
    Fate.done.after op d = Acts.act op d := rfl

@[simp] theorem after_failed {ω δ : Type} [Acts ω δ] (op : ω) (d : δ) :
    Fate.failed.after op d = d := rfl

/-- An operation that was asked for. -/
structure Event (ω δ : Type) where
  op : ω
  fate : Fate
  after : δ

/-- A run so far. The newest event comes first. -/
structure Journal (ω δ : Type) where
  fate : Nat → Fate
  now : δ
  events : List (Event ω δ)

namespace Journal

variable {ω δ : Type} [Acts ω δ] (s : Journal ω δ)

/-- A run that starts. -/
def start (fate : Nat → Fate) (d : δ) : Journal ω δ := ⟨fate, d, []⟩

/-- The run after `op` went as `fate` says. -/
def record (s : Journal ω δ) (op : ω) (fate : Fate) : Journal ω δ :=
  { s with now := fate.after op s.now, events := ⟨op, fate, fate.after op s.now⟩ :: s.events }

@[simp] theorem record_fate (op : ω) (fate : Fate) : (s.record op fate).fate = s.fate := rfl

@[simp] theorem record_now (op : ω) (fate : Fate) :
    (s.record op fate).now = fate.after op s.now := rfl

@[simp] theorem record_events (op : ω) (fate : Fate) :
    (s.record op fate).events = ⟨op, fate, fate.after op s.now⟩ :: s.events := rfl

end Journal

namespace Halting

variable {ω δ ε α : Type}

/-- What the medium holds at the start, by a name. -/
theorem triple_now {x : Halting ε (Journal ω δ) α} {P : Journal ω δ → Prop}
    {Q : α → Journal ω δ → Prop} {E : ε → Journal ω δ → Prop}
    (h : ∀ d, Triple (fun s => s.now = d ∧ P s) x Q E) : Triple P x Q E :=
  ⟨fun s hs => (h s.now).ends s ⟨rfl, hs⟩⟩

variable [Acts ω δ]

/-- Ask for an operation. The answer is whether it reported success. -/
def perform (op : ω) : Halting ε (Journal ω δ) Bool := fun s =>
  (.ok (s.fate s.events.length = .done), s.record op (s.fate s.events.length))

@[simp] theorem perform_apply (op : ω) (s : Journal ω δ) :
    (perform op : Halting ε _ _) s
      = (.ok (s.fate s.events.length = .done), s.record op (s.fate s.events.length)) := rfl

/-- Ask for an operation, and stop if it fails. -/
def demand (e : ε) (op : ω) : Halting ε (Journal ω δ) Unit := do
  if ← perform op then pure () else stop e

/-- What the medium holds, through an operation that looks at it. -/
def observe (e : ε) (op : ω) (f : δ → α) : Halting ε (Journal ω δ) α := do
  demand e op
  let s ← look
  return f s.now

variable {P : Journal ω δ → Prop} {E : ε → Journal ω δ → Prop} {op : ω}

/-- One operation, however it goes. -/
theorem triple_perform {Q : Bool → Journal ω δ → Prop}
    (h : ∀ s, P s → ∀ fate : Fate, Q (fate = .done) (s.record op fate)) :
    Triple P (perform op : Halting ε _ _) Q E :=
  ⟨fun s hs => h s hs _⟩

theorem triple_demand {e : ε} {Q : Unit → Journal ω δ → Prop}
    (hdone : ∀ s, P s → Q () (s.record op .done))
    (hfail : ∀ s, P s → ∀ fate : Fate, fate ≠ .done → E e (s.record op fate)) :
    Triple P (demand e op) Q E := by
  refine triple_bind (fun ok s' => ∃ s, P s ∧ ∃ fate : Fate, ok = decide (fate = .done)
    ∧ s' = s.record op fate) (triple_perform fun s hs fate => ⟨s, hs, fate, rfl, rfl⟩) fun ok => ?_
  refine triple_ite (fun hok => triple_pure ?_) fun hok => triple_stop ?_
  · rintro _ ⟨s, hs, fate, hfate, rfl⟩
    rw [hok, eq_comm, decide_eq_true_eq] at hfate
    subst hfate
    exact hdone s hs
  · rintro _ ⟨s, hs, fate, hfate, rfl⟩
    refine hfail s hs fate fun h => hok ?_
    rw [hfate, h]
    rfl

theorem demand_eq_ok {e : ε} {s s' : Journal ω δ}
    (hrun : (demand e op : Halting ε (Journal ω δ) Unit) s = (.ok (), s')) : s' = s.record op .done := by
  rw [demand, bind_apply, perform_apply] at hrun
  by_cases hfate : s.fate s.events.length = .done
  · simp only [hfate, decide_true] at hrun
    cases hrun
    rfl
  · simp only [hfate, decide_false] at hrun
    cases hrun

theorem triple_observe {e : ε} {f : δ → α} {Q : α → Journal ω δ → Prop}
    (hdone : ∀ s, P s → Q (f (Fate.done.after op s.now)) (s.record op .done))
    (hfail : ∀ s, P s → ∀ fate : Fate, fate ≠ .done → E e (s.record op fate)) :
    Triple P (observe e op f) Q E := by
  refine triple_bind (fun _ s' => Q (f s'.now) s') (triple_demand hdone hfail) fun _ => ?_
  exact triple_look fun now hnow => triple_pure fun s hs => hs ▸ hnow

end Halting

/-! ### Runs without failures -/

namespace Halting

variable {ω δ ε ε' α β : Type}

/-- Every operation is carried out, and the medium holds `d` now. -/
def Smooth (d : δ) (s : Journal ω δ) : Prop := (∀ n, s.fate n = .done) ∧ s.now = d

/-- Without failures, `x` takes the medium from `d` to `d'` and ends as `r`. -/
structure Runs (d : δ) (x : Halting ε (Journal ω δ) α) (r : Except ε α) (d' : δ) : Prop where
  ends : ∀ s, Smooth d s → ∃ s', x s = (r, s') ∧ Smooth d' s'

variable {d d' d'' : δ} {x : Halting ε (Journal ω δ) α}

theorem runs_pure (a : α) : Runs d (pure a : Halting ε (Journal ω δ) α) (.ok a) d :=
  ⟨fun s hs => ⟨s, rfl, hs⟩⟩

theorem runs_ofExcept (r : Except ε α) : Runs d (ofExcept r : Halting ε (Journal ω δ) α) r d := by
  cases r with
  | error e => exact ⟨fun s hs => ⟨s, rfl, hs⟩⟩
  | ok a => exact runs_pure a

theorem runs_bind {f : α → Halting ε (Journal ω δ) β} {a : α} {r : Except ε β}
    (hx : Runs d x (.ok a) d') (hf : Runs d' (f a) r d'') : Runs d (x >>= f) r d'' := by
  refine ⟨fun s hs => ?_⟩
  obtain ⟨s', hrun, hs'⟩ := hx.ends s hs
  rw [bind_apply, hrun]
  exact hf.ends s' hs'

theorem runs_bind_error {f : α → Halting ε (Journal ω δ) β} {e : ε} (hx : Runs d x (.error e) d') :
    Runs d (x >>= f) (.error e) d' := by
  refine ⟨fun s hs => ?_⟩
  obtain ⟨s', hrun, hs'⟩ := hx.ends s hs
  rw [bind_apply, hrun]
  exact ⟨s', rfl, hs'⟩

theorem runs_outcome {r : Except ε α} (hx : Runs d x r d') :
    Runs d (x.outcome : Halting ε' (Journal ω δ) _) (.ok r) d' := by
  refine ⟨fun s hs => ?_⟩
  obtain ⟨s', hrun, hs'⟩ := hx.ends s hs
  rw [outcome_apply, hrun]
  exact ⟨s', rfl, hs'⟩

theorem runs_require {e : ε} {c : Prop} [Decidable c] (h : c) :
    Runs d (require e c : Halting ε (Journal ω δ) Unit) (.ok ()) d := by
  rw [require, if_pos h]
  exact runs_pure ()

theorem runs_rescue {handler : ε → Halting ε' (Journal ω δ) α} {a : α}
    (hx : Runs d x (.ok a) d') : Runs d (x.rescue handler) (.ok a) d' := by
  refine ⟨fun s hs => ?_⟩
  obtain ⟨s', hrun, hs'⟩ := hx.ends s hs
  rw [rescue_apply, hrun]
  exact ⟨s', rfl, hs'⟩

theorem runs_relabel {f : ε → ε'} {a : α} (hx : Runs d x (.ok a) d') :
    Runs d (x.relabel f) (.ok a) d' :=
  runs_rescue hx

variable [Acts ω δ]

theorem runs_demand (e : ε) (op : ω) : Runs d (demand e op) (.ok ()) (Acts.act op d) := by
  refine ⟨fun s hs => ⟨s.record op .done, ?_, hs.1, by rw [← hs.2]; rfl⟩⟩
  rw [demand, bind_apply, perform_apply, hs.1]
  rfl

/-- An operation that only looks shows what the medium holds. -/
theorem runs_observe (e : ε) (op : ω) (f : δ → α) (hop : ∀ d : δ, Acts.act op d = d) :
    Runs d (observe e op f) (.ok (f d)) d := by
  have hdemand : Runs d (demand e op) (.ok ()) (Acts.act op d) := runs_demand e op
  rw [hop] at hdemand
  refine runs_bind hdemand ⟨fun s hs => ⟨s, ?_, hs⟩⟩
  rw [← hs.2]
  rfl

end Halting

end ZfsBoot.Lib
