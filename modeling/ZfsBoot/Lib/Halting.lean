import Mathlib.Tactic.Common

/-!
# `ZfsBoot.Lib.Halting`: computations that may stop for good

A loader that prints a message and halts, a tool that gives up with an error: both work on a
state and either go on with a value or stop with a reason. The state they leave matters either
way. `Halting` is that monad, and `Triple` its partial-correctness statement with two
postconditions, one for each way to end.

The rules take the program apart at its binds. `triple_bind` is the one that carries an
argument: what holds between the two halves is its middle assertion.
-/

set_option autoImplicit false

namespace ZfsBoot.Lib

variable {ε' : Type} {c : Prop}

/-- A computation on a state `σ` that ends with a value, or stops with a reason. -/
def Halting (ε σ α : Type) : Type := σ → Except ε α × σ

namespace Halting

variable {ε σ α β : Type} {E' : ε' → σ → Prop} {x : Halting ε σ α} {Q : α → σ → Prop}

instance : Monad (Halting ε σ) where
  pure a := fun s => (.ok a, s)
  bind x f := fun s =>
    match x s with
    | (.ok a, s) => f a s
    | (.error e, s) => (.error e, s)

/-- Stop for good. -/
def stop (e : ε) : Halting ε σ α := fun s => (.error e, s)

/-- A step that always goes on. -/
def step (f : σ → α × σ) : Halting ε σ α := fun s => (.ok (f s).1, (f s).2)

/-- A step that only changes the state. -/
def modify (f : σ → σ) : Halting ε σ Unit := fun s => (.ok (), f s)

/-- The state, as it is now. -/
def look : Halting ε σ σ := fun s => (.ok s, s)

/-- Go on with what the step found, or stop if it found nothing. -/
def attempt (e : ε) (f : σ → Option α × σ) : Halting ε σ α := fun s =>
  match f s with
  | (some a, s) => (.ok a, s)
  | (none, s) => (.error e, s)

/-- Deal with the reason of a stop; the handler may go on, or stop with a reason of its own. -/
def rescue {ε' : Type} (x : Halting ε σ α) (handler : ε → Halting ε' σ α) : Halting ε' σ α :=
  fun s =>
    match x s with
    | (.ok a, s) => (.ok a, s)
    | (.error e, s) => handler e s

/-- The same computation, with other words for its reasons. -/
def relabel {ε' : Type} (f : ε → ε') (x : Halting ε σ α) : Halting ε' σ α :=
  x.rescue fun e => stop (f e)

/-- How a computation ends, as a value: whoever runs it goes on in either case. -/
def outcome {ε' : Type} (x : Halting ε σ α) : Halting ε' σ (Except ε α) := fun s =>
  (.ok (x s).1, (x s).2)

/-- Go's `defer`: `after` changes the state once `x` has ended, in either way. -/
def ensure (x : Halting ε σ α) (after : σ → σ) : Halting ε σ α := fun s => ((x s).1, after (x s).2)

/-- Go on with a value, or stop with the reason why there is none. -/
def ofExcept : Except ε α → Halting ε σ α
  | .ok a => pure a
  | .error e => stop e

/-- Stop unless the condition holds. -/
def require (e : ε) (c : Prop) [Decidable c] : Halting ε σ Unit := if c then pure () else stop e

/-- A step that is taken only under a condition. -/
def onlyIf (c : Prop) [Decidable c] (x : Halting ε σ Unit) : Halting ε σ Unit :=
  if c then x else pure ()

/-! ### Running

What a computation does from a given state. `simp` follows a run with these. -/

@[simp] theorem pure_apply (a : α) (s : σ) : (pure a : Halting ε σ α) s = (.ok a, s) := rfl

@[simp] theorem bind_apply (x : Halting ε σ α) (f : α → Halting ε σ β) (s : σ) :
    (x >>= f) s = match x s with
      | (.ok a, s) => f a s
      | (.error e, s) => (.error e, s) := rfl

@[simp] theorem stop_apply (e : ε) (s : σ) : (stop e : Halting ε σ α) s = (.error e, s) := rfl

@[simp] theorem look_apply (s : σ) : (look : Halting ε σ σ) s = (.ok s, s) := rfl

@[simp] theorem rescue_apply {ε' : Type} (x : Halting ε σ α) (handler : ε → Halting ε' σ α) (s : σ) :
    x.rescue handler s = match x s with
      | (.ok a, s) => (.ok a, s)
      | (.error e, s) => handler e s := rfl

@[simp] theorem outcome_apply {ε' : Type} (x : Halting ε σ α) (s : σ) :
    (x.outcome : Halting ε' σ _) s = (.ok (x s).1, (x s).2) := rfl

@[simp] theorem ofExcept_ok (a : α) : (ofExcept (.ok a) : Halting ε σ α) = pure a := rfl

/-- A run of two halves that ends with a value goes through a state between them. -/
theorem bind_eq_ok {f : α → Halting ε σ β} {s s' : σ} {b : β} :
    (x >>= f) s = (.ok b, s') ↔ ∃ a t, x s = (.ok a, t) ∧ f a t = (.ok b, s') := by
  rw [bind_apply]
  rcases x s with ⟨e | a, t⟩
  · constructor
    · intro h
      cases h
    · rintro ⟨a, t', h, -⟩
      cases h
  · constructor
    · intro h
      exact ⟨a, t, rfl, h⟩
    · rintro ⟨a', t', h, hf⟩
      cases h
      exact hf

theorem require_eq_ok {e : ε} [Decidable c] {s s' : σ} :
    (require e c : Halting ε σ Unit) s = (.ok (), s') ↔ c ∧ s = s' := by
  unfold require
  by_cases hc : c
  · simp [hc]
  · simp [hc]

theorem relabel_eq_ok {f : ε → ε'} {a : α} {s s' : σ} (h : x.relabel f s = (.ok a, s')) :
    x s = (.ok a, s') := by
  rw [relabel, rescue_apply] at h
  revert h
  rcases x s with ⟨e | b, t⟩
  · rintro ⟨⟩
  · rintro ⟨⟩
    rfl

theorem attempt_eq_ok {e : ε} {f : σ → Option α × σ} {s s' : σ} {a : α} :
    attempt e f s = (.ok a, s') ↔ f s = (some a, s') := by
  unfold attempt
  rcases f s with ⟨_ | a', t⟩
  · simp
  · simp

/-! ### Triples -/

/-- How a computation ended: with a value and `Q`, or stopped and with `E`. -/
def Ends (Q : α → σ → Prop) (E : ε → σ → Prop) : Except ε α × σ → Prop
  | (.ok a, s) => Q a s
  | (.error e, s) => E e s

/-- From a state with `P`, `x` ends with `Q` or stops with `E`. -/
structure Triple (P : σ → Prop) (x : Halting ε σ α) (Q : α → σ → Prop) (E : ε → σ → Prop) :
    Prop where
  ends : ∀ s, P s → Ends Q E (x s)

variable {P : σ → Prop} {E : ε → σ → Prop}

/-- Nothing is said. -/
theorem triple_true (x : Halting ε σ α) : Triple P x (fun _ _ => True) fun _ _ => True := by
  refine ⟨fun s _ => ?_⟩
  rcases x s with ⟨_ | _, _⟩ <;> trivial

theorem triple_pure {a : α} (h : ∀ s, P s → Q a s) : Triple P (pure a : Halting ε σ α) Q E :=
  ⟨h⟩

theorem triple_stop {e : ε} (h : ∀ s, P s → E e s) : Triple P (stop e : Halting ε σ α) Q E :=
  ⟨h⟩

theorem triple_step {f : σ → α × σ} (h : ∀ s, P s → Q (f s).1 (f s).2) :
    Triple P (step f : Halting ε σ α) Q E :=
  ⟨h⟩

theorem triple_modify {f : σ → σ} {Q : Unit → σ → Prop} (h : ∀ s, P s → Q () (f s)) :
    Triple P (modify f : Halting ε σ Unit) Q E :=
  ⟨h⟩

theorem triple_attempt {e : ε} {f : σ → Option α × σ}
    (hsome : ∀ s, P s → ∀ a, (f s).1 = some a → Q a (f s).2)
    (hnone : ∀ s, P s → (f s).1 = none → E e (f s).2) : Triple P (attempt e f) Q E := by
  refine ⟨fun s hs => ?_⟩
  have hsome := hsome s hs
  have hnone := hnone s hs
  unfold attempt
  revert hsome hnone
  rcases f s with ⟨_ | a, s'⟩
  · exact fun _ h => h rfl
  · exact fun h _ => h a rfl

theorem triple_ofExcept {x : Except ε α} (hok : ∀ a, x = .ok a → ∀ s, P s → Q a s)
    (herror : ∀ e, x = .error e → ∀ s, P s → E e s) :
    Triple P (ofExcept x : Halting ε σ α) Q E := by
  refine ⟨fun s hs => ?_⟩
  cases x with
  | error e => exact herror e rfl s hs
  | ok a => exact hok a rfl s hs

theorem triple_require {e : ε} [Decidable c] (h : ∀ s, P s → ¬ c → E e s) :
    Triple P (require e c : Halting ε σ Unit) (fun _ s => P s ∧ c) E := by
  refine ⟨fun s hs => ?_⟩
  unfold require
  by_cases hc : c
  · rw [if_pos hc]
    exact ⟨hs, hc⟩
  · rw [if_neg hc]
    exact h s hs hc

/-- Two halves, with what holds between them. -/
theorem triple_bind {f : α → Halting ε σ β} {Q : β → σ → Prop} (R : α → σ → Prop)
    (hx : Triple P x R E) (hf : ∀ a, Triple (R a) (f a) Q E) : Triple P (x >>= f) Q E := by
  refine ⟨fun s hs => ?_⟩
  have h := hx.ends s hs
  show Ends Q E (match x s with
    | (.ok a, s) => f a s
    | (.error e, s) => (.error e, s))
  revert h
  rcases x s with ⟨_ | a, s'⟩
  · exact id
  · exact (hf a).ends s'

/-- A stop that is dealt with: the handler starts from what holds at the stop. -/
theorem triple_rescue {handler : ε → Halting ε' σ α} (R : ε → σ → Prop) (hx : Triple P x Q R)
    (hh : ∀ e, Triple (R e) (handler e) Q E') : Triple P (x.rescue handler) Q E' := by
  refine ⟨fun s hs => ?_⟩
  have h := hx.ends s hs
  unfold rescue
  revert h
  rcases x s with ⟨e | a, s'⟩
  · exact (hh e).ends s'
  · exact id

theorem triple_relabel {f : ε → ε'} (hx : Triple P x Q fun e => E' (f e)) :
    Triple P (x.relabel f) Q E' :=
  triple_rescue _ hx fun _ => triple_stop fun _ h => h

/-- Both ways to end are values of the outcome. -/
theorem triple_outcome {Q : Except ε α → σ → Prop}
    (hx : Triple P x (fun a => Q (.ok a)) fun e => Q (.error e)) :
    Triple P (x.outcome : Halting ε' σ _) Q E' := by
  refine ⟨fun s hs => ?_⟩
  have h := hx.ends s hs
  rw [outcome_apply]
  revert h
  rcases x s with ⟨e | a, s'⟩ <;> exact id

theorem triple_ensure {after : σ → σ}
    (hx : Triple P x (fun a s => Q a (after s)) fun e s => E e (after s)) :
    Triple P (x.ensure after) Q E := by
  refine ⟨fun s hs => ?_⟩
  have h := hx.ends s hs
  unfold ensure
  revert h
  rcases x s with ⟨e | a, s'⟩ <;> exact id

/-- Looking at the state: the rest starts from it. -/
theorem triple_look {f : σ → Halting ε σ α}
    (h : ∀ now, P now → Triple (fun s => s = now) (f now) Q E) : Triple P (look >>= f) Q E :=
  ⟨fun s hs => (h s hs).ends s rfl⟩

/-- A stronger precondition. -/
theorem Triple.pre {P' : σ → Prop} (h : Triple P x Q E) (hP : ∀ s, P' s → P s) : Triple P' x Q E :=
  ⟨fun s hs => h.ends s (hP s hs)⟩

/-- A weaker postcondition. -/
theorem Triple.post {Q Q' : α → σ → Prop} (h : Triple P x Q E) (hQ : ∀ a s, Q a s → Q' a s) :
    Triple P x Q' E := by
  refine ⟨fun s hs => ?_⟩
  have := h.ends s hs
  revert this
  rcases x s with ⟨_ | a, s'⟩
  · exact id
  · exact hQ a s'

/-- A weaker condition at a stop. -/
theorem Triple.post_error {E' : ε → σ → Prop} (h : Triple P x Q E) (hE : ∀ e s, E e s → E' e s) :
    Triple P x Q E' := by
  refine ⟨fun s hs => ?_⟩
  have := h.ends s hs
  revert this
  rcases x s with ⟨e | _, s'⟩
  · exact hE e s'
  · exact id

/-- A computation that never stops. -/
theorem Triple.of_total {P' : σ → Prop} {Q Q' : α → σ → Prop} {E' : ε → σ → Prop}
    (h : Triple P x Q E') (htotal : Triple P' x Q' fun _ _ => False) (hP : ∀ s, P s → P' s) :
    Triple P x Q E := by
  refine ⟨fun s hs => ?_⟩
  have hends := h.ends s hs
  have hok := htotal.ends s (hP s hs)
  revert hends hok
  rcases x s with ⟨_ | a, s'⟩
  · exact fun _ => False.elim
  · exact fun h _ => h

/-- A fact of the precondition that is not about the state. -/
theorem triple_of_and {a : Prop} (h : a → Triple P x Q E) : Triple (fun s => P s ∧ a) x Q E :=
  ⟨fun s hs => (h hs.2).ends s hs.1⟩

/-- A precondition with a witness. -/
theorem triple_exists {ι : Sort*} {p : ι → σ → Prop} (h : ∀ i, Triple (p i) x Q E) :
    Triple (fun s => ∃ i, p i s) x Q E :=
  ⟨fun s hs => hs.elim fun i hi => (h i).ends s hi⟩

/-- A branch on a test of the program. -/
theorem triple_ite [Decidable c] {x y : Halting ε σ α} (hx : c → Triple P x Q E)
    (hy : ¬ c → Triple P y Q E) : Triple P (if c then x else y) Q E := by
  split_ifs with h
  · exact hx h
  · exact hy h

/-! ### Runs that are evaluated -/

/-- A run returns a value that passes a test. -/
def returns (test : α → Bool) (r : Except ε α × σ) : Bool :=
  match r.1 with
  | .ok a => test a
  | .error _ => false

theorem returns_spec {test : α → Bool} {r : Except ε α × σ} (h : returns test r = true) :
    ∃ a, r = (.ok a, r.2) ∧ test a = true := by
  obtain ⟨_ | a, s⟩ := r
  · cases h
  · exact ⟨a, rfl, h⟩

end Halting

end ZfsBoot.Lib
