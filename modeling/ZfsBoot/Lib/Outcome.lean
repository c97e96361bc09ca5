import Mathlib.Tactic.Common

/-!
# `ZfsBoot.Lib.Outcome`: computations in `Except`

A Go function that returns a value and an error is a computation in `Except`. The rules take a
`do` block apart: forwards, when the first step is known (`ok_bind`, `error_bind`), and backwards,
from a success to the success of every step (`bind_eq_ok`). Where only the success matters,
`toOption` forgets the error, and a loop forgets it in every step (`toOption_foldlM`).
-/

set_option autoImplicit false

namespace ZfsBoot.Lib

variable {γ δ : Type} {t : γ → δ} {ε ε' α β : Type}

@[simp] theorem ok_bind (a : α) (f : α → Except ε β) : ((.ok a : Except ε α) >>= f) = f a := rfl

@[simp] theorem error_bind (e : ε) (f : α → Except ε β) :
    ((.error e : Except ε α) >>= f) = .error e := rfl

/-- A block succeeds when each of its two parts does. -/
theorem bind_eq_ok {x : Except ε α} {f : α → Except ε β} {b : β} :
    (x >>= f) = .ok b ↔ ∃ a, x = .ok a ∧ f a = .ok b := by
  cases x with
  | error e => simp
  | ok a => simp

@[simp] theorem mapError_eq_ok {x : Except ε α} {f : ε → ε'} {a : α} :
    x.mapError f = .ok a ↔ x = .ok a := by
  cases x <;> simp [Except.mapError]

@[simp] theorem pure_eq_ok {a b : α} : (pure a : Except ε α) = .ok b ↔ a = b := by
  rw [show (pure a : Except ε α) = .ok a from rfl, Except.ok.injEq]

@[simp] theorem toOption_bind (x : Except ε α) (f : α → Except ε β) :
    (x >>= f).toOption = x.toOption >>= fun a => (f a).toOption := by
  cases x <;> rfl

theorem toOption_eq_some {x : Except ε α} {a : α} : x.toOption = some a ↔ x = .ok a := by
  cases x <;> simp [Except.toOption]

/-- Two loops over states that correspond, which differ in what they do before each step. -/
theorem toOption_map_foldlM {f : α → γ → Except ε α} {g : β → δ → Option β} {u : α → β}
    (h : ∀ a c, (f a c).toOption.map u = g (u a) (t c)) (cs : List γ) (a : α) :
    (cs.foldlM f a).toOption.map u = (cs.map t).foldlM g (u a) := by
  induction cs generalizing a with
  | nil => rfl
  | cons c cs ih =>
    rw [List.map_cons, List.foldlM_cons, List.foldlM_cons, toOption_bind, ← h]
    cases (f a c).toOption with
    | none => rfl
    | some a' => exact ih a'

/-- Two loops that differ in what they do before each step. -/
theorem toOption_foldlM {f : α → γ → Except ε α} {g : α → δ → Option α}
    (h : ∀ a c, (f a c).toOption = g a (t c)) (cs : List γ) (a : α) :
    (cs.foldlM f a).toOption = (cs.map t).foldlM g a := by
  have := toOption_map_foldlM (u := id) (fun a c => by rw [Option.map_id]; exact h a c) cs a
  rwa [Option.map_id] at this

end ZfsBoot.Lib
