import Mathlib.Logic.Function.Iterate
import Mathlib.Tactic.Common

/-!
# `ZfsBoot.Lib.Loop`: a `while` loop as a body and a number of passes

A C loop is modelled by its body: one pass either goes round again with a new state or
leaves the loop with a result. `run` makes at most `fuel` passes; `none` says that the
loop has not ended by then.

Two rules carry every proof about such a loop:

* `run_isSome`: an invariant that the body keeps, and a variant that falls on every pass
  that goes round again. More fuel than the variant's starting value is enough.
* `run_sound`: an invariant that the body keeps and that gives the postcondition on the
  pass that leaves.

`run_spec` puts the two together, in the total-correctness form the models use. `retry` is the
loop of a step that is attempted a fixed number of times.
-/

set_option autoImplicit false

namespace ZfsBoot.Lib.Loop

variable {σ ρ : Type} {again : σ → σ} (Inv : σ → Prop)

/-- What one pass of the body does. -/
inductive Step (σ ρ : Type) where
  | next (s : σ)
  | done (r : ρ)

/-- At most `fuel` passes of `body`. -/
def run (body : σ → Step σ ρ) : Nat → σ → Option ρ
  | 0, _ => none
  | fuel + 1, s =>
    match body s with
    | .next s' => run body fuel s'
    | .done r => some r

/-- A pass that leaves the loop gives its result, with any fuel left. -/
theorem run_done {body : σ → Step σ ρ} {s : σ} {r : ρ} (h : body s = .done r) (fuel : Nat) :
    run body (fuel + 1) s = some r := by
  simp [run, h]

/-- A pass that goes round again hands over to the rest of the loop. -/
theorem run_next {body : σ → Step σ ρ} {s s' : σ} (h : body s = .next s') (fuel : Nat) :
    run body (fuel + 1) s = run body fuel s' := by
  simp [run, h]

/-- Termination by a variant: every pass that goes round again keeps the invariant and
lowers the variant, so more passes than the variant counts reach a pass that leaves. -/
theorem run_isSome {body : σ → Step σ ρ} (variant : σ → Nat)
    (hnext : ∀ s s', Inv s → body s = .next s' → Inv s' ∧ variant s' < variant s) :
    ∀ (fuel : Nat) (s : σ), Inv s → variant s < fuel → ∃ r, run body fuel s = some r := by
  intro fuel
  induction fuel with
  | zero => intro s _ h; omega
  | succ fuel ih =>
    intro s hs hv
    cases hb : body s with
    | next s' =>
      obtain ⟨hs', hlt⟩ := hnext s s' hs hb
      rw [run_next hb]
      exact ih s' hs' (by omega)
    | done r => exact ⟨r, run_done hb fuel⟩

/-- Partial correctness: an invariant kept by every pass that goes round again, and a
postcondition it gives on the pass that leaves. -/
theorem run_sound {body : σ → Step σ ρ} (Post : ρ → Prop)
    (hnext : ∀ s s', Inv s → body s = .next s' → Inv s')
    (hdone : ∀ s r, Inv s → body s = .done r → Post r) :
    ∀ (fuel : Nat) (s : σ) (r : ρ), Inv s → run body fuel s = some r → Post r := by
  intro fuel
  induction fuel with
  | zero => intro s r _ h; simp [run] at h
  | succ fuel ih =>
    intro s r hs h
    cases hb : body s with
    | next s' =>
      rw [run_next hb] at h
      exact ih s' r (hnext s s' hs hb) h
    | done r' =>
      rw [run_done hb, Option.some.injEq] at h
      subst h
      exact hdone s r' hs hb

/-- Total correctness: the loop ends, and its result meets the postcondition. -/
theorem run_spec {body : σ → Step σ ρ} (Post : ρ → Prop) (variant : σ → Nat)
    (hnext : ∀ s s', Inv s → body s = .next s' → Inv s' ∧ variant s' < variant s)
    (hdone : ∀ s r, Inv s → body s = .done r → Post r) (fuel : Nat) (s : σ) (hs : Inv s)
    (hfuel : variant s < fuel) : ∃ r, run body fuel s = some r ∧ Post r := by
  obtain ⟨r, hr⟩ := run_isSome Inv variant hnext fuel s hs hfuel
  exact ⟨r, hr, run_sound Inv Post (fun s s' hi hb => (hnext s s' hi hb).1) hdone
    fuel s r hs hr⟩

/-- A pass keeps `Inv` if it goes round again, and gives `Post` if it leaves. -/
def Step.Sat (Inv : σ → Prop) (Post : ρ → Prop) : Step σ ρ → Prop
  | .next s => Inv s
  | .done r => Post r

/-- `run_sound`, with one statement about the pass. -/
theorem run_sat {body : σ → Step σ ρ} {Inv : σ → Prop} {Post : ρ → Prop}
    (hbody : ∀ s, Inv s → (body s).Sat Inv Post) {fuel : Nat} {s : σ} {r : ρ} (hs : Inv s)
    (h : run body fuel s = some r) : Post r := by
  refine run_sound Inv Post (fun s s' hi hb => ?_) (fun s r hi hb => ?_) fuel s r hs h
  · have := hbody s hi
    rwa [hb] at this
  · have := hbody s hi
    rwa [hb] at this

/-! ### Attempts -/

variable {α : Type} {attempt : σ → Option α × σ}

/-- At most `n` attempts, until one succeeds, with `again` between them. -/
def retry (again : σ → σ) (attempt : σ → Option α × σ) : Nat → σ → Option α × σ
  | 0, s => (none, s)
  | n + 1, s =>
    match attempt s with
    | (some a, s) => (some a, s)
    | (none, s) => if n = 0 then (none, s) else retry again attempt n (again s)

/-- What attempts keep: `Inv` from one to the next, `Post` once one has succeeded. -/
theorem retry_spec (Post : α → σ → Prop) (hagain : ∀ s, Inv s → Inv (again s))
    (hattempt : ∀ s, Inv s → (∀ a, (attempt s).1 = some a → Post a (attempt s).2) ∧
      ((attempt s).1 = none → Inv (attempt s).2)) (n : Nat) :
    ∀ s, Inv s →
      (∀ a, (retry again attempt n s).1 = some a → Post a (retry again attempt n s).2) ∧
        ((retry again attempt n s).1 = none → Inv (retry again attempt n s).2) := by
  induction n with
  | zero =>
    intro s hs
    exact ⟨fun _ h => (nomatch h), fun _ => hs⟩
  | succ n ih =>
    intro s hs
    obtain ⟨hsome, hnone⟩ := hattempt s hs
    rw [retry]
    rcases hat : attempt s with ⟨_ | a, s'⟩
    all_goals rw [hat] at hsome hnone
    · dsimp only
      split_ifs
      · exact ⟨fun _ h => (nomatch h), hnone⟩
      · exact ih _ (hagain _ (hnone rfl))
    · exact ⟨hsome, fun h => nomatch h⟩

/-- The first attempt is the last if it succeeds. -/
theorem retry_first {s s' : σ} {a : α} (h : attempt s = (some a, s')) (n : Nat) :
    retry again attempt (n + 1) s = (some a, s') := by
  rw [retry, h]

/-- Attempts of which each one fails, with nothing between them. -/
theorem retry_none (n : Nat) : ∀ {s : σ},
    (∀ i < n, (attempt ((fun t => (attempt t).2)^[i] s)).1 = none) →
      (retry id attempt n s).1 = none := by
  induction n with
  | zero =>
    intro s _
    rfl
  | succ n ih =>
    intro s h
    have hrest := fun i (hi : i < n) => h (i + 1) (Nat.succ_lt_succ hi)
    simp only [Function.iterate_succ_apply] at hrest
    have hfirst : (attempt s).1 = none := h 0 (Nat.succ_pos n)
    rw [retry]
    rcases hat : attempt s with ⟨_ | a, s'⟩
    all_goals rw [hat] at hfirst hrest
    · dsimp only
      split_ifs
      · rfl
      · exact ih hrest
    · cases hfirst

/-- What every attempt keeps, whether it succeeds or not. -/
theorem retry_keeps {P : σ → Prop} (hagain : ∀ s, P s → P (again s))
    (hattempt : ∀ s, P s → P (attempt s).2) (n : Nat) {s : σ} (h : P s) :
    P (retry again attempt n s).2 := by
  obtain ⟨hsome, hnone⟩ := retry_spec P (fun _ => P) hagain
    (fun s hs => ⟨fun _ _ => hattempt s hs, fun _ => hattempt s hs⟩) n s h
  cases hr : (retry again attempt n s).1 with
  | none => exact hnone hr
  | some a => exact hsome a hr

/-- Attempts on a state with more in it, and the same attempts on the part that they use. -/
theorem retry_map {τ : Type} (π : τ → σ) {again' : τ → τ} {attempt' : τ → Option α × τ}
    (hagain : ∀ t, π (again' t) = again (π t))
    (hattempt : ∀ t, ((attempt' t).1, π (attempt' t).2) = attempt (π t)) (n : Nat) :
    ∀ t, ((retry again' attempt' n t).1, π (retry again' attempt' n t).2) =
      retry again attempt n (π t) := by
  induction n with
  | zero => exact fun _ => rfl
  | succ n ih =>
    intro t
    rw [retry, retry, ← hattempt t]
    rcases attempt' t with ⟨_ | a, t'⟩
    · dsimp only
      split
      · rfl
      · rw [ih, hagain]
    · rfl

end ZfsBoot.Lib.Loop
