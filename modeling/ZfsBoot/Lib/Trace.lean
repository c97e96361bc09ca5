import ZfsBoot.Lib.Local

/-!
# `ZfsBoot.Lib.Trace`: which operations a computation asks for

What a computation writes to, and in which order, often does not depend on what the medium holds.
`Traces` says it for every state: the events that a computation adds to its journal, together with
the way it ends, satisfy a relation. The events are linked, each to the medium that the one before
it left, so what the medium holds at any point follows from the events (`Linked`). And a computation
that follows these rules does not look back (`Local`).

`Asks` is the form that most statements have: every event satisfies `p`, and if the computation
ends with a value, every event also satisfies `q`. A part of a program that stops at the first
failure is one where `q` says that the operation was carried out. Its rules follow the program.

`Yields` is for the parts that go on after a failure and report it in their value: every event
satisfies `p`, and a value comes with events that it is related to.
-/

set_option autoImplicit false

namespace ZfsBoot.Lib

open List

variable {c : Prop} {ω δ : Type} [Acts ω δ]

/-- Events, the newest first, that take the medium from one state to another. -/
inductive Linked : δ → List (Event ω δ) → δ → Prop where
  | nil (d : δ) : Linked d [] d
  | cons {d d' : δ} {new : List (Event ω δ)} (op : ω) (fate : Fate) (h : Linked d new d') :
      Linked d (⟨op, fate, fate.after op d'⟩ :: new) (fate.after op d')

theorem Linked.append {d d' d'' : δ} {old new : List (Event ω δ)} (hnew : Linked d' new d'')
    (hold : Linked d old d') : Linked d (new ++ old) d'' := by
  induction hnew with
  | nil => exact hold
  | cons op fate _ ih => exact ih.cons op fate

/-- What every operation keeps, all of them together keep, up to any point. -/
theorem Linked.keeps {β : Type} {f : δ → β} {d d' : δ} {new : List (Event ω δ)}
    (h : Linked d new d')
    (hkeep : ∀ ev ∈ new, ∀ d₀, ev.after = ev.fate.after ev.op d₀ → f ev.after = f d₀) :
    f d' = f d := by
  induction h with
  | nil => rfl
  | cons op fate _ ih =>
    refine (hkeep _ mem_cons_self _ rfl).trans (ih fun ev hev => ?_)
    exact hkeep ev (mem_cons_of_mem _ hev)

namespace Halting

variable {ε ε' α β : Type} {x : Halting ε (Journal ω δ) α}
  {handler : ε → Halting ε' (Journal ω δ) α} {f : α → Halting ε (Journal ω δ) β}
  {R : List (Event ω δ) → Except ε α → Prop}

/-- From the state `s`, `x` adds events that are related by `Q` to the way it ends. -/
def TracesFrom (s : Journal ω δ) (Q : List (Event ω δ) → Except ε α → Prop)
    (x : Halting ε (Journal ω δ) α) : Prop :=
  ∃ new, (x s).2.events = new ++ s.events ∧ Linked s.now new (x s).2.now ∧ Q new (x s).1

/-- From every state, `x` adds events that are related by `Q` to the way it ends. -/
structure Traces (Q : List (Event ω δ) → Except ε α → Prop) (x : Halting ε (Journal ω δ) α) :
    Prop where
  ends : ∀ s, TracesFrom s Q x
  isLocal : Local x

section Traces

variable {Q : List (Event ω δ) → Except ε α → Prop}

theorem traces_pure {a : α} (h : Q [] (.ok a)) : Traces Q (pure a : Halting ε (Journal ω δ) α) :=
  ⟨fun _ => ⟨[], rfl, .nil _, h⟩, local_pure a⟩

theorem traces_stop {e : ε} (h : Q [] (.error e)) :
    Traces Q (stop e : Halting ε (Journal ω δ) α) :=
  ⟨fun _ => ⟨[], rfl, .nil _, h⟩, local_stop e⟩

/-- One operation, however it goes. -/
theorem traces_perform {op : ω} {Q : List (Event ω δ) → Except ε Bool → Prop}
    (h : ∀ (fate : Fate) (after : δ), Q [⟨op, fate, after⟩] (.ok (decide (fate = .done)))) :
    Traces Q (perform op : Halting ε (Journal ω δ) Bool) :=
  ⟨fun _ => ⟨[_], rfl, .cons op _ (.nil _), h _ _⟩, local_perform op⟩

theorem Traces.mono {Q' : List (Event ω δ) → Except ε α → Prop} (h : Traces Q x)
    (hQ : ∀ new r, Q new r → Q' new r) : Traces Q' x := by
  refine ⟨fun s => ?_, h.isLocal⟩
  obtain ⟨new, hev, hlink, hnew⟩ := h.ends s
  exact ⟨new, hev, hlink, hQ _ _ hnew⟩

/-- Two halves: the events of the second come after those of the first. -/
theorem tracesFrom_bind {s : Journal ω δ} {S : α → List (Event ω δ) → Except ε β → Prop}
    {Q : List (Event ω δ) → Except ε β → Prop} (hx : TracesFrom s R x)
    (hf : ∀ a s', x s = (.ok a, s') → TracesFrom s' (S a) (f a))
    (herror : ∀ new e, R new (.error e) → Q new (.error e))
    (hok : ∀ old a new r, R old (.ok a) → S a new r → Q (new ++ old) r) :
    TracesFrom s Q (x >>= f) := by
  obtain ⟨old, hold, hlink, hR⟩ := hx
  rw [TracesFrom, bind_apply]
  revert hold hlink hR hf
  rcases x s with ⟨e | a, s'⟩
  · exact fun _ hold hlink hR => ⟨old, hold, hlink, herror _ _ hR⟩
  · intro hf hold hlink hR
    obtain ⟨new, hnew, hlink', hS⟩ := hf a s' rfl
    refine ⟨new ++ old, ?_, hlink'.append hlink, hok _ _ _ _ hR hS⟩
    rw [append_assoc, ← show s'.events = old ++ s.events from hold]
    exact hnew

theorem traces_bind {S : α → List (Event ω δ) → Except ε β → Prop}
    {Q : List (Event ω δ) → Except ε β → Prop} (hx : Traces R x) (hf : ∀ a, Traces (S a) (f a))
    (herror : ∀ new e, R new (.error e) → Q new (.error e))
    (hok : ∀ old a new r, R old (.ok a) → S a new r → Q (new ++ old) r) : Traces Q (x >>= f) :=
  ⟨fun s => tracesFrom_bind (hx.ends s) (fun a s' _ => (hf a).ends s') herror hok,
    local_bind hx.isLocal fun _ a _ => (hf a).isLocal⟩

/-- A stop that is dealt with. -/
theorem traces_rescue {S : ε → List (Event ω δ) → Except ε' α → Prop}
    {Q : List (Event ω δ) → Except ε' α → Prop} (hx : Traces R x)
    (hh : ∀ e, Traces (S e) (handler e)) (hok : ∀ new a, R new (.ok a) → Q new (.ok a))
    (herror : ∀ old e new r, R old (.error e) → S e new r → Q (new ++ old) r) :
    Traces Q (x.rescue handler) := by
  refine ⟨fun s => ?_, local_rescue hx.isLocal fun e => (hh e).isLocal⟩
  obtain ⟨old, hold, hlink, hR⟩ := hx.ends s
  rw [TracesFrom, rescue_apply]
  revert hold hlink hR
  rcases x s with ⟨e | a, s'⟩
  · intro hold hlink hR
    obtain ⟨new, hnew, hlink', hS⟩ := (hh e).ends s'
    refine ⟨new ++ old, ?_, hlink'.append hlink, herror _ _ _ _ hR hS⟩
    rw [append_assoc, ← show s'.events = old ++ s.events from hold]
    exact hnew
  · exact fun hold hlink hR => ⟨old, hold, hlink, hok _ _ hR⟩

theorem traces_outcome {Q : List (Event ω δ) → Except ε' (Except ε α) → Prop}
    (h : Traces (fun new r => Q new (.ok r)) x) : Traces Q (x.outcome : Halting ε' _ _) :=
  ⟨h.ends, local_outcome h.isLocal⟩

end Traces

/-! ### Every operation -/

/-- Every operation that `x` asks for satisfies `p`, and also `q` if `x` ends with a value. -/
def Asks (p q : Event ω δ → Prop) (x : Halting ε (Journal ω δ) α) : Prop :=
  Traces (fun new r => (∀ ev ∈ new, p ev) ∧ ((∃ a, r = .ok a) → ∀ ev ∈ new, q ev)) x

section Asks

variable {p q : Event ω δ → Prop}

theorem asks_pure (a : α) : Asks p q (pure a : Halting ε (Journal ω δ) α) :=
  traces_pure ⟨by simp, by simp⟩

theorem asks_stop (e : ε) : Asks p q (stop e : Halting ε (Journal ω δ) α) :=
  traces_stop ⟨by simp, by simp⟩

theorem asks_ofExcept (x : Except ε α) : Asks p q (ofExcept x : Halting ε (Journal ω δ) α) := by
  cases x with
  | error e => exact asks_stop e
  | ok a => exact asks_pure a

theorem asks_ite [Decidable c] {x y : Halting ε (Journal ω δ) α}
    (hx : c → Asks p q x) (hy : ¬ c → Asks p q y) : Asks p q (if c then x else y) := by
  split_ifs with h
  · exact hx h
  · exact hy h

theorem asks_onlyIf [Decidable c] {x : Halting ε (Journal ω δ) Unit}
    (hx : c → Asks p q x) : Asks p q (onlyIf c x) :=
  asks_ite hx fun _ => asks_pure ()

theorem asks_require (e : ε) (c : Prop) [Decidable c] :
    Asks p q (require e c : Halting ε (Journal ω δ) Unit) :=
  asks_ite (fun _ => asks_pure ()) fun _ => asks_stop e

theorem asks_bind (hx : Asks p q x) (hf : ∀ a, Asks p q (f a)) : Asks p q (x >>= f) := by
  refine traces_bind hx hf (fun new e h => ⟨h.1, by simp⟩) fun old a new r hold hnew => ⟨?_, ?_⟩
  · exact forall_mem_append.2 ⟨hnew.1, hold.1⟩
  · exact fun hr => forall_mem_append.2 ⟨hnew.2 hr, hold.2 ⟨a, rfl⟩⟩

/-- An operation that may fail, and whose answer is used. -/
theorem asks_perform {op : ω} (hp : ∀ fate after, p ⟨op, fate, after⟩)
    (hq : ∀ fate after, q ⟨op, fate, after⟩) :
    Asks p q (perform op : Halting ε (Journal ω δ) Bool) :=
  traces_perform fun fate after => ⟨by simpa using hp fate after, fun _ => by simpa using hq fate after⟩

/-- An operation whose failure stops the computation. -/
theorem asks_demand {e : ε} {op : ω} (hp : ∀ fate after, p ⟨op, fate, after⟩)
    (hq : ∀ after, q ⟨op, .done, after⟩) :
    Asks p q (demand e op : Halting ε (Journal ω δ) Unit) := by
  refine traces_bind (R := fun new r => ∃ fate after, new = [⟨op, fate, after⟩]
      ∧ r = .ok (decide (fate = .done)))
    (S := fun ok new r => new = [] ∧ ((∃ a, r = .ok a) → ok = true))
    (traces_perform fun fate after => ⟨fate, after, rfl, rfl⟩) (fun ok => ?_) ?_ ?_
  · cases ok with
    | false => exact traces_stop ⟨rfl, by simp⟩
    | true => exact traces_pure ⟨rfl, fun _ => rfl⟩
  · rintro new e ⟨fate, after, -, hr⟩
    cases hr
  · rintro old a new r ⟨fate, after, rfl, hfate⟩ ⟨rfl, hok⟩
    obtain rfl := Except.ok.inj hfate
    refine ⟨by simpa using hp fate after, fun hr => ?_⟩
    have hdone : fate = .done := of_decide_eq_true (hok hr)
    subst hdone
    simpa using hq after

theorem asks_observe {e : ε} {op : ω} {f : δ → α} (hp : ∀ fate after, p ⟨op, fate, after⟩)
    (hq : ∀ after, q ⟨op, .done, after⟩) :
    Asks p q (observe e op f : Halting ε (Journal ω δ) α) := by
  refine asks_bind (asks_demand hp hq) fun _ => ?_
  exact ⟨fun _ => ⟨[], rfl, .nil _, by simp, by simp⟩, ⟨fun _ => rfl⟩⟩

theorem Asks.mono {p' q' : Event ω δ → Prop} (h : Asks p q x) (hp : ∀ ev, p ev → p' ev)
    (hq : ∀ ev, p ev → q ev → q' ev) : Asks p' q' x :=
  Traces.mono h fun _ _ hnew =>
    ⟨fun ev hev => hp ev (hnew.1 ev hev), fun hr ev hev => hq ev (hnew.1 ev hev) (hnew.2 hr ev hev)⟩

/-- A failure that is dealt with: what went wrong must not matter. -/
theorem asks_rescue (hx : Asks p q x) (hh : ∀ e, Asks p q (handler e)) (hpq : ∀ ev, p ev → q ev) :
    Asks p q (x.rescue handler) := by
  refine traces_rescue hx hh (fun new a h => ⟨h.1, fun _ => h.2 ⟨a, rfl⟩⟩) ?_
  intro old e new r hold hnew
  have hp := forall_mem_append.2 ⟨hnew.1, hold.1⟩
  exact ⟨hp, fun _ ev hev => hpq ev (hp ev hev)⟩

theorem asks_outcome (hx : Asks p q x) (hpq : ∀ ev, p ev → q ev) :
    Asks p q (x.outcome : Halting ε' _ _) :=
  traces_outcome (Traces.mono hx fun _ _ h => ⟨h.1, fun _ ev hev => hpq ev (h.1 ev hev)⟩)

/-- `x` ends with an error, and every operation that it asks for satisfies `p`. -/
def Stops (p : Event ω δ → Prop) (x : Halting ε (Journal ω δ) α) : Prop :=
  Traces (fun new r => (∀ ev ∈ new, p ev) ∧ ∃ e, r = .error e) x

theorem stops_stop (e : ε) : Stops p (stop e : Halting ε (Journal ω δ) α) :=
  traces_stop ⟨by simp, e, rfl⟩

theorem stops_bind (hx : Asks p q x) (hf : ∀ a, Stops p (f a)) : Stops p (x >>= f) := by
  refine traces_bind hx hf (fun new e h => ⟨h.1, e, rfl⟩) fun old a new r hold hnew => ?_
  exact ⟨forall_mem_append.2 ⟨hnew.1, hold.1⟩, hnew.2⟩

/-- A failure that is answered by a stop: the handler need not go well. -/
theorem asks_rescue_stops (hx : Asks p q x) (hh : ∀ e, Stops p (handler e)) :
    Asks p q (x.rescue handler) := by
  refine traces_rescue hx hh (fun new a h => ⟨h.1, fun _ => h.2 ⟨a, rfl⟩⟩) ?_
  rintro old e new r hold ⟨hnew, e', rfl⟩
  exact ⟨forall_mem_append.2 ⟨hnew, hold.1⟩, by simp⟩

theorem asks_relabel {f : ε → ε'} (hx : Asks p q x) : Asks p q (x.relabel f) :=
  asks_rescue_stops hx fun e => stops_stop (f e)

end Asks

/-! ### Failures that are reported in a value -/

/-- From the state `s`, every operation that `x` asks for satisfies `p`, and a value of `x` is related
to all of them. -/
def YieldsFrom (s : Journal ω δ) (p : Event ω δ → Prop) (S : α → List (Event ω δ) → Prop)
    (x : Halting ε (Journal ω δ) α) : Prop :=
  TracesFrom s (fun new r => (∀ ev ∈ new, p ev) ∧ ∀ a, r = .ok a → S a new) x

/-- The same from every state. -/
def Yields (p : Event ω δ → Prop) (S : α → List (Event ω δ) → Prop)
    (x : Halting ε (Journal ω δ) α) : Prop :=
  Traces (fun new r => (∀ ev ∈ new, p ev) ∧ ∀ a, r = .ok a → S a new) x

section Yields

variable {p q : Event ω δ → Prop} {S : α → List (Event ω δ) → Prop}

theorem yields_pure {a : α} (h : S a []) : Yields p S (pure a : Halting ε (Journal ω δ) α) :=
  traces_pure ⟨by simp, fun _ ha => by cases ha; exact h⟩

theorem yields_of_asks (h : Asks p q x) (hS : ∀ a new, (∀ ev ∈ new, q ev) → S a new) :
    Yields p S x :=
  Traces.mono h fun new _ hnew => ⟨hnew.1, fun a ha => hS a new (hnew.2 ⟨a, ha⟩)⟩

/-- How `x` ended is the value. -/
theorem yields_outcome (h : Asks p q x) :
    Yields p (fun r new => (∃ a, r = .ok a) → ∀ ev ∈ new, q ev)
      (x.outcome : Halting ε' (Journal ω δ) _) :=
  traces_outcome (Traces.mono h fun new r hnew =>
    ⟨hnew.1, fun r' hr' => by cases hr'; exact hnew.2⟩)

theorem yieldsFrom_bind {s : Journal ω δ} {T : α → β → List (Event ω δ) → Prop}
    {U : β → List (Event ω δ) → Prop} (hx : YieldsFrom s p S x)
    (hf : ∀ a s', x s = (.ok a, s') → YieldsFrom s' p (T a) (f a))
    (hU : ∀ a old b new, (∀ ev ∈ old, p ev) → (∀ ev ∈ new, p ev) → S a old → T a b new →
      U b (new ++ old)) : YieldsFrom s p U (x >>= f) := by
  refine tracesFrom_bind hx hf (fun new e h => ⟨h.1, by simp⟩) fun old a new r hold hnew => ⟨?_, ?_⟩
  · exact forall_mem_append.2 ⟨hnew.1, hold.1⟩
  · exact fun b hb => hU a old b new hold.1 hnew.1 (hold.2 a rfl) (hnew.2 b hb)

theorem Yields.mono {p' : Event ω δ → Prop} {S' : α → List (Event ω δ) → Prop} (h : Yields p S x)
    (hp : ∀ ev, p ev → p' ev) (hS : ∀ a new, (∀ ev ∈ new, p ev) → S a new → S' a new) :
    Yields p' S' x :=
  Traces.mono h fun new _ hnew =>
    ⟨fun ev hev => hp ev (hnew.1 ev hev), fun a ha => hS a new hnew.1 (hnew.2 a ha)⟩

/-- Every event satisfies `p`, and the value satisfies `S`. -/
abbrev Gives (p : Event ω δ → Prop) (S : α → Prop) (x : Halting ε (Journal ω δ) α) : Prop :=
  Yields p (fun a _ => S a) x

/-- What goes on is asked for on the values that can come out only. -/
theorem gives_bind {S : α → Prop} {T : β → Prop} (hx : Gives p S x)
    (hf : ∀ a, S a → Gives p T (f a)) : Gives p T (x >>= f) := by
  have hvalue : ∀ s a, (x s).1 = .ok a → S a := by
    intro s a ha
    obtain ⟨new, -, -, -, hS⟩ := hx.ends s
    exact hS a ha
  refine ⟨fun s => yieldsFrom_bind (hx.ends s) (fun a s' hrun => ?_) fun _ _ _ _ _ _ _ hT => hT,
    local_bind hx.isLocal fun s a ha => (hf a (hvalue s a ha)).isLocal⟩
  exact (hf a (hvalue s a (by rw [hrun]))).ends s'

theorem gives_of_asks (h : Asks p q x) : Gives p (fun _ => True) x :=
  yields_of_asks h fun _ _ _ => trivial

theorem gives_outcome (h : Asks p q x) :
    Gives p (fun _ => True) (x.outcome : Halting ε' (Journal ω δ) _) :=
  (yields_outcome h).mono (fun _ hp => hp) fun _ _ _ _ => trivial

/-- The events of a whole run. -/
theorem Gives.events {S : α → Prop} (h : Gives p S x) (fate : Nat → Fate) (d : δ) :
    ∀ ev ∈ (x (.start fate d)).2.events, p ev := by
  obtain ⟨new, hevents, -, hp, -⟩ := h.ends (.start fate d)
  rw [hevents, show (Journal.start fate d).events = ([] : List (Event ω δ)) from rfl,
    append_nil]
  exact hp

end Yields

end Halting

end ZfsBoot.Lib
