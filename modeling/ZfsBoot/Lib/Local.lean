import ZfsBoot.Lib.Journal

/-!
# `ZfsBoot.Lib.Local`: computations that do not look back

A computation on a journal may use what the medium holds and how its own operations go. It has no
use for the events before it. `Local` says so: from every state, it does what it does from a journal
that starts there, with the fates that are still to come.

What is known of all runs of a `Local` computation from the start of a journal then holds wherever a
program comes to it. The rules follow the program.
-/

set_option autoImplicit false

namespace ZfsBoot.Lib

variable {ω δ : Type}

/-- A journal that starts where `s` stands: on its medium, with the fates that are still to come. -/
def Journal.fresh (s : Journal ω δ) : Journal ω δ :=
  .start (fun k => s.fate (s.events.length + k)) s.now

/-- The journal `s` after the run `t` that started where it stands. -/
def Journal.extend (s t : Journal ω δ) : Journal ω δ := ⟨s.fate, t.now, t.events ++ s.events⟩

namespace Halting

variable {ε ε' α β : Type}

/-- From every state, `x` does what it does from a journal that starts there. -/
structure Local (x : Halting ε (Journal ω δ) α) : Prop where
  run_eq : ∀ s, x s = ((x s.fresh).1, s.extend (x s.fresh).2)

section Local

variable {x : Halting ε (Journal ω δ) α}

theorem local_pure (a : α) : Local (pure a : Halting ε (Journal ω δ) α) := ⟨fun _ => rfl⟩

theorem local_stop (e : ε) : Local (stop e : Halting ε (Journal ω δ) α) := ⟨fun _ => rfl⟩

/-- Where the second half of a run starts, in the whole journal and in the new one. -/
theorem fresh_extend (s t : Journal ω δ) (ht : t.fate = s.fresh.fate) :
    (s.extend t).fresh = t.fresh ∧ ∀ t', (s.extend t).extend t' = s.extend (t.extend t') := by
  have hfate : ∀ k, s.fate ((t.events ++ s.events).length + k) = t.fate (t.events.length + k) := by
    intro k
    rw [ht, List.length_append]
    show _ = s.fate (s.events.length + (t.events.length + k))
    congr 1
    omega
  constructor
  · unfold Journal.fresh Journal.extend
    simp only [hfate]
  · intro t'
    simp [Journal.extend, List.append_assoc]

/-- A local computation leaves the fates as they are. -/
theorem Local.fate_eq (hx : Local x) (s : Journal ω δ) : (x s).2.fate = s.fate := by
  rw [hx.run_eq]
  rfl

/-- What goes on is asked for on the values that can come out only. -/
theorem local_bind {f : α → Halting ε (Journal ω δ) β} (hx : Local x)
    (hf : ∀ s a, (x s).1 = .ok a → Local (f a)) : Local (x >>= f) := by
  refine ⟨fun s => ?_⟩
  have hfate := hx.fate_eq s.fresh
  have hf := hf s.fresh
  simp only [bind_apply]
  rw [hx.run_eq s]
  revert hfate hf
  rcases x s.fresh with ⟨e | a, t⟩
  · exact fun _ _ => rfl
  · intro hfate hf
    obtain ⟨hfresh, hextend⟩ := fresh_extend s t hfate
    dsimp only
    rw [(hf a rfl).run_eq (s.extend t), (hf a rfl).run_eq t, hfresh, hextend]

theorem local_rescue {handler : ε → Halting ε' (Journal ω δ) α} (hx : Local x)
    (hh : ∀ e, Local (handler e)) : Local (x.rescue handler) := by
  refine ⟨fun s => ?_⟩
  have hfate := hx.fate_eq s.fresh
  simp only [rescue_apply]
  rw [hx.run_eq s]
  revert hfate
  rcases x s.fresh with ⟨e | a, t⟩
  · intro hfate
    obtain ⟨hfresh, hextend⟩ := fresh_extend s t hfate
    dsimp only
    rw [(hh e).run_eq (s.extend t), (hh e).run_eq t, hfresh, hextend]
  · exact fun _ => rfl

theorem local_outcome (hx : Local x) : Local (x.outcome : Halting ε' (Journal ω δ) (Except ε α)) :=
  ⟨fun s => congrArg (fun r => (Except.ok r.1, r.2)) (hx.run_eq s)⟩

/-- What holds of all runs that start on a medium holds of a run that comes to it. -/
theorem Local.from_start {d : δ} {R : Except ε α → Journal ω δ → Prop} (hx : Local x)
    (h : ∀ fate, R (x (.start fate d)).1 (x (.start fate d)).2) {s : Journal ω δ} (hs : s.now = d) :
    ∃ t, x s = ((x s).1, s.extend t) ∧ R (x s).1 t := by
  subst hs
  rw [hx.run_eq s]
  exact ⟨_, rfl, h _⟩

variable [Acts ω δ]

theorem local_perform (op : ω) : Local (perform op : Halting ε (Journal ω δ) Bool) :=
  ⟨fun _ => rfl⟩

end Local

end Halting

end ZfsBoot.Lib
