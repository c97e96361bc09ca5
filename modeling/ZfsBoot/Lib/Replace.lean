import Mathlib.Data.List.Basic

/-!
# `ZfsBoot.Lib.Replace`: replacing every occurrence of a word

`replaceAll` goes through a list once, from the front, and looks no second time at what it put in.
In an escaped text every occurrence of the mark starts a code, so replacing the code of one symbol
leaves the other codes alone (`replaceAll_flatMap`).
-/

set_option autoImplicit false

namespace ZfsBoot.Lib

open List

variable {α β : Type} [DecidableEq α]

/-- Every occurrence of `old` becomes `new`, the first one first; `skip` symbols of the last
occurrence are still ahead. `old` is not empty. -/
def replaceAll (old new : List α) : (skip : Nat) → List α → List α
  | _, [] => []
  | skip + 1, _ :: s => replaceAll old new skip s
  | 0, c :: s =>
    if old.isPrefixOf (c :: s) then new ++ replaceAll old new (old.length - 1) s
    else c :: replaceAll old new 0 s

/-- A symbol that stands for itself, or a mark with `n` symbols behind it. -/
def IsCode (mark : α) (n : Nat) (code : List α) : Prop :=
  code.length = 1 ∧ mark ∉ code ∨
    code.head? = some mark ∧ code.tail.length = n ∧ mark ∉ code.tail

instance (mark : α) (n : Nat) (code : List α) : Decidable (IsCode mark n code) :=
  inferInstanceAs (Decidable (_ ∨ _))

variable {mark : α} {t new : List α}

theorem replaceAll_length (old s r : List α) :
    replaceAll old new s.length (s ++ r) = replaceAll old new 0 r := by
  induction s with
  | nil => rfl
  | cons c s ih => exact ih

/-- Without the mark there is no occurrence. -/
theorem replaceAll_of_notMem {s : List α} (h : mark ∉ s) (r : List α) :
    replaceAll (mark :: t) new 0 (s ++ r) = s ++ replaceAll (mark :: t) new 0 r := by
  induction s with
  | nil => rfl
  | cons c s ih =>
    have hc : (mark :: t).isPrefixOf (c :: (s ++ r)) = false := by
      rw [isPrefixOf_cons_cons, beq_false_of_ne (ne_of_not_mem_cons h), Bool.false_and]
    rw [cons_append, replaceAll, hc, ih (not_mem_of_not_mem_cons h)]
    rfl

theorem replaceAll_code (r : List α) {code : List α} (h : IsCode mark t.length code) :
    replaceAll (mark :: t) new 0 (code ++ r)
      = (if code = mark :: t then new else code) ++ replaceAll (mark :: t) new 0 r := by
  rcases h with ⟨hlen, hmem⟩ | ⟨hhead, hlen, hmem⟩
  · have hne : code ≠ mark :: t := fun h => hmem (h ▸ mem_cons_self)
    rw [replaceAll_of_notMem hmem, if_neg hne]
  · obtain ⟨u, rfl⟩ : ∃ u, code = mark :: u := head?_eq_some_iff.1 hhead
    replace hlen : u.length = t.length := hlen
    replace hmem : mark ∉ u := hmem
    have hpre : (mark :: t).isPrefixOf (mark :: (u ++ r)) = true ↔ u = t := by
      rw [List.isPrefixOf_iff_prefix, prefix_cons_inj]
      refine ⟨fun hp => ?_, fun hu => hu ▸ prefix_append t r⟩
      have htu : t <+: u := prefix_of_prefix_length_le hp (prefix_append u r) (Nat.le_of_eq hlen.symm)
      exact (htu.eq_of_length hlen.symm).symm
    rw [cons_append, replaceAll]
    by_cases hu : u = t
    · rw [if_pos (hpre.2 hu), hu, if_pos rfl]
      exact congrArg (new ++ ·) (replaceAll_length (mark :: t) t r)
    · have hne : mark :: u ≠ mark :: t := fun h => hu (cons.inj h).2
      rw [if_neg (mt hpre.1 hu), if_neg hne, replaceAll_of_notMem hmem]
      rfl

/-- One code of an escaped text is replaced, and nothing else. -/
theorem replaceAll_flatMap {E : β → List α} (h : ∀ b, IsCode mark t.length (E b)) (s : List β) :
    replaceAll (mark :: t) new 0 (s.flatMap E)
      = s.flatMap fun b => if E b = mark :: t then new else E b := by
  induction s with
  | nil => rfl
  | cons b s ih => rw [flatMap_cons, replaceAll_code _ (h b), ih, flatMap_cons]

end ZfsBoot.Lib
