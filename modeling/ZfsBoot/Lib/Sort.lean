import Mathlib.Data.List.Sort

/-!
# `ZfsBoot.Lib.Sort`: lists sorted by a key

Go sorts with a comparison of its own, which need not be an order on all values: it may be one only
on the values of the list. The rules here ask no more than that. On the list the comparison agrees
with the order of a key, and then the sorted list is ascending in the key
(`pairwise_insertionSort_of_key`). If the key tells the values apart, the sorted list depends only
on which values there are, not on their order (`insertionSort_eq_of_perm`).
-/

set_option autoImplicit false

namespace ZfsBoot.Lib

open List

/-- A list with at most one value has only one order. -/
theorem eq_of_perm_of_length_le_one {α : Type} {l l' : List α} (h : l.Perm l')
    (hlen : l.length ≤ 1) : l = l' := by
  cases l with
  | nil => exact h.nil_eq
  | cons a l =>
    obtain rfl : l = [] := length_eq_zero_iff.1 (by rw [length_cons] at hlen; omega)
    exact singleton_perm.1 h

variable {α κ : Type} [LinearOrder κ] {r r' : α → α → Prop} [DecidableRel r] [DecidableRel r']
  {l l' : List α} {key : α → κ}

theorem orderedInsert_congr {a : α} (h : ∀ b ∈ l, (r a b ↔ r' a b)) :
    l.orderedInsert r a = l.orderedInsert r' a := by
  induction l with
  | nil => rfl
  | cons b l ih =>
    have hb := h b mem_cons_self
    rw [List.orderedInsert, List.orderedInsert, ih fun c hc => h c (mem_cons_of_mem _ hc)]
    simp only [hb]

/-- What a sort compares is what is in the list. -/
theorem insertionSort_congr (h : ∀ a ∈ l, ∀ b ∈ l, (r a b ↔ r' a b)) :
    l.insertionSort r = l.insertionSort r' := by
  induction l with
  | nil => rfl
  | cons a l ih =>
    rw [insertionSort_cons, insertionSort_cons,
      ih fun b hb c hc => h b (mem_cons_of_mem _ hb) c (mem_cons_of_mem _ hc)]
    refine orderedInsert_congr fun b hb => h a mem_cons_self b (mem_cons_of_mem _ ?_)
    exact (mem_insertionSort r').1 hb

/-- A list sorted by a comparison that agrees with a key is ascending in the key. -/
theorem pairwise_insertionSort_of_key (h : ∀ a ∈ l, ∀ b ∈ l, (r a b ↔ key a ≤ key b)) :
    (l.insertionSort r).Pairwise fun a b => key a ≤ key b := by
  have : Std.Total fun a b : α => key a ≤ key b := ⟨fun a b => le_total _ _⟩
  have : IsTrans α fun a b => key a ≤ key b := ⟨fun _ _ _ => le_trans⟩
  rw [insertionSort_congr h]
  exact pairwise_insertionSort _ l

/-- Two lists of the same values, ascending in a key that tells them apart, are the same list. -/
theorem eq_of_perm_of_key (hperm : l.Perm l') (hkey : ∀ a ∈ l, ∀ b ∈ l, key a = key b → a = b)
    (h : l.Pairwise fun a b => key a ≤ key b) (h' : l'.Pairwise fun a b => key a ≤ key b) :
    l = l' :=
  hperm.eq_of_pairwise
    (fun a b ha hb hab hba => hkey a ha b (hperm.mem_iff.2 hb) (le_antisymm hab hba)) h h'

/-- The order of the values before a sort does not matter if the key tells them apart. -/
theorem insertionSort_eq_of_perm (hperm : l.Perm l') (h : ∀ a ∈ l, ∀ b ∈ l, (r a b ↔ key a ≤ key b))
    (hkey : ∀ a ∈ l, ∀ b ∈ l, key a = key b → a = b) :
    l.insertionSort r = l'.insertionSort r := by
  have hmem : ∀ a, a ∈ l.insertionSort r → a ∈ l := fun a => (mem_insertionSort r).1
  refine eq_of_perm_of_key ?_ (fun a ha b hb => hkey a (hmem a ha) b (hmem b hb))
    (pairwise_insertionSort_of_key h) (pairwise_insertionSort_of_key fun a ha b hb =>
      h a (hperm.mem_iff.2 ha) b (hperm.mem_iff.2 hb))
  exact ((perm_insertionSort r l).trans hperm).trans (perm_insertionSort r l').symm

end ZfsBoot.Lib
