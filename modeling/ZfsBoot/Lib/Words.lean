import Mathlib.Data.List.TakeWhile
import Mathlib.Tactic.Common

/-!
# `ZfsBoot.Lib.Words`: scanning a list word by word

The words of a list are its parts between separators, `List.splitOn`. A C loop that looks for a
word takes the list apart from the front: the word before the first separator, then what comes
after it. These are the equations between the two views.
-/

set_option autoImplicit false

namespace ZfsBoot.Lib

open List

variable {α : Type} [BEq α] [LawfulBEq α] {sep x : α}

/-- The first word ends the list. -/
theorem splitOn_of_dropWhile_nil {sep : α} {l : List α} (h : l.dropWhile (· != sep) = []) :
    l.splitOn sep = [l.takeWhile (· != sep)] := by
  have hall : ∀ x ∈ l, (x == sep) = false := by
    intro x hx
    have := dropWhile_eq_nil_iff.mp h x hx
    simpa [bne] using this
  rw [takeWhile_eq_self_iff.mpr fun x hx => by simp [bne, hall x hx]]
  exact splitOnP_eq_singleton hall

/-- The first word, and the words after the separator. -/
theorem splitOn_of_dropWhile_cons {l rest : List α} (h : l.dropWhile (· != sep) = x :: rest) :
    l.splitOn sep = l.takeWhile (· != sep) :: rest.splitOn sep := by
  have hx : (x == sep) = true := by
    have := List.head?_dropWhile_not (· != sep) l
    rw [h] at this
    simpa [bne] using this
  have hword : ∀ y ∈ l.takeWhile (· != sep), (y == sep) = false := by
    intro y hy
    have := mem_takeWhile_imp hy
    simpa [bne] using this
  calc l.splitOn sep
      = (l.takeWhile (· != sep) ++ x :: rest).splitOnP (· == sep) := by
        rw [← h, takeWhile_append_dropWhile]
        rfl
    _ = _ := by
        rw [splitOnP_append_cons (p := (· == sep)) _ _ hx, splitOnP_eq_singleton hword]
        rfl

/-- Separators at the front only add empty words. -/
theorem find?_splitOn_dropWhile {sep : α} {p : List α → Bool} (hp : p [] = false) (l : List α) :
    ((l.dropWhile (· == sep)).splitOn sep).find? p = (l.splitOn sep).find? p := by
  induction l with
  | nil => rfl
  | cons x l ih =>
    by_cases hx : (x == sep) = true
    · have hsplit : (x :: l).splitOn sep = [] :: l.splitOn sep := by
        have := splitOn_of_dropWhile_cons
          (show (x :: l).dropWhile (· != sep) = x :: l from
            dropWhile_cons_of_neg (by simp [bne, hx]))
        rwa [takeWhile_cons_of_neg (by simp [bne, hx])] at this
      rw [dropWhile_cons_of_pos (p := (· == sep)) hx, ih, hsplit,
        List.find?_cons_of_neg (by simp [hp])]
    · rw [dropWhile_cons_of_neg (p := (· == sep)) hx]

/-- An element more in front. -/
theorem splitOn_cons [DecidableEq α] (sep c : α) (l : List α) : (c :: l).splitOn sep
    = if c = sep then [] :: l.splitOn sep else (l.splitOn sep).modifyHead (c :: ·) := by
  have h : (c :: l).splitOn sep = _ := splitOnP_cons_eq_if_modifyHead c l
  simp only [beq_iff_eq] at h
  exact h

/-- A word has no separator. -/
theorem notMem_of_mem_splitOn [DecidableEq α] {sep : α} {l w : List α} (hw : w ∈ l.splitOn sep) :
    sep ∉ w := by
  induction l generalizing w with
  | nil =>
    rw [splitOn_nil, mem_singleton] at hw
    rw [hw]
    exact not_mem_nil
  | cons c l ih =>
    rw [splitOn_cons] at hw
    split at hw
    · rcases mem_cons.1 hw with rfl | hw
      · exact not_mem_nil
      · exact ih hw
    · rename_i hc
      rcases hs : l.splitOn sep with _ | ⟨first, rest⟩
      all_goals rw [hs] at hw
      · cases hw
      · rcases mem_cons.1 hw with rfl | hw
        · rw [mem_cons, not_or]
          exact ⟨Ne.symm hc, ih (hs ▸ mem_cons_self)⟩
        · exact ih (hs ▸ mem_cons_of_mem _ hw)

/-- The words after the first, each with the separator before it. -/
def afterWords (sep : α) (ws : List (List α)) : List α := ws.flatMap (sep :: ·)

omit [BEq α] [LawfulBEq α] in
theorem intercalate_cons (sep : α) (w : List α) (ws : List (List α)) :
    [sep].intercalate (w :: ws) = w ++ afterWords sep ws := by
  induction ws generalizing w with
  | nil => simp [List.intercalate, afterWords]
  | cons w' ws ih =>
    have h := ih w'
    simp only [List.intercalate, List.intersperse, flatten_cons, afterWords,
      flatMap_cons] at h ⊢
    rw [h]
    simp

omit [BEq α] [LawfulBEq α] in
theorem mem_intercalate {ws : List (List α)} (h : x ∈ [sep].intercalate ws) :
    x = sep ∨ ∃ w ∈ ws, x ∈ w := by
  cases ws with
  | nil => cases h
  | cons w ws =>
    rw [intercalate_cons, mem_append] at h
    rcases h with h | h
    · exact .inr ⟨w, mem_cons_self, h⟩
    · obtain ⟨w', hw', h⟩ := mem_flatMap.1 h
      rcases mem_cons.1 h with h | h
      · exact .inl h
      · exact .inr ⟨w', mem_cons_of_mem _ hw', h⟩

omit [BEq α] [LawfulBEq α] in
theorem mem_intercalate_of_mem {w : List α} {ws : List (List α)} (hw : w ∈ ws) (hx : x ∈ w) :
    x ∈ [sep].intercalate ws := by
  cases ws with
  | nil => cases hw
  | cons v ws =>
    rw [intercalate_cons, mem_append]
    rcases mem_cons.1 hw with rfl | hw
    · exact .inl hx
    · exact .inr (mem_flatMap.2 ⟨w, hw, mem_cons_of_mem _ hx⟩)

/-- A word is made of elements of the list. -/
theorem mem_of_mem_splitOn {l w : List α} (hw : w ∈ l.splitOn sep) (hx : x ∈ w) : x ∈ l := by
  have hl : [sep].intercalate (l.splitOn sep) = l := intercalate_splitOn sep
  rw [← hl]
  exact mem_intercalate_of_mem hw hx

/-- A list is its first word and the words after it. -/
theorem exists_words [DecidableEq α] (sep : α) (l : List α) :
    ∃ w ws, l.splitOn sep = w :: ws ∧ l = w ++ afterWords sep ws
      ∧ sep ∉ w ∧ ∀ v ∈ ws, sep ∉ v := by
  rcases hs : l.splitOn sep with _ | ⟨w, ws⟩
  · exact absurd hs (splitOnP_ne_nil _ l)
  · refine ⟨w, ws, rfl, ?_, notMem_of_mem_splitOn (hs ▸ mem_cons_self), fun v hv =>
      notMem_of_mem_splitOn (hs ▸ mem_cons_of_mem _ hv)⟩
    rw [← intercalate_cons, ← hs, intercalate_splitOn]

/-- An element that is not a separator is in a word. -/
theorem exists_mem_splitOn [DecidableEq α] {l : List α} (hx : x ∈ l) (hne : x ≠ sep) :
    ∃ w ∈ l.splitOn sep, x ∈ w := by
  have hl : [sep].intercalate (l.splitOn sep) = l := intercalate_splitOn sep
  rw [← hl] at hx
  exact (mem_intercalate hx).resolve_left hne

/-- Where two lists meet, the last word of the one and the first word of the other are one word. -/
theorem splitOn_append [DecidableEq α] (sep : α) (a b : List α) : ∃ init last first tail,
    a.splitOn sep = init ++ [last] ∧ b.splitOn sep = first :: tail
      ∧ (a ++ b).splitOn sep = init ++ (last ++ first) :: tail := by
  induction a with
  | nil =>
    obtain ⟨first, tail, hb, -⟩ := exists_words sep b
    exact ⟨[], [], first, tail, rfl, hb, hb⟩
  | cons c a ih =>
    obtain ⟨init, last, first, tail, ha, hb, hab⟩ := ih
    rw [cons_append, splitOn_cons, splitOn_cons, ha, hab]
    split
    · exact ⟨[] :: init, last, first, tail, rfl, hb, rfl⟩
    · cases init with
      | nil => exact ⟨[], c :: last, first, tail, rfl, hb, rfl⟩
      | cons w init => exact ⟨(c :: w) :: init, last, first, tail, rfl, hb, rfl⟩

/-- An element at the end that is not a separator goes to the last word. -/
theorem splitOn_append_singleton [DecidableEq α] (hx : x ≠ sep) (l : List α) :
    ∃ init last, l.splitOn sep = init ++ [last]
      ∧ (l ++ [x]).splitOn sep = init ++ [last ++ [x]] := by
  obtain ⟨init, last, first, tail, hl, hsingle, happend⟩ := splitOn_append sep l [x]
  rw [splitOn_cons, if_neg hx, splitOn_nil, modifyHead_cons, List.cons.injEq] at hsingle
  exact ⟨init, last, hl, by rw [happend, ← hsingle.1, ← hsingle.2]⟩

/-- A separator between two lists. -/
theorem splitOn_append_cons (sep : α) (a b : List α) :
    (a ++ sep :: b).splitOn sep = a.splitOn sep ++ b.splitOn sep :=
  splitOnP_append_cons _ _ (beq_self_eq_true sep)

theorem splitOn_of_notMem {sep : α} {l : List α} (h : sep ∉ l) : l.splitOn sep = [l] := by
  have hall : ∀ x ∈ l, (x != sep) = true := by
    intro x hx
    rw [bne_iff_ne]
    rintro rfl
    exact h hx
  rw [splitOn_of_dropWhile_nil (dropWhile_eq_nil_iff.2 hall), takeWhile_eq_self_iff.2 hall]

/-- Lines that are ended one by one leave an empty piece behind the last. -/
theorem splitOn_flatMap {sep : α} {ls : List (List α)} (h : ∀ l ∈ ls, sep ∉ l) :
    (ls.flatMap (· ++ [sep])).splitOn sep = ls ++ [[]] := by
  induction ls with
  | nil => rfl
  | cons l ls ih =>
    rw [flatMap_cons, append_assoc, singleton_append, splitOn_append_cons,
      splitOn_of_notMem (h l mem_cons_self), ih fun l' hl' => h l' (mem_cons_of_mem _ hl'),
      singleton_append, cons_append]

/-- A prefix without separators is a prefix of the first word. -/
theorem isPrefixOf_takeWhile {p : α → Bool} {key l : List α} (hkey : ∀ x ∈ key, p x = true) :
    key.isPrefixOf (l.takeWhile p) = key.isPrefixOf l := by
  rw [Bool.eq_iff_iff, List.isPrefixOf_iff_prefix, List.isPrefixOf_iff_prefix]
  constructor
  · exact fun h => h.trans (List.takeWhile_prefix p)
  · rintro ⟨t, rfl⟩
    rw [takeWhile_append_of_pos hkey]
    exact prefix_append _ _

omit [BEq α] [LawfulBEq α] in
/-- What follows a prefix of the first word, up to the end of the word. -/
theorem takeWhile_drop_takeWhile {p q : α → Bool} {key l : List α} (hkey : ∀ x ∈ key, p x = true)
    (h : key <+: l) :
    ((l.takeWhile p).drop key.length).takeWhile q
      = (l.drop key.length).takeWhile fun x => p x && q x := by
  obtain ⟨t, rfl⟩ := h
  rw [takeWhile_append_of_pos hkey, drop_left, drop_left, takeWhile_takeWhile]
  congr 1
  funext x
  rw [Bool.decide_and, Bool.decide_eq_true, Bool.decide_eq_true, Bool.and_comm]

end ZfsBoot.Lib
