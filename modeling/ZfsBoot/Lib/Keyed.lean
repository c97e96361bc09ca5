import Mathlib.Data.List.Basic

/-!
# `ZfsBoot.Lib.Keyed`: entries that start with a key

A text that is a sequence of entries (the words of a line, the lines of a file), some of which are a
key followed by a value. Setting a key removes all of its entries and puts one at the end; the last
entry of a key is the one that counts.

The laws are those of a store, for keys that are apart: no entry starts with both. Setting a key is
seen by a lookup of it and by no other, the second of two settings of a key wins, and settings of
two keys commute, up to the order of the new entries.
-/

set_option autoImplicit false

namespace ZfsBoot.Lib

open List

variable {α : Type}

/-- The entry of a key, unless the value is empty. -/
def newEntry (key value : List α) : List (List α) := if value.isEmpty then [] else [key ++ value]

/-- No entry starts with both keys. -/
def Apart (key key' : List α) : Prop := ∀ e, key <+: e → ¬ key' <+: e

theorem Apart.symm {key key' : List α} (h : Apart key key') : Apart key' key :=
  fun e he he' => h e he' he

variable {key key' value value' : List α} {es : List (List α)}

theorem mem_newEntry {e : List α} (he : e ∈ newEntry key value) : e = key ++ value := by
  unfold newEntry at he
  split_ifs at he
  · cases he
  · exact mem_singleton.1 he

theorem isPrefixOf_newEntry {e : List α} (he : e ∈ newEntry key value) : key <+: e := by
  rw [mem_newEntry he]
  exact prefix_append _ _

variable [BEq α]

/-- The entries of other keys. -/
def otherEntries (key : List α) (es : List (List α)) : List (List α) :=
  es.filter fun e => ¬ key.isPrefixOf e

/-- The entries with one key set, or unset if the value is empty. -/
def setEntry (key value : List α) (es : List (List α)) : List (List α) :=
  otherEntries key es ++ newEntry key value

/-- What follows the key in its last entry. -/
def lastEntry (key : List α) (es : List (List α)) : Option (List α) :=
  (es.filter key.isPrefixOf).getLast?.map (·.drop key.length)

theorem otherEntries_append (es es' : List (List α)) :
    otherEntries key (es ++ es') = otherEntries key es ++ otherEntries key es' :=
  filter_append _ _

theorem otherEntries_otherEntries :
    otherEntries key (otherEntries key es) = otherEntries key es := by
  rw [otherEntries, otherEntries, filter_filter]
  simp

theorem otherEntries_comm :
    otherEntries key (otherEntries key' es) = otherEntries key' (otherEntries key es) :=
  filter_comm _ _ _

variable [LawfulBEq α]

/-- Keys that end at their first `sep`. -/
theorem apart_of_notMem {sep : α} {k k' : List α} (h : sep ∉ k) (h' : sep ∉ k') (hne : k ≠ k') :
    Apart (k ++ [sep]) (k' ++ [sep]) := by
  have hbefore : ∀ {k t : List α}, sep ∉ k → (k ++ [sep] ++ t).takeWhile (· != sep) = k := by
    intro k t hk
    have hall : ∀ x ∈ k, (x != sep) = true := by
      intro x hx
      rw [bne_iff_ne]
      rintro rfl
      exact hk hx
    rw [append_assoc, takeWhile_append_of_pos hall]
    simp
  rintro e ⟨t, rfl⟩ ⟨t', ht⟩
  have hsame := congrArg (List.takeWhile (· != sep)) ht
  rw [hbefore h, hbefore h'] at hsame
  exact hne hsame.symm

/-- The new entry of a key is not one of another. -/
theorem otherEntries_newEntry (h : Apart key key') :
    otherEntries key (newEntry key' value) = newEntry key' value := by
  refine filter_eq_self.2 fun e he => ?_
  rw [decide_eq_true_eq, List.isPrefixOf_iff_prefix]
  exact h.symm e (isPrefixOf_newEntry he)

theorem otherEntries_newEntry_self : otherEntries key (newEntry key value) = [] := by
  refine filter_eq_nil_iff.2 fun e he => ?_
  rw [decide_eq_true_eq, not_not, List.isPrefixOf_iff_prefix]
  exact isPrefixOf_newEntry he

/-! ### Lookups -/

theorem filter_otherEntries (h : Apart key key') :
    (otherEntries key es).filter key'.isPrefixOf = es.filter key'.isPrefixOf := by
  rw [otherEntries, filter_filter]
  refine filter_congr fun e _ => ?_
  by_cases he : key' <+: e
  · have hother : ¬ key <+: e := h.symm e he
    rw [← List.isPrefixOf_iff_prefix] at he hother
    simp [he, hother]
  · rw [← List.isPrefixOf_iff_prefix] at he
    simp [he]

/-- The key that was set has the new value. -/
theorem lastEntry_setEntry :
    lastEntry key (setEntry key value es) = if value.isEmpty then none else some value := by
  have hnone : (otherEntries key es).filter key.isPrefixOf = [] := by
    rw [otherEntries, filter_filter]
    simp
  rw [lastEntry, setEntry, filter_append, hnone, nil_append, newEntry]
  split_ifs
  · rfl
  · have hstart : key.isPrefixOf (key ++ value) = true :=
      List.isPrefixOf_iff_prefix.2 (prefix_append _ _)
    rw [filter_cons_of_pos hstart, filter_nil, List.getLast?_singleton, Option.map_some,
      drop_left]

/-- Every other key has its value still. -/
theorem lastEntry_setEntry_of_apart (h : Apart key key') :
    lastEntry key' (setEntry key value es) = lastEntry key' es := by
  have hnew : (newEntry key value).filter key'.isPrefixOf = [] := by
    refine filter_eq_nil_iff.2 fun e he => ?_
    rw [List.isPrefixOf_iff_prefix]
    exact h e (isPrefixOf_newEntry he)
  rw [lastEntry, setEntry, filter_append, hnew, append_nil, filter_otherEntries h]
  rfl

/-! ### Two settings -/

/-- The second of two settings of a key wins. -/
theorem setEntry_setEntry : setEntry key value' (setEntry key value es) = setEntry key value' es := by
  rw [setEntry, setEntry, otherEntries_append, otherEntries_otherEntries, otherEntries_newEntry_self,
    append_nil]
  rfl

/-- Settings of two keys: what both leave, and the two new entries. -/
theorem setEntry_of_apart (h : Apart key key') :
    setEntry key' value' (setEntry key value es)
      = otherEntries key' (otherEntries key es) ++ newEntry key value ++ newEntry key' value' := by
  rw [setEntry, setEntry, otherEntries_append, otherEntries_newEntry h.symm]

end ZfsBoot.Lib
