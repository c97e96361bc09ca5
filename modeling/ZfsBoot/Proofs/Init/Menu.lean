import ZfsBoot.Init.Menu

/-!
# `ZfsBoot.Proofs.Init.Menu`: the menu's position does not depend on the reads

A key is three bytes, and a read may end in the middle of one. What the loop knows after some reads
is a function of the bytes alone (`after`): the position that all keys so far lead to, and the last
two bytes. Two bytes hold no whole key, so none is counted twice, and a key that a read cuts is
whole in the next scan (`occurrences_append`).
-/

set_option autoImplicit false

namespace ZfsBoot.Proofs.Init.Menu

variable {itemCount start : Int}

open List ZfsBoot.Init

/-- The key that starts here. -/
def keyAt (s : List UInt8) : Option NavKey :=
  if s.take 3 = [0x1B, 0x5B, 0x41] then some .up
  else if s.take 3 = [0x1B, 0x5B, 0x42] then some .down
  else none

/-- The keys at all positions of a stream, in order. -/
def occurrences (s : List UInt8) : List NavKey := s.tails.filterMap keyAt

/-- The position after some keys. -/
def replay (itemCount start : Int) (keys : List NavKey) : Int :=
  keys.foldl (NavKey.apply itemCount) start

theorem occurrences_cons (c : UInt8) (s : List UInt8) :
    occurrences (c :: s) = (keyAt (c :: s)).toList ++ occurrences s := by
  simp only [occurrences, tails, filterMap_cons]
  cases keyAt (c :: s) <;> rfl

/-- No key starts inside a key, so none is passed over. -/
theorem navKeys_eq (s : List UInt8) : navKeys s = occurrences s := by
  fun_induction navKeys s with
  | case1 rest ih => rw [ih]; rfl
  | case2 rest ih => rw [ih]; rfl
  | case3 c rest hup hdown ih =>
    have hsplit := take_append_drop 3 (c :: rest)
    have hnone : keyAt (c :: rest) = none := by
      unfold keyAt
      split_ifs with h₁ h₂
      · rw [h₁] at hsplit
        exact (hup _ (cons.inj hsplit).1.symm (cons.inj hsplit).2.symm).elim
      · rw [h₂] at hsplit
        exact (hdown _ (cons.inj hsplit).1.symm (cons.inj hsplit).2.symm).elim
      · rfl
    rw [ih, occurrences_cons, hnone]
    rfl
  | case4 => rfl

theorem keyAt_of_short {s : List UInt8} (h : s.length < 3) : keyAt s = none := by
  have hne : ∀ x y z : UInt8, s.take 3 ≠ [x, y, z] := by
    intro x y z heq
    have hlen := congrArg length heq
    rw [length_take] at hlen
    exact absurd hlen (by simp; omega)
  rw [keyAt, if_neg (hne _ _ _), if_neg (hne _ _ _)]

/-- The keys of a longer stream: those before, and those that the last two bytes and the new ones
make up. -/
theorem occurrences_append (a b : List UInt8) :
    occurrences (a ++ b) = occurrences a ++ occurrences (a.drop (a.length - 2) ++ b) := by
  induction a with
  | nil => rfl
  | cons x a ih =>
    rcases a with _ | ⟨y, _ | ⟨z, a⟩⟩
    · rw [occurrences_cons x [], keyAt_of_short (by simp)]
      rfl
    · rw [occurrences_cons x, occurrences_cons y, keyAt_of_short (by simp),
        keyAt_of_short (by simp)]
      rfl
    · -- three bytes decide whether a key starts
      have hkey : keyAt (x :: y :: z :: a ++ b) = keyAt (x :: y :: z :: a) := rfl
      rw [cons_append, occurrences_cons, ← cons_append, hkey, ih, occurrences_cons x, append_assoc]
      rfl

theorem apply_range {itemCount position : Int} (h : 0 ≤ position ∧ position < itemCount) (k : NavKey) :
    0 ≤ k.apply itemCount position ∧ k.apply itemCount position < itemCount := by
  cases k <;> unfold NavKey.apply <;> split <;> omega

theorem replay_range (h : 0 ≤ start ∧ start < itemCount) (keys : List NavKey) :
    0 ≤ replay itemCount start keys ∧ replay itemCount start keys < itemCount := by
  induction keys generalizing start with
  | nil => exact h
  | cons k keys ih => exact ih (apply_range h k)

/-- What the loop knows after the bytes `s`. -/
structure After (itemCount start : Int) (s : List UInt8) (d : Dialog) : Prop where
  position : d.position = replay itemCount start (occurrences s)
  pendingEsc : d.pendingEsc = s.drop (s.length - 2)

theorem after_read {s : List UInt8} {d : Dialog} (h : After itemCount start s d)
    (chunk : List UInt8) : After itemCount start (s ++ chunk) (d.read itemCount chunk) := by
  unfold Dialog.read
  split
  · rename_i hnil
    rwa [hnil, append_nil]
  · constructor
    · show applyNavKeys (d.pendingEsc ++ chunk) d.position itemCount = _
      rw [applyNavKeys, navKeys_eq, h.pendingEsc, h.position, occurrences_append s, replay, replay,
        foldl_append]
    · show (d.pendingEsc ++ chunk).drop ((d.pendingEsc ++ chunk).length - 2) = _
      rw [h.pendingEsc, ← drop_append_of_le_length (Nat.sub_le ..), drop_drop, length_drop]
      congr 1
      rw [length_append]
      omega

theorem after_reads {s : List UInt8} {d : Dialog} (h : After itemCount start s d)
    (chunks : List (List UInt8)) :
    After itemCount start (s ++ chunks.flatten) (chunks.foldl (Dialog.read itemCount) d) := by
  induction chunks generalizing s d with
  | nil => rwa [flatten_nil, append_nil]
  | cons chunk chunks ih =>
    rw [flatten_cons, ← append_assoc]
    exact ih (after_read h chunk)

/-- However the keystrokes are cut into reads, the position at the end is that of all keys in the
stream, replayed in order; and the position is that of an item after every key. -/
theorem runDialog_replays {itemCount start : Int} (h : 0 ≤ start ∧ start < itemCount)
    (chunks : List (List UInt8)) :
    (runDialog start itemCount chunks).position
        = replay itemCount start (occurrences chunks.flatten) ∧
      ∀ keys, keys <+: occurrences chunks.flatten →
        0 ≤ replay itemCount start keys ∧ replay itemCount start keys < itemCount :=
  ⟨(after_reads (s := []) ⟨rfl, rfl⟩ chunks).position, fun keys _ => replay_range h keys⟩

/-- Down, and a second Down that comes in three reads, in a menu of three items. -/
theorem runDialog_replays_cut :
    (runDialog 1 3 [[0x1B, 0x5B, 0x42, 0x1B], [0x5B], [0x42, 0x0D]]).position
        = replay 3 1 (occurrences [0x1B, 0x5B, 0x42, 0x1B, 0x5B, 0x42, 0x0D]) ∧
      occurrences [0x1B, 0x5B, 0x42, 0x1B, 0x5B, 0x42, 0x0D] = [.down, .down] :=
  ⟨(runDialog_replays (by decide) [[0x1B, 0x5B, 0x42, 0x1B], [0x5B], [0x42, 0x0D]]).1, rfl⟩

end ZfsBoot.Proofs.Init.Menu
