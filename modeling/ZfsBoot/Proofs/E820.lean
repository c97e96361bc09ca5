import ZfsBoot.Bios.Stage2

/-!
# `ZfsBoot.Proofs.E820`: what the range check says about a range

An entry of the map is a set of addresses, and so is a range. `InRam` and `InOther` are the two
questions that `e820_range_check` asks about an address, in those terms. The map may be in any
order, and its entries may overlap, be empty, or run past `2 ^ 64`.

The search for the RAM that goes on at an address is one maximum (`reach_spec`). The walk repeats it
until there is none: it finds the first address of the range that is not RAM (`ramWalk_spec`). From
there the results of the check are a matter of the first such address and of the other entries
(`rangeCheck_exact`).

The walk looks at the top of RAM only there. A range that has a hole below the top and goes on
above it is not reported as one above RAM, and a RAM entry of size 0 counts as RAM when the top is
computed. `beyondRam_iff` says when the check gets this right.

The check also reports an address. It looks for holes first and for other entries only after that, in
the order of the map, so the address need not be the lowest one that is wrong (`bad_isLeast_iff`).
-/

set_option autoImplicit false

namespace ZfsBoot.Proofs.E820

open List
open Lib Lib.Halting Bios

variable {x : Nat} {e : E820Entry}

/-! ### Entries and ranges as sets of addresses -/

/-- An entry of the C type: its fields are 64-bit values. -/
def Is64 (e : E820Entry) : Prop := e.addr < 2 ^ 64 ∧ e.size < 2 ^ 64

/-- The entry covers an address. -/
def Covers (e : E820Entry) (x : Nat) : Prop := e.addr ≤ x ∧ x < e.addr + e.size

/-- The address lies in a RAM entry. -/
def InRam (map : List E820Entry) (x : Nat) : Prop := ∃ e ∈ map, e.type = e820TypeRam ∧ Covers e x

/-- The address lies in an entry of another type. -/
def InOther (map : List E820Entry) (x : Nat) : Prop := ∃ e ∈ map, e.type ≠ e820TypeRam ∧ Covers e x

/-- The address is at or above the end of every RAM entry that is not empty. -/
def AboveRam (map : List E820Entry) (x : Nat) : Prop :=
  ∀ e ∈ map, e.type = e820TypeRam → e.size ≠ 0 → e.addr + e.size ≤ x

/-- The end of an entry stops at the largest address. -/
theorem endOf_eq (h : Is64 e) :
    endOf e.addr e.size = min (e.addr + e.size) (2 ^ 64 - 1) := by
  obtain ⟨haddr, hsize⟩ := h
  unfold endOf u64
  split_ifs <;> omega

/-- Below the largest address, the end of an entry is its end. -/
theorem lt_endOf_iff (h : Is64 e) (hx : x < 2 ^ 64 - 1) :
    x < endOf e.addr e.size ↔ x < e.addr + e.size := by
  rw [endOf_eq h, Nat.lt_min]
  exact and_iff_left hx

/-! ### The walk -/

/-- RAM goes on at `cur` in this entry. -/
def GoesOn (cur : Nat) (e : E820Entry) : Prop :=
  e.type = e820TypeRam ∧ e.size ≠ 0 ∧ e.addr ≤ cur ∧ cur < endOf e.addr e.size

theorem foldl_reachFrom_spec (cur : Nat) (map : List E820Entry) (best : Nat) :
    (map.foldl (reachFrom cur) best = best
        ∨ ∃ e ∈ map, GoesOn cur e ∧ map.foldl (reachFrom cur) best = endOf e.addr e.size)
      ∧ ∀ e ∈ map, GoesOn cur e → endOf e.addr e.size ≤ map.foldl (reachFrom cur) best := by
  induction map generalizing best with
  | nil => simp
  | cons e map ih =>
    have hstep : reachFrom cur best e = best ∧ (GoesOn cur e → endOf e.addr e.size ≤ best)
        ∨ reachFrom cur best e = endOf e.addr e.size ∧ GoesOn cur e
          ∧ best < endOf e.addr e.size := by
      unfold reachFrom GoesOn
      split_ifs with hskip htake
      · exact .inl ⟨rfl, fun h => absurd hskip (by tauto)⟩
      · exact .inr ⟨rfl, by tauto, htake.2.2⟩
      · exact .inl ⟨rfl, fun h => by omega⟩
    have hle := le_foldl_reachFrom cur map (reachFrom cur best e)
    rw [foldl_cons]
    rcases hstep with ⟨hsame, hbound⟩ | ⟨hnew, hgoes, hlt⟩
    · rw [hsame] at hle ⊢
      obtain ⟨hcases, hall⟩ := ih best
      refine ⟨hcases.imp_right ?_, forall_mem_cons.2 ⟨fun h => (hbound h).trans hle, hall⟩⟩
      exact fun ⟨e', he', h⟩ => ⟨e', mem_cons_of_mem _ he', h⟩
    · rw [hnew] at hle ⊢
      obtain ⟨hcases, hall⟩ := ih (endOf e.addr e.size)
      refine ⟨.inr ?_, forall_mem_cons.2 ⟨fun _ => hle, hall⟩⟩
      rcases hcases with h | ⟨e', he', h⟩
      · exact ⟨e, mem_cons_self, hgoes, h⟩
      · exact ⟨e', mem_cons_of_mem _ he', h⟩

/-- The search finds the end of a RAM entry that covers `cur`, and none ends later; or there is
none. -/
theorem reach_spec (map : List E820Entry) (cur : Nat) :
    (reach map cur = cur ∧ ∀ e ∈ map, ¬ GoesOn cur e)
      ∨ cur < reach map cur ∧ ∃ e ∈ map, GoesOn cur e ∧ reach map cur = endOf e.addr e.size := by
  obtain ⟨hcases, hall⟩ := foldl_reachFrom_spec cur map cur
  rcases hcases with h | ⟨e, he, hgoes, h⟩
  · refine .inl ⟨h, fun e he hgoes => ?_⟩
    have hle := hall e he hgoes
    rw [h] at hle
    exact absurd hgoes.2.2.2 (Nat.not_lt.2 hle)
  · exact .inr ⟨Nat.lt_of_lt_of_eq hgoes.2.2.2 h.symm, e, he, hgoes, h⟩

section

variable {map : List E820Entry} (h64 : ∀ e ∈ map, Is64 e) {stop : Nat}

include h64

/-- An entry in which RAM goes on covers the address. -/
theorem exists_goesOn_iff (hx : x < 2 ^ 64 - 1) :
    (∃ e ∈ map, GoesOn x e) ↔ InRam map x := by
  constructor
  · rintro ⟨e, he, hram, -, hle, hlt⟩
    exact ⟨e, he, hram, hle, (lt_endOf_iff (h64 e he) hx).1 hlt⟩
  · rintro ⟨e, he, hram, hle, hlt⟩
    exact ⟨e, he, hram, by omega, hle, (lt_endOf_iff (h64 e he) hx).2 hlt⟩

/-- The walk from `cur` to `stop` finds the first address that is not RAM. -/
theorem ramWalk_spec (hstop : stop < 2 ^ 64) (cur : Nat) :
    (ramWalk map stop cur = none ∧ ∀ x, cur ≤ x → x < stop → InRam map x)
      ∨ ∃ bad, ramWalk map stop cur = some bad ∧ cur ≤ bad ∧ bad < stop ∧ ¬ InRam map bad
        ∧ ∀ x, cur ≤ x → x < bad → InRam map x := by
  -- by the walk's own recursion: each round starts where the RAM of the round before ends
  fun_induction ramWalk map stop cur with
  | case1 cur hlt hnone =>
    refine .inr ⟨cur, rfl, le_rfl, hlt, ?_, fun x _ _ => by omega⟩
    rcases reach_spec map cur with ⟨-, hno⟩ | ⟨hlt', -⟩
    · rw [← exists_goesOn_iff h64 (by omega)]
      exact fun ⟨e, he, hgoes⟩ => hno e he hgoes
    · omega
  | case2 cur hlt hne ih =>
    obtain ⟨hgt, e, he, hgoes, hreach⟩ := (reach_spec map cur).resolve_left fun h => hne h.1
    have hram : ∀ x, cur ≤ x → x < reach map cur → x < 2 ^ 64 - 1 → InRam map x := by
      intro x hle hx hx64
      refine ⟨e, he, hgoes.1, hgoes.2.2.1.trans hle, ?_⟩
      exact (lt_endOf_iff (h64 e he) hx64).1 (hreach ▸ hx)
    rcases ih with ⟨hnone, hall⟩ | ⟨bad, hsome, hle, hbad, hnot, hall⟩
    · refine .inl ⟨hnone, fun x hx hxs => ?_⟩
      by_cases hxr : x < reach map cur
      · exact hram x hx hxr (by omega)
      · exact hall x (Nat.not_lt.1 hxr) hxs
    · refine .inr ⟨bad, hsome, by omega, hbad, hnot, fun x hx hxb => ?_⟩
      by_cases hxr : x < reach map cur
      · exact hram x hx hxr (by omega)
      · exact hall x (Nat.not_lt.1 hxr) hxb
  | case3 cur hge => exact .inl ⟨rfl, fun x hx hxs => by omega⟩

end

/-! ### The other entries, and the top of RAM -/

/-- The range has an address in an entry of another type. -/
theorem reservedAt_isSome_iff {map : List E820Entry} (h64 : ∀ e ∈ map, Is64 e) {start len : Nat}
    (hlen : 0 < len) (hend : start + len < 2 ^ 64) :
    (reservedAt map start len).isSome ↔ ∃ x, start ≤ x ∧ x < start + len ∧ InOther map x := by
  have hrange : endOf start len = start + len := by
    unfold endOf
    rw [u64_of_lt hend, if_neg (by omega)]
  rw [reservedAt, Option.isSome_map, List.find?_isSome]
  simp only [decide_eq_true_eq]
  constructor
  · rintro ⟨e, he, hother, hoverlap⟩
    unfold e820RangesOverlap at hoverlap
    split_ifs at hoverlap with hempty
    rw [decide_eq_true_eq, hrange] at hoverlap
    rw [lt_endOf_iff (h64 e he) (by omega)] at hoverlap
    refine ⟨max start e.addr, le_max_left _ _, by omega, e, he, hother, le_max_right _ _, by omega⟩
  · rintro ⟨x, hx, hxs, e, he, hother, hle, hlt⟩
    refine ⟨e, he, hother, ?_⟩
    unfold e820RangesOverlap
    rw [if_neg (by omega), decide_eq_true_eq, hrange, lt_endOf_iff (h64 e he) (by omega)]
    omega

/-- The top of RAM, empty entries included. -/
theorem ramTop_le_iff (map : List E820Entry) (x : Nat) :
    ramTop map ≤ x ↔ ∀ e ∈ map, e.type = e820TypeRam → endOf e.addr e.size ≤ x := by
  have hfold : ∀ (map : List E820Entry) (top : Nat),
      map.foldl (fun top e =>
          if e.type = e820TypeRam ∧ endOf e.addr e.size > top then endOf e.addr e.size else top) top
        ≤ x ↔ top ≤ x ∧ ∀ e ∈ map, e.type = e820TypeRam → endOf e.addr e.size ≤ x := by
    intro map
    induction map with
    | nil => simp
    | cons e map ih =>
      intro top
      rw [foldl_cons, ih, forall_mem_cons, ← and_assoc]
      refine and_congr_left fun _ => ?_
      split_ifs with h
      · exact ⟨fun hle => ⟨by omega, fun _ => hle⟩, fun hle => hle.2 h.1⟩
      · refine ⟨fun hle => ⟨hle, fun hram => ?_⟩, fun hle => hle.1⟩
        have : ¬ endOf e.addr e.size > top := fun hgt => h ⟨hram, hgt⟩
        omega
  simpa [ramTop] using hfold map 0

/-! ### The check -/

section

variable {map : List E820Entry} (h64 : ∀ e ∈ map, Is64 e) {start len : Nat} (hlen : 0 < len)
  (hend : start + len < 2 ^ 64)

include h64 hlen hend

/-- The result is decided by the first address that is not RAM, and without one by the entries of
other types. -/
theorem rangeCheck_eq :
    (∃ bad, start ≤ bad ∧ bad < start + len ∧ ¬ InRam map bad
        ∧ (∀ x, start ≤ x → x < bad → InRam map x)
        ∧ e820RangeCheck map start len = (if ramTop map ≤ bad then .beyondRam else .notRam, bad))
      ∨ (∀ x, start ≤ x → x < start + len → InRam map x)
        ∧ e820RangeCheck map start len = match reservedAt map start len with
          | some bad => (.reserved, bad)
          | none => (.ok, start) := by
  have hstop : u64 (start + len) = start + len := u64_of_lt hend
  unfold e820RangeCheck
  dsimp only
  rw [hstop, if_neg (by omega), if_neg (by omega)]
  rcases ramWalk_spec h64 hend start with ⟨hnone, hall⟩ | ⟨bad, hsome, hle, hlt, hnot, hall⟩
  · refine .inr ⟨hall, ?_⟩
    cases reservedAt map start len <;> simp only [hnone]
  · exact .inl ⟨bad, hle, hlt, hnot, hall, by simp only [hsome]⟩

theorem rangeCheck_cases :
    (∃ bad, start ≤ bad ∧ bad < start + len ∧ ¬ InRam map bad
        ∧ (∀ x, start ≤ x → x < bad → InRam map x)
        ∧ (e820RangeCheck map start len).1 = if ramTop map ≤ bad then .beyondRam else .notRam)
      ∨ (∀ x, start ≤ x → x < start + len → InRam map x)
        ∧ (e820RangeCheck map start len).1
          = if (reservedAt map start len).isSome then .reserved else .ok := by
  rcases rangeCheck_eq h64 hlen hend with ⟨bad, hle, hlt, hnot, hall, hres⟩ | ⟨hall, hres⟩
  · exact .inl ⟨bad, hle, hlt, hnot, hall, by rw [hres]⟩
  · refine .inr ⟨hall, ?_⟩
    rw [hres]
    cases reservedAt map start len <;> rfl

/-- For every map, in any order and with any overlaps, and every range that is not empty and does
not wrap: the check says OK exactly if every address of the range is in a RAM entry and none is in
another entry, and RESERVED exactly if every address is in a RAM entry and one is also in another
entry. -/
theorem rangeCheck_exact :
    ((e820RangeCheck map start len).1 = .ok
        ↔ ∀ x, start ≤ x → x < start + len → InRam map x ∧ ¬ InOther map x)
      ∧ ((e820RangeCheck map start len).1 = .reserved
        ↔ (∀ x, start ≤ x → x < start + len → InRam map x)
          ∧ ∃ x, start ≤ x ∧ x < start + len ∧ InOther map x) := by
  rcases rangeCheck_cases h64 hlen hend with ⟨bad, hle, hlt, hnot, -, hres⟩ | ⟨hall, hres⟩
  · have hne : (e820RangeCheck map start len).1 ≠ .ok
        ∧ (e820RangeCheck map start len).1 ≠ .reserved := by
      rw [hres]
      split_ifs <;> exact ⟨by decide, by decide⟩
    exact ⟨iff_of_false hne.1 fun h => hnot (h bad hle hlt).1,
      iff_of_false hne.2 fun h => hnot (h.1 bad hle hlt)⟩
  · have hother := reservedAt_isSome_iff h64 hlen hend
    rw [hres]
    by_cases hsome : (reservedAt map start len).isSome
    · obtain ⟨x, hx, hxs, hin⟩ := hother.1 hsome
      rw [if_pos hsome]
      exact ⟨iff_of_false (by decide) fun h => (h x hx hxs).2 hin,
        iff_of_true rfl ⟨hall, x, hx, hxs, hin⟩⟩
    · rw [if_neg hsome]
      exact ⟨iff_of_true rfl fun x hx hxs => ⟨hall x hx hxs, fun hin => hsome (hother.2 ⟨x, hx, hxs, hin⟩)⟩,
        iff_of_false (by decide) fun h => hsome (hother.2 h.2)⟩

end

/-- One bank of RAM with a reserved page in it. -/
def reservedPageMap : List E820Entry :=
  [⟨0x180000, 0x1000, 2⟩, ⟨0x100000, 0x100000, e820TypeRam⟩]

/-- The check of a range around the reserved page. -/
theorem rangeCheck_exact_reservedPage :
    (e820RangeCheck reservedPageMap 0x170000 0x20000).1 = .reserved := by
  have h64 : ∀ e ∈ reservedPageMap, Is64 e := by
    simp [reservedPageMap, Is64, e820TypeRam]
  refine (rangeCheck_exact h64 (by decide) (by decide)).2.2 ⟨fun x hx hxs => ?_, 0x180000, ?_⟩
  · refine ⟨⟨0x100000, 0x100000, e820TypeRam⟩, by simp [reservedPageMap], rfl, ?_⟩
    show 0x100000 ≤ x ∧ x < 0x100000 + 0x100000
    omega
  · exact ⟨by decide, by decide, ⟨0x180000, 0x1000, 2⟩, by simp [reservedPageMap], by decide,
      by decide, by decide⟩

/-! ### The address that is reported -/

/-- The addresses of the range that are not RAM, or are something else as well. -/
def Offending (map : List E820Entry) (start len : Nat) : Set Nat :=
  {x | start ≤ x ∧ x < start + len ∧ (¬ InRam map x ∨ InOther map x)}

/-- An entry of another type that has an address of the range. -/
def Meets (start len : Nat) (e : E820Entry) : Prop :=
  e.type ≠ e820TypeRam ∧ max start e.addr < min (start + len) (e.addr + e.size)

instance (start len : Nat) (e : E820Entry) : Decidable (Meets start len e) :=
  inferInstanceAs (Decidable (_ ∧ _))

/-- What is reported first is also the lowest: no address of another type comes before the first one
that is not RAM; and where all of the range is RAM, the first entry of another type in the map is the
one that the range comes to first. -/
structure FirstIsLowest (map : List E820Entry) (start len : Nat) : Prop where
  hole : ∀ x y, start ≤ x → x < start + len → InOther map x → start ≤ y → y < start + len →
    ¬ InRam map y → ∃ z, start ≤ z ∧ z ≤ x ∧ ¬ InRam map z
  entry : (∀ x, start ≤ x → x < start + len → InRam map x) →
    ∀ e, map.find? (fun e => decide (Meets start len e)) = some e →
      ∀ e' ∈ map, Meets start len e' → max start e.addr ≤ max start e'.addr

/-- An entry that meets the range covers the address reported for it. -/
theorem Meets.offending {map : List E820Entry} {start len : Nat}
    (h : Meets start len e) (he : e ∈ map) : max start e.addr ∈ Offending map start len := by
  obtain ⟨hother, hlt⟩ := h
  refine ⟨le_max_left _ _, by omega, .inr ⟨e, he, hother, le_max_right _ _, by omega⟩⟩

theorem find?_congr {α : Type} {p q : α → Bool} {l : List α} (h : ∀ a ∈ l, p a = q a) :
    l.find? p = l.find? q := by
  induction l with
  | nil => rfl
  | cons a l ih =>
    obtain ⟨ha, hl⟩ := forall_mem_cons.mp h
    rw [List.find?_cons, List.find?_cons, ha, ih hl]

theorem reservedAt_eq {map : List E820Entry} (h64 : ∀ e ∈ map, Is64 e) {start len : Nat}
    (hlen : 0 < len) (hend : start + len < 2 ^ 64) :
    reservedAt map start len
      = (map.find? fun e => decide (Meets start len e)).map fun e => max start e.addr := by
  have hrange : endOf start len = start + len := by
    unfold endOf
    rw [u64_of_lt hend, if_neg (by omega)]
  have hmeets : ∀ e ∈ map, decide (e.type ≠ e820TypeRam ∧
      e820RangesOverlap start len e.addr e.size = true) = decide (Meets start len e) := by
    intro e he
    refine decide_eq_decide.mpr (and_congr_right fun _ => ?_)
    unfold e820RangesOverlap
    split_ifs with hempty
    · exact iff_of_false (by simp) (by omega)
    · rw [decide_eq_true_eq, hrange]
      by_cases hstart : start < 2 ^ 64 - 1
      · rw [lt_endOf_iff (h64 e he) hstart]
        omega
      · omega
  rw [reservedAt, find?_congr hmeets]
  congr 1
  funext e
  split_ifs <;> omega

section

variable {map : List E820Entry} (h64 : ∀ e ∈ map, Is64 e) {start len : Nat} (hlen : 0 < len)
  (hend : start + len < 2 ^ 64)

include h64 hlen hend

/-- For every map and every range that is not empty and does not wrap, where the check does not say
OK: the address that it reports is the lowest one that is not RAM or is in another entry if and only
if what it comes to first is the lowest. -/
theorem bad_isLeast_iff (hne : (e820RangeCheck map start len).1 ≠ .ok) :
    IsLeast (Offending map start len) (e820RangeCheck map start len).2
      ↔ FirstIsLowest map start len := by
  rcases rangeCheck_eq h64 hlen hend with ⟨bad, hle, hlt, hnot, hall, hres⟩ | ⟨hall, hres⟩
  · rw [hres]
    show IsLeast _ bad ↔ _
    constructor
    · rintro ⟨-, hleast⟩
      constructor
      · intro x y hx hxs hother _ _ _
        exact ⟨bad, hle, hleast ⟨hx, hxs, .inr hother⟩, hnot⟩
      · exact fun hram => absurd (hram bad hle hlt) hnot
    · intro hfirst
      refine ⟨⟨hle, hlt, .inl hnot⟩, ?_⟩
      -- everything before the hole is RAM, so a lower address could only be of another type
      have hhole : ∀ z, start ≤ z → ¬ InRam map z → bad ≤ z := fun z hz hnotz =>
        Nat.not_lt.mp fun hlt => hnotz (hall z hz hlt)
      rintro x ⟨hx, hxs, hnotx | hother⟩
      · exact hhole x hx hnotx
      · obtain ⟨z, hz, hzx, hnotz⟩ := hfirst.hole x bad hx hxs hother hle hlt hnot
        exact (hhole z hz hnotz).trans hzx
  · rw [hres, reservedAt_eq h64 hlen hend] at hne ⊢
    cases hfind : map.find? fun e => decide (Meets start len e) with
    | none => simp [hfind] at hne
    | some e =>
      show IsLeast _ (max start e.addr) ↔ _
      have hmem : e ∈ map := mem_of_find?_eq_some hfind
      have hfound : decide (Meets start len e) = true :=
        List.find?_some (p := fun e => decide (Meets start len e)) hfind
      have hmeets : Meets start len e := of_decide_eq_true hfound
      constructor
      · rintro ⟨-, hleast⟩
        constructor
        · intro x y _ _ _ hy hys hnoty
          exact absurd (hall y hy hys) hnoty
        · intro _ e₁ he₁ e' he' hmeets'
          rw [hfind] at he₁
          obtain rfl := Option.some.inj he₁
          exact hleast (hmeets'.offending he')
      · intro hfirst
        refine ⟨hmeets.offending hmem, ?_⟩
        rintro x ⟨hx, hxs, hnotx | ⟨e', he', hother, hlo, hhi⟩⟩
        · exact absurd (hall x hx hxs) hnotx
        · have hmeets' : Meets start len e' := ⟨hother, by omega⟩
          exact (hfirst.entry hall e hfind e' he' hmeets').trans (by omega)

end

/-- The first page of the range that is reserved is the one reported. -/
theorem bad_isLeast_iff_reservedPage :
    IsLeast (Offending reservedPageMap 0x170000 0x20000)
      (e820RangeCheck reservedPageMap 0x170000 0x20000).2 := by
  have h64 : ∀ e ∈ reservedPageMap, Is64 e := by
    simp [reservedPageMap, Is64, e820TypeRam]
  have hne : (e820RangeCheck reservedPageMap 0x170000 0x20000).1 ≠ .ok := by
    simp [e820RangeCheck, ramWalk, reach, reachFrom, endOf, u64, reservedPageMap, e820TypeRam,
      reservedAt, e820RangesOverlap]
  refine (bad_isLeast_iff h64 (by decide) (by decide) hne).2 ⟨fun x y _ _ _ hy hys hnot => ?_,
    fun _ e hfind e' he' hmeets => ?_⟩
  · refine absurd ⟨⟨0x100000, 0x100000, e820TypeRam⟩, by simp [reservedPageMap], rfl, ?_⟩ hnot
    show 0x100000 ≤ y ∧ y < 0x100000 + 0x100000
    omega
  · have hfirst : e = ⟨0x180000, 0x1000, 2⟩ := by
      have hhead : reservedPageMap.find? (fun e => decide (Meets 0x170000 0x20000 e))
          = some ⟨0x180000, 0x1000, 2⟩ := rfl
      exact (Option.some.inj (hhead.symm.trans hfind)).symm
    simp only [reservedPageMap, mem_cons, not_mem_nil, or_false] at he'
    rcases he' with rfl | rfl
    · rw [hfirst]
    · exact absurd rfl hmeets.1

/-- Two reserved pages, the higher one first. -/
def twoPagesMap : List E820Entry :=
  [⟨0x180000, 0x1000, 2⟩, ⟨0x140000, 0x1000, 2⟩, ⟨0x100000, 0x100000, e820TypeRam⟩]

/-- The higher page is reported, although the range comes to the lower one first. -/
theorem higher_page_reported :
    (∀ e ∈ twoPagesMap, Is64 e)
      ∧ e820RangeCheck twoPagesMap 0x100000 0x100000 = (.reserved, 0x180000)
      ∧ 0x140000 ∈ Offending twoPagesMap 0x100000 0x100000 := by
  refine ⟨by simp [twoPagesMap, Is64, e820TypeRam], ?_, by decide, by decide, .inr ?_⟩
  · simp [e820RangeCheck, ramWalk, reach, reachFrom, endOf, u64, twoPagesMap, e820TypeRam,
      reservedAt, e820RangesOverlap]
  · exact ⟨⟨0x140000, 0x1000, 2⟩, by simp [twoPagesMap], by decide, by decide, by decide⟩

/-! ### Above all RAM -/

/-- If the range has an address above all RAM, then each of its addresses that are not RAM is above
every RAM entry, the empty ones included. -/
def NoHoleBelowTop (map : List E820Entry) (start len : Nat) : Prop :=
  (∃ x, start ≤ x ∧ x < start + len ∧ AboveRam map x) →
    ∀ x, start ≤ x → x < start + len → ¬ InRam map x →
      ∀ e ∈ map, e.type = e820TypeRam → e.addr + e.size ≤ x

/-- An address above all RAM is in no RAM entry. -/
theorem AboveRam.not_inRam {map : List E820Entry} (h : AboveRam map x) :
    ¬ InRam map x := by
  rintro ⟨e, he, hram, hle, hlt⟩
  have := h e he hram (by omega)
  omega

section

variable {map : List E820Entry} (h64 : ∀ e ∈ map, Is64 e) {start len : Nat} (hlen : 0 < len)
  (hend : start + len < 2 ^ 64)

include h64

theorem ramTop_le_iff_of_lt (hx : x < 2 ^ 64 - 1) :
    ramTop map ≤ x ↔ ∀ e ∈ map, e.type = e820TypeRam → e.addr + e.size ≤ x := by
  rw [ramTop_le_iff]
  refine forall₂_congr fun e he => imp_congr_right fun _ => ?_
  rw [← Nat.not_lt, ← Nat.not_lt, lt_endOf_iff (h64 e he) hx]

include hlen hend

/-- For every map and every range that is not empty and does not wrap: the check says BEYOND_RAM for
exactly the ranges with an address above all RAM if and only if the range has no hole below the top
of RAM, and `check_ram_range` then stops the boot for such a range. -/
theorem beyondRam_iff {δ : Type} :
    (((e820RangeCheck map start len).1 = .beyondRam
          ↔ ∃ x, start ≤ x ∧ x < start + len ∧ AboveRam map x)
        ↔ NoHoleBelowTop map start len)
      ∧ (NoHoleBelowTop map start len →
        (∃ x, start ≤ x ∧ x < start + len ∧ AboveRam map x) →
          ∀ s : Boot δ, checkRamRange start len map s = (.error .beyondRam, s)) := by
  have hiff : ((e820RangeCheck map start len).1 = .beyondRam
      ↔ ∃ x, start ≤ x ∧ x < start + len ∧ AboveRam map x) ↔ NoHoleBelowTop map start len := by
    rcases rangeCheck_cases h64 hlen hend with ⟨bad, hle, hlt, hnot, hfirst, hres⟩ | ⟨hall, hres⟩
    · have htop := ramTop_le_iff_of_lt h64 (x := bad) (by omega)
      by_cases hbad : ramTop map ≤ bad
      · -- the first address that is not RAM is above all of them, and so are the later ones
        rw [hres, if_pos hbad]
        refine iff_of_true (iff_of_true rfl ⟨bad, hle, hlt, fun e he hram _ => htop.1 hbad e he hram⟩) ?_
        intro _ x hx _ hnotx e he hram
        have hxbad : bad ≤ x := Nat.not_lt.1 fun h => hnotx (hfirst x hx h)
        exact (htop.1 hbad e he hram).trans hxbad
      · rw [hres, if_neg hbad]
        constructor
        · exact fun h habove => absurd (h.2 habove) (by decide)
        · intro hno
          refine iff_of_false (by decide) fun habove => hbad (htop.2 ?_)
          exact hno habove bad hle hlt hnot
    · have hnone : ¬ ∃ x, start ≤ x ∧ x < start + len ∧ AboveRam map x :=
        fun ⟨x, hx, hxs, habove⟩ => habove.not_inRam (hall x hx hxs)
      refine iff_of_true (iff_of_false ?_ hnone) fun h => absurd h hnone
      rw [hres]
      split_ifs <;> decide
  refine ⟨hiff, fun hno habove s => ?_⟩
  have hbeyond := (hiff.2 hno).2 habove
  rw [checkRamRange, require, if_neg (not_not.2 hbeyond)]
  rfl

end

/-- One bank of RAM of 15 MiB, from 1 MiB on. -/
def oneBankMap : List E820Entry := [⟨0x100000, 0xF00000, e820TypeRam⟩]

/-- A range that runs past the end of the only bank stops the boot. -/
theorem beyondRam_iff_oneBank :
    NoHoleBelowTop oneBankMap 0x800000 0x1000000
      ∧ ∀ s : Boot Unit, checkRamRange 0x800000 0x1000000 oneBankMap s = (.error .beyondRam, s) := by
  have h64 : ∀ e ∈ oneBankMap, Is64 e := by
    simp [oneBankMap, Is64]
  have habove : AboveRam oneBankMap 0x1000000 := by
    simp [AboveRam, oneBankMap]
  have hno : NoHoleBelowTop oneBankMap 0x800000 0x1000000 := by
    intro _ x hx _ hnot e he hram
    obtain rfl := mem_singleton.1 he
    by_contra hlt
    exact hnot ⟨_, he, hram, Nat.le_trans (by decide) hx, Nat.not_le.1 hlt⟩
  exact ⟨hno, (beyondRam_iff h64 (by decide) (by decide)).2 hno
    ⟨0x1000000, by decide, by decide, habove⟩⟩

/-- Two banks of RAM with the hole of an ISA machine between 15 and 16 MiB. -/
def isaHoleMap : List E820Entry :=
  [⟨0x100000, 0xE00000, e820TypeRam⟩, ⟨0x1000000, 0x1000000, e820TypeRam⟩]

/-- A range from 8 MiB to 40 MiB runs over the hole and past the end of RAM at 32 MiB. It is not
reported as one above RAM, and the boot goes on. -/
theorem hole_hides_top :
    (∀ e ∈ isaHoleMap, Is64 e)
      ∧ (e820RangeCheck isaHoleMap 0x800000 0x2000000).1 = .notRam
      ∧ AboveRam isaHoleMap 0x2000000
      ∧ ∀ s : Boot Unit, checkRamRange 0x800000 0x2000000 isaHoleMap s = (.ok (), s) := by
  have h64 : ∀ e ∈ isaHoleMap, Is64 e := by
    simp [isaHoleMap, Is64]
  have hwalk : (e820RangeCheck isaHoleMap 0x800000 0x2000000).1 = .notRam := by
    simp [e820RangeCheck, ramWalk, reach, reachFrom, endOf, u64, isaHoleMap, e820TypeRam, ramTop]
  refine ⟨h64, hwalk, by simp [AboveRam, isaHoleMap], fun s => ?_⟩
  rw [checkRamRange, require, if_pos (by rw [hwalk]; decide)]
  rfl

end ZfsBoot.Proofs.E820
