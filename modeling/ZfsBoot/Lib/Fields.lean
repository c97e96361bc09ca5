import Mathlib.Data.List.Find
import ZfsBoot.Lib.Text
import ZfsBoot.Lib.Words

/-!
# `ZfsBoot.Lib.Fields`: the words of a text

What `strings.Fields` finds in a text that is put together from words. White space of one byte
cuts a text in two, whatever stands around it: no character of several bytes has an ASCII byte.
-/

set_option autoImplicit false

namespace ZfsBoot.Lib

open List

variable {key b : List UInt8} {skip : Nat} {heads : List (List UInt8)} {w a s v : List UInt8}
  {c : UInt8}

/-- No white space starts in a text. -/
def Spaceless (w : List UInt8) : Prop := ∀ t, t <:+ w → ∀ sp ∈ spaces, ¬ sp <+: t

theorem spaceless_nil : Spaceless [] := by
  intro t ht sp hsp hprefix
  rw [suffix_nil.1 ht, prefix_nil] at hprefix
  subst hprefix
  revert hsp
  decide

theorem spaceless_cons :
    Spaceless (c :: w) ↔ (∀ sp ∈ spaces, ¬ sp <+: c :: w) ∧ Spaceless w := by
  constructor
  · intro h
    exact ⟨h _ suffix_rfl, fun t ht => h t (ht.trans (suffix_cons c w))⟩
  · rintro ⟨hhead, htail⟩ t ht
    rcases suffix_cons_iff.1 ht with rfl | ht
    · exact hhead
    · exact htail t ht

theorem Spaceless.suffix (h : Spaceless w) (hv : v <:+ w) : Spaceless v :=
  fun t ht => h t (ht.trans hv)

/-- Plain text before a text without white space. -/
theorem Spaceless.plain_append (hkey : Plain key) (h : Spaceless v) :
    Spaceless (key ++ v) := by
  have hfirst : ∀ sp ∈ spaces, ∃ b ∈ sp.head?, ¬ (0x21 ≤ b ∧ b ≤ 0x7E) := by decide +kernel
  induction key with
  | nil => exact h
  | cons c key ih =>
    refine spaceless_cons.2 ⟨fun sp hsp hprefix => ?_, ih fun d hd => hkey d (mem_cons_of_mem _ hd)⟩
    obtain ⟨b, hb, hnot⟩ := hfirst sp hsp
    obtain ⟨sp', rfl⟩ := List.head?_eq_some_iff.1 hb
    obtain ⟨rfl, -⟩ := cons_prefix_cons.1 hprefix
    exact hnot (hkey b mem_cons_self)

/-- What does not hold `c` ends before it. -/
theorem prefix_of_notMem {α : Type} {h a b : List α} {c : α} (hc : c ∉ h) (hstart : h <+: a ++ c :: b) :
    h <+: a := by
  have hnext : a ++ [c] <+: a ++ c :: b := ⟨b, by simp⟩
  rcases Nat.lt_or_ge a.length h.length with hlen | hlen
  · have hreach : a ++ [c] <+: h :=
      prefix_of_prefix_length_le hnext hstart (by simpa using Nat.succ_le_of_lt hlen)
    exact absurd (hreach.subset (by simp)) hc
  · exact prefix_of_prefix_length_le hstart (prefix_append _ _) hlen

/-- No space reaches over a byte that is in none. -/
theorem Spaceless.append_cons (ha : Spaceless a) (hb : Spaceless b)
    (hc : ∀ sp ∈ spaces, c ∉ sp) : Spaceless (a ++ c :: b) := by
  induction a with
  | nil =>
    refine spaceless_cons.2 ⟨fun sp hsp hstart => ?_, hb⟩
    have hnil : sp = [] := prefix_nil.1 (prefix_of_notMem (a := []) (hc sp hsp) hstart)
    exact absurd (hnil ▸ hsp) (by decide)
  | cons d a ih =>
    rw [spaceless_cons] at ha
    exact spaceless_cons.2 ⟨fun sp hsp hstart => ha.1 sp hsp (prefix_of_notMem (hc sp hsp) hstart),
      ih ha.2⟩

theorem spaceless_of_plain (h : Plain w) : Spaceless w := by
  have := Spaceless.plain_append h spaceless_nil
  rwa [append_nil] at this

theorem find?_spaces_eq_none {t : List UInt8} :
    spaces.find? (·.isPrefixOf t) = none ↔ ∀ sp ∈ spaces, ¬ sp <+: t := by
  simp only [List.find?_eq_none, List.isPrefixOf_iff_prefix]

theorem Spaceless.blankSpaces_eq (h : Spaceless w) : blankSpaces 0 w = w := by
  induction w with
  | nil => rfl
  | cons c w ih =>
    rw [spaceless_cons] at h
    rw [blankSpaces, find?_spaces_eq_none.2 h.1, ih h.2]

theorem notMem_of_spaceless (hc : [c] ∈ spaces) (h : Spaceless w) : c ∉ w := by
  intro hmem
  obtain ⟨a, b, rfl⟩ := append_of_mem hmem
  exact h (c :: b) (suffix_append a _) [c] hc ⟨b, rfl⟩

theorem Spaceless.blank_notMem (h : Spaceless w) : 0x20 ∉ w := notMem_of_spaceless (by decide) h

/-! ### Parts of a text -/

/-- Up to its first white space a text stays as it is. -/
theorem prefix_of_splitOn_blankSpaces {p : List UInt8} {ps : List (List UInt8)}
    (h : (blankSpaces 0 s).splitOn 0x20 = p :: ps) : p <+: s := by
  induction s generalizing p ps with
  | nil =>
    rw [blankSpaces, splitOn_nil, List.cons.injEq] at h
    exact h.1 ▸ nil_prefix
  | cons c s ih =>
    rw [blankSpaces] at h
    split at h
    · rw [splitOn_cons, if_pos rfl, List.cons.injEq] at h
      rw [← h.1]
      exact nil_prefix
    · rw [splitOn_cons] at h
      split_ifs at h
      · rw [List.cons.injEq] at h
        rw [← h.1]
        exact nil_prefix
      · rcases hs : (blankSpaces 0 s).splitOn 0x20 with _ | ⟨q, qs⟩
        · simp [hs] at h
        · rw [hs, modifyHead_cons, List.cons.injEq] at h
          rw [← h.1]
          exact cons_prefix_cons.2 ⟨rfl, ih hs⟩

theorem spaceless_of_mem_splitOn (h : w ∈ (blankSpaces skip s).splitOn 0x20) : Spaceless w := by
  fun_induction blankSpaces skip s generalizing w with
  | case1 =>
    rw [splitOn_nil, mem_singleton] at h
    rw [h]
    exact spaceless_nil
  | case2 skip c s ih => exact ih h
  | case3 c s head hfind ih =>
    rw [splitOn_cons, if_pos rfl, mem_cons] at h
    rcases h with rfl | h
    · exact spaceless_nil
    · exact ih h
  | case4 c s hfind ih =>
    have hnone := find?_spaces_eq_none.1 hfind
    have hc : c ≠ 0x20 := by
      rintro rfl
      exact hnone [0x20] (by decide) ⟨s, rfl⟩
    rw [splitOn_cons, if_neg hc] at h
    rcases hs : (blankSpaces 0 s).splitOn 0x20 with _ | ⟨p, ps⟩
    · simp [hs] at h
    · rw [hs, modifyHead_cons, mem_cons] at h
      rcases h with rfl | h
      · -- white space in the first part would be there in the text
        refine spaceless_cons.2 ⟨fun sp hsp hprefix => hnone sp hsp ?_,
          ih (by rw [hs]; exact mem_cons_self)⟩
        exact hprefix.trans (cons_prefix_cons.2 ⟨rfl, prefix_of_splitOn_blankSpaces hs⟩)
      · exact ih (by rw [hs]; exact mem_cons_of_mem _ h)

theorem spaceless_of_mem_fields (h : w ∈ fields s) : Spaceless w ∧ w ≠ [] := by
  rw [fields, mem_filter, decide_eq_true_eq] at h
  exact ⟨spaceless_of_mem_splitOn h.1, h.2⟩

/-- A field has only bytes of the text. -/
theorem mem_of_mem_fields (hw : w ∈ fields s) (hc : c ∈ w) : c ∈ s := by
  have hsplit : w ∈ (blankSpaces 0 s).splitOn 0x20 := mem_of_mem_filter hw
  rcases mem_blankSpaces (mem_of_mem_splitOn hsplit hc) with rfl | hmem
  · exact absurd hc (notMem_of_mem_splitOn hsplit)
  · exact hmem

/-- A white-space byte stands for itself: no other character starts with it or contains it. -/
theorem eq_of_space_mem (hc : [c] ∈ spaces) : ∀ sp ∈ spaces, c ∈ sp → sp = [c] := by
  have hall : ∀ a ∈ spaces, ∀ sp ∈ spaces, a.length = 1 → ∀ b ∈ a, b ∈ sp → sp = a := by
    decide +kernel
  exact fun sp hsp hmem => hall [c] hc sp hsp rfl c mem_cons_self hmem

/-- Before a white-space byte the same characters end. -/
theorem isPrefixOf_append_space (hc : [c] ∈ spaces) {sp : List UInt8}
    (hsp : sp ∈ spaces) (ha : a ≠ []) : sp.isPrefixOf (a ++ c :: b) = sp.isPrefixOf a := by
  rw [Bool.eq_iff_iff, List.isPrefixOf_iff_prefix, List.isPrefixOf_iff_prefix]
  refine ⟨fun h => ?_, fun h => h.trans (prefix_append _ _)⟩
  rcases Nat.lt_or_ge a.length sp.length with hlen | hlen
  · -- the byte is in the character, which then is that byte
    have hpre : a ++ [c] <+: sp := by
      refine prefix_of_prefix_length_le ?_ h (by simp; omega)
      exact (prefix_append_right_inj a).2 ⟨b, rfl⟩
    have hone := eq_of_space_mem hc sp hsp (hpre.subset (by simp))
    subst hone
    have := hpre.length_le
    simp only [length_append, length_singleton] at this
    exact absurd (eq_nil_of_length_eq_zero (by omega)) ha
  · exact prefix_of_prefix_length_le h (prefix_append _ _) hlen

theorem blankSpaces_append_space (hc : [c] ∈ spaces) (b : List UInt8) (hskip : skip ≤ a.length) :
    blankSpaces skip (a ++ c :: b) = blankSpaces skip a ++ 0x20 :: blankSpaces 0 b := by
  induction a generalizing skip with
  | nil =>
    obtain rfl : skip = 0 := Nat.le_zero.1 hskip
    show blankSpaces 0 (c :: b) = 0x20 :: blankSpaces 0 b
    rw [blankSpaces]
    split
    · rename_i head hfind
      -- the character found is the byte
      have hmem := mem_of_find?_eq_some hfind
      have hstart := List.find?_some hfind
      have hhead : head = [c] := by
        cases head with
        | nil => exact absurd hmem (by decide)
        | cons d head =>
          obtain ⟨rfl, -⟩ := cons_prefix_cons.1 (List.isPrefixOf_iff_prefix.1 hstart)
          exact eq_of_space_mem hc _ hmem mem_cons_self
      rw [hhead]
      rfl
    · rename_i hfind
      exact absurd ⟨b, rfl⟩ (find?_spaces_eq_none.1 hfind [c] hc)
  | cons d a ih =>
    cases skip with
    | succ skip => exact ih (Nat.le_of_succ_le_succ hskip)
    | zero =>
      have hsame : spaces.find? (·.isPrefixOf (d :: a ++ c :: b))
          = spaces.find? (·.isPrefixOf (d :: a)) :=
        List.find?_congr fun sp hsp => isPrefixOf_append_space hc hsp (cons_ne_nil d a)
      show blankSpaces 0 (d :: (a ++ c :: b)) = _
      rw [blankSpaces, blankSpaces, ← cons_append, hsame]
      split
      · rename_i head hfind
        have hstart := List.find?_some hfind
        have hlen := (List.isPrefixOf_iff_prefix.1 hstart).length_le
        rw [length_cons] at hlen
        rw [ih (by omega), cons_append]
      · rw [ih (Nat.zero_le _), cons_append]

/-! ### The words -/

theorem fields_append_space (hc : [c] ∈ spaces) (a b : List UInt8) :
    fields (a ++ c :: b) = fields a ++ fields b := by
  rw [fields, blankSpaces_append_space hc b (Nat.zero_le _), splitOn_append_cons, filter_append]
  rfl

theorem fields_of_spaceless (h : Spaceless w) (hne : w ≠ []) : fields w = [w] := by
  rw [fields, h.blankSpaces_eq, splitOn_of_notMem h.blank_notMem, filter_cons_of_pos (by simpa using hne), filter_nil]

/-- The words of parts that are joined with blanks. -/
theorem fields_intercalate (ps : List (List UInt8)) :
    fields ([0x20].intercalate ps) = ps.flatMap fields := by
  induction ps with
  | nil => rfl
  | cons p ps ih =>
    cases ps with
    | nil => simp [List.intercalate]
    | cons q qs =>
      have hjoin : [0x20].intercalate (p :: q :: qs) = p ++ 0x20 :: [0x20].intercalate (q :: qs) := by
        simp [List.intercalate]
      rw [hjoin, fields_append_space (by decide), ih]
      rfl

theorem fields_eq_flatMap (s : List UInt8) : fields s = (s.splitOn 0x20).flatMap fields := by
  rw [← fields_intercalate, intercalate_splitOn]

/-- A word of the text that stage2 splits at blanks only starts like a word of `strings.Fields`. -/
theorem exists_mem_fields (hkey : Plain key) (hne : key ≠ [])
    (hw : w ∈ s.splitOn 0x20) (hstart : key <+: w) : ∃ f ∈ fields s, key <+: f := by
  obtain ⟨v, rfl⟩ := hstart
  have hblank : blankSpaces 0 (key ++ v) = key ++ blankSpaces 0 v := by
    refine blankSpaces_append (fun c hc => ?_) v
    have h20 : (0x20 : UInt8) ≤ 0x21 := by decide
    exact ⟨UInt8.le_trans h20 (hkey c hc).1, (hkey c hc).2⟩
  have hkeyBlank := (spaceless_of_plain hkey).blank_notMem
  obtain ⟨init, last, first, tail, hsplit, -, happend⟩ := splitOn_append 0x20 key (blankSpaces 0 v)
  rw [splitOn_of_notMem hkeyBlank] at hsplit
  obtain ⟨rfl, hlast⟩ := append_eq_singleton_iff.1 hsplit.symm |>.resolve_right (by simp)
  obtain rfl : last = key := singleton_inj.1 hlast
  refine ⟨last ++ first, ?_, prefix_append _ _⟩
  rw [fields_eq_flatMap, mem_flatMap]
  refine ⟨_, hw, ?_⟩
  rw [fields, hblank, happend, nil_append, mem_filter]
  exact ⟨mem_cons_self, by simp [hne]⟩

/-! ### Trimming the end -/

/-- `strings.TrimRightFunc` with `unicode.IsSpace`. -/
def trimSpaceRight (s : List UInt8) : List UInt8 :=
  (dropHeads (spaces.map List.reverse) s.length s.reverse).reverse

theorem dropHeads_nil (hne : [] ∉ heads) (fuel : Nat) :
    dropHeads heads fuel [] = [] :=
  dropHeads_eq_self fuel (fun _ _ _ hc => nomatch hc) hne

/-- Heads are dropped as far as a byte that is in none of them. -/
theorem dropHeads_append_cons (hne : [] ∉ heads) (hc : ∀ h ∈ heads, c ∉ h) (b : List UInt8)
    {fuel fuel' : Nat} (hfuel : a.length ≤ fuel) (hfuel' : a.length ≤ fuel') :
    dropHeads heads fuel (a ++ c :: b) = dropHeads heads fuel' a ++ c :: b := by
  have hfind : ∀ a : List UInt8, heads.find? (·.isPrefixOf (a ++ c :: b))
      = heads.find? (·.isPrefixOf a) := by
    intro a
    refine List.find?_congr fun h hh => ?_
    rw [Bool.eq_iff_iff, List.isPrefixOf_iff_prefix, List.isPrefixOf_iff_prefix]
    exact ⟨prefix_of_notMem (hc h hh), fun h => h.trans (prefix_append _ _)⟩
  induction fuel generalizing a fuel' with
  | zero =>
    obtain rfl := eq_nil_of_length_eq_zero (Nat.le_zero.1 hfuel)
    rw [dropHeads_nil hne]
    rfl
  | succ fuel ih =>
    rcases hstart : heads.find? (·.isPrefixOf a) with _ | h
    · have hstop : dropHeads heads fuel' a = a := by
        cases fuel' with
        | zero => rfl
        | succ fuel' => rw [dropHeads, afterHead, hstart]; rfl
      rw [dropHeads, afterHead, hfind, hstart, hstop]
      rfl
    · have hfound := List.find?_some hstart
      have hprefix : h <+: a := List.isPrefixOf_iff_prefix.1 hfound
      have hpos : 0 < h.length := by
        refine length_pos_iff.2 fun hnil => hne ?_
        rw [← hnil]
        exact mem_of_find?_eq_some hstart
      have hlen := hprefix.length_le
      cases fuel' with
      | zero => omega
      | succ fuel' =>
        have hrest : (a.drop h.length).length ≤ fuel ∧ (a.drop h.length).length ≤ fuel' := by
          rw [length_drop]
          omega
        rw [dropHeads, afterHead, hfind, dropHeads, afterHead, hstart, Option.map_some,
          Option.map_some, drop_append_of_le_length hlen]
        exact ih hrest.1 hrest.2

/-- A line that starts with a visible character, up to one that is not part of a space. -/
theorem trimSpace_append_cons {d : UInt8} (hd : 0x21 ≤ d ∧ d ≤ 0x7E) (hc : ∀ sp ∈ spaces, c ∉ sp) :
    trimSpace (d :: a ++ c :: v) = d :: a ++ c :: trimSpaceRight v := by
  have hstart : dropHeads spaces (d :: a ++ c :: v).length (d :: a ++ c :: v) = d :: a ++ c :: v :=
    dropHeads_spaces _ fun e he => by
      obtain rfl : d = e := Option.some.inj he
      exact hd
  have hreverse : (d :: a ++ c :: v).reverse = v.reverse ++ c :: (d :: a).reverse := by simp
  have hheads : ∀ h ∈ spaces.map List.reverse, c ∉ h := by
    intro h hh hmem
    obtain ⟨sp, hsp, rfl⟩ := mem_map.1 hh
    exact hc sp hsp (mem_reverse.1 hmem)
  have hdrop : dropHeads (spaces.map List.reverse) (d :: a ++ c :: v).length
      (v.reverse ++ c :: (d :: a).reverse)
        = dropHeads (spaces.map List.reverse) v.length v.reverse ++ c :: (d :: a).reverse :=
    dropHeads_append_cons (by decide) hheads _ (by simp; omega) (by simp)
  rw [trimSpace, hstart, hreverse, hdrop, trimSpaceRight]
  simp

theorem trimSpaceRight_isPrefix (s : List UInt8) : trimSpaceRight s <+: s := by
  have hsuffix : ∀ (fuel : Nat) (t : List UInt8), dropHeads (spaces.map List.reverse) fuel t <:+ t := by
    intro fuel
    induction fuel with
    | zero => exact fun t => suffix_rfl
    | succ fuel ih =>
      intro t
      rw [dropHeads, afterHead]
      rcases hfind : (spaces.map List.reverse).find? (·.isPrefixOf t) with _ | h
      · rw [hfind]
        exact suffix_rfl
      · rw [hfind]
        exact (ih _).trans (drop_suffix _ _)
  rw [← reverse_suffix, trimSpaceRight, reverse_reverse]
  exact hsuffix _ _

end ZfsBoot.Lib
