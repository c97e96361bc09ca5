import Mathlib.Algebra.Group.Nat.Defs
import Mathlib.Tactic.Common
import Mathlib.Data.List.Basic
import Mathlib.Data.List.Induction
import ZfsBoot.Lib.Words

/-!
# `ZfsBoot.Lib.Text`: byte strings as text

A Go string is a list of bytes, and so is the content of a file. This library has the two
renderings that go through text and must come back: a number in decimal digits (`decimal`,
`ofDecimal`) and bytes in lower-case hex digits (`hexEncode`, `hexDecode`). It also has what Go and
the shell do with lines: `strings.Cut`, the ends of lines (`crlfToLf`, `dropCr`), and
`strings.TrimSpace`, which knows the white space of Unicode in its UTF-8 encoding.

What a field of a line must not contain is a separator. Digits of either kind are none, which
`isDigit_of_mem_decimal` and `isHexDigit_of_mem_hexEncode` say in the form a proof uses.
-/

set_option autoImplicit false

namespace ZfsBoot.Lib

open List

variable {s : List UInt8} {c : UInt8} {n : Nat}

/-! ### Decimal numbers -/

/-- A decimal digit. -/
def isDigit (c : UInt8) : Bool := 0x30 ≤ c ∧ c ≤ 0x39

/-- `n` in decimal digits. -/
def decimal (n : Nat) : List UInt8 := (Nat.toDigits 10 n).map fun c => UInt8.ofNat c.toNat

/-- The number that digits stand for. -/
def ofDecimal (s : List UInt8) : Nat := s.foldl (fun n c => 10 * n + (c.toNat - 0x30)) 0

/-- A digit character has a code in one byte. -/
theorem toNat_of_isDigit {c : Char} (h : c.isDigit = true) :
    0x30 ≤ c.toNat ∧ c.toNat ≤ 0x39 ∧ (UInt8.ofNat c.toNat).toNat = c.toNat := by
  have hrange : 0x30 ≤ c.toNat ∧ c.toNat ≤ 0x39 := by
    rw [Char.isDigit, Bool.and_eq_true, decide_eq_true_eq, decide_eq_true_eq] at h
    exact ⟨h.1, h.2⟩
  refine ⟨hrange.1, hrange.2, ?_⟩
  rw [UInt8.toNat_ofNat']
  omega

theorem isDigit_of_mem_decimal (h : c ∈ decimal n) : isDigit c = true := by
  obtain ⟨d, hd, rfl⟩ := mem_map.1 h
  have := toNat_of_isDigit (Nat.isDigit_of_mem_toDigits (by decide) (by decide) hd)
  simp only [isDigit, UInt8.le_iff_toNat_le, this.2.2, decide_eq_true_eq]
  exact ⟨this.1, this.2.1⟩

theorem decimal_ne_nil (n : Nat) : decimal n ≠ [] := by
  simp [decimal, Nat.toDigits_ne_nil]

theorem length_decimal_le {k : Nat} (hk : 0 < k) (h : n < 10 ^ k) : (decimal n).length ≤ k := by
  rw [decimal, length_map]
  exact (Nat.length_toDigits_le_iff (by decide) hk).2 h

theorem ofDecimal_decimal (n : Nat) : ofDecimal (decimal n) = n := by
  have hfold : ∀ (cs : List Char), (∀ c ∈ cs, c.isDigit = true) → ∀ a,
      (cs.map fun c => UInt8.ofNat c.toNat).foldl (fun n c => 10 * n + (c.toNat - 0x30)) a
        = Nat.ofDigitChars 10 cs a := by
    intro cs
    induction cs with
    | nil => exact fun _ _ => rfl
    | cons c cs ih =>
      intro h a
      have hc := toNat_of_isDigit (h c mem_cons_self)
      rw [map_cons, foldl_cons, ih fun c hc => h c (mem_cons_of_mem _ hc), hc.2.2]
      rfl
  rw [ofDecimal, decimal, hfold _ fun c hc => Nat.isDigit_of_mem_toDigits (by decide) (by decide) hc]
  exact Nat.ofDigitChars_toDigits (by decide) (by decide)

/-- Zeros in front do not count. -/
theorem ofDecimal_dropWhile (s : List UInt8) : ofDecimal (s.dropWhile (· = 0x30)) = ofDecimal s := by
  induction s with
  | nil => rfl
  | cons c s ih =>
    by_cases hc : c = 0x30
    · subst hc
      rw [dropWhile_cons_of_pos (by decide), ih]
      rfl
    · rw [dropWhile_cons_of_neg (by simpa using hc)]

/-! ### Hex digits -/

/-- A lower-case hex digit. -/
def hexDigit (n : Nat) : UInt8 := UInt8.ofNat (if n < 10 then 0x30 + n else 0x61 + (n - 10))

/-- `hex.EncodeToString`: two digits for each byte. -/
def hexEncode (bs : List UInt8) : List UInt8 :=
  bs.flatMap fun b => [hexDigit (b.toNat / 16), hexDigit (b.toNat % 16)]

/-- The value of a hex digit of either case. -/
def hexValue (c : UInt8) : Option Nat :=
  if 0x30 ≤ c ∧ c ≤ 0x39 then some (c.toNat - 0x30)
  else if 0x61 ≤ c ∧ c ≤ 0x66 then some (c.toNat - 0x61 + 10)
  else if 0x41 ≤ c ∧ c ≤ 0x46 then some (c.toNat - 0x41 + 10)
  else none

/-- `hex.DecodeString`: `none` for an odd length or another byte. -/
def hexDecode : List UInt8 → Option (List UInt8)
  | [] => some []
  | [_] => none
  | a :: b :: s => do
      let hi ← hexValue a
      let lo ← hexValue b
      let bs ← hexDecode s
      return UInt8.ofNat (16 * hi + lo) :: bs

/-- A digit that `hexEncode` writes. -/
def isHexDigit (c : UInt8) : Bool := (0x30 ≤ c ∧ c ≤ 0x39) ∨ (0x61 ≤ c ∧ c ≤ 0x66)

theorem hexValue_hexDigit (h : n < 16) : hexValue (hexDigit n) = some n := by
  have : ∀ m : Fin 16, hexValue (hexDigit m.val) = some m.val := by decide
  exact this ⟨n, h⟩

theorem isHexDigit_hexDigit (h : n < 16) : isHexDigit (hexDigit n) = true := by
  have : ∀ m : Fin 16, isHexDigit (hexDigit m.val) = true := by decide
  exact this ⟨n, h⟩

theorem isHexDigit_of_mem_hexEncode {bs : List UInt8} (h : c ∈ hexEncode bs) :
    isHexDigit c = true := by
  obtain ⟨b, -, hc⟩ := mem_flatMap.1 h
  have hb := b.toNat_lt
  rcases mem_cons.1 hc with rfl | hc
  · exact isHexDigit_hexDigit (by omega)
  · rw [mem_singleton.1 hc]
    exact isHexDigit_hexDigit (by omega)

theorem length_hexEncode (bs : List UInt8) : (hexEncode bs).length = 2 * bs.length := by
  induction bs with
  | nil => rfl
  | cons b bs ih =>
    have : (hexEncode (b :: bs)).length = 2 + (hexEncode bs).length := by
      simp only [hexEncode, flatMap_cons, length_append, length_cons,
        length_nil]
    rw [this, ih, length_cons]
    omega

theorem hexDecode_hexEncode (bs : List UInt8) : hexDecode (hexEncode bs) = some bs := by
  induction bs with
  | nil => rfl
  | cons b bs ih =>
    have hb := b.toNat_lt
    have hsplit : 16 * (b.toNat / 16) + b.toNat % 16 = b.toNat := by omega
    show hexDecode (hexDigit (b.toNat / 16) :: hexDigit (b.toNat % 16) :: hexEncode bs) = _
    rw [hexDecode, hexValue_hexDigit (by omega), hexValue_hexDigit (by omega), ih]
    simp only [Option.bind_eq_bind, Option.bind_some, hsplit, UInt8.ofNat_toNat]
    rfl

/-! ### White space -/

/-- The characters that `unicode.IsSpace` accepts, in UTF-8. -/
def spaces : List (List UInt8) :=
  [[0x09], [0x0A], [0x0B], [0x0C], [0x0D], [0x20], [0xC2, 0x85], [0xC2, 0xA0], [0xE1, 0x9A, 0x80],
    [0xE2, 0x80, 0x80], [0xE2, 0x80, 0x81], [0xE2, 0x80, 0x82], [0xE2, 0x80, 0x83],
    [0xE2, 0x80, 0x84], [0xE2, 0x80, 0x85], [0xE2, 0x80, 0x86], [0xE2, 0x80, 0x87],
    [0xE2, 0x80, 0x88], [0xE2, 0x80, 0x89], [0xE2, 0x80, 0x8A], [0xE2, 0x80, 0xA8],
    [0xE2, 0x80, 0xA9], [0xE2, 0x80, 0xAF], [0xE2, 0x81, 0x9F], [0xE3, 0x80, 0x80]]

/-- What follows the one of `heads` that a text starts with. -/
def afterHead (heads : List (List UInt8)) (s : List UInt8) : Option (List UInt8) :=
  (heads.find? (·.isPrefixOf s)).map fun h => s.drop h.length

/-- A text without the `heads` it starts with; `fuel` is the length of the text. -/
def dropHeads (heads : List (List UInt8)) : (fuel : Nat) → List UInt8 → List UInt8
  | 0, s => s
  | fuel + 1, s =>
    match afterHead heads s with
    | none => s
    | some rest => dropHeads heads fuel rest

/-- `strings.TrimSpace`. -/
def trimSpace (s : List UInt8) : List UInt8 :=
  let s := dropHeads spaces s.length s
  (dropHeads (spaces.map List.reverse) s.length s.reverse).reverse

/-- A text that starts with none of the heads keeps its start. -/
theorem dropHeads_eq_self {heads : List (List UInt8)} (fuel : Nat)
    (h : ∀ head ∈ heads, ∀ c ∈ s.head?, c ∉ head.head?) (hne : [] ∉ heads) :
    dropHeads heads fuel s = s := by
  cases fuel with
  | zero => rfl
  | succ fuel =>
    have hnone : heads.find? (·.isPrefixOf s) = none := by
      refine List.find?_eq_none.2 fun head hhead hstart => ?_
      obtain ⟨t, rfl⟩ := List.isPrefixOf_iff_prefix.1 hstart
      cases head with
      | nil => exact hne hhead
      | cons c head => exact h _ hhead c rfl rfl
    rw [dropHeads, afterHead, hnone]
    rfl

/-- A text without white space, control characters and bytes outside ASCII. -/
def Plain (s : List UInt8) : Prop := ∀ c ∈ s, 0x21 ≤ c ∧ c ≤ 0x7E

/-- No white space starts with a plain byte. -/
theorem dropHeads_spaces (fuel : Nat) (h : ∀ c ∈ s.head?, 0x21 ≤ c ∧ c ≤ 0x7E) :
    dropHeads spaces fuel s = s := by
  have hfirst : ∀ head ∈ spaces, ∀ c ∈ head.head?, ¬ (0x21 ≤ c ∧ c ≤ 0x7E) := by decide +kernel
  exact dropHeads_eq_self fuel (fun head hhead c hc hmem => hfirst head hhead c hmem (h c hc))
    (by decide)

/-- No white space ends with a plain byte. -/
theorem dropHeads_spaces_reverse (fuel : Nat) (h : Plain s) :
    dropHeads (spaces.map List.reverse) fuel s.reverse = s.reverse := by
  have hlast : ∀ head ∈ spaces.map List.reverse, ∀ c ∈ head.head?, ¬ (0x21 ≤ c ∧ c ≤ 0x7E) := by
    decide +kernel
  exact dropHeads_eq_self fuel (fun head hhead c hc hmem =>
    hlast head hhead c hmem (h c (mem_reverse.1 (mem_of_head? hc)))) (by decide)

theorem trimSpace_eq_self (h : Plain s) : trimSpace s = s := by
  rw [trimSpace, dropHeads_spaces _ fun c hc => h c (mem_of_head? hc),
    dropHeads_spaces_reverse _ h, reverse_reverse]

/-- A CR at the end goes. -/
theorem trimSpace_append_cr (h : Plain s) : trimSpace (s ++ [0x0D]) = s := by
  cases s with
  | nil => decide
  | cons c s =>
    have hstart : dropHeads spaces (c :: s ++ [0x0D]).length (c :: s ++ [0x0D])
        = c :: s ++ [0x0D] :=
      dropHeads_spaces _ fun d hd => by
        obtain rfl : c = d := Option.some.inj hd
        exact h c mem_cons_self
    have hcr : afterHead (spaces.map List.reverse) (0x0D :: (c :: s).reverse)
        = some (c :: s).reverse := rfl
    rw [trimSpace, hstart, reverse_append, length_append, length_singleton]
    rw [show ([0x0D] : List UInt8).reverse ++ (c :: s).reverse = 0x0D :: (c :: s).reverse from rfl,
      dropHeads, hcr]
    show (dropHeads _ _ (c :: s).reverse).reverse = c :: s
    rw [dropHeads_spaces_reverse _ h, reverse_reverse]

/-- A text with one blank for each white-space character. The first `skip` bytes belong to a
character that has its blank already. -/
def blankSpaces : (skip : Nat) → List UInt8 → List UInt8
  | _, [] => []
  | skip + 1, _ :: s => blankSpaces skip s
  | 0, c :: s =>
    match spaces.find? (·.isPrefixOf (c :: s)) with
    | some head => 0x20 :: blankSpaces (head.length - 1) s
    | none => c :: blankSpaces 0 s

/-- `strings.Fields`: the parts between white space that are not empty. -/
def fields (s : List UInt8) : List (List UInt8) :=
  ((blankSpaces 0 s).splitOn 0x20).filter (· ≠ [])

/-- The bytes of a text stay, or become blanks. -/
theorem mem_blankSpaces {skip : Nat} (h : c ∈ blankSpaces skip s) :
    c = 0x20 ∨ c ∈ s := by
  fun_induction blankSpaces skip s with
  | case1 => exact .inr h
  | case2 skip b s ih => exact (ih h).imp_right (mem_cons_of_mem _)
  | case3 b s head hfind ih =>
    rcases mem_cons.1 h with h | h
    · exact .inl h
    · exact (ih h).imp_right (mem_cons_of_mem _)
  | case4 b s hfind ih =>
    rcases mem_cons.1 h with rfl | h
    · exact .inr mem_cons_self
    · exact (ih h).imp_right (mem_cons_of_mem _)

/-- A newline is white space. -/
theorem newline_notMem_blankSpaces (skip : Nat) (s : List UInt8) : 0x0A ∉ blankSpaces skip s := by
  fun_induction blankSpaces skip s with
  | case1 => exact not_mem_nil
  | case2 skip b s ih => exact ih
  | case3 b s head hfind ih =>
    rw [mem_cons, not_or]
    exact ⟨by decide, ih⟩
  | case4 b s hfind ih =>
    rw [mem_cons, not_or]
    refine ⟨?_, ih⟩
    rintro rfl
    have := List.find?_eq_none.1 hfind [0x0A] (by decide)
    exact this rfl

/-- Printable ASCII has no white space but blanks. -/
theorem blankSpaces_append (h : ∀ c ∈ s, 0x20 ≤ c ∧ c ≤ 0x7E) (t : List UInt8) :
    blankSpaces 0 (s ++ t) = s ++ blankSpaces 0 t := by
  induction s with
  | nil => rfl
  | cons c s ih =>
    have ih := ih fun d hd => h d (mem_cons_of_mem _ hd)
    rw [cons_append, blankSpaces]
    split
    · rename_i head hfind
      have hhead : ∀ head ∈ spaces, ∀ b ∈ head.head?, 0x20 ≤ b ∧ b ≤ 0x7E → head = [0x20] := by
        decide +kernel
      have hmem := mem_of_find?_eq_some hfind
      have hstart := List.find?_some hfind
      cases head with
      | nil => exact absurd hmem (by decide)
      | cons b head =>
        have hb : b = c := (cons_prefix_cons.1 (List.isPrefixOf_iff_prefix.1 hstart)).1
        have := hhead _ hmem b rfl (hb ▸ h c mem_cons_self)
        rw [List.cons.injEq] at this
        rw [← hb, this.1, this.2]
        exact congrArg (0x20 :: ·) ih
    · rw [ih]
      rfl

/-- `strconv.Atoi`: a sign or none, digits, and a value of 64 bits. -/
def atoi (s : List UInt8) : Option Int :=
  let neg := s.head? = some 0x2D
  let digits := if neg ∨ s.head? = some 0x2B then s.tail else s
  if digits = [] ∨ digits.all isDigit = false then none
  else if neg then if ofDecimal digits ≤ 2 ^ 63 then some (-ofDecimal digits) else none
  else if ofDecimal digits < 2 ^ 63 then some (ofDecimal digits) else none

theorem ofDecimal_lt (h : s.all isDigit = true) : ofDecimal s < 10 ^ s.length := by
  induction s using List.reverseRecOn with
  | nil => decide
  | append_singleton s c ih =>
    rw [all_append, Bool.and_eq_true] at h
    have hc : isDigit c = true := by simpa using h.2
    rw [isDigit, decide_eq_true_eq, UInt8.le_iff_toNat_le, UInt8.le_iff_toNat_le] at hc
    have hle : c.toNat ≤ 0x39 := hc.2
    have hrest := ih h.1
    have hval : ofDecimal (s ++ [c]) = 10 * ofDecimal s + (c.toNat - 0x30) := by
      rw [ofDecimal, foldl_append]
      rfl
    rw [hval, length_append, length_singleton, Nat.pow_succ]
    omega

/-- Up to 18 digits are a number of 64 bits. -/
theorem atoi_of_digits (hne : s ≠ []) (hall : s.all isDigit = true)
    (hlen : s.length ≤ 18) : atoi s = some (ofDecimal s : Int) := by
  have hsign : ∀ c : UInt8, isDigit c = false → s.head? ≠ some c := by
    intro c hc hhead
    have := all_eq_true.1 hall c (mem_of_head? hhead)
    rw [hc] at this
    cases this
  have hlt : ofDecimal s < 2 ^ 63 := calc
    ofDecimal s < 10 ^ s.length := ofDecimal_lt hall
    _ ≤ 10 ^ 18 := Nat.pow_le_pow_right (by decide) hlen
    _ < 2 ^ 63 := by decide
  have hdigits : ¬ (s = [] ∨ s.all isDigit = false) := by simp [hne, hall]
  simp only [atoi, hsign 0x2D (by decide), hsign 0x2B (by decide), or_self, if_false]
  rw [if_neg hdigits, if_pos hlt]

/-! ### Lines -/

/-- `strings.Cut`. -/
def cut (c : UInt8) (s : List UInt8) : Option (List UInt8 × List UInt8) :=
  if c ∈ s then some (s.takeWhile (· ≠ c), (s.dropWhile (· ≠ c)).tail) else none

/-- `strings.ReplaceAll` of CR LF by LF. -/
def crlfToLf : List UInt8 → List UInt8
  | [] => []
  | [c] => [c]
  | 0x0D :: 0x0A :: s => 0x0A :: crlfToLf s
  | c :: d :: s => c :: crlfToLf (d :: s)

/-- A text without the CR at its end. -/
def dropCr (s : List UInt8) : List UInt8 := if s.getLast? = some 0x0D then s.dropLast else s

theorem cut_cons (c d : UInt8) (s : List UInt8) :
    cut c (d :: s) = if d = c then some ([], s) else (cut c s).map fun p => (d :: p.1, p.2) := by
  by_cases hd : d = c
  · simp [cut, hd]
  · by_cases hmem : c ∈ s
    · simp [cut, hd, hmem]
    · simp [cut, hd, hmem, Ne.symm hd]

/-- `strings.Cut` splits at the first separator. -/
theorem cut_eq_some {k v : List UInt8} :
    cut c s = some (k, v) ↔ s = k ++ c :: v ∧ c ∉ k := by
  induction s generalizing k v with
  | nil => simp [cut]
  | cons d s ih =>
    rw [cut_cons]
    split
    · rename_i hd
      cases k with
      | nil => simp [hd]
      | cons e k => simp [← hd]; tauto
    · rename_i hd
      cases k with
      | nil => simp [hd]
      | cons e k =>
        simp only [Option.map_eq_some_iff, Prod.exists, Prod.mk.injEq, List.cons.injEq,
          cons_append, mem_cons]
        constructor
        · rintro ⟨k', v', hcut, ⟨rfl, rfl⟩, rfl⟩
          obtain ⟨rfl, hk⟩ := ih.1 hcut
          exact ⟨⟨rfl, rfl⟩, fun h => h.elim (fun h => hd h.symm) hk⟩
        · rintro ⟨⟨rfl, rfl⟩, hk⟩
          exact ⟨k, v, ih.2 ⟨rfl, fun h => hk (.inr h)⟩, ⟨rfl, rfl⟩, rfl⟩

theorem dropCr_cons (h : s ≠ []) : dropCr (c :: s) = c :: dropCr s := by
  rw [dropCr, dropCr, List.getLast?_cons_of_ne_nil h, dropLast_cons_of_ne_nil h]
  split <;> rfl

/-- The parts between newlines, before and after `\r\n` is replaced: all but the last lose a CR at
their end. -/
theorem splitOn_crlfToLf (raw : List UInt8) : ∃ init last,
    raw.splitOn 0x0A = init ++ [last] ∧ (crlfToLf raw).splitOn 0x0A = init.map dropCr ++ [last] := by
  fun_induction crlfToLf raw with
  | case1 => exact ⟨[], [], rfl, rfl⟩
  | case2 c =>
    by_cases hc : c = 0x0A
    · exact ⟨[[]], [], by simp [hc, splitOn_cons], by simp [hc, splitOn_cons, dropCr]⟩
    · exact ⟨[], [c], by simp [hc, splitOn_cons], by simp [hc, splitOn_cons]⟩
  | case3 s ih =>
    obtain ⟨init, last, hraw, hlf⟩ := ih
    exact ⟨[0x0D] :: init, last, by simp [splitOn_cons, hraw], by simp [splitOn_cons, hlf, dropCr]⟩
  | case4 c d s hcr ih =>
    obtain ⟨init, last, hraw, hlf⟩ := ih
    by_cases hc : c = 0x0A
    · refine ⟨[] :: init, last, ?_, ?_⟩
      · rw [splitOn_cons, if_pos hc, hraw]; rfl
      · rw [splitOn_cons, if_pos hc, hlf]; rfl
    · cases init with
      | nil =>
        refine ⟨[], c :: last, ?_, ?_⟩
        · rw [splitOn_cons, if_neg hc, hraw]; rfl
        · rw [splitOn_cons, if_neg hc, hlf]; rfl
      | cons first init =>
        refine ⟨(c :: first) :: init, last, ?_, ?_⟩
        · rw [splitOn_cons, if_neg hc, hraw]; rfl
        · rw [splitOn_cons, if_neg hc, hlf]
          have hfirst : dropCr (c :: first) = c :: dropCr first := by
            by_cases hnil : first = []
            · -- the newline follows `c`, which is not a CR then
              rw [splitOn_cons] at hraw
              split at hraw
              · rename_i hd
                have hc' : c ≠ 0x0D := fun h => hcr h hd
                simp [hnil, dropCr, hc']
              · cases hs : s.splitOn 0x0A with
                | nil => simp [hs] at hraw
                | cons a as => simp [hs, hnil] at hraw
            · exact dropCr_cons hnil
          simp [hfirst]

end ZfsBoot.Lib
