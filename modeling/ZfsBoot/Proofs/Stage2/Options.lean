import Mathlib.Data.List.GetD
import ZfsBoot.Bios.Stage2
import ZfsBoot.Lib.Words

/-!
# `ZfsBoot.Proofs.Stage2.Options`: which integrity mode a boot is in

`effectiveMode` is the rule in its own terms: the first word of the command line that starts with
`alpine-zfsboot.integrity=` wins if it names a mode, else the manifest's MODE, and
`manifestMode` says what that is. `readIntegrity_mode` and `mode_of_parse` connect the two
parsers of the loader to the rule.

`str_eq` compares a field with the memory at a literal, so it can read past the literal's end if
the field has a NUL in it. A command line has none; a manifest with one is left out of
`mode_of_parse`.
-/

set_option autoImplicit false

namespace ZfsBoot.Proofs.Stage2

open List
open Lib Bios

variable {text : List UInt8} {ro : Rodata}

/-! ### The rule -/

/-- The mode a word names. -/
def modeNamed (v : List UInt8) : Option PayloadSumMode :=
  if v = ascii "warn" then some .warn
  else if v = ascii "enforce" then some .enforce
  else if v = ascii "off" then some .off
  else none

/-- `alpine-zfsboot.integrity=`. -/
def integrityKey : List UInt8 := ascii "alpine-zfsboot.integrity="

/-- The value of the first word that starts with `key`. Words are separated by blanks, and a
newline ends a value. -/
def firstValue (key cmd : List UInt8) : Option (List UInt8) :=
  ((cmd.splitOn 0x20).find? key.isPrefixOf).map fun w =>
    (w.drop key.length).takeWhile (· != 0x0A)

/-- The mode of a boot: the command line's, or the manifest's. -/
def effectiveMode (cmd : List UInt8) (manifest : PayloadSumMode) : PayloadSumMode :=
  ((firstValue integrityKey cmd).bind modeNamed).getD manifest

/-- The mode a line of a manifest asks for, if it is a MODE line: `warn` for anything but one of
the three words. -/
def lineMode (line : List UInt8) : Option PayloadSumMode :=
  if (nextField line).1 = ascii "MODE" then
    let value := nextField (nextField line).2
    some (if value.2 = [] then (modeNamed value.1).getD .warn else .warn)
  else none

/-- The mode of a manifest: what the last MODE line after its first line says, and `warn` if there
is none. -/
def manifestMode (text : List UInt8) : PayloadSumMode :=
  (((splitLines text).1.tail).filterMap lineMode).getLast?.getD .warn

/-! ### The command line -/

theorem decide_ne_eq_bne (x y : UInt8) : decide (x ≠ y) = (x != y) := by
  rw [Bool.eq_iff_iff, decide_eq_true_iff, bne_iff_ne]

theorem cmdlineValue_eq {key : List UInt8} (hne : key ≠ []) (hkey : (0x20 : UInt8) ∉ key)
    (cmd : List UInt8) : cmdlineValue key cmd = firstValue key cmd := by
  have hempty : key.isPrefixOf [] = false := by
    cases key with
    | nil => exact absurd rfl hne
    | cons x key => rfl
  have hword : ∀ x ∈ key, (x != 0x20) = true := by
    intro x hx
    rw [bne_iff_ne]
    rintro rfl
    exact hkey hx
  -- each step of the scan drops one word, or the blanks at the front
  induction hn : cmd.length using Nat.strong_induction_on generalizing cmd with
  | _ n ih =>
    cases cmd with
    | nil =>
      rw [cmdlineValue, firstValue, splitOn_nil, List.find?_cons_of_neg (by simp [hempty])]
      rfl
    | cons c cmd =>
      have hdrop : (c :: cmd).dropWhile (· ≠ 0x20) = (c :: cmd).dropWhile (· != 0x20) := by
        simp only [decide_ne_eq_bne]
      rw [cmdlineValue]
      split
      · rename_i hhead
        have hfirst : ((c :: cmd).splitOn 0x20).find? key.isPrefixOf
            = some ((c :: cmd).takeWhile (· != 0x20)) := by
          have hp := (isPrefixOf_takeWhile (l := c :: cmd) hword).trans hhead
          rcases hrest : (c :: cmd).dropWhile (· != 0x20) with _ | ⟨x, rest⟩
          · rw [splitOn_of_dropWhile_nil hrest, List.find?_cons_of_pos hp]
          · rw [splitOn_of_dropWhile_cons hrest, List.find?_cons_of_pos hp]
        rw [firstValue, hfirst, Option.map_some,
          takeWhile_drop_takeWhile hword (List.isPrefixOf_iff_prefix.mp hhead)]
        simp only [Bool.decide_and, decide_ne_eq_bne]
      · rename_i hhead
        rw [ih _ (hn ▸ length_nextWord_lt) (nextWord (c :: cmd)) rfl, nextWord, hdrop]
        have hp : ¬ key.isPrefixOf ((c :: cmd).takeWhile (· != 0x20)) = true := by
          rwa [isPrefixOf_takeWhile hword]
        rw [firstValue, firstValue]
        congr 1
        rcases hrest : (c :: cmd).dropWhile (· != 0x20) with _ | ⟨x, rest⟩
        · rw [splitOn_of_dropWhile_nil hrest, List.find?_cons_of_neg hp]
          exact List.find?_cons_of_neg (by simp [hempty])
        · have hx : x = 0x20 := by
            have := List.head?_dropWhile_not (· != (0x20 : UInt8)) (c :: cmd)
            rw [hrest] at this
            simpa [bne] using this
          rw [splitOn_of_dropWhile_cons hrest, List.find?_cons_of_neg hp, hx,
            dropWhile_cons_of_pos (by simp)]
          have hskip : ((rest.dropWhile (· == (0x20 : UInt8))).splitOn 0x20).find? key.isPrefixOf
              = (rest.splitOn 0x20).find? key.isPrefixOf := find?_splitOn_dropWhile hempty rest
          rw [← hskip]
          congr 2

/-! ### Fields against literals -/

theorem strEq_iff {a b : List UInt8} (ha : (0 : UInt8) ∉ a) (hb : (0 : UInt8) ∉ b) :
    strEq ro a b = true ↔ a = b := by
  have hmem : ∀ i, i < b.length → (b ++ 0 :: ro b).getD i 0 = b.getD i 0 := by
    intro i hi
    rw [getD_append _ _ _ _ hi]
  have hend : (b ++ 0 :: ro b).getD b.length 0 = 0 := by
    rw [getD_append_right _ _ _ _ (Nat.le_refl _), Nat.sub_self]
    rfl
  have hget : ∀ {l : List UInt8}, (0 : UInt8) ∉ l → ∀ i, i < l.length → l.getD i 0 ≠ 0 := by
    intro l hl i hi h0
    rw [getD_eq_getElem _ _ hi] at h0
    exact hl (h0 ▸ getElem_mem hi)
  rw [strEq]
  simp only [Bool.and_eq_true, all_eq_true, mem_range, beq_iff_eq]
  constructor
  · rintro ⟨hall, hlast⟩
    -- neither list can end inside the other: its terminator would be a byte of the other
    have hle : a.length ≤ b.length := by
      by_contra hlt
      rw [not_le] at hlt
      have := hall b.length hlt
      rw [hend] at this
      exact hget ha _ hlt this.symm
    have hlen : a.length = b.length := by
      by_contra hne
      have hlt : a.length < b.length := by omega
      rw [hmem _ hlt] at hlast
      exact hget hb _ hlt hlast
    refine ext_getElem hlen fun i h₁ h₂ => ?_
    have := hall i h₁
    rw [hmem i h₂, getD_eq_getElem _ _ h₂, getD_eq_getElem _ _ h₁] at this
    exact this.symm
  · rintro rfl
    exact ⟨hmem, hend⟩

theorem payloadSumMode_eq {v : List UInt8} (hv : (0 : UInt8) ∉ v) :
    payloadSumMode ro v = modeNamed v := by
  unfold payloadSumMode modeNamed
  simp only [strEq_iff hv (show (0 : UInt8) ∉ ascii "warn" by decide),
    strEq_iff hv (show (0 : UInt8) ∉ ascii "enforce" by decide),
    strEq_iff hv (show (0 : UInt8) ∉ ascii "off" by decide)]

/-- The mode of `read_options` is the effective mode. -/
theorem mode_of_cmdline {cmd : List UInt8} (hcmd : (0 : UInt8) ∉ cmd) (mode : PayloadSumMode) :
    ((cmdlineValue (ascii "alpine-zfsboot.integrity=") cmd).bind (payloadSumMode ro)).getD mode
      = effectiveMode cmd mode := by
  rw [effectiveMode, ← integrityKey, cmdlineValue_eq (by decide) (by decide)]
  rcases hv : firstValue integrityKey cmd with _ | v
  · rfl
  · have hsub : (0 : UInt8) ∉ v := by
      intro h0
      rw [firstValue, Option.map_eq_some_iff] at hv
      obtain ⟨w, hw, rfl⟩ := hv
      have hmem := (drop_subset _ _) ((takeWhile_subset _) h0)
      have hjoin := mem_of_mem_splitOn (mem_of_find?_eq_some hw) hmem
      exact hcmd hjoin
    rw [Option.bind_some, Option.bind_some, payloadSumMode_eq hsub]

/-! ### The manifest -/

theorem nextField_subset (line : List UInt8) :
    (nextField line).1 ⊆ line ∧ (nextField line).2 ⊆ line := by
  have hskip : (if line.head? = some 0x20 then line.tail else line) ⊆ line := by
    split
    · exact (tail_sublist line).subset
    · exact List.Subset.refl line
  exact ⟨fun _ hc => hskip (takeWhile_subset _ hc),
    fun _ hc => hskip ((dropWhile_sublist _).subset hc)⟩

theorem mem_splitLines : ∀ {c : UInt8},
    (∃ line ∈ (splitLines text).1, c ∈ line) ∨ c ∈ (splitLines text).2 → c ∈ text := by
  induction text with
  | nil => simp [splitLines]
  | cons b text ih =>
    intro c hc
    rw [splitLines] at hc
    rcases hs : splitLines text with ⟨_ | ⟨first, lines⟩, last⟩
    all_goals
      rw [hs] at hc ih
      dsimp only at hc ih
      split at hc
    · simp only [mem_singleton, exists_eq_left, not_mem_nil, false_or] at hc
      exact mem_cons_of_mem _ (ih (.inr hc))
    · simp only [not_mem_nil, false_and, exists_false, false_or, mem_cons] at hc
      exact mem_cons.mpr (hc.imp id fun h => ih (.inr h))
    · refine mem_cons_of_mem _ (ih ?_)
      rcases hc with ⟨line, hline, hmem⟩ | hc
      · rcases mem_cons.mp hline with rfl | hline
        · cases hmem
        · exact .inl ⟨line, hline, hmem⟩
      · exact .inr hc
    · rcases hc with ⟨line, hline, hmem⟩ | hc
      · rcases mem_cons.mp hline with rfl | hline
        · rcases mem_cons.mp hmem with rfl | hmem
          · exact mem_cons_self
          · exact mem_cons_of_mem _ (ih (.inl ⟨first, mem_cons_self, hmem⟩))
        · exact mem_cons_of_mem _ (ih (.inl ⟨line, mem_cons_of_mem _ hline, hmem⟩))
      · exact mem_cons_of_mem _ (ih (.inr hc))

/-- A line changes the mode if it is a MODE line, and not otherwise. -/
theorem parseLine_mode {out out' : PartialSum} {line : List UInt8}
    (hline : (0 : UInt8) ∉ line) (h : parseLine ro out line = some out') :
    out'.mode = (lineMode line).getD out.mode := by
  have hfield : (0 : UInt8) ∉ (nextField line).1 := fun h0 => hline ((nextField_subset line).1 h0)
  have hvalue : (0 : UInt8) ∉ (nextField (nextField line).2).1 := fun h0 =>
    hline ((nextField_subset line).2 ((nextField_subset _).1 h0))
  rw [parseLine] at h
  dsimp only at h
  simp only [strEq_iff hfield (show (0 : UInt8) ∉ ascii "KERNEL" by decide),
    strEq_iff hfield (show (0 : UInt8) ∉ ascii "INITRD" by decide),
    strEq_iff hfield (show (0 : UInt8) ∉ ascii "MODE" by decide)] at h
  rw [lineMode]
  split at h
  · rename_i hk
    rw [if_neg (hk ▸ by decide)]
    split at h
    · cases h
    · obtain ⟨e, -, rfl⟩ := Option.map_eq_some_iff.mp h
      rfl
  · split at h
    · rename_i hi
      rw [if_neg (hi ▸ by decide)]
      split at h
      · cases h
      · obtain ⟨e, -, rfl⟩ := Option.map_eq_some_iff.mp h
        rfl
    · split at h
      · rename_i hm
        rw [if_pos hm]
        cases h
        dsimp only
        rw [payloadSumMode_eq hvalue]
        split <;> rfl
      · rename_i hm
        rw [if_neg hm]
        cases h
        rfl

theorem parseLines_mode (lines : List (List UInt8)) :
    ∀ {out out' : PartialSum}, (∀ line ∈ lines, (0 : UInt8) ∉ line) →
      lines.foldlM (parseLine ro) out = some out' →
      out'.mode = (lines.filterMap lineMode).getLast?.getD out.mode := by
  induction lines with
  | nil =>
    intro out out' _ h
    cases h
    rfl
  | cons line lines ih =>
    intro out out' hnul h
    rw [foldlM_cons, Option.bind_eq_bind, Option.bind_eq_some_iff] at h
    obtain ⟨mid, hmid, hrest⟩ := h
    have hmode := parseLine_mode (hnul line mem_cons_self) hmid
    rw [ih (fun l hl => hnul l (mem_cons_of_mem _ hl)) hrest, hmode, filterMap_cons]
    cases lineMode line with
    | none => rfl
    | some m => simp [List.getLast?_cons]

/-- The mode that `payload_sum_parse` takes from a text. -/
theorem mode_of_parse {sum : PayloadSum}
    (htext : (0 : UInt8) ∉ text) (h : payloadSumParse ro text = (.ok, some sum)) :
    sum.mode = manifestMode text := by
  have hnul : ∀ line ∈ (splitLines text).1, (0 : UInt8) ∉ line := fun line hline h0 =>
    htext (mem_splitLines (.inl ⟨line, hline, h0⟩))
  rw [payloadSumParse] at h
  rw [manifestMode]
  split at h
  · cases h
  · rename_i first lines last heq
    rw [heq] at hnul ⊢
    split at h
    · split at h
      · rename_i kernel initrd mode hfold
        split at h
        · cases h
        · cases h
          exact parseLines_mode lines (fun l hl => hnul l (mem_cons_of_mem _ hl)) hfold
      · cases h
    · exact absurd (congrArg Prod.snd h) (by simp)

end ZfsBoot.Proofs.Stage2
