import ZfsBoot.Bios.Stage1
import ZfsBoot.Tool.BiosBoot

/-!
# `ZfsBoot.Proofs.Tool.StageCompat`: `CheckStage2` against the checks of stage1

`CheckStage2` is to say whether stage1 will jump into a stage2. Both read the magic word, then the
marker, then a length and a sum. The zeros behind an image do not change a word of it
(`le16_stage2Region`), so the two run on the same words, and the loop of `stage1.S` computes the
sum of the Go loop (`run_sumPass`).

They part in one place. For an image below ten bytes `CheckStage2` does not look at the marker at
all. Stage1 does, and then wants a length and a sum that add up: `checkStage2_iff` is exact about
where the two answers differ, and `short_marked_image` is an image of six bytes on which they do.
`ReadStage2` trims the zeros of the region it reads, so a region on a disk can come to such an
image too.
-/

set_option autoImplicit false

namespace ZfsBoot.Proofs.Tool

open List
open Lib ZfsBoot.Tool
open Bios (Stage1.check Stage1.Exit Stage1.sumPass Stage1.SumRegs)

variable {stage2 : List UInt8}

/-! ### Words and padding -/

theorem byteAt_stage2Region (stage2 : List UInt8) (i : Nat) :
    byteAt (stage2Region stage2) i = byteAt stage2 i := by
  by_cases h : i < stage2.length
  · rw [byteAt, byteAt, stage2Region, getD_append _ _ _ _ h]
  · rw [byteAt, byteAt, stage2Region, getD_append_right _ _ _ _ (Nat.not_lt.1 h),
      getD_eq_default _ _ (Nat.not_lt.1 h)]
    simp [getD_eq_getElem?_getD, List.getElem?_replicate]
    split <;> rfl

theorem le16_stage2Region (stage2 : List UInt8) (i : Nat) :
    le16 (stage2Region stage2) i = le16 stage2 i := by
  rw [le16, le16, byteAt_stage2Region, byteAt_stage2Region]

/-- The zeros that `ReadStage2` trims are the padding. -/
theorem stage2Region_trimStage2 {region : List UInt8} (h : region.length = stage2Bytes) :
    stage2Region (trimStage2 region) = region := by
  have hsplit : region.rdropWhile (· == 0) ++ region.rtakeWhile (· == 0) = region :=
    rdropWhile_append_rtakeWhile
  have hzeros : region.rtakeWhile (· == 0)
      = List.replicate (region.rtakeWhile (· == 0)).length 0 :=
    eq_replicate_of_mem fun b hb => by simpa using mem_rtakeWhile_imp hb
  have hlen := congrArg List.length hsplit
  rw [length_append, h] at hlen
  have hpad : stage2Bytes - (trimStage2 region).length = (region.rtakeWhile (· == 0)).length := by
    rw [trimStage2]
    omega
  rw [stage2Region, hpad, ← hzeros]
  exact hsplit

/-- An image that does not end in a zero comes back from its region. -/
theorem trimStage2_stage2Region (h : trimStage2 stage2 = stage2) :
    trimStage2 (stage2Region stage2) = stage2 := by
  have hzeros : ∀ n, trimStage2 (stage2 ++ List.replicate n 0) = stage2 := by
    intro n
    induction n with
    | zero => simpa using h
    | succ n ih =>
      rw [replicate_succ', ← append_assoc, trimStage2,
        rdropWhile_concat_pos _ _ _ rfl]
      exact ih
  exact hzeros _

/-- A word that is not zero in its upper byte lies inside the image. -/
theorem length_of_le16 {bs : List UInt8} {i v : Nat} (h : le16 bs i = v) (hv : 2 ^ 8 ≤ v) :
    i + 1 < bs.length := by
  by_contra hlen
  have hzero : byteAt bs (i + 1) = 0 := by
    rw [byteAt, getD_eq_default _ _ (Nat.not_lt.1 hlen)]
    rfl
  have := byteAt_lt bs i
  rw [le16, hzero] at h
  omega

/-! ### The sum -/

theorem wordSum_succ (region : List UInt8) (n : Nat) :
    wordSum region (n + 1) = u16 (wordSum region n + le16 region (2 * n)) := by
  rw [wordSum, range_succ, foldl_append]
  rfl

theorem wordSum_stage2Region (stage2 : List UInt8) (words : Nat) :
    wordSum (stage2Region stage2) words = wordSum stage2 words := by
  induction words with
  | zero => rfl
  | succ n ih => rw [wordSum_succ, wordSum_succ, ih, le16_stage2Region]

/-- `sum_loop` ends, with the sum of the Go loop in `%bx`. -/
theorem run_sumPass (mem : List UInt8) {words : Nat} (hpos : words ≠ 0) (hle : words ≤ 2 ^ 14) :
    Loop.run (Stage1.sumPass mem) (2 ^ 16) ⟨words, 0, 0⟩ = some (wordSum mem words) := by
  -- with `k` words added, `%cx` counts the rest and `%si` is at the next word
  have hpass : ∀ k, k < words → Stage1.sumPass mem ⟨words - k, 2 * k, wordSum mem k⟩
      = if k + 1 < words then .next ⟨words - (k + 1), 2 * (k + 1), wordSum mem (k + 1)⟩
        else .done (wordSum mem (k + 1)) := by
    intro k hk
    have hcx : u16 (words - k + (2 ^ 16 - 1)) = words - (k + 1) := by
      rw [u16]
      omega
    have hsi : u16 (2 * k + 2) = 2 * (k + 1) := by
      rw [u16]
      omega
    simp only [Stage1.sumPass, hcx, hsi, ← wordSum_succ]
    by_cases hlast : k + 1 < words
    · rw [if_pos (by omega), if_pos hlast]
    · rw [if_neg (by omega), if_neg hlast]
  let Inv (s : Stage1.SumRegs) : Prop :=
    ∃ k, k < words ∧ s = ⟨words - k, 2 * k, wordSum mem k⟩
  have hnext : ∀ s s', Inv s → Stage1.sumPass mem s = .next s' → Inv s' ∧ s'.cx < s.cx := by
    rintro s s' ⟨k, hk, rfl⟩ hs'
    rw [hpass k hk] at hs'
    split_ifs at hs' with hlast
    obtain rfl := Loop.Step.next.inj hs'
    exact ⟨⟨k + 1, hlast, rfl⟩, show words - (k + 1) < words - k by omega⟩
  have hdone : ∀ s r, Inv s → Stage1.sumPass mem s = .done r → r = wordSum mem words := by
    rintro s r ⟨k, hk, rfl⟩ hs'
    rw [hpass k hk] at hs'
    split_ifs at hs' with hlast
    obtain rfl := Loop.Step.done.inj hs'
    rw [show k + 1 = words by omega]
  obtain ⟨r, hrun, rfl⟩ := Loop.run_spec Inv _ (fun s => s.cx) hnext hdone (2 ^ 16) ⟨words, 0, 0⟩
    ⟨0, Nat.pos_of_ne_zero hpos, rfl⟩ (show words < 2 ^ 16 by omega)
  exact hrun

/-! ### The two checks -/

/-- The length word is in range, and that many words add up to zero. -/
@[mk_iff] structure SumsUp (bs : List UInt8) : Prop where
  pos : le16 bs 6 ≠ 0
  le : le16 bs 6 ≤ stage2Bytes / 2
  sum : wordSum bs (le16 bs 6) = 0

/-- Stage1 jumps into a stage2 with the magic word, and with a sum if there is a marker. -/
theorem check_eq_jump_iff (mem : List UInt8) :
    Stage1.check mem = some .jump ↔
      le16 mem 2 = stage2Magic ∧ (le16 mem 4 = stage2SumMarker → SumsUp mem) := by
  have hmagic : ZfsBoot.Bios.Stage1.stage2Magic = stage2Magic := rfl
  have hmarker : ZfsBoot.Bios.Stage1.stage2SumMarker = stage2SumMarker := rfl
  have hlen : ZfsBoot.Bios.Stage1.stage2LenOffset = 6 := rfl
  have hmax : ZfsBoot.Bios.Stage1.stage2MaxWords = stage2Bytes / 2 := rfl
  have hbytes : stage2Bytes / 2 = 2 ^ 14 := rfl
  simp only [Stage1.check, hmagic, hmarker, hlen, hmax]
  split_ifs with h2 h4 hpos hle
  · simp [h2]
  · simp [not_not.1 h2, h4]
  · simp [not_not.1 h2, not_not.1 h4, sumsUp_iff, hpos]
  · simp [not_not.1 h2, not_not.1 h4, sumsUp_iff, Nat.not_le.2 hle]
  · rw [run_sumPass mem hpos (by omega)]
    by_cases h0 : wordSum mem (le16 mem 6) = 0 <;>
      simp [not_not.1 h2, not_not.1 h4, sumsUp_iff, hpos, Nat.not_lt.1 hle, h0]

/-- `CheckStage2` on an image that fits: the same, but it looks at the marker only from ten bytes
on. -/
theorem checkStage2_eq_ok_iff (h : stage2.length ≤ stage2Bytes) :
    checkStage2 stage2 = .ok () ↔
      le16 stage2 2 = stage2Magic
        ∧ (10 ≤ stage2.length → le16 stage2 4 = stage2SumMarker → SumsUp stage2) := by
  have hlen : le16 stage2 2 = stage2Magic → 4 ≤ stage2.length :=
    fun hmagic => length_of_le16 hmagic (by decide)
  have hregion : SumsUp stage2 ↔ ¬ (le16 stage2 6 = 0 ∨ le16 stage2 6 > stage2Bytes / 2)
      ∧ wordSum stage2 (le16 stage2 6) = 0 := by
    rw [not_or, Nat.not_lt, sumsUp_iff, and_assoc]
  simp only [checkStage2, le16_stage2Region, wordSum_stage2Region]
  split_ifs with hsize h2 hshort hwords hsum
  · simp only [false_iff]
    rintro ⟨hmagic, -⟩
    omega
  · simp [h2]
  · simp only [true_iff]
    refine ⟨not_not.1 h2, fun h10 hmarker => ?_⟩
    rcases hshort with hshort | hshort
    · omega
    · exact absurd hmarker hshort
  · rw [not_or, Nat.not_lt, not_not] at hshort
    simp [hshort, hregion, hwords]
  · rw [not_or, Nat.not_lt, not_not] at hshort
    simp [hshort, hregion, hsum]
  · rw [not_or, Nat.not_lt, not_not] at hshort
    simp [not_not.1 h2, hregion, hwords, not_not.1 hsum]

/-- An image below ten bytes that has the magic word and the marker, and no sum that adds up. -/
structure ShortMarked (stage2 : List UInt8) : Prop where
  short : stage2.length < 10
  magic : le16 stage2 2 = stage2Magic
  marker : le16 stage2 4 = stage2SumMarker
  not_sum : ¬ SumsUp stage2

theorem sumsUp_stage2Region (stage2 : List UInt8) :
    SumsUp (stage2Region stage2) ↔ SumsUp stage2 := by
  simp only [sumsUp_iff, le16_stage2Region, wordSum_stage2Region]

theorem checkStage2_iff_check (h : stage2.length ≤ stage2Bytes) :
    (checkStage2 stage2 = .ok () ↔ Stage1.check (stage2Region stage2) = some .jump)
      ↔ ¬ ShortMarked stage2 := by
  rw [check_eq_jump_iff, checkStage2_eq_ok_iff h, le16_stage2Region, le16_stage2Region,
    sumsUp_stage2Region]
  constructor
  · rintro hiff ⟨hshort, hmagic, hmarker, hsum⟩
    exact hsum ((hiff.1 ⟨hmagic, fun h10 => by omega⟩).2 hmarker)
  · intro hnot
    refine and_congr_right fun hmagic => ⟨fun hcheck hmarker => ?_, fun hcheck _ => hcheck⟩
    by_cases h10 : 10 ≤ stage2.length
    · exact hcheck h10 hmarker
    · by_contra hsum
      exact hnot ⟨Nat.not_le.1 h10, hmagic, hmarker, hsum⟩

/-- Where `CheckStage2` and stage1 agree: on every image that fits, and on every region with the
image that `ReadStage2` makes of it, except for an image below ten bytes that has the magic word
and the marker while its length and sum do not add up. -/
theorem checkStage2_iff (stage2 region : List UInt8) :
    (stage2.length ≤ stage2Bytes →
      ((checkStage2 stage2 = .ok () ↔ Stage1.check (stage2Region stage2) = some .jump)
        ↔ ¬ ShortMarked stage2))
    ∧ (region.length = stage2Bytes →
      ((checkStage2 (trimStage2 region) = .ok () ↔ Stage1.check region = some .jump)
        ↔ ¬ ShortMarked (trimStage2 region))) := by
  refine ⟨checkStage2_iff_check, fun h => ?_⟩
  have hle : (trimStage2 region).length ≤ stage2Bytes := by
    rw [← h]
    exact (List.rdropWhile_prefix _ _).length_le
  have hiff := checkStage2_iff_check hle
  rwa [stage2Region_trimStage2 h] at hiff

/-- The magic word and the marker, and nothing after them. -/
def markedImage : List UInt8 := [0, 0, 0x5a, 0x32, 0x31, 0x53]

/-- `CheckStage2` accepts six bytes that stage1 refuses, as an image and as a region. -/
theorem short_marked_image :
    checkStage2 markedImage = .ok ()
      ∧ Stage1.check (stage2Region markedImage) = some .readFailed
      ∧ trimStage2 (stage2Region markedImage) = markedImage := by
  refine ⟨rfl, ?_, ?_⟩
  · have h2 : le16 markedImage 2 = 0x325a := rfl
    have h4 : le16 markedImage 4 = 0x5331 := rfl
    have h6 : le16 markedImage 6 = 0 := rfl
    simp only [Stage1.check, le16_stage2Region, h2, h4, ZfsBoot.Bios.Stage1.stage2Magic,
      ZfsBoot.Bios.Stage1.stage2SumMarker, ZfsBoot.Bios.Stage1.stage2LenOffset, h6]
    rfl
  · exact trimStage2_stage2Region (by decide)

end ZfsBoot.Proofs.Tool
