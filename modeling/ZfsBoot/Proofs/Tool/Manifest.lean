import ZfsBoot.Proofs.Stage2.Options
import ZfsBoot.Proofs.Tool.PayloadSum

/-!
# `ZfsBoot.Proofs.Tool.Manifest`: CHECKSUM as the tool and as the loader read it

`payloadsum.Decode` and the loader's `payload_sum_parse` are two parsers of one format. The tool
splits a line at every blank. The loader takes one field after the other, and skips one blank before
each, the first one of a line included. On numbers and digests the two agree (`parseDec_eq`,
`digest_eq`), and on a whole line they agree if the line is `strict`: it does not start with a
blank, and it has no NUL where the loader compares it with a literal.

`strictText` is a text with only its strict lines. The tool reads a text as the loader reads its
`strictText` (`decode_eq_parse`). So the two agree on a text exactly if the other lines make no
difference to the loader (`decode_agrees_parse_iff`).
-/

set_option autoImplicit false

namespace ZfsBoot.Proofs.Tool.Manifest

variable {lines : List (List UInt8)}

open List hiding Vector
open Lib ZfsBoot.Tool.PayloadSum Stage2 Proofs.Tool.PayloadSum
open Bios (ascii PayloadSumMode PayloadSumEntry PartialSum Rodata nextField splitLines
  parseDecLoop hexval parseHex parseLine parseHeader payloadSumParse payloadSumMode strEq)

variable {ro : Rodata}

/-! ### Numbers and digests -/

/-- The loop stops at a byte that is no digit, and before the value leaves 32 bits. -/
theorem parseDecLoop_eq (s : List UInt8) {v : Nat} (hv : v < 2 ^ 32) :
    parseDecLoop v s
      = if s.all isDigit ∧ s.foldl (fun n c => 10 * n + (c.toNat - 0x30)) v < 2 ^ 32 then
          some (s.foldl (fun n c => 10 * n + (c.toNat - 0x30)) v)
        else none := by
  induction s generalizing v with
  | nil => exact (if_pos ⟨rfl, hv⟩).symm
  | cons c s ih =>
    have hgrow : ∀ (s : List UInt8) (v : Nat),
        v ≤ s.foldl (fun n c => 10 * n + (c.toNat - 0x30)) v := by
      intro s
      induction s with
      | nil => exact fun v => le_rfl
      | cons c s ih => exact fun v => le_trans (show v ≤ 10 * v + (c.toNat - 0x30) by omega) (ih _)
    have hdigit : isDigit c = true ↔ ¬ (c < 0x30 ∨ c > 0x39) := by
      simp only [isDigit, decide_eq_true_eq, not_or, UInt8.not_lt, gt_iff_lt]
    rw [parseDecLoop, foldl_cons, all_cons]
    by_cases hc : c < 0x30 ∨ c > 0x39
    · rw [if_pos hc, if_neg]
      simp [hdigit, hc]
    · have hd : c.toNat - 0x30 ≤ 9 := by
        have : c ≤ 0x39 := by simpa using (not_or.1 hc).2
        have := UInt8.le_iff_toNat_le.1 this
        have h39 : (0x39 : UInt8).toNat = 0x39 := rfl
        omega
      rw [if_neg hc]
      dsimp only
      split
      · rename_i hbig
        rw [if_neg]
        have := hgrow s (10 * v + (c.toNat - 0x30))
        omega
      · rename_i hsmall
        rw [Nat.mul_comm v 10, ih (by omega)]
        simp [hdigit.2 hc]

theorem parseDec_eq (s : List UInt8) : Bios.parseDec s = parseDec s := by
  unfold Bios.parseDec parseDec
  by_cases hlen : s.length = 0 ∨ s.length > 10
  · rw [if_pos hlen, if_pos]
    rcases hlen with h | h
    · exact .inl (eq_nil_of_length_eq_zero h)
    · exact .inr (.inl h)
  · rw [if_neg hlen, parseDecLoop_eq s (by decide)]
    have hne : s ≠ [] := fun h => hlen (.inl (by rw [h]; rfl))
    by_cases hall : s.all isDigit = true
    · have hfits : ¬ (s = [] ∨ s.length > 10 ∨ s.all isDigit = false) := by
        simp [hne, hall, Nat.not_lt.1 (not_or.1 hlen).2]
      rw [if_neg hfits, ofDecimal]
      simp only [hall, true_and]
    · simp [hall]

/-- The tool takes upper-case digits and refuses them later; the loader takes none. -/
theorem hexval_eq (c : UInt8) : hexval c = if lower c = c then hexValue c else none := by
  revert c
  exact forall_uint8 (by decide +kernel)

/-- The digits of a digest, two for each byte. -/
theorem hexDecode_eq_map {n : Nat} {c : List UInt8} (hlen : c.length = 2 * n)
    (hc : ∀ i < 2 * n, (hexValue (c.getD i 0)).isSome) :
    hexDecode c = some ((List.range n).map fun i =>
      UInt8.ofNat (16 * (hexValue (c.getD (2 * i) 0)).getD 0
        + (hexValue (c.getD (2 * i + 1) 0)).getD 0)) := by
  induction n generalizing c with
  | zero =>
    obtain rfl := eq_nil_of_length_eq_zero hlen
    rfl
  | succ n ih =>
    match c, hlen with
    | a :: b :: s, hlen =>
      have hs : s.length = 2 * n := by simp at hlen; omega
      obtain ⟨hi, ha⟩ := Option.isSome_iff_exists.1 (hc 0 (by omega))
      obtain ⟨lo, hb⟩ := Option.isSome_iff_exists.1 (hc 1 (by omega))
      have ha : hexValue a = some hi := ha
      have hb : hexValue b = some lo := hb
      have hrest := ih hs fun i hi => hc (i + 2) (by omega)
      rw [hexDecode, ha, hb, hrest, range_succ_eq_map, map_cons, map_map]
      simp [ha, hb, Nat.mul_add]

/-- A text of an odd length, or with another byte, is no digest. -/
theorem hexDecode_eq_some {c bs : List UInt8} (h : hexDecode c = some bs) :
    c.length = 2 * bs.length ∧ ∀ i < c.length, (hexValue (c.getD i 0)).isSome := by
  fun_induction hexDecode c generalizing bs with
  | case1 =>
    obtain rfl := Option.some.inj h
    exact ⟨rfl, fun i hi => absurd hi (Nat.not_lt_zero i)⟩
  | case2 => cases h
  | case3 a b s ih =>
    simp only [Option.bind_eq_bind, Option.bind_eq_some_iff] at h
    obtain ⟨hi, ha, lo, hb, bs', hs, h⟩ := h
    obtain rfl := Option.some.inj h
    obtain ⟨hlen, hall⟩ := ih hs
    refine ⟨by simp [hlen]; omega, fun i hi => ?_⟩
    match i with
    | 0 => simp [ha]
    | 1 => simp [hb]
    | i + 2 => exact hall i (by simp at hi; omega)

theorem hexval_getD {c : List UInt8} (hlower : c.map lower = c) (i : Nat) :
    hexval (c.getD i 0) = hexValue (c.getD i 0) := by
  have h : lower (c.getD i 0) = c.getD i 0 := by
    have := getD_map (l := c) (d := 0) (n := i) lower
    rwa [hlower, show lower 0 = 0 by decide, eq_comm] at this
  rw [hexval_eq, if_pos h]

/-- Where every digit is one for the loader, none of them is upper-case. -/
theorem map_lower_of_hexval {c : List UInt8} (h : ∀ i < c.length, (hexval (c.getD i 0)).isSome) :
    c.map lower = c := by
  refine (map_congr_left fun b hb => ?_).trans (map_id c)
  show lower b = b
  obtain ⟨i, hi, hb⟩ := getElem_of_mem hb
  by_contra hne
  have := h i hi
  rw [getD_eq_getElem _ _ hi, hb, hexval_eq, if_neg hne] at this
  cases this

theorem digestOf_eq {bs : List UInt8} (h : bs.length = 32) :
    digestOf bs = some (Vector.ofFn fun i => bs.getD i.val 0) := by
  rw [digestOf, dif_pos h]
  refine congrArg some (Vector.ext fun i hi => ?_)
  rw [Vector.getElem_ofFn, getD_eq_getElem _ _ (by omega)]
  rfl

theorem getD_map_range (f : Nat → UInt8) {i n : Nat} (hi : i < n) :
    ((List.range n).map f).getD i 0 = f i := by
  simp [hi]

/-- The digest of an entry: the loader wants 64 digits of its own, the tool reads 32 bytes and then
refuses upper-case digits. -/
theorem digest_eq (c : List UInt8) :
    (if c.length ≠ 64 then none else parseHex c)
      = if c.map lower ≠ c then none else (hexDecode c).bind digestOf := by
  by_cases hdigits : c.length = 64 ∧ ∀ i < 64, (hexval (c.getD i 0)).isSome
  · obtain ⟨hlen, hall⟩ := hdigits
    have hlower : c.map lower = c := map_lower_of_hexval (hlen ▸ hall)
    have hvalue := hexval_getD hlower
    have hbytes := hexDecode_eq_map (n := 32) (c := c) hlen fun i hi => hvalue i ▸ hall i hi
    rw [if_neg (not_not.2 hlen), if_neg (not_not.2 hlower), hbytes, Option.bind_some,
      digestOf_eq (by rw [length_map, length_range]), parseHex, if_pos]
    · refine congrArg some (congrArg Vector.ofFn (funext fun i => ?_))
      rw [hvalue, hvalue, getD_map_range _ i.isLt]
    · exact all_eq_true.2 fun i hi => hall i (mem_range.1 hi)
  · have hleft : (if c.length ≠ 64 then none else parseHex c) = none := by
      split
      · rfl
      · rename_i hlen
        refine if_neg fun hall => hdigits ⟨not_not.1 hlen, fun i hi => ?_⟩
        exact all_eq_true.1 hall i (mem_range.2 hi)
    rw [hleft]
    split
    · rfl
    · rename_i hlower
      cases hbytes : hexDecode c with
      | none => rfl
      | some bs =>
        obtain ⟨hlen, hall⟩ := hexDecode_eq_some hbytes
        refine Eq.symm (dif_neg fun h32 : bs.length = 32 => hdigits ?_)
        have h64 : c.length = 64 := by omega
        exact ⟨h64, fun i hi => hexval_getD (not_not.1 hlower) i ▸ hall i (h64 ▸ hi)⟩

/-! ### The fields of a line -/

theorem takeWhile_word {w : List UInt8} (hw : 0x20 ∉ w) (ws : List (List UInt8)) :
    (w ++ afterWords 0x20 ws).takeWhile (· ≠ 0x20) = w
      ∧ (w ++ afterWords 0x20 ws).dropWhile (· ≠ 0x20) = afterWords 0x20 ws := by
  have hall : ∀ b ∈ w, decide (b ≠ 0x20) = true := fun b hb =>
    decide_eq_true fun h => hw (h ▸ hb)
  rw [takeWhile_append_of_pos hall, dropWhile_append_of_pos hall]
  cases ws <;> simp [afterWords]

theorem afterWords_nil : afterWords (0x20 : UInt8) [] = [] := rfl

theorem nextField_nil : nextField [] = ([], []) := rfl

theorem nextField_afterWords {w : List UInt8} (hw : 0x20 ∉ w) (ws : List (List UInt8)) :
    nextField (afterWords 0x20 (w :: ws)) = (w, afterWords 0x20 ws) := by
  obtain ⟨htake, hdrop⟩ := takeWhile_word hw ws
  exact Prod.ext htake hdrop

/-- The first field of a line that does not start with a blank. -/
theorem nextField_first {w : List UInt8} (hw : 0x20 ∉ w) {ws : List (List UInt8)}
    (hblank : (w ++ afterWords 0x20 ws).head? ≠ some 0x20) :
    nextField (w ++ afterWords 0x20 ws) = (w, afterWords 0x20 ws) := by
  obtain ⟨htake, hdrop⟩ := takeWhile_word hw ws
  rw [nextField, if_neg hblank]
  exact Prod.ext htake hdrop

/-- An entry as the loader keeps it. -/
def loaderEntry (e : Entry) : PayloadSumEntry := ⟨e.size, e.offset, e.sha256⟩

theorem parseEntry_eq (name : List UInt8) {ws : List (List UInt8)} (hws : ∀ w ∈ ws, 0x20 ∉ w) :
    Bios.parseEntry (afterWords 0x20 ws) = (parseEntry (name :: ws)).map loaderEntry := by
  have hnone : Bios.parseDec [] = none := rfl
  match ws, hws with
  | [], _ => rfl
  | [a], hws =>
    have ha := hws a (by simp)
    simp only [Bios.parseEntry, nextField_afterWords ha, afterWords_nil, nextField_nil, hnone,
      parseEntry]
    cases Bios.parseDec a <;> rfl
  | [a, b], hws =>
    have ha := hws a (by simp)
    have hb := hws b (by simp)
    simp only [Bios.parseEntry, nextField_afterWords ha, nextField_afterWords hb, parseEntry,
      afterWords_nil, nextField_nil]
    cases Bios.parseDec a <;> cases Bios.parseDec b <;> rfl
  | [a, b, c], hws =>
    have ha := hws a (by simp)
    have hb := hws b (by simp)
    have hc := hws c (by simp)
    simp only [Bios.parseEntry, nextField_afterWords ha, nextField_afterWords hb,
      nextField_afterWords hc, parseEntry, afterWords_nil, parseDec_eq]
    cases parseDec a with
    | none => rfl
    | some size =>
      cases parseDec b with
      | none => rfl
      | some off =>
        -- both are the digest, and then the check of the offset
        let checked (sha256 : Sha256.Digest) : Option PayloadSumEntry :=
          if off > size then none else some ⟨size, off, sha256⟩
        trans (if c.length ≠ 64 then none else parseHex c).bind checked
        · by_cases hlen : c.length = 64
          · simp [hlen, checked]
          · simp [hlen]
        · rw [digest_eq]
          by_cases hlower : c.map lower = c
          · cases hexDecode c with
            | none => simp [hlower]
            | some bytes =>
              cases hd : digestOf bytes with
              | none => simp [hlower, hd]
              | some sha256 =>
                by_cases hoff : size < off <;> simp [hlower, hd, hoff, checked, loaderEntry]
          · cases hexDecode c <;> simp [hlower]
  | a :: b :: c :: d :: ws, hws =>
    have ha := hws a (by simp)
    have hb := hws b (by simp)
    have hc := hws c (by simp)
    simp only [Bios.parseEntry, nextField_afterWords ha, nextField_afterWords hb,
      nextField_afterWords hc, parseEntry]
    have hrest : c.length ≠ 64 ∨ afterWords 0x20 (d :: ws) ≠ [] := .inr (cons_ne_nil _ _)
    cases Bios.parseDec a <;> cases Bios.parseDec b <;> first | rfl | exact if_pos hrest

/-! ### Lines -/

/-- A line that the loader reads as the tool does. The tool ignores a line that starts with a blank
or has a NUL in its name, and takes a NUL in the mode for no mode. -/
def strictLine (line : List UInt8) : List UInt8 :=
  let name := line.takeWhile (· ≠ 0x20)
  if line.head? = some 0x20 ∨ 0 ∈ name then []
  else if name = ascii "MODE" ∧ 0 ∈ line then ascii "MODE"
  else line

/-- The locals of `Decode` as the loader keeps them. -/
def loaderPartial (m : Partial) : PartialSum :=
  ⟨m.kernel.map loaderEntry, m.initrd.map loaderEntry, m.mode⟩

theorem validMode_eq {v : List UInt8} (hv : (0 : UInt8) ∉ v) :
    payloadSumMode ro v = validMode v := by
  rw [payloadSumMode_eq hv, modeNamed, validMode]
  by_cases hoff : v = ascii "off"
  · rw [hoff]
    decide
  · rw [if_neg hoff, if_neg (show v ≠ modeText .off from hoff)]
    rfl

/-- A mode with a NUL is none. -/
theorem validMode_nul {v : List UInt8} (hv : (0 : UInt8) ∈ v) : validMode v = none := by
  have hne : ∀ mode, v ≠ modeText mode := by
    rintro mode rfl
    cases mode <;> exact absurd hv (by decide)
  simp [validMode, hne]

/-- The mode of a MODE line, from what stands after its name. -/
def wordsMode : List (List UInt8) → Option PayloadSumMode
  | [text] => validMode text
  | _ => none

/-- The line ends right after the mode, or the loader takes no mode from it. -/
theorem parseMode_eq {ws : List (List UInt8)} (hws : ∀ w ∈ ws, 0x20 ∉ w) (hnul : ∀ w ∈ ws, 0 ∉ w) :
    (if (nextField (afterWords 0x20 ws)).2 = [] then
        payloadSumMode ro (nextField (afterWords 0x20 ws)).1
      else none) = wordsMode ws := by
  match ws, hws, hnul with
  | [], _, _ => exact @validMode_eq ro [] not_mem_nil
  | [text], hws, hnul =>
    rw [nextField_afterWords (hws text (by simp)), if_pos (by rfl)]
    exact validMode_eq (hnul text (by simp))
  | text :: w :: ws, hws, _ =>
    rw [nextField_afterWords (hws text (by simp))]
    exact if_neg (cons_ne_nil _ _)

/-- `str_eq` compares, as long as no NUL is in the field. -/
theorem strEq_eq {a b : List UInt8} (ha : (0 : UInt8) ∉ a) (hb : (0 : UInt8) ∉ b) :
    strEq ro a b = decide (a = b) := by
  rw [Bool.eq_iff_iff, strEq_iff ha hb, decide_eq_true_iff]

/-- The loader on a line that does not start with a blank and names no NUL. -/
theorem parseLine_words {out : PartialSum} {name : List UInt8} {ws : List (List UInt8)}
    (hname : 0x20 ∉ name) (hnul : 0 ∉ name)
    (hblank : (name ++ afterWords 0x20 ws).head? ≠ some 0x20) :
    parseLine ro out (name ++ afterWords 0x20 ws)
      = if name = kernelName then
          if out.kernel.isSome then none
          else (Bios.parseEntry (afterWords 0x20 ws)).map fun e => { out with kernel := some e }
        else if name = initrdName then
          if out.initrd.isSome then none
          else (Bios.parseEntry (afterWords 0x20 ws)).map fun e => { out with initrd := some e }
        else if name = ascii "MODE" then
          some { out with mode := Option.getD (if (nextField (afterWords 0x20 ws)).2 = [] then
            payloadSumMode ro (nextField (afterWords 0x20 ws)).1 else none) .warn }
        else some out := by
  simp only [parseLine, nextField_first hname hblank,
    strEq_eq hnul (show (0 : UInt8) ∉ ascii "KERNEL" by decide),
    strEq_eq hnul (show (0 : UInt8) ∉ ascii "INITRD" by decide),
    strEq_eq hnul (show (0 : UInt8) ∉ ascii "MODE" by decide), decide_eq_true_eq]
  rfl

theorem parseLine_modeLine (out : PartialSum) {ws : List (List UInt8)} (hws : ∀ w ∈ ws, 0x20 ∉ w)
    (hnul : ∀ w ∈ ws, 0 ∉ w) :
    parseLine ro out (ascii "MODE" ++ afterWords 0x20 ws)
      = some { out with mode := (wordsMode ws).getD .warn } := by
  have hblank : (ascii "MODE" ++ afterWords 0x20 ws).head? ≠ some 0x20 := by
    show some (0x4D : UInt8) ≠ some 0x20
    decide
  rw [parseLine_words (by decide) (by decide) hblank, if_neg (by decide), if_neg (by decide),
    if_pos rfl, parseMode_eq hws hnul]

/-- The tool on a line, without its errors. -/
theorem decodeLine_words {m : Partial} {line name : List UInt8} {ws : List (List UInt8)}
    (h : line.splitOn 0x20 = name :: ws) :
    (decodeLine m line).toOption
      = if name = ascii "MODE" then
          some { m with mode := (wordsMode ws).getD .warn }
        else if name = kernelName then
          if m.kernel.isSome then none
          else (parseEntry (name :: ws)).map fun e => { m with kernel := some e }
        else if name = initrdName then
          if m.initrd.isSome then none
          else (parseEntry (name :: ws)).map fun e => { m with initrd := some e }
        else some m := by
  simp only [decodeLine, h, headD_cons]
  split
  · rcases ws with _ | ⟨text, _ | ⟨_, _⟩⟩
    · rfl
    · rfl
    · rfl
  · split
    · split
      · rfl
      · cases parseEntry (name :: ws) <;> rfl
    · split
      · split
        · rfl
        · cases parseEntry (name :: ws) <;> rfl
      · rfl

/-- The tool on a line is the loader on its strict version. -/
theorem decodeLine_eq (ro : Rodata) (m : Partial) (line : List UInt8) :
    (decodeLine m line).toOption.map loaderPartial
      = parseLine ro (loaderPartial m) (strictLine line) := by
  obtain ⟨name, ws, hsplit, rfl, hname, hws⟩ := exists_words 0x20 line
  rw [decodeLine_words hsplit]
  simp only [strictLine, (takeWhile_word hname ws).1]
  by_cases hskip : (name ++ afterWords 0x20 ws).head? = some 0x20 ∨ 0 ∈ name
  · -- the tool reads another name than the three
    have hother : name ≠ ascii "MODE" ∧ name ≠ kernelName ∧ name ≠ initrdName := by
      rcases hskip with hblank | hnul
      · cases name with
        | nil => decide
        | cons b name =>
          rw [cons_append, List.head?_cons, Option.some_inj] at hblank
          exact absurd (hblank ▸ mem_cons_self) hname
      · refine ⟨?_, ?_, ?_⟩ <;> rintro rfl <;> exact absurd hnul (by decide)
    rw [if_neg hother.1, if_neg hother.2.1, if_neg hother.2.2, if_pos hskip]
    exact (@parseLine_words ro _ [] [] not_mem_nil not_mem_nil (by decide)).symm
  · obtain ⟨hblank, hnul⟩ := not_or.1 hskip
    rw [if_neg hskip]
    by_cases hmode : name = ascii "MODE"
    · subst hmode
      by_cases hzero : 0 ∈ ascii "MODE" ++ afterWords 0x20 ws
      · have hnone : wordsMode ws = none := by
          match ws, hzero with
          | [], _ => rfl
          | [text], hzero => exact validMode_nul (by simpa [afterWords, hnul] using hzero)
          | _ :: _ :: _, _ => rfl
        rw [if_pos rfl, if_pos ⟨rfl, hzero⟩, hnone]
        exact (@parseLine_modeLine ro (loaderPartial m) [] (by simp) (by simp)).symm
      · have hwords : ∀ w ∈ ws, 0 ∉ w := fun w hw h0 => hzero (mem_append_right _
          (mem_flatMap.2 ⟨w, hw, mem_cons_of_mem _ h0⟩))
        rw [if_pos rfl, if_neg fun h => hzero h.2, parseLine_modeLine _ hws hwords]
        rfl
    · have hkeep : ¬ (name = ascii "MODE" ∧ 0 ∈ name ++ afterWords 0x20 ws) := fun h => hmode h.1
      rw [if_neg hkeep, parseLine_words hname hnul hblank, parseEntry_eq name hws, if_neg hmode]
      by_cases hkernel : name = kernelName
      · rw [if_pos hkernel, if_pos hkernel]
        cases hm : m.kernel with
        | none => cases parseEntry (name :: ws) <;> simp [loaderPartial, hm]
        | some e => simp [loaderPartial, hm]
      · rw [if_neg hkernel, if_neg hkernel]
        by_cases hinitrd : name = initrdName
        · rw [if_pos hinitrd, if_pos hinitrd]
          cases hm : m.initrd with
          | none => cases parseEntry (name :: ws) <;> simp [loaderPartial, hm]
          | some e => simp [loaderPartial, hm]
        · rw [if_neg hinitrd, if_neg hinitrd, if_neg hmode]
          rfl

/-! ### The first line -/

/-- The first line, if the loader reads it as the tool does. -/
def strictHeader (line : List UInt8) : List UInt8 :=
  if line.head? = some 0x20 ∨ 0 ∈ line then [] else line

theorem parseHeader_words {name : List UInt8} {ws : List (List UInt8)} (hname : 0x20 ∉ name)
    (hws : ∀ w ∈ ws, 0x20 ∉ w) (hblank : (name ++ afterWords 0x20 ws).head? ≠ some 0x20)
    (hnul : 0 ∉ name) (hnuls : ∀ w ∈ ws, 0 ∉ w) :
    parseHeader ro (name ++ afterWords 0x20 ws) = .ok
      ↔ name = ascii "alpine-zfsboot" ∧ ws = [ascii "payload-sum", ascii "1"] := by
  have heq : ∀ {a b : List UInt8}, 0 ∉ a → 0 ∉ b → strEq ro a b = decide (a = b) := strEq_eq
  simp only [parseHeader, nextField_first hname hblank,
    heq hnul (show (0 : UInt8) ∉ ascii "alpine-zfsboot" by decide), decide_eq_true_eq]
  by_cases hfirst : name = ascii "alpine-zfsboot"
  · simp only [hfirst, not_true_eq_false, if_false, true_and]
    match ws, hws, hnuls with
    | [], _, _ =>
      rw [afterWords_nil, nextField_nil, if_pos]
      · simp
      · simp [heq not_mem_nil (show (0 : UInt8) ∉ ascii "payload-sum" by decide)]
        decide
    | [a], hws, hnuls =>
      simp only [nextField_afterWords (hws a (by simp)), afterWords_nil, nextField_nil]
      split <;> simp
    | [a, b], hws, hnuls =>
      simp only [nextField_afterWords (hws a (by simp)), nextField_afterWords (hws b (by simp)),
        afterWords_nil, heq (hnuls a (by simp)) (show (0 : UInt8) ∉ ascii "payload-sum" by decide),
        heq (hnuls b (by simp)) (show (0 : UInt8) ∉ ascii "1" by decide), decide_eq_true_eq]
      by_cases ha : a = ascii "payload-sum"
      · by_cases hb : b = ascii "1"
        · simp [ha, hb]
          decide
        · simp only [ha, hb, not_true_eq_false, if_false, not_false_eq_true, if_true]
          split <;> simp [hb]
      · simp [ha]
    | a :: b :: c :: ws, hws, hnuls =>
      simp only [nextField_afterWords (hws a (by simp)), nextField_afterWords (hws b (by simp))]
      have hrest : afterWords 0x20 (c :: ws) ≠ [] ∨ b.length = 0 := .inl (cons_ne_nil _ _)
      rw [if_pos hrest]
      split <;> simp
  · simp [hfirst]

theorem parseHeader_strict (ro : Rodata) (line : List UInt8) :
    parseHeader ro (strictHeader line) = .ok ↔ line = header := by
  by_cases hskip : line.head? = some 0x20 ∨ 0 ∈ line
  · have hne : line ≠ header := by
      rintro rfl
      exact absurd hskip (by decide)
    have hnil : parseHeader ro [] = .ok ↔ _ := @parseHeader_words ro [] [] not_mem_nil
      (by simp) (by decide) not_mem_nil (by simp)
    rw [strictHeader, if_pos hskip, hnil]
    simp [hne]
  · obtain ⟨hblank, hnul⟩ := not_or.1 hskip
    rw [strictHeader, if_neg hskip]
    obtain ⟨name, ws, hsplit, rfl, hname, hws⟩ := exists_words 0x20 line
    have hnuls : ∀ w ∈ ws, 0 ∉ w := fun w hw h0 => hnul (mem_append_right _
      (mem_flatMap.2 ⟨w, hw, mem_cons_of_mem _ h0⟩))
    rw [parseHeader_words hname hws hblank (fun h => hnul (mem_append_left _ h)) hnuls]
    constructor
    · rintro ⟨rfl, rfl⟩
      decide
    · intro h
      have hheader : header.splitOn 0x20 = [ascii "alpine-zfsboot", ascii "payload-sum", ascii "1"] := by
        decide
      rw [← h, hsplit, List.cons.injEq] at hheader
      exact hheader

/-! ### Whole texts -/

theorem splitLines_of_notMem {text : List UInt8} (h : 0x0A ∉ text) :
    splitLines text = ([], text) := by
  induction text with
  | nil => rfl
  | cons c text ih =>
    obtain ⟨hc, htext⟩ := not_or.1 (mt mem_cons.2 h)
    simp [splitLines, ih htext, Ne.symm hc]

theorem splitLines_append {line : List UInt8} (h : 0x0A ∉ line) (text : List UInt8) :
    splitLines (line ++ 0x0A :: text) = (line :: (splitLines text).1, (splitLines text).2) := by
  induction line with
  | nil => rfl
  | cons c line ih =>
    obtain ⟨hc, hline⟩ := not_or.1 (mt mem_cons.2 h)
    simp [splitLines, ih hline, Ne.symm hc]

/-- A text made of lines has these lines. -/
theorem splitLines_lines {last : List UInt8} (hlines : ∀ l ∈ lines, 0x0A ∉ l) (hlast : 0x0A ∉ last) :
    splitLines (lines.flatMap (· ++ [0x0A]) ++ last) = (lines, last) := by
  induction lines with
  | nil => exact splitLines_of_notMem hlast
  | cons l lines ih =>
    rw [flatMap_cons, append_assoc, append_assoc]
    have := splitLines_append (hlines l mem_cons_self)
      (lines.flatMap (· ++ [0x0A]) ++ last)
    rwa [ih fun l hl => hlines l (mem_cons_of_mem _ hl)] at this

/-- A text is made of its lines. -/
theorem splitLines_spec (text : List UInt8) :
    text = (splitLines text).1.flatMap (· ++ [0x0A]) ++ (splitLines text).2
      ∧ (∀ l ∈ (splitLines text).1, 0x0A ∉ l) ∧ 0x0A ∉ (splitLines text).2 := by
  induction text with
  | nil => simp [splitLines]
  | cons c text ih =>
    obtain ⟨htext, hlines, hlast⟩ := ih
    rw [splitLines]
    by_cases hc : c = 0x0A
    · subst hc
      simpa [hlast] using ⟨htext, hlines⟩
    · rcases hs : (splitLines text).1 with _ | ⟨l, lines⟩
      all_goals rw [hs] at htext hlines
      · simpa [hc, Ne.symm hc, hs, hlast] using htext
      · simp only [hc, if_false, hs]
        refine ⟨congrArg (c :: ·) htext, forall_mem_cons.2 ⟨?_, fun l hl =>
          hlines l (mem_cons_of_mem _ hl)⟩, hlast⟩
        rw [mem_cons, not_or]
        exact ⟨Ne.symm hc, hlines l mem_cons_self⟩

/-- A text with only what the loader reads as the tool does. -/
def strictText (text : List UInt8) : List UInt8 :=
  match splitLines text with
  | ([], last) => last
  | (first :: lines, last) =>
    (strictHeader first :: lines.map strictLine).flatMap (· ++ [0x0A]) ++ last

theorem newline_notMem_strictLine {line : List UInt8} (h : 0x0A ∉ line) :
    0x0A ∉ strictLine line := by
  unfold strictLine
  dsimp only
  split_ifs
  · exact not_mem_nil
  · decide
  · exact h

theorem splitLines_strictText {text first last : List UInt8}
    (h : splitLines text = (first :: lines, last)) :
    splitLines (strictText text) = (strictHeader first :: lines.map strictLine, last) := by
  obtain ⟨-, hlines, hlast⟩ := splitLines_spec text
  rw [h] at hlines hlast
  obtain ⟨hfirst, hrest⟩ := forall_mem_cons.1 hlines
  rw [strictText, h]
  refine splitLines_lines (forall_mem_cons.2 ⟨?_, ?_⟩) hlast
  · unfold strictHeader
    split_ifs
    · exact not_mem_nil
    · exact hfirst
  · rw [forall_mem_map]
    exact fun l hl => newline_notMem_strictLine (hrest l hl)

/-- The manifest as the loader keeps it. -/
def loaderSum (m : Manifest) : Bios.PayloadSum := ⟨loaderEntry m.kernel, loaderEntry m.initrd, m.mode⟩

/-- What the loader makes of the lines after the first. -/
def loaderLines (ro : Rodata) (lines : List (List UInt8)) : Option Bios.PayloadSum :=
  (lines.foldlM (parseLine ro) ⟨none, none, .warn⟩).bind fun
    | ⟨some kernel, some initrd, mode⟩ => some ⟨kernel, initrd, mode⟩
    | _ => none

theorem parse_lines {text first last : List UInt8} (h : splitLines text = (first :: lines, last)) :
    (payloadSumParse ro text).2
      = if parseHeader ro first = .ok ∧ last = [] then loaderLines ro lines else none := by
  rw [payloadSumParse, h]
  dsimp only
  cases parseHeader ro first with
  | ok =>
    rw [loaderLines]
    rcases lines.foldlM (parseLine ro) ⟨none, none, .warn⟩ with _ | ⟨_ | kernel, _ | initrd, mode⟩
    case some.some.some => by_cases hlast : last = [] <;> simp [hlast]
    all_goals simp
  | _ => simp

theorem decode_lines {raw first : List UInt8} (hlen : raw.length ≤ maxBytes)
    (h : splitLines raw = (first :: lines, [])) (ro : Rodata) :
    (decode raw).toOption.map loaderSum
      = if first = header then loaderLines ro (lines.map strictLine) else none := by
  obtain ⟨htext, hnl, -⟩ := splitLines_spec raw
  rw [h] at htext hnl
  rw [append_nil] at htext
  have hlast : raw.getLast? = some 0x0A := by rw [htext, getLast?_lines _ (cons_ne_nil _ _)]
  have hsplit : raw.dropLast.splitOn 0x0A = first :: lines := by
    rw [htext, dropLast_lines _ (cons_ne_nil _ _)]
    exact splitOn_intercalate 0x0A hnl (cons_ne_nil _ _)
  have hlines := toOption_map_foldlM (decodeLine_eq ro) lines ⟨none, none, .warn⟩
  rw [decode, if_neg (Nat.not_lt.2 hlen), if_neg (not_not.2 hlast), hsplit, loaderLines,
    show (⟨none, none, .warn⟩ : PartialSum) = loaderPartial ⟨none, none, .warn⟩ from rfl, ← hlines]
  dsimp only
  by_cases hfirst : first = header
  · rw [if_neg (not_not.2 hfirst), if_pos hfirst]
    rcases lines.foldlM decodeLine ⟨none, none, .warn⟩ with _ | ⟨_ | kernel, _ | initrd, mode⟩ <;> rfl
  · rw [if_pos hfirst, if_neg hfirst]
    rfl

/-- A text that does not end in a newline is refused by the tool. -/
theorem decode_noNewline {raw last : List UInt8} (h : splitLines raw = (lines, last))
    (hlast : lines = [] ∨ last ≠ []) : (decode raw).toOption = none := by
  obtain ⟨htext, -, hnl⟩ := splitLines_spec raw
  rw [h] at htext hnl
  have hend : raw.getLast? ≠ some 0x0A := by
    intro hnewline
    rcases hlast with rfl | hlast
    · have hraw : raw = last := by simpa using htext
      exact hnl (mem_of_getLast? (hraw ▸ hnewline))
    · rw [htext, List.getLast?_append_of_ne_nil _ hlast] at hnewline
      exact hnl (mem_of_getLast? hnewline)
  by_cases hlen : raw.length > maxBytes
  · rw [decode, if_pos hlen]
    rfl
  · rw [decode, if_neg hlen, if_pos hend]
    rfl

/-- The tool reads a text as the loader reads its strict version. -/
theorem decode_eq_parse (ro : Rodata) {raw : List UInt8} (hlen : raw.length ≤ maxBytes) :
    (decode raw).toOption.map loaderSum = (payloadSumParse ro (strictText raw)).2 := by
  rcases h : splitLines raw with ⟨_ | ⟨first, lines⟩, last⟩
  · have hnil : splitLines (strictText raw) = ([], last) := by
      rw [strictText, h]
      have hlast := (splitLines_spec raw).2.2
      rw [h] at hlast
      exact splitLines_of_notMem hlast
    rw [decode_noNewline h (.inl rfl), payloadSumParse, hnil]
    rfl
  · rw [parse_lines (splitLines_strictText h)]
    by_cases hlast : last = []
    · subst hlast
      rw [decode_lines hlen h ro]
      simp only [parseHeader_strict, and_true]
    · rw [decode_noNewline h (.inr hlast), if_neg fun h => hlast h.2]
      rfl

theorem parse_cases (ro : Rodata) (text : List UInt8) :
    (∃ sum, payloadSumParse ro text = (.ok, some sum))
      ∨ ∃ r ≠ .ok, payloadSumParse ro text = (r, none) := by
  unfold payloadSumParse
  split
  · exact .inr ⟨_, by decide, rfl⟩
  · split
    · split
      · split
        · exact .inr ⟨_, by decide, rfl⟩
        · exact .inl ⟨_, rfl⟩
      · exact .inr ⟨_, by decide, rfl⟩
    · rename_i hr
      exact .inr ⟨_, hr, rfl⟩

/-- The two readers agree on a text: both refuse it, or both accept it with the same mode, sizes,
offsets and digests. -/
def Agrees (ro : Rodata) (raw : List UInt8) : Prop :=
  ((∃ m, decode raw = .ok m) ↔ (payloadSumParse ro raw).1 = .ok)
    ∧ ∀ m sum, decode raw = .ok m → payloadSumParse ro raw = (.ok, some sum) → sum = loaderSum m

theorem agrees_iff (ro : Rodata) (raw : List UInt8) :
    Agrees ro raw ↔ (decode raw).toOption.map loaderSum = (payloadSumParse ro raw).2 := by
  unfold Agrees
  rcases parse_cases ro raw with ⟨sum, hsum⟩ | ⟨r, hr, hparse⟩
  · rw [hsum]
    cases decode raw with
    | error e => simp [Except.toOption]
    | ok m => simp [Except.toOption, eq_comm]
  · rw [hparse]
    cases decode raw with
    | error e => simp [Except.toOption, hr]
    | ok m => simp [Except.toOption, hr]

/-- No line starts with a blank and there is no NUL: then there is nothing to leave out. -/
theorem strictText_eq {text : List UInt8} (hnul : 0 ∉ text)
    (hblank : ∀ l ∈ (splitLines text).1, l.head? ≠ some 0x20) : strictText text = text := by
  have hline : ∀ l ∈ (splitLines text).1, 0 ∉ l := fun l hl h0 => hnul (mem_splitLines (.inl ⟨l, hl, h0⟩))
  have htext := (splitLines_spec text).1
  rcases h : splitLines text with ⟨_ | ⟨first, lines⟩, last⟩
  · rw [h] at htext
    rw [strictText, h]
    exact htext.symm
  · rw [h] at hline hblank htext
    have hkeep : ∀ l ∈ first :: lines, ¬ (l.head? = some 0x20 ∨ 0 ∈ l) := fun l hl =>
      not_or.2 ⟨hblank l hl, hline l hl⟩
    have hlines : lines.map strictLine = lines := by
      refine (map_congr_left fun l hl => ?_).trans (map_id lines)
      have hl := not_or.1 (hkeep l (mem_cons_of_mem _ hl))
      have hname : 0 ∉ l.takeWhile (· ≠ 0x20) := fun h0 => hl.2 ((takeWhile_sublist _).subset h0)
      exact (if_neg (not_or.2 ⟨hl.1, hname⟩)).trans (if_neg fun h => hl.2 h.2)
    rw [strictText, h]
    dsimp only
    rw [hlines, strictHeader, if_neg (hkeep first mem_cons_self)]
    exact htext.symm

/-- A manifest whose KERNEL line starts with a blank. -/
def blankLed : List UInt8 :=
  header ++ 0x0A :: ascii " KERNEL 1 0 " ++ List.replicate 64 0x30
    ++ 0x0A :: ascii "INITRD 1 0 " ++ List.replicate 64 0x30 ++ [0x0A]

set_option maxRecDepth 20000 in
theorem parse_blankLed (ro : Rodata) : (payloadSumParse ro blankLed).1 = .ok := rfl

theorem splitLines_encode (m : Manifest) : splitLines (encode m) = (manifestLines m, []) := by
  have := splitLines_lines (newline_notMem_manifestLines m) not_mem_nil
  rwa [append_nil] at this

/-- Fields without a NUL make a line without one. -/
theorem nul_notMem_fields {fs : List (List UInt8)} (h : ∀ f ∈ fs, (0 : UInt8) ∉ f) :
    0 ∉ [0x20].intercalate fs := by
  cases fs with
  | nil => simp
  | cons f fs =>
    rw [intercalate_cons, mem_append, not_or]
    refine ⟨h f mem_cons_self, fun h0 => ?_⟩
    obtain ⟨w, hw, h0⟩ := mem_flatMap.1 h0
    rcases mem_cons.1 h0 with h0 | h0
    · exact absurd h0 (by decide)
    · exact h w (mem_cons_of_mem _ hw) h0

theorem nul_notMem_entry {name : List UInt8} (hname : (0 : UInt8) ∉ name) (e : Entry) :
    0 ∉ entryLine name e := by
  refine nul_notMem_fields ?_
  simp only [forall_mem_cons, not_mem_nil, false_imp_iff, implies_true, and_true]
  exact ⟨hname, fun h => absurd (isDigit_of_mem_decimal h) (by decide),
    fun h => absurd (isDigit_of_mem_decimal h) (by decide),
    fun h => absurd (isHexDigit_of_mem_hexEncode h) (by decide)⟩

theorem strictText_encode (m : Manifest) : strictText (encode m) = encode m := by
  have hmode : (0 : UInt8) ∉ [0x20].intercalate [ascii "MODE", modeText m.mode] := by
    cases m.mode <;> decide
  have hnul : ∀ l ∈ manifestLines m, (0 : UInt8) ∉ l := by
    simp only [manifestLines, forall_mem_cons, not_mem_nil, false_imp_iff, implies_true,
      and_true]
    exact ⟨by decide, hmode, nul_notMem_entry (by decide) _, nul_notMem_entry (by decide) _⟩
  have hhead : ∀ {name : List UInt8} (ws : List (List UInt8)), name ≠ [] →
      name.head? ≠ some 0x20 → (name ++ afterWords 0x20 ws).head? ≠ some 0x20 := by
    intro name ws hne hname
    rwa [List.head?_append_of_ne_nil _ hne]
  refine strictText_eq (fun h0 => ?_) ?_
  · obtain ⟨l, hl, h0⟩ := mem_flatMap.1 h0
    rcases mem_append.1 h0 with h0 | h0
    · exact hnul l hl h0
    · exact absurd h0 (by decide)
  · rw [splitLines_encode]
    simp only [manifestLines, entryLine, intercalate_cons, forall_mem_cons, not_mem_nil,
      false_imp_iff, implies_true, and_true]
    exact ⟨by decide, hhead _ (by decide) (by decide), hhead _ (by decide) (by decide),
      hhead _ (by decide) (by decide)⟩

/-- A manifest that fits its fields is written in at most 512 bytes, and both the tool and the
loader read it back. -/
theorem encode_roundTrip {m : Manifest} (hk : Fits m.kernel) (hi : Fits m.initrd) (ro : Rodata) :
    (encode m).length ≤ 512 ∧ decode (encode m) = .ok m
      ∧ payloadSumParse ro (encode m) = (.ok, some (loaderSum m)) := by
  have hlen := length_encode_le hk hi
  have hdecode := decode_encode hk hi
  refine ⟨hlen, hdecode, ?_⟩
  have hparse := decode_eq_parse ro hlen
  rw [hdecode, strictText_encode] at hparse
  rcases parse_cases ro (encode m) with ⟨sum, hsum⟩ | ⟨r, -, hr⟩
  · rw [hsum] at hparse
    rw [hsum, ← Option.some.inj hparse]
  · rw [hr] at hparse
    cases hparse

theorem encode_roundTrip_full :
    let e : Entry := ⟨2 ^ 32 - 1, 2 ^ 32 - 1, Vector.replicate 32 0xFF⟩
    payloadSumParse (fun _ => []) (encode ⟨e, e, .enforce⟩)
      = (.ok, some (loaderSum ⟨e, e, .enforce⟩)) :=
  (encode_roundTrip ⟨by decide, by decide⟩ ⟨by decide, by decide⟩ _).2.2

end ZfsBoot.Proofs.Tool.Manifest
