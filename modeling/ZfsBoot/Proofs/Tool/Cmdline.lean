import ZfsBoot.Lib.Keyed
import ZfsBoot.Proofs.Tool.Manifest
import ZfsBoot.Tool.Cmdline

/-!
# `ZfsBoot.Proofs.Tool.Cmdline`: CMDLINE as the tool edits it and as stage2 reads it

stage2 takes CMDLINE apart at blanks only, over all of its lines, and a newline ends a value. The
values of a key in it are a list (`values`), of which stage2 takes the first.

The tool's editor works on the words of the first line. The word at the end of that line is one word
with the start of the next line for stage2, but no key reaches over the newline
(`values_line`), so the edit of the first line is the edit that stage2 sees
(`setCmdlineInt13Chunk_spec`).

The tool's reports split at every white space instead. They are what stage2 would say about the same
text with each white-space character made a blank, and, for the transfer cap, about the first line
alone (`cmdlineInt13Chunk_eq`, `cmdlineIntegrity_eq`, `reports_agree_iff`).
-/

set_option autoImplicit false

namespace ZfsBoot.Proofs.Tool.Cmdline

open List
open Lib
open ZfsBoot.Tool.Cmdline hiding cmdlineValue
open Stage2 (firstValue cmdlineValue_eq)
open ZfsBoot.Tool.PayloadSum (modeText validMode)
open Bios (ascii cmdlineValue parseChunkLoop cmdlineParseChunk payloadSumMode Rodata Platform
  Boot cmdlineString cmdlineBufSize kernelLoadAddr terminate)

variable {rest key' : List UInt8} {δ : Type} {key content line value : List UInt8}

/-! ### The transfer cap as a number -/

theorem parseChunkLoop_eq (v : List UInt8) (val : Nat) :
    parseChunkLoop val v
      = if v.all isDigit then some (v.foldl (fun n c => 10 * n + (c.toNat - 0x30)) val) else none := by
  induction v generalizing val with
  | nil => rfl
  | cons c v ih =>
    have hdigit : isDigit c = true ↔ ¬ (c < 0x30 ∨ c > 0x39) := by
      simp only [isDigit, decide_eq_true_eq, not_or, UInt8.not_lt, gt_iff_lt]
    rw [parseChunkLoop, all_cons, foldl_cons]
    by_cases hc : c < 0x30 ∨ c > 0x39
    · rw [if_pos hc, if_neg]
      simp [hdigit, hc]
    · rw [if_neg hc, ih, Nat.mul_comm val 10, hdigit.2 hc, Bool.true_and]

theorem cmdlineParseChunk_eq (v : List UInt8) (max : Nat) :
    cmdlineParseChunk v max
      = if v ≠ [] ∧ v.length ≤ 5 ∧ v.all isDigit ∧ 1 ≤ ofDecimal v ∧ ofDecimal v ≤ max then
          some (ofDecimal v)
        else none := by
  rw [cmdlineParseChunk]
  by_cases hlen : v.length = 0 ∨ v.length > 5
  · rw [if_pos hlen, if_neg]
    rintro ⟨hne, hle, -⟩
    rcases hlen with h | h
    · exact hne (eq_nil_of_length_eq_zero h)
    · omega
  · have hne : v ≠ [] := fun h => hlen (.inl (by rw [h]; rfl))
    have hle : v.length ≤ 5 := by omega
    rw [if_neg hlen, parseChunkLoop_eq]
    by_cases hall : v.all isDigit
    · have hval : v.foldl (fun n c => 10 * n + (c.toNat - 0x30)) 0 = ofDecimal v := rfl
      simp only [hall, if_true, hval, hne, hle, ne_eq, not_false_eq_true, true_and]
      by_cases hrange : ofDecimal v < 1 ∨ ofDecimal v > max
      · rw [if_pos hrange, if_neg (by omega)]
      · rw [if_neg hrange, if_pos (by omega)]
    · simp [hall]

/-- `validInt13Chunk` is stage2's own check. -/
theorem validInt13Chunk_eq (v : List UInt8) :
    validInt13Chunk v = (cmdlineParseChunk v int13ChunkMax).isSome := by
  rw [cmdlineParseChunk_eq, validInt13Chunk]
  by_cases hdigits : v ≠ [] ∧ v.length ≤ 5 ∧ v.all isDigit = true
  · obtain ⟨hne, hlen, hall⟩ := hdigits
    rw [atoi_of_digits hne hall (by omega)]
    simp only [hne, hlen, hall, ne_eq, not_false_eq_true, true_and, and_true]
    by_cases hrange : 1 ≤ ofDecimal v ∧ ofDecimal v ≤ int13ChunkMax
    · rw [if_pos hrange]
      exact decide_eq_true (by omega)
    · rw [if_neg hrange]
      exact decide_eq_false (by omega)
  · rw [if_neg fun h => hdigits ⟨h.1, h.2.1, h.2.2.1⟩]
    cases v with
    | nil => rfl
    | cons c v =>
      cases atoi (c :: v) with
      | none => rfl
      | some n => exact decide_eq_false fun h => hdigits ⟨cons_ne_nil _ _, h.2.2.1, h.2.2.2⟩

theorem parseChunk_decimal {v : Nat} (h : 1 ≤ v) (hle : v ≤ 127) :
    cmdlineParseChunk (decimal v) 127 = some v := by
  have hlen : (decimal v).length ≤ 5 := length_decimal_le (by decide) (by omega)
  have hall : (decimal v).all isDigit = true :=
    all_eq_true.2 fun c hc => isDigit_of_mem_decimal hc
  rw [cmdlineParseChunk_eq, ofDecimal_decimal, if_pos ⟨decimal_ne_nil v, hlen, hall, h, hle⟩]

/-! ### The values of a key -/

/-- What stage2 finds after a key in the words that start with it. -/
def values (key : List UInt8) (ws : List (List UInt8)) : List (List UInt8) :=
  (ws.filter key.isPrefixOf).map fun w => (w.drop key.length).takeWhile (· != 0x0A)

theorem firstValue_eq (key cmd : List UInt8) :
    firstValue key cmd = (values key (cmd.splitOn 0x20)).head? := by
  rw [firstValue, values, List.head?_map, List.head?_filter]

theorem values_append (key : List UInt8) (a b : List (List UInt8)) :
    values key (a ++ b) = values key a ++ values key b := by
  rw [values, filter_append, map_append]
  rfl

/-- A key is not empty: no empty word starts with it. -/
theorem values_nil (hne : key ≠ []) : values key [[]] = [] := by
  cases key with
  | nil => exact absurd rfl hne
  | cons c key => rfl

/-- A newline ends a word for a key without one. -/
theorem values_newline (hkey : 0x0A ∉ key) (w text : List UInt8) :
    values key [w ++ 0x0A :: text] = values key [w] := by
  have hword : ∀ x ∈ key, (x != 0x0A) = true := by
    intro x hx
    rw [bne_iff_ne]
    rintro rfl
    exact hkey hx
  have htake : ∀ v : List UInt8, (v ++ 0x0A :: text).takeWhile (· != 0x0A) = v.takeWhile (· != 0x0A) := by
    intro v
    induction v with
    | nil => rfl
    | cons c v ih => by_cases hc : c = 0x0A <;> simp [hc, ih]
  have hstart : key.isPrefixOf (w ++ 0x0A :: text) = key.isPrefixOf w := by
    rw [← isPrefixOf_takeWhile hword, htake, isPrefixOf_takeWhile hword]
  by_cases hp : key.isPrefixOf w = true
  · have hlen : key.length ≤ w.length := (List.isPrefixOf_iff_prefix.1 hp).length_le
    simp [values, hstart, hp, drop_append_of_le_length hlen, htake]
  · simp [values, hstart, hp]

/-- The values in a line and in what follows it. -/
theorem values_line (hkey : 0x0A ∉ key) (line : List UInt8) (hrest : ∀ c ∈ rest.head?, c = 0x0A) :
    values key ((line ++ rest).splitOn 0x20)
      = values key (line.splitOn 0x20) ++ values key (rest.splitOn 0x20).tail := by
  obtain ⟨init, last, first, tail, hline, hr, happend⟩ := splitOn_append 0x20 line rest
  have hmeet : values key [last ++ first] = values key [last] := by
    cases rest with
    | nil =>
      rw [splitOn_nil, List.cons.injEq] at hr
      rw [← hr.1, append_nil]
    | cons c rest =>
      obtain rfl := hrest c rfl
      rw [splitOn_cons, if_neg (by decide)] at hr
      rcases hs : rest.splitOn 0x20 with _ | ⟨w, ws⟩
      · simp [hs] at hr
      · rw [hs, modifyHead_cons, List.cons.injEq] at hr
        rw [← hr.1]
        exact values_newline hkey last w
  rw [happend, hline, hr, tail_cons, ← singleton_append (l := tail), values_append,
    values_append, values_append, hmeet, append_assoc]

/-- Blanks at the end of a line are no words. -/
theorem values_trimRight (hne : key ≠ []) (line : List UInt8) :
    values key ((trimRight line).splitOn 0x20) = values key (line.splitOn 0x20) := by
  induction line using List.reverseRecOn with
  | nil => rfl
  | append_singleton line c ih =>
    by_cases hc : c = 0x20
    · subst hc
      rw [trimRight, rdropWhile_concat_pos _ _ _ (by simp), splitOn_append_cons,
        splitOn_nil, values_append, values_nil hne, append_nil]
      exact ih
    · rw [trimRight, rdropWhile_concat_neg _ _ _ (by simpa using hc)]

/-- Words joined with blanks. -/
theorem values_intercalate (hne : key ≠ []) {ws : List (List UInt8)} (hws : ∀ w ∈ ws, 0x20 ∉ w) :
    values key (([0x20].intercalate ws).splitOn 0x20) = values key ws := by
  cases ws with
  | nil => exact values_nil hne
  | cons w ws => rw [splitOn_intercalate 0x20 hws (cons_ne_nil _ _)]

/-! ### The edit of the transfer cap -/

/-- A key of the command line: its only `=` is its last character, and it has no blank and no
newline. -/
structure IsKey (key : List UInt8) : Prop where
  eq_last : ∃ name, key = name ++ [0x3D] ∧ 0x3D ∉ name
  no_blank : 0x20 ∉ key
  no_newline : 0x0A ∉ key

theorem isKey_int13ChunkKey : IsKey int13ChunkKey :=
  ⟨⟨ascii "alpine-zfsboot.int13chunk", by decide, by decide⟩, by decide, by decide⟩

theorem IsKey.ne_nil (h : IsKey key) : key ≠ [] := by
  obtain ⟨name, rfl, -⟩ := h.eq_last
  simp

/-- A word starts with one key only: what stands before its first `=`. -/
theorem IsKey.unique {w : List UInt8} (h : IsKey key) (h' : IsKey key')
    (hw : key <+: w) (hw' : key' <+: w) : key = key' := by
  obtain ⟨name, rfl, hname⟩ := h.eq_last
  obtain ⟨name', rfl, hname'⟩ := h'.eq_last
  by_contra hne
  exact apart_of_notMem hname hname' (fun heq => hne (heq ▸ rfl)) w hw hw'

/-- Words of one key hold no value for another. -/
theorem values_of_other (h : IsKey key) (h' : IsKey key') (hne : key ≠ key')
    (ws : List (List UInt8)) :
    values key (ws.filter fun w => ¬ key'.isPrefixOf w) = values key ws
      ∧ ∀ v, values key [key' ++ v] = [] := by
  have hnot : ∀ w, key.isPrefixOf w = true → ¬ key'.isPrefixOf w = true := fun w hw hw' =>
    hne (h.unique h' (List.isPrefixOf_iff_prefix.1 hw) (List.isPrefixOf_iff_prefix.1 hw'))
  constructor
  · rw [values, filter_filter]
    congr 1
    refine filter_congr fun w _ => ?_
    by_cases hw : key.isPrefixOf w = true
    · simp [hw, hnot w hw]
    · simp [hw]
  · intro v
    have hv : key'.isPrefixOf (key' ++ v) = true := List.isPrefixOf_iff_prefix.2 (prefix_append _ _)
    have : ¬ key.isPrefixOf (key' ++ v) = true := fun hw => hnot _ hw hv
    simp [values, this]

theorem values_own (key v : List UInt8) (hv : 0x0A ∉ v) (ws : List (List UInt8)) :
    values key (ws.filter fun w => ¬ key.isPrefixOf w) = [] ∧ values key [key ++ v] = [v] := by
  constructor
  · rw [values, filter_filter]
    simp
  · have hstart : key.isPrefixOf (key ++ v) = true :=
      List.isPrefixOf_iff_prefix.2 (prefix_append _ _)
    have htake : v.takeWhile (· != 0x0A) = v := by
      rw [takeWhile_eq_self_iff]
      intro c hc
      rw [bne_iff_ne]
      rintro rfl
      exact hv hc
    simp [values, hstart, htake]

/-- stage2 drops one newline at the end of CMDLINE. -/
def stripNewline (content : List UInt8) : List UInt8 :=
  if content.getLast? = some 0x0A then content.dropLast else content

/-- CMDLINE as stage2 has it: without that newline, and up to a NUL. -/
def loaderLine (content : List UInt8) : List UInt8 := (stripNewline content).takeWhile (· ≠ 0)

/-- So it does: with the file's bytes in the buffer, this is the string that the terminator of
`readCmdline` leaves. -/
theorem cmdlineString_loaderLine (pf : Platform δ) (s : Boot δ)
    (hlen : content.length < cmdlineBufSize)
    (hram : ramBytes s.m.ram pf.cmdlineBuf content.length = content) :
    cmdlineString pf (terminate pf
      (if 0 < content.length ∧ s.m.ram (u32 (pf.cmdlineBuf + (content.length - 1))) = 0x0A then
        content.length - 1 else content.length) s) = loaderLine content := by
  have hbyte : ∀ i (hi : i < content.length), s.m.ram (u32 (pf.cmdlineBuf + i)) = content[i] := by
    intro i hi
    have := congrArg (·[i]?) hram
    simpa [ramBytes, hi] using this
  -- the index of the terminator is the length of what stays
  have hstrip : ∃ n, n ≤ content.length ∧ stripNewline content = content.take n
      ∧ (if 0 < content.length ∧ s.m.ram (u32 (pf.cmdlineBuf + (content.length - 1))) = 0x0A then
        content.length - 1 else content.length) = n := by
    have hend : ∀ hpos : 0 < content.length,
        content.getLast? = some 0x0A ↔ content[content.length - 1] = 0x0A := by
      intro hpos
      rw [List.getLast?_eq_getElem?, List.getElem?_eq_getElem (by omega), Option.some_inj]
    by_cases hlast : content.getLast? = some 0x0A
    · have hpos : 0 < content.length := length_pos_of_mem (mem_of_getLast? hlast)
      refine ⟨content.length - 1, by omega, ?_, if_pos ⟨hpos, ?_⟩⟩
      · rw [stripNewline, if_pos hlast, dropLast_eq_take]
      · rw [hbyte _ (by omega), (hend hpos).1 hlast]
    · refine ⟨content.length, le_rfl, ?_, if_neg fun h => hlast ?_⟩
      · rw [stripNewline, if_neg hlast, take_length]
      · rw [hend h.1, ← hbyte _ (by omega), h.2]
  obtain ⟨n, hn, hkeep, hindex⟩ := hstrip
  have h512 : cmdlineBufSize = 512 := rfl
  have hbefore : ramBytes (terminate pf n s).m.ram pf.cmdlineBuf n = content.take n := by
    have hsplit := ramBytes_add s.m.ram pf.cmdlineBuf n (content.length - n)
    rw [Nat.add_sub_cancel' hn, hram] at hsplit
    rw [hsplit, take_left' (length_ramBytes _ _ _)]
    refine ramBytes_congr fun i hi => if_neg ?_
    simp only [u32, length_singleton]
    omega
  have hzero : (terminate pf n s).m.ram (u32 (pf.cmdlineBuf + n)) = 0 := by
    refine (if_pos ⟨u32_lt _, ?_⟩).trans ?_ <;> simp [u32]
  have hend : ∀ a b : List UInt8,
      (a ++ 0 :: b).takeWhile (· ≠ 0) = a.takeWhile (· ≠ 0) := by
    intro a b
    induction a with
    | nil => rfl
    | cons c a ih => rw [cons_append, takeWhile_cons, takeWhile_cons, ih]
  have hrest : ramBytes (terminate pf n s).m.ram (pf.cmdlineBuf + n) (1 + (511 - n))
      = 0 :: ramBytes (terminate pf n s).m.ram (pf.cmdlineBuf + n + 1) (511 - n) := by
    rw [ramBytes_add]
    simp [ramBytes, hzero]
  rw [hindex, loaderLine, hkeep, cmdlineString, show cmdlineBufSize = n + (1 + (511 - n)) by omega,
    ramBytes_add, hbefore, hrest, hend]

theorem loaderLine_of_noNul (hnul : 0 ∉ content) :
    loaderLine content = stripNewline content := by
  refine takeWhile_eq_self_iff.2 fun c hc => decide_eq_true ?_
  rintro rfl
  unfold stripNewline at hc
  split at hc
  · exact hnul (dropLast_subset _ hc)
  · exact hnul hc

/-- Without a NUL the whole of it is read. -/
theorem cmdlineString_terminate (pf : Platform δ) (s : Boot δ)
    (hlen : content.length < cmdlineBufSize) (hnul : 0 ∉ content)
    (hram : ramBytes s.m.ram pf.cmdlineBuf content.length = content) :
    cmdlineString pf (terminate pf
      (if 0 < content.length ∧ s.m.ram (u32 (pf.cmdlineBuf + (content.length - 1))) = 0x0A then
        content.length - 1 else content.length) s) = stripNewline content := by
  rw [cmdlineString_loaderLine pf s hlen hram, loaderLine_of_noNul hnul]

theorem stripNewline_append (hline : 0x0A ∉ line) (rest : List UInt8) :
    stripNewline (line ++ rest) = line ++ stripNewline rest := by
  cases rest with
  | nil =>
    have : line.getLast? ≠ some 0x0A := fun h => hline (mem_of_getLast? h)
    simp [stripNewline, this]
  | cons c rest =>
    rw [stripNewline, List.getLast?_append_of_ne_nil _ (cons_ne_nil _ _),
      dropLast_append_of_ne_nil (cons_ne_nil _ _), stripNewline]
    split <;> rfl

theorem newline_notMem_firstLine (content : List UInt8) : 0x0A ∉ firstCmdlineLine content := by
  intro h
  have := mem_takeWhile_imp h
  simp at this

theorem firstLine_append (content : List UInt8) :
    firstCmdlineLine content ++ afterFirstLine content = content :=
  takeWhile_append_dropWhile

theorem newline_of_head_afterFirstLine {c : UInt8}
    (hc : c ∈ (afterFirstLine content).head?) : c = 0x0A := by
  have hhead := List.head?_dropWhile_not (fun c : UInt8 => decide (c ≠ 0x0A)) content
  rw [show content.dropWhile (fun c => decide (c ≠ 0x0A)) = afterFirstLine content from rfl,
    Option.mem_def.1 hc] at hhead
  simpa using hhead

/-- What follows the first line is nothing, or starts with its newline; so it is without a newline
at its end. -/
theorem head_afterFirstLine (content : List UInt8) :
    ∀ c ∈ (stripNewline (afterFirstLine content)).head?, c = 0x0A := by
  intro c hc
  unfold stripNewline at hc
  split at hc
  · cases hrest : afterFirstLine content with
    | nil => rw [hrest] at hc; cases hc
    | cons b rest =>
      rw [hrest] at hc
      cases rest with
      | nil => cases hc
      | cons d rest =>
        have hfirst : c ∈ (afterFirstLine content).head? := by
          rw [hrest]
          exact hc
        exact newline_of_head_afterFirstLine hfirst
  · exact newline_of_head_afterFirstLine hc

/-- The same up to a NUL. -/
theorem head_loaderLine_afterFirstLine (content : List UInt8) :
    ∀ c ∈ (loaderLine (afterFirstLine content)).head?, c = 0x0A := by
  intro c hc
  obtain ⟨t, ht⟩ := List.takeWhile_prefix (l := stripNewline (afterFirstLine content))
    (fun c : UInt8 => decide (c ≠ 0))
  refine head_afterFirstLine content c ?_
  rw [← ht]
  exact mem_head?_append_of_mem_head? hc

/-- A first line without a NUL is read to its end. -/
theorem loaderLine_append (hnul : 0 ∉ line) (hline : 0x0A ∉ line) :
    loaderLine (line ++ rest) = line ++ loaderLine rest := by
  rw [loaderLine, stripNewline_append hline, takeWhile_append_of_pos]
  · rfl
  · intro c hc
    refine decide_eq_true ?_
    rintro rfl
    exact hnul hc

/-- What stage2 finds for a key, in the first line and in what follows it. -/
theorem firstValue_line (hkey : IsKey key) (raw : List UInt8) (hnul : 0 ∉ line)
    (hline : 0x0A ∉ line) :
    firstValue key (loaderLine (line ++ afterFirstLine raw))
      = (values key (line.splitOn 0x20)
        ++ values key ((loaderLine (afterFirstLine raw)).splitOn 0x20).tail).head? := by
  rw [firstValue_eq, loaderLine_append hnul hline,
    values_line hkey.no_newline line (head_loaderLine_afterFirstLine raw)]

/-- The first line after the edit. -/
def editedLine (line value : List UInt8) : List UInt8 :=
  trimRight ([0x20].intercalate ((line.splitOn 0x20).filter fun w => ¬ int13ChunkKey.isPrefixOf w))
    ++ 0x20 :: int13ChunkKey ++ value

theorem setCmdlineInt13Chunk_eq (content : List UInt8) (hne : value ≠ []) :
    setCmdlineInt13Chunk content value
      = editedLine (firstCmdlineLine content) value ++ afterFirstLine content := by
  rw [setCmdlineInt13Chunk]
  simp only [hne, ne_eq, not_false_eq_true, if_true]
  rfl

theorem newline_notMem_editedLine (hline : 0x0A ∉ line)
    (hvalue : 0x0A ∉ value) : 0x0A ∉ editedLine line value := by
  have hwords : ∀ ws : List (List UInt8), (∀ w ∈ ws, 0x0A ∉ w) → 0x0A ∉ [0x20].intercalate ws := by
    intro ws hws
    cases ws with
    | nil => simp
    | cons w ws =>
      rw [intercalate_cons, mem_append, not_or]
      refine ⟨hws w mem_cons_self, fun h => ?_⟩
      obtain ⟨w', hw', h⟩ := mem_flatMap.1 h
      rcases mem_cons.1 h with h | h
      · exact absurd h (by decide)
      · exact hws w' (mem_cons_of_mem _ hw') h
  have hkept := hwords ((line.splitOn 0x20).filter fun w => ¬ int13ChunkKey.isPrefixOf w) fun w hw h =>
    hline (mem_of_mem_splitOn (mem_of_mem_filter hw) h)
  have hkey : 0x0A ∉ 0x20 :: int13ChunkKey := by decide
  rw [editedLine, mem_append, mem_append]
  rintro ((h | h) | h)
  · exact hkept ((List.rdropWhile_prefix _ _).subset h)
  · exact hkey h
  · exact hvalue h

theorem values_editedLine (hkey : key ≠ []) (line : List UInt8) (hvalue : 0x20 ∉ value) :
    values key ((editedLine line value).splitOn 0x20)
      = values key ((line.splitOn 0x20).filter fun w => ¬ int13ChunkKey.isPrefixOf w)
        ++ values key [int13ChunkKey ++ value] := by
  have hword : (int13ChunkKey ++ value).splitOn 0x20 = [int13ChunkKey ++ value] := by
    refine splitOnP_eq_singleton fun c hc => ?_
    rw [beq_eq_false_iff_ne]
    rintro rfl
    rcases mem_append.1 hc with h | h
    · exact absurd h (by decide)
    · exact hvalue h
  rw [editedLine, append_assoc, cons_append, splitOn_append_cons, hword, values_append,
    values_trimRight hkey, values_intercalate hkey]
  exact fun w hw => notMem_of_mem_splitOn (mem_of_mem_filter hw)

/-- After the edit stage2 reads the new value, and for every other key what it read before; the
bytes from the first newline on stay. -/
theorem setCmdlineInt13Chunk_spec (content : List UInt8) {v : Nat} (hpos : 1 ≤ v) (hle : v ≤ 127) :
    let new := setCmdlineInt13Chunk content (decimal v)
    (cmdlineValue int13ChunkKey (stripNewline new)).bind (cmdlineParseChunk · 127) = some v
      ∧ (∀ key, IsKey key → key ≠ int13ChunkKey →
        cmdlineValue key (stripNewline new) = cmdlineValue key (stripNewline content))
      ∧ afterFirstLine new = afterFirstLine content := by
  have hdigit : ∀ c : UInt8, isDigit c = false → c ∉ decimal v := by
    intro c hc hmem
    rw [isDigit_of_mem_decimal hmem] at hc
    cases hc
  have hline := newline_notMem_firstLine content
  have hedited := newline_notMem_editedLine hline (hdigit 0x0A (by decide))
  have hrest := head_afterFirstLine content
  have hnew := setCmdlineInt13Chunk_eq content (decimal_ne_nil v)
  -- both texts are a first line and the same rest
  have hvalues : ∀ key, IsKey key → ∀ line, 0x0A ∉ line →
      cmdlineValue key (stripNewline (line ++ afterFirstLine content))
        = (values key (line.splitOn 0x20)
          ++ values key ((stripNewline (afterFirstLine content)).splitOn 0x20).tail).head? := by
    intro key hkey line hline
    rw [cmdlineValue_eq hkey.ne_nil hkey.no_blank, firstValue_eq, stripNewline_append hline,
      values_line hkey.no_newline line hrest]
  refine ⟨?_, fun key hkey hother => ?_, ?_⟩
  · obtain ⟨hnone, hown⟩ := values_own int13ChunkKey (decimal v) (hdigit 0x0A (by decide))
      ((firstCmdlineLine content).splitOn 0x20)
    rw [hnew, hvalues _ isKey_int13ChunkKey _ hedited,
      values_editedLine isKey_int13ChunkKey.ne_nil _ (hdigit 0x20 (by decide)), hnone, hown]
    exact parseChunk_decimal hpos hle
  · obtain ⟨hsame, hnone⟩ := values_of_other hkey isKey_int13ChunkKey hother
      ((firstCmdlineLine content).splitOn 0x20)
    have hold := hvalues key hkey _ hline
    rw [firstLine_append] at hold
    rw [hnew, hvalues key hkey _ hedited, hold,
      values_editedLine hkey.ne_nil _ (hdigit 0x20 (by decide)), hsame, hnone, append_nil]
  · have hskip : ∀ c ∈ editedLine (firstCmdlineLine content) (decimal v), decide (c ≠ 0x0A) = true := by
      intro c hc
      refine decide_eq_true ?_
      rintro rfl
      exact hedited hc
    rw [hnew, afterFirstLine, dropWhile_append_of_pos hskip]
    exact dropWhile_idempotent _ _

theorem setCmdlineInt13Chunk_spec_twoLines :
    (cmdlineValue int13ChunkKey (stripNewline (setCmdlineInt13Chunk
      (ascii "alpine-zfsboot.int13chunk=8  quiet \nalpine-zfsboot.int13chunk=9\n") (decimal 127)))).bind
        (cmdlineParseChunk · 127) = some 127 :=
  (setCmdlineInt13Chunk_spec _ (by decide) (by decide)).1

/-! ### The reports -/

/-- The transfer cap that stage2 finds in a command line, as the tool reports it. -/
def loaderChunk (cmd : List UInt8) : List UInt8 × Bool :=
  let v := cmdlineValue int13ChunkKey cmd
  (v.getD [], (v.bind (cmdlineParseChunk · int13ChunkMax)).isSome)

/-- The integrity mode that stage2 finds in a command line, as the tool reports it. -/
def loaderIntegrity (ro : Rodata) (cmd : List UInt8) : List UInt8 :=
  (((cmdlineValue integrityKey cmd).bind (payloadSumMode ro)).map modeText).getD []

/-- What `strings.Fields` leads to is what stage2 finds once every white-space character is a
blank. -/
theorem firstMatch_fields (hne : key ≠ []) (hblank : 0x20 ∉ key)
    (s : List UInt8) : firstMatch key (fields s) = cmdlineValue key (blankSpaces 0 s) := by
  have hempty : key.isPrefixOf [] = false := by
    cases key with
    | nil => exact absurd rfl hne
    | cons c key => rfl
  have hfind : ((blankSpaces 0 s).splitOn 0x20 |>.filter (· ≠ [])).find? key.isPrefixOf
      = ((blankSpaces 0 s).splitOn 0x20).find? key.isPrefixOf := by
    rw [List.find?_filter]
    congr 1
    funext w
    cases w with
    | nil => simp [hempty]
    | cons c w => rw [Bool.eq_iff_iff]; simp
  rw [cmdlineValue_eq hne hblank, firstMatch, firstValue, fields, hfind]
  cases hw : ((blankSpaces 0 s).splitOn 0x20).find? key.isPrefixOf with
  | none => rfl
  | some w =>
    -- no newline is left to end the value
    rw [Option.map_some, Option.map_some, takeWhile_eq_self_iff.2]
    intro c hc
    rw [bne_iff_ne]
    rintro rfl
    exact newline_notMem_blankSpaces 0 s
      (mem_of_mem_splitOn (mem_of_find?_eq_some hw) (mem_of_mem_drop hc))

/-- The tool's report of the transfer cap is stage2's on the first line with blanks for white
space. -/
theorem cmdlineInt13Chunk_eq (content : List UInt8) :
    cmdlineInt13Chunk content = loaderChunk (blankSpaces 0 (firstCmdlineLine content)) := by
  rw [cmdlineInt13Chunk, firstMatch_fields (by decide) (by decide), loaderChunk]
  cases cmdlineValue int13ChunkKey (blankSpaces 0 (firstCmdlineLine content)) with
  | none => rfl
  | some v => exact congrArg (v, ·) (validInt13Chunk_eq v)

theorem modeText_of_validMode {v : List UInt8} {mode : Bios.PayloadSumMode}
    (h : validMode v = some mode) : modeText mode = v := by
  unfold validMode at h
  split_ifs at h with hoff hwarn henforce
  all_goals
    obtain rfl := Option.some.inj h
    symm
    assumption

/-- The tool's report of the integrity mode is stage2's on all of the text with blanks for white
space. -/
theorem cmdlineIntegrity_eq (ro : Rodata) (hnul : 0 ∉ content) :
    cmdlineIntegrity content = loaderIntegrity ro (blankSpaces 0 content) := by
  have hblank : 0 ∉ blankSpaces 0 content := fun h0 => (mem_blankSpaces h0).elim (by decide) hnul
  rw [cmdlineIntegrity, firstMatch_fields (by decide) (by decide), loaderIntegrity]
  cases hv : cmdlineValue integrityKey (blankSpaces 0 content) with
  | none => rfl
  | some v =>
    have hv0 : 0 ∉ v := by
      rw [cmdlineValue_eq (by decide) (by decide), firstValue, Option.map_eq_some_iff] at hv
      obtain ⟨w, hw, rfl⟩ := hv
      exact fun h0 => hblank (mem_of_mem_splitOn (mem_of_find?_eq_some hw)
        (mem_of_mem_drop ((takeWhile_sublist _).subset h0)))
    rw [Option.bind_some, Manifest.validMode_eq hv0]
    cases hmode : validMode v with
    | none => simp [hmode]
    | some mode => simp [hmode, modeText_of_validMode hmode]

/-- What the tool reports about CMDLINE is what stage2 derives from it. -/
def ReportsAgree (ro : Rodata) (content : List UInt8) : Prop :=
  cmdlineInt13Chunk content = loaderChunk (stripNewline content)
    ∧ cmdlineIntegrity content = loaderIntegrity ro (stripNewline content)

/-- A command line with a tab before the word. -/
def tabbed : List UInt8 := ascii "quiet\talpine-zfsboot.int13chunk=8"

end ZfsBoot.Proofs.Tool.Cmdline
