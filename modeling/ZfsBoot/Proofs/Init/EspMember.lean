import ZfsBoot.Init.EspSelect

/-!
# `ZfsBoot.Proofs.Init.EspMember`: the MEMBER file in the tool and in `/init`

The tool writes MEMBER and decodes it with `Decode`. `/init` reads it with `_esp_read_member`, a loop
over lines with shell patterns. The two are compared on every content, not only on what the tool
writes: a file that only one of them takes makes them choose different ESPs.

Both walk over the same lines, but for a CR at the end of a last line without a newline
(`espReadMember_eq`). `Decode` checks every line on the way, and the shell checks what the last line
of each key left. `Tracks` relates the two states, and `tracks_run` carries it through the file.
-/

set_option autoImplicit false

namespace ZfsBoot.Proofs.Init

variable {raw : List UInt8} {s : List UInt8}

open List
open Lib ZfsBoot.Tool ZfsBoot.Init

variable {m m' : MemberFields} {row : MemberRow} {l : List FatUuid}
open Bios (ascii)

/-! ### UUIDs -/

/-- What a UUID is made of. -/
theorem mem_of_isGroups {digit : UInt8 → Bool} {lengths : List Nat}
    (h : isGroups digit lengths s = true) {c : UInt8} (hc : c ∈ s) : digit c = true ∨ c = 0x2D := by
  simp only [isGroups, decide_eq_true_eq, all_eq_true] at h
  by_cases hdash : c = 0x2D
  · exact .inr hdash
  · obtain ⟨w, hw, hcw⟩ := exists_mem_splitOn hc hdash
    exact .inl (h.2 w hw c hcw)

theorem plain_of_isFatUuid (h : isFatUuid s = true) : Plain s := by
  have hbyte : ∀ c : UInt8, isUpperHex c = true ∨ c = 0x2D → 0x21 ≤ c ∧ c ≤ 0x7E :=
    forall_uint8 (by decide +kernel)
  exact fun c hc => hbyte c (mem_of_isGroups h hc)

theorem plain_of_isInstallId (h : isInstallId s = true) : Plain s := by
  have hbyte : ∀ c : UInt8, isHexDigit c = true ∨ c = 0x2D → 0x21 ≤ c ∧ c ≤ 0x7E :=
    forall_uint8 (by decide +kernel)
  exact fun c hc => hbyte c (mem_of_isGroups h hc)

theorem plain_of_isGeneration (h : isGeneration s = true) : Plain s := by
  have hbyte : ∀ c : UInt8, isDigit c = true → 0x21 ≤ c ∧ c ≤ 0x7E :=
    forall_uint8 (by decide +kernel)
  simp only [isGeneration, decide_eq_true_eq, all_eq_true] at h
  exact fun c hc => hbyte c (h.2.2 c hc)

/-- Where one of the two makes a character of a UUID, they make the same. -/
theorem map_upper_eq (h : isFatUuid (s.map upper) = true ∨ isFatUuid (s.map upperHex) = true) :
    s.map upper = s.map upperHex := by
  have hbyte : ∀ c : UInt8, (isUpperHex (upper c) = true ∨ upper c = 0x2D)
      ∨ (isUpperHex (upperHex c) = true ∨ upperHex c = 0x2D) → upper c = upperHex c :=
    forall_uint8 (by decide +kernel)
  refine map_congr_left fun c hc => hbyte c ?_
  exact h.imp (mem_of_isGroups · (mem_map_of_mem hc))
    (mem_of_isGroups · (mem_map_of_mem hc))

/-- What `upperHex` makes a UUID of is plain. -/
theorem plain_of_espNormUuid {u : FatUuid} (h : espNormUuid s = some u) : Plain s := by
  have hbyte : ∀ c : UInt8, 0x21 ≤ upperHex c ∧ upperHex c ≤ 0x7E → 0x21 ≤ c ∧ c ≤ 0x7E :=
    forall_uint8 (by decide +kernel)
  rw [espNormUuid] at h
  split at h
  · rename_i hfat
    exact fun c hc => hbyte c (plain_of_isFatUuid hfat _ (mem_map_of_mem hc))
  · cases h

/-- The tool trims a text and then makes the same UUID of it as the shell. -/
theorem toOption_normalizeFatUuid {s t : List UInt8} (h : trimSpace s = t) :
    (normalizeFatUuid s).toOption = espNormUuid t := by
  subst h
  by_cases hfat : isFatUuid ((trimSpace s).map upper) = true
  · have heq := map_upper_eq (.inl hfat)
    simp only [normalizeFatUuid, espNormUuid, dif_pos (heq ▸ hfat), heq]
    rfl
  · have hfat' : ¬ isFatUuid ((trimSpace s).map upperHex) = true :=
      fun h => hfat (map_upper_eq (.inr h) ▸ h)
    simp only [normalizeFatUuid, espNormUuid, dif_neg hfat, dif_neg hfat']
    rfl

/-! ### Lists of UUIDs -/

/-- One entry more: the tool and the shell add the same one. -/
theorem toOption_parseUuidEntry (out : List FatUuid) (part : List UInt8) :
    (parseUuidEntry out part).toOption = espNormItem out (trimSpace part) := by
  rw [parseUuidEntry, espNormItem, toOption_bind, toOption_normalizeFatUuid rfl]
  refine bind_congr fun u => ?_
  split_ifs
  · rfl
  · rfl

/-- A list is what its trimmed entries are in the shell. -/
theorem parseUuidList_eq_ok {v : List UInt8} :
    parseUuidList v = .ok l ↔ if trimSpace v = [] then l = []
      else ((v.splitOn 0x2C).map trimSpace).foldlM espNormItem [] = some l := by
  rw [parseUuidList]
  split_ifs
  · rw [Except.ok.injEq, eq_comm]
  · rw [← toOption_foldlM toOption_parseUuidEntry, toOption_eq_some]

/-- Every item of a list that the shell takes is plain, and no list it takes is empty. -/
theorem plain_of_espNormItems {items : List (List UInt8)} {out l : List FatUuid}
    (h : items.foldlM espNormItem out = some l) : ∀ item ∈ items, Plain item := by
  induction items generalizing out with
  | nil => exact fun item hitem => absurd hitem not_mem_nil
  | cons item items ih =>
    rw [foldlM_cons, Option.bind_eq_bind, Option.bind_eq_some_iff] at h
    obtain ⟨out', hitem, hrest⟩ := h
    rw [espNormItem, Option.bind_eq_bind, Option.bind_eq_some_iff] at hitem
    obtain ⟨u, hu, -⟩ := hitem
    intro item' hmem
    rcases mem_cons.1 hmem with rfl | hmem
    · exact plain_of_espNormUuid hu
    · exact ih hrest item' hmem

theorem plain_of_espNormList {v : List UInt8} (h : espNormList v = some l) : Plain v := by
  intro c hc
  by_cases hcomma : c = 0x2C
  · rw [hcomma]
    decide
  · obtain ⟨w, hw, hcw⟩ := exists_mem_splitOn hc hcomma
    exact plain_of_espNormItems h w hw c hcw

/-- A plain text has plain items, which trimming leaves as they are. -/
theorem map_trimSpace_splitOn {t : List UInt8} (h : Plain t) :
    (t.splitOn 0x2C).map trimSpace = t.splitOn 0x2C := by
  have hitem : ∀ w ∈ t.splitOn 0x2C, trimSpace w = w :=
    fun w hw => trimSpace_eq_self fun c hc => h c (mem_of_mem_splitOn hw hc)
  rw [map_congr_left hitem, map_id']

/-- Neither does a CR after the text change its items. -/
theorem map_trimSpace_splitOn_cr {t : List UInt8} (h : Plain t) :
    ((t ++ [0x0D]).splitOn 0x2C).map trimSpace = t.splitOn 0x2C := by
  obtain ⟨init, last, ht, hcr⟩ := splitOn_append_singleton (by decide : (0x0D : UInt8) ≠ 0x2C) t
  have hmap := map_trimSpace_splitOn h
  have hlast : Plain last := fun c hc =>
    h c (mem_of_mem_splitOn (ht ▸ mem_append_right _ mem_cons_self) hc)
  rw [ht, map_append, map_singleton, trimSpace_eq_self hlast] at hmap
  rw [hcr, ht, map_append, map_singleton, trimSpace_append_cr hlast, hmap]

/-- On a plain text, also with a CR after it, the tool's list is the shell's. -/
theorem parseUuidList_iff {v t : List UInt8} (hplain : Plain t) (hv : v = t ∨ v = t ++ [0x0D]) :
    parseUuidList v = .ok l ↔ if t = [] then l = [] else espNormList t = some l := by
  rw [parseUuidList_eq_ok]
  rcases hv with rfl | rfl
  · rw [trimSpace_eq_self hplain, map_trimSpace_splitOn hplain]
    rfl
  · rw [trimSpace_append_cr hplain, map_trimSpace_splitOn_cr hplain]
    rfl

/-! ### Lines -/

/-- A line that starts with `KEY=` is one whose key is `KEY`. -/
theorem valueOf_eq {key k v line : List UInt8} (hkey : 0x3D ∉ key)
    (hcut : cut 0x3D line = some (k, v)) :
    valueOf key line = if k = key then some v else none := by
  obtain ⟨rfl, hk⟩ := cut_eq_some.1 hcut
  rw [valueOf]
  by_cases heq : k = key
  · subst heq
    have hhead : (keyLine k []).isPrefixOf (k ++ 0x3D :: v) = true :=
      List.isPrefixOf_iff_prefix.2 ⟨v, by simp [keyLine]⟩
    rw [if_pos hhead, if_pos rfl]
    simp [keyLine]
  · have hhead : ¬ (keyLine key []).isPrefixOf (k ++ 0x3D :: v) = true := by
      rw [List.isPrefixOf_iff_prefix]
      rintro ⟨t, ht⟩
      have hcut' : cut 0x3D (k ++ 0x3D :: v) = some (key, t) :=
        cut_eq_some.2 ⟨by rw [← ht]; simp [keyLine], hkey⟩
      exact heq (Prod.mk.inj (Option.some.inj (hcut.symm.trans hcut'))).1
    rw [if_neg hhead, if_neg heq]

theorem valueOf_of_cut_none {key line : List UInt8} (hcut : cut 0x3D line = none) :
    valueOf key line = none := by
  rw [valueOf, if_neg]
  rw [List.isPrefixOf_iff_prefix]
  rintro ⟨t, rfl⟩
  simp [cut, keyLine] at hcut

/-- The shell's loop on a line with a key. -/
theorem read_of_cut (vars : MemberVars) {k v line : List UInt8}
    (hcut : cut 0x3D line = some (k, v)) :
    vars.read line = if k = ascii "INSTALL_ID" then { vars with id := v }
      else if k = ascii "GENERATION" then { vars with gen := v }
      else if k = ascii "ESP_UUID" then { vars with eu := v }
      else if k = ascii "MEMBERS" then { vars with mem := v }
      else vars := by
  rw [MemberVars.read, valueOf_eq (by decide) hcut, valueOf_eq (by decide) hcut,
    valueOf_eq (by decide) hcut, valueOf_eq (by decide) hcut]
  split_ifs <;> rfl

theorem read_of_cut_none (vars : MemberVars) {line : List UInt8} (hcut : cut 0x3D line = none) :
    vars.read line = vars := by
  rw [MemberVars.read, valueOf_of_cut_none hcut, valueOf_of_cut_none hcut,
    valueOf_of_cut_none hcut, valueOf_of_cut_none hcut]

/-- The value is what loses the CR at the end of a line. -/
theorem cut_dropCr {k v line : List UInt8} (hcut : cut 0x3D line = some (k, v)) :
    cut 0x3D (dropCr line) = some (k, dropCr v) := by
  obtain ⟨rfl, hk⟩ := cut_eq_some.1 hcut
  refine cut_eq_some.2 ⟨?_, hk⟩
  cases v with
  | nil => simp [dropCr]
  | cons c v =>
    rw [dropCr, dropCr, List.getLast?_append_cons, List.getLast?_cons_cons,
      dropLast_append_cons]
    split <;> rfl

/-! ### The two states -/

theorem dropCr_of_plain {v : List UInt8} (h : Plain v) : dropCr v = v := by
  rw [dropCr, if_neg]
  exact fun hlast => absurd (h _ (mem_of_getLast? hlast)) (by decide)

theorem eq_dropCr_or (v : List UInt8) : v = dropCr v ∨ v = dropCr v ++ [0x0D] := by
  rw [dropCr]
  split
  · rename_i hlast
    exact .inr (dropLast_append_getLast? _ hlast).symm
  · exact .inl rfl

/-- The locals of `Decode` and the variables of the shell after the same lines. The lists of members
agree only where no white space is in the text. -/
structure Tracks (m : MemberFields) (vars : MemberVars) : Prop where
  installId : m.installId.elim (vars.id = []) fun id => vars.id = id.val
  generation : m.generation.elim (vars.gen = []) fun gen =>
    isGeneration vars.gen = true ∧ gen = ofDecimal vars.gen
  espUuid : m.espUuid.elim (vars.eu = []) fun u => vars.eu = u.val
  members : Plain vars.mem →
    if vars.mem = [] then m.members = [] else espNormList vars.mem = some m.members

theorem tracks_start : Tracks .start .start :=
  ⟨rfl, rfl, rfl, fun _ => rfl⟩

/-- One line with a key, which the shell may see without a CR at its end. -/
theorem Tracks.field {vars : MemberVars} {k v v' : List UInt8} (h : Tracks m vars)
    (hv : v' = v ∨ v' = dropCr v) (hok : decodeField m k v = .ok m') :
    Tracks m' (if k = ascii "INSTALL_ID" then { vars with id := v' }
      else if k = ascii "GENERATION" then { vars with gen := v' }
      else if k = ascii "ESP_UUID" then { vars with eu := v' }
      else if k = ascii "MEMBERS" then { vars with mem := v' }
      else vars) := by
  have hplain (hp : Plain v) : v' = v := by
    rcases hv with rfl | rfl
    · rfl
    · exact dropCr_of_plain hp
  rw [decodeField] at hok
  split
  · rename_i hk
    rw [if_pos hk] at hok
    split at hok
    · rename_i hid
      obtain rfl := Except.ok.inj hok
      exact ⟨hplain (plain_of_isInstallId hid), h.generation, h.espUuid, h.members⟩
    · cases hok
  rename_i hk
  rw [if_neg hk] at hok
  split
  · rename_i hk
    rw [if_pos hk] at hok
    split at hok
    · rename_i hgen
      obtain rfl := Except.ok.inj hok
      obtain rfl := hplain (plain_of_isGeneration hgen)
      exact ⟨h.installId, ⟨hgen, rfl⟩, h.espUuid, h.members⟩
    · cases hok
  rename_i hk
  rw [if_neg hk] at hok
  split
  · rename_i hk
    rw [if_pos hk] at hok
    split at hok
    · rename_i u hu
      split at hok
      · cases hok
      · rename_i hval
        obtain rfl := Except.ok.inj hok
        have hval : u.val = v := not_not.1 hval
        refine ⟨h.installId, h.generation, ?_, h.members⟩
        exact (hplain (hval ▸ plain_of_isFatUuid u.isFatUuid_val)).trans hval.symm
    · cases hok
  rename_i hk
  rw [if_neg hk] at hok
  split
  · rename_i hk
    rw [if_pos hk] at hok
    split at hok
    · rename_i l hparse
      obtain rfl := Except.ok.inj hok
      refine ⟨h.installId, h.generation, h.espUuid, fun hp => (parseUuidList_iff hp ?_).1 hparse⟩
      rcases hv with rfl | rfl
      · exact .inl rfl
      · exact eq_dropCr_or v
    · cases hok
  · -- the fields that only `Decode` keeps
    rename_i hk
    rw [if_neg hk] at hok
    split_ifs at hok
    all_goals
      obtain rfl := Except.ok.inj hok
      exact ⟨h.installId, h.generation, h.espUuid, h.members⟩

/-- One line of the file. -/
theorem Tracks.line {vars : MemberVars} {line line' : List UInt8} (h : Tracks m vars)
    (hline : line' = line ∨ line' = dropCr line) (hok : decodeMemberLine m line = .ok m') :
    Tracks m' (vars.read line') := by
  rw [decodeMemberLine] at hok
  split at hok
  · rename_i hnil
    obtain rfl := Except.ok.inj hok
    have hline' : line' = [] := by
      rcases hline with rfl | rfl
      · exact hnil
      · rw [hnil]
        rfl
    rw [hline', read_of_cut_none vars rfl]
    exact h
  · split at hok
    · cases hok
    · rename_i k v hcut
      rcases hline with rfl | rfl
      · rw [read_of_cut vars hcut]
        exact h.field (.inl rfl) hok
      · rw [read_of_cut vars (cut_dropCr hcut)]
        exact h.field (.inr rfl) hok

/-- All lines of a file. -/
theorem Tracks.lines {vars : MemberVars} {lines : List (List UInt8)} (h : Tracks m vars)
    (hok : lines.foldlM decodeMemberLine m = .ok m') :
    Tracks m' (lines.foldl MemberVars.read vars) := by
  induction lines generalizing m vars with
  | nil =>
    obtain rfl := pure_eq_ok.1 hok
    exact h
  | cons line lines ih =>
    rw [foldlM_cons] at hok
    obtain ⟨m₁, hline, hrest⟩ := bind_eq_ok.1 hok
    exact ih (h.line (.inl rfl) hline) hrest

/-! ### Well-formed lines -/

/-- A line that `Decode` takes: an empty one, or a key with a value that fits it. -/
def WellFormed (line : List UInt8) : Prop := (decodeMemberLine .start line).isOk = true

/-- Whether a line is taken does not depend on the lines before it. -/
theorem isOk_decodeMemberLine (m m' : MemberFields) (line : List UInt8) :
    (decodeMemberLine m line).isOk = (decodeMemberLine m' line).isOk := by
  have hfield (k v : List UInt8) : (decodeField m k v).isOk = (decodeField m' k v).isOk := by
    rw [decodeField, decodeField]
    split
    · split <;> rfl
    split
    · split <;> rfl
    split
    · split
      · split <;> rfl
      · rfl
    split
    · split <;> rfl
    split_ifs <;> rfl
  rw [decodeMemberLine, decodeMemberLine]
  split
  · rfl
  · split
    · rfl
    · exact hfield _ _

theorem isOk_foldlM_iff (m : MemberFields) (lines : List (List UInt8)) :
    (∃ m', lines.foldlM decodeMemberLine m = .ok m') ↔ ∀ line ∈ lines, WellFormed line := by
  induction lines generalizing m with
  | nil => exact ⟨fun _ _ h => absurd h not_mem_nil, fun _ => ⟨m, rfl⟩⟩
  | cons line lines ih =>
    have hwf : WellFormed line ↔ ∃ m₁, decodeMemberLine m line = .ok m₁ := by
      rw [WellFormed, isOk_decodeMemberLine _ m]
      cases decodeMemberLine m line <;> simp [Except.isOk, Except.toBool]
    rw [forall_mem_cons, hwf]
    constructor
    · rintro ⟨m', h⟩
      rw [foldlM_cons] at h
      obtain ⟨m₁, hline, hrest⟩ := bind_eq_ok.1 h
      exact ⟨⟨m₁, hline⟩, (ih m₁).1 ⟨m', hrest⟩⟩
    · rintro ⟨⟨m₁, hline⟩, hlines⟩
      obtain ⟨m', hrest⟩ := (ih m₁).2 hlines
      exact ⟨m', by rw [foldlM_cons, hline, ok_bind, hrest]⟩

/-! ### Files -/

/-- The variables of the shell after the last line. -/
def memberVars (raw : List UInt8) : MemberVars :=
  ((readLines raw).map dropCr).tail.foldl MemberVars.read .start

theorem espReadMember_eq (raw : List UInt8) :
    espReadMember raw = if ((readLines raw).map dropCr).head? = some memberHeader
      then (memberVars raw).row else none := by
  rw [espReadMember, memberVars]
  cases (readLines raw).map dropCr with
  | nil => rfl
  | cons first lines =>
    simp only [List.head?_cons, Option.some.injEq]
    rfl

theorem row_start : MemberVars.row .start = none := by
  rw [MemberVars.row, dif_neg (by decide)]

/-- The lines that `Decode` sees and those that the shell sees: they differ in a CR at the end of the
last one. A file without a newline has no line after the first. -/
theorem decodedLines_cases (raw : List UInt8) :
    (∃ last, decodedLines raw = [last] ∧ memberVars raw = .start) ∨
    ∃ first lines last, decodedLines raw = first :: (lines ++ [last])
      ∧ ((readLines raw).map dropCr).head? = some first
      ∧ memberVars raw = (lines ++ [dropCr last]).foldl MemberVars.read .start := by
  obtain ⟨init, last, hraw, hlf⟩ := splitOn_crlfToLf raw
  cases init with
  | nil =>
    refine .inl ⟨last, hlf, ?_⟩
    rw [memberVars, readLines, hraw]
    split_ifs <;> rfl
  | cons first init =>
    refine .inr ⟨dropCr first, init.map dropCr, last, hlf, ?_, ?_⟩
    · rw [readLines, hraw]
      split_ifs
      · rw [List.dropLast_concat]
        rfl
      · rfl
    · rw [memberVars, readLines, hraw, List.getLast?_concat, List.dropLast_concat]
      split_ifs with hlast
      · obtain rfl := Option.some.inj hlast
        rw [foldl_append]
        exact (read_of_cut_none _ (rfl : cut 0x3D [] = none)).symm
      · simp

theorem memberHeader_eq (first : List UInt8) :
    (headerPrefix.isPrefixOf first = true ∧ first.drop headerPrefix.length = decimal memberFormat)
      ↔ first = memberHeader := by
  have hheader : memberHeader = headerPrefix ++ decimal memberFormat := by decide +kernel
  rw [List.isPrefixOf_iff_prefix, hheader]
  constructor
  · rintro ⟨⟨t, rfl⟩, ht⟩
    rw [drop_left] at ht
    rw [ht]
  · rintro rfl
    exact ⟨prefix_append _ _, drop_left⟩

/-- When `Decode` succeeds. -/
theorem decodeMember_eq_ok {m : Member} :
    decodeMember raw = .ok m ↔ ∃ lines, decodedLines raw = memberHeader :: lines
      ∧ lines.foldlM decodeMemberLine .start = .ok ⟨some m.installId, some m.generation,
        some m.espUuid, m.members, m.pool, m.disk, m.written⟩ := by
  rw [decodeMember]
  cases hlines : decodedLines raw with
  | nil => simp
  | cons first lines =>
    by_cases hfirst : first = memberHeader
    · subst hfirst
      obtain ⟨hhead, hformat⟩ := (memberHeader_eq _).2 rfl
      simp only [hhead, hformat, List.cons.injEq, true_and, exists_eq_left', Bool.true_eq_false,
        if_false, ne_eq, not_true_eq_false]
      cases lines.foldlM decodeMemberLine .start with
      | error e => simp
      | ok f =>
        obtain ⟨id, gen, u, members, pool, disk, written⟩ := f
        obtain ⟨id', gen', u', members', pool', disk', written'⟩ := m
        cases id <;> cases gen <;> cases u <;> simp
    · have hnot := fun h => hfirst ((memberHeader_eq first).1 h)
      simp only [List.cons.injEq, hfirst, false_and, exists_false, iff_false]
      split_ifs with hhead hformat
      · simp
      · simp
      · exact absurd ⟨by simpa using hhead, not_not.1 hformat⟩ hnot

/-- The states of the two after the whole file. -/
theorem tracks_run {raw first : List UInt8} {rest : List (List UInt8)} {f : MemberFields}
    (hlines : decodedLines raw = first :: rest)
    (hok : rest.foldlM decodeMemberLine .start = .ok f) : Tracks f (memberVars raw) := by
  rcases decodedLines_cases raw with ⟨last, hlast, hvars⟩ | ⟨first', lines, last, hcons, -, hvars⟩
  · obtain ⟨-, rfl⟩ := List.cons.inj (hlines.symm.trans hlast)
    obtain rfl := pure_eq_ok.1 hok
    rw [hvars]
    exact tracks_start
  · obtain ⟨-, rfl⟩ := List.cons.inj (hlines.symm.trans hcons)
    rw [foldlM_append] at hok
    obtain ⟨f', hinit, hlast⟩ := bind_eq_ok.1 hok
    rw [foldlM_cons] at hlast
    obtain ⟨f'', hline, hf⟩ := bind_eq_ok.1 hlast
    obtain rfl := pure_eq_ok.1 hf
    rw [hvars, foldl_append]
    exact (tracks_start.lines hinit).line (.inr rfl) hline

/-- The variables that the shell takes. -/
theorem isSome_row_iff {vars : MemberVars} :
    vars.row.isSome = true ↔ isInstallId vars.id = true ∧ isGeneration vars.gen = true
      ∧ isFatUuid vars.eu = true ∧ (vars.mem = [] ∨ (espNormList vars.mem).isSome = true) := by
  rw [MemberVars.row]
  split_ifs <;> simp_all

/-- What it prints for them. -/
theorem row_fields {vars : MemberVars} (h : vars.row = some row) :
    vars.id = row.id.val ∧ row.gen = stripZeros vars.gen ∧ vars.eu = row.espUuid.val
      ∧ row.members = if vars.mem = [] then noField else vars.mem := by
  rw [MemberVars.row] at h
  split_ifs at h with hid hgen heu hmem hlist
  · obtain rfl := Option.some.inj h
    exact ⟨rfl, rfl, rfl, (if_pos hmem).symm⟩
  · obtain rfl := Option.some.inj h
    exact ⟨rfl, rfl, rfl, (if_neg hmem).symm⟩

/-- The members that it prints. -/
theorem memberList_of_row {vars : MemberVars} (h : vars.row = some row) :
    row.memberList = if vars.mem = [] then some [] else espNormList vars.mem := by
  have hmembers := (row_fields h).2.2.2
  have hlist := (isSome_row_iff.1 (Option.isSome_of_eq_some h)).2.2.2
  rw [MemberRow.memberList, hmembers]
  by_cases hmem : vars.mem = []
  · rw [if_pos hmem, if_pos hmem, if_pos rfl]
  · have hne : vars.mem ≠ noField := by
      intro heq
      rw [heq] at hlist
      exact absurd (hlist.resolve_left (by decide)) (by decide)
    rw [if_neg hmem, if_neg hmem, if_neg hne]

theorem ofDecimal_stripZeros (s : List UInt8) : ofDecimal (stripZeros s) = ofDecimal s := by
  rw [← ofDecimal_dropWhile s, stripZeros]
  split
  · rename_i hnil
    rw [hnil]
    rfl
  · rename_i hcons
    rw [hcons]

/-- When the shell succeeds. -/
theorem espReadMember_eq_some :
    espReadMember raw = some row ↔
      ((readLines raw).map dropCr).head? = some memberHeader ∧ (memberVars raw).row = some row := by
  rw [espReadMember_eq]
  split_ifs with h
  · exact ⟨fun hrow => ⟨h, hrow⟩, And.right⟩
  · exact ⟨fun hrow => absurd hrow (by simp), fun hrow => absurd hrow.1 h⟩

/-- The first line that it sees is then the one that `Decode` sees. -/
theorem decodedLines_of_row (hhead : ((readLines raw).map dropCr).head? = some memberHeader)
    (hrow : (memberVars raw).row = some row) :
    ∃ lines, decodedLines raw = memberHeader :: lines := by
  rcases decodedLines_cases raw with ⟨last, -, hvars⟩ | ⟨first, lines, last, hcons, hfirst, -⟩
  · rw [hvars, row_start] at hrow
    cases hrow
  · rw [hhead] at hfirst
    exact ⟨_, Option.some.inj hfirst ▸ hcons⟩

/-- The other way round, if `Decode` has a line after the first one. -/
theorem head?_readLines {lines : List (List UInt8)}
    (hlines : decodedLines raw = memberHeader :: lines) (hne : lines ≠ []) :
    ((readLines raw).map dropCr).head? = some memberHeader := by
  rcases decodedLines_cases raw with ⟨last, hlast, -⟩ | ⟨first, lines', last, hcons, hfirst, -⟩
  · exact absurd (List.cons.inj (hlines.symm.trans hlast)).2 hne
  · rw [hfirst, (List.cons.inj (hlines.symm.trans hcons)).1]

/-- The list of members that it takes is plain. -/
theorem plain_of_row {vars : MemberVars} (h : vars.row = some row) : Plain vars.mem := by
  rcases (isSome_row_iff.1 (Option.isSome_of_eq_some h)).2.2.2 with hnil | hsome
  · rw [hnil]
    exact fun c hc => absurd hc not_mem_nil
  · obtain ⟨l, hl⟩ := Option.isSome_iff_exists.1 hsome
    exact plain_of_espNormList hl

/-- The tool and the shell read the same from a file. -/
structure SameMember (m : Member) (row : MemberRow) : Prop where
  installId : m.installId = row.id
  generation : m.generation = ofDecimal row.gen
  espUuid : m.espUuid = row.espUuid
  members : row.memberList = some m.members

section Both

variable {f : MemberFields} {vars : MemberVars} (h : Tracks f vars)
include h

/-- The shell has all fields: so has `Decode`. -/
theorem Tracks.complete (hrow : vars.row = some row) :
    ∃ m : Member, f = ⟨some m.installId, some m.generation, some m.espUuid, m.members, m.pool, m.disk,
      m.written⟩ ∧ SameMember m row := by
  obtain ⟨hisId, hisGen, hisU, -⟩ := isSome_row_iff.1 (Option.isSome_of_eq_some hrow)
  obtain ⟨hid, hgen, hu, -⟩ := row_fields hrow
  have hmem := h.members (plain_of_row hrow)
  have hid' := h.installId
  have hgen' := h.generation
  have hu' := h.espUuid
  obtain ⟨id, gen, u, members, pool, disk, written⟩ := f
  -- a field that `Decode` does not have is empty in the shell
  cases id with
  | none =>
    rw [show vars.id = [] from hid'] at hisId
    exact absurd hisId (by decide)
  | some id =>
  cases gen with
  | none =>
    rw [show vars.gen = [] from hgen'] at hisGen
    exact absurd hisGen (by decide)
  | some gen =>
  cases u with
  | none =>
    rw [show vars.eu = [] from hu'] at hisU
    exact absurd hisU (by decide)
  | some u =>
  refine ⟨⟨id, gen, u, members, pool, disk, written⟩, rfl, ?_, ?_, ?_, ?_⟩
  · exact InstallId.ext (hid'.symm.trans hid)
  · rw [hgen, ofDecimal_stripZeros]
    exact hgen'.2
  · exact FatUuid.ext (hu'.symm.trans hu)
  · rw [memberList_of_row hrow]
    split_ifs at hmem ⊢
    · rw [show members = [] from hmem]
    · exact hmem

/-- `Decode` has all fields: so has the shell, if it can read the list of members. -/
theorem Tracks.isSome_row {m : Member} (hf : f = ⟨some m.installId, some m.generation,
      some m.espUuid, m.members, m.pool, m.disk, m.written⟩) (hplain : Plain vars.mem) :
    vars.row.isSome = true := by
  subst hf
  have hid : vars.id = m.installId.val := h.installId
  have hu : vars.eu = m.espUuid.val := h.espUuid
  have hmem := h.members hplain
  refine isSome_row_iff.2 ⟨hid ▸ m.installId.isInstallId_val, h.generation.1,
    hu ▸ m.espUuid.isFatUuid_val, ?_⟩
  split_ifs at hmem with hnil
  · exact .inl hnil
  · exact .inr (hmem ▸ rfl)

end Both

/-- The tool and the shell agree on a MEMBER file: both take it, and read the same from it, or both
refuse it. -/
structure Agrees (raw : List UInt8) : Prop where
  accept : (∃ m, decodeMember raw = .ok m) ↔ ∃ row, espReadMember raw = some row
  same : ∀ m row, decodeMember raw = .ok m → espReadMember raw = some row → SameMember m row

/-- The two agree on a file, unless the shell takes one in which a line is malformed for `Decode`, or
`Decode` takes one in which the last list of members has white space around a UUID. -/
theorem decode_agrees_iff (raw : List UInt8) :
    Agrees raw ↔
      ((∃ row, espReadMember raw = some row) → ∀ line ∈ (decodedLines raw).tail, WellFormed line)
      ∧ ((∃ m, decodeMember raw = .ok m) → Plain (memberVars raw).mem) := by
  constructor
  · intro h
    constructor
    · intro hrow
      obtain ⟨m, hm⟩ := h.accept.2 hrow
      obtain ⟨lines, hlines, hok⟩ := decodeMember_eq_ok.1 hm
      rw [hlines]
      exact (isOk_foldlM_iff _ _).1 ⟨_, hok⟩
    · intro hm
      obtain ⟨row, hrow⟩ := h.accept.1 hm
      exact plain_of_row (espReadMember_eq_some.1 hrow).2
  · rintro ⟨hlines, hplain⟩
    have hsame : ∀ row, espReadMember raw = some row →
        ∃ m, decodeMember raw = .ok m ∧ SameMember m row := by
      intro row hrow
      obtain ⟨hhead, hvars⟩ := espReadMember_eq_some.1 hrow
      obtain ⟨lines, hcons⟩ := decodedLines_of_row hhead hvars
      obtain ⟨f, hf⟩ := (isOk_foldlM_iff .start lines).2 (by
        have := hlines ⟨row, hrow⟩
        rwa [hcons] at this)
      obtain ⟨m, rfl, hm⟩ := (tracks_run hcons hf).complete hvars
      exact ⟨m, decodeMember_eq_ok.2 ⟨lines, hcons, hf⟩, hm⟩
    constructor
    · constructor
      · rintro ⟨m, hm⟩
        obtain ⟨lines, hcons, hok⟩ := decodeMember_eq_ok.1 hm
        have hne : lines ≠ [] := by
          rintro rfl
          cases pure_eq_ok.1 hok
        obtain ⟨row, hrow⟩ := Option.isSome_iff_exists.1
          ((tracks_run hcons hok).isSome_row rfl (hplain ⟨m, hm⟩))
        exact ⟨row, espReadMember_eq_some.2 ⟨head?_readLines hcons hne, hrow⟩⟩
      · rintro ⟨row, hrow⟩
        obtain ⟨m, hm, -⟩ := hsame row hrow
        exact ⟨m, hm⟩
    · intro m row hm hrow
      obtain ⟨m', hm', hs⟩ := hsame row hrow
      rwa [Except.ok.inj (hm.symm.trans hm')]

/-- A MEMBER file with a line that has no key. -/
def strayLine : List UInt8 :=
  ascii "alpine-zfsboot esp-member 1\nINSTALL_ID=11111111-1111-1111-1111-111111111111\n"
    ++ ascii "GENERATION=1\nESP_UUID=AAAA-0001\nMEMBERS=AAAA-0001\nstray\n"

/-- The shell takes the file and the tool does not. -/
theorem stray_line_read :
    (espReadMember strayLine).isSome = true ∧ (decodeMember strayLine).isOk = false := by
  decide +kernel

end ZfsBoot.Proofs.Init
