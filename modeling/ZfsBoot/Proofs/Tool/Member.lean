import ZfsBoot.Proofs.Init.EspMember

/-!
# `ZfsBoot.Proofs.Tool.Member`: a MEMBER file is read back

`Encode` writes a MEMBER file line by line, and `Decode` reads it so. Every value that a `Member` can
hold is safe in its line: it has no newline and no carriage return, and what follows the first `=` is
the value. The informational fields are whatever the host is called; `SanitizeInfo` makes them safe.
-/

set_option autoImplicit false

namespace ZfsBoot.Proofs.Tool.Member

open List
open Lib ZfsBoot.Tool
open Bios (ascii)
open Proofs.Init

variable {s key v : List UInt8} {m : Member}

/-! ### Lines -/

theorem crlfToLf_of_notMem (h : 0x0D ∉ s) : crlfToLf s = s := by
  fun_induction crlfToLf s with
  | case1 => rfl
  | case2 c => rfl
  | case3 s ih => exact absurd mem_cons_self h
  | case4 c d s _ ih => rw [ih fun hmem => h (mem_cons_of_mem _ hmem)]

/-- Bytes that do not end a line. -/
def InLine (s : List UInt8) : Prop := 0x0A ∉ s ∧ 0x0D ∉ s

theorem inLine_append {a b : List UInt8} (ha : InLine a) (hb : InLine b) : InLine (a ++ b) := by
  constructor
  · rw [mem_append, not_or]
    exact ⟨ha.1, hb.1⟩
  · rw [mem_append, not_or]
    exact ⟨ha.2, hb.2⟩

theorem inLine_of_plain (h : Plain s) : InLine s :=
  ⟨fun hmem => absurd (h _ hmem).1 (by decide), fun hmem => absurd (h _ hmem).1 (by decide)⟩

theorem inLine_of_isInfo (h : isInfo s = true) : InLine s := by
  rw [isInfo, decide_eq_true_eq, all_eq_true] at h
  exact ⟨fun hmem => absurd (h.2 _ hmem) (by decide), fun hmem => absurd (h.2 _ hmem) (by decide)⟩

theorem inLine_keyLine (hkey : InLine key) (hv : InLine v) :
    InLine (keyLine key v) :=
  inLine_append hkey (inLine_append (a := [0x3D]) ⟨by decide, by decide⟩ hv)

/-- Lines that are ended one by one are the lines that `Decode` sees, and one that is empty. -/
theorem decodedLines_flatMap {ls : List (List UInt8)} (h : ∀ l ∈ ls, InLine l) :
    decodedLines (ls.flatMap (· ++ [0x0A])) = ls ++ [[]] := by
  have hcr : 0x0D ∉ ls.flatMap (· ++ [0x0A]) := by
    intro hmem
    obtain ⟨l, hl, hmem⟩ := mem_flatMap.1 hmem
    rcases mem_append.1 hmem with hmem | hmem
    · exact (h l hl).2 hmem
    · exact absurd hmem (by decide)
  rw [decodedLines, crlfToLf_of_notMem hcr, splitOn_flatMap fun l hl => (h l hl).1]

theorem decodeMemberLine_keyLine (m : MemberFields) (hkey : 0x3D ∉ key)
    (v : List UInt8) : decodeMemberLine m (keyLine key v) = decodeField m key v := by
  have hcut : cut 0x3D (keyLine key v) = some (key, v) := cut_eq_some.2 ⟨rfl, hkey⟩
  rw [decodeMemberLine, if_neg (by simp [keyLine]), hcut]

/-! ### Values -/

theorem isInfo_sanitizeInfo (s : List UInt8) : isInfo (sanitizeInfo s) = true := by
  rw [isInfo, decide_eq_true_eq, all_eq_true]
  refine ⟨length_take_le _ _, fun c hc => ?_⟩
  obtain ⟨d, -, rfl⟩ := mem_map.1 (mem_of_mem_take hc)
  split_ifs with hd
  · exact hd
  · decide

theorem isGeneration_decimal {n : Nat} (h : n < 10 ^ 18) : isGeneration (decimal n) = true := by
  rw [isGeneration, decide_eq_true_eq, all_eq_true]
  exact ⟨decimal_ne_nil n, length_decimal_le (by decide) h, fun c hc => isDigit_of_mem_decimal hc⟩

theorem upper_of_isFatUuid (h : isFatUuid s = true) : s.map upper = s := by
  have hbyte : ∀ c : UInt8, isUpperHex c = true ∨ c = 0x2D → upper c = c :=
    forall_uint8 (by decide +kernel)
  rw [map_congr_left (g := id) fun c hc => hbyte c (mem_of_isGroups h hc), map_id]

theorem normalizeFatUuid_val (u : FatUuid) : normalizeFatUuid u.val = .ok u := by
  have hsame : (trimSpace u.val).map upper = u.val := by
    rw [trimSpace_eq_self (plain_of_isFatUuid u.isFatUuid_val), upper_of_isFatUuid u.isFatUuid_val]
  simp only [normalizeFatUuid, hsame, u.isFatUuid_val, dite_true]

/-- A list without repetitions, entry by entry. -/
theorem foldlM_parseUuidEntry {us out : List FatUuid} (h : (out ++ us).Nodup) :
    (us.map FatUuid.val).foldlM parseUuidEntry out = .ok (out ++ us) := by
  induction us generalizing out with
  | nil => rw [append_nil]; rfl
  | cons u us ih =>
    have hnew : u ∉ out := by
      rw [nodup_append] at h
      exact fun hmem => h.2.2 u hmem u mem_cons_self rfl
    have hentry : parseUuidEntry out u.val = .ok (out ++ [u]) := by
      rw [parseUuidEntry, normalizeFatUuid_val]
      exact if_neg hnew
    rw [map_cons, foldlM_cons, hentry]
    have hrest : (us.map FatUuid.val).foldlM parseUuidEntry (out ++ [u]) = .ok (out ++ [u] ++ us) :=
      ih (by simpa using h)
    rw [append_assoc, singleton_append] at hrest
    exact hrest

theorem plain_joinUuids (us : List FatUuid) : Plain (joinUuids us) := by
  intro c hc
  rcases mem_intercalate hc with rfl | ⟨w, hw, hc⟩
  · decide
  · obtain ⟨u, -, rfl⟩ := mem_map.1 hw
    exact plain_of_isFatUuid u.isFatUuid_val c hc

theorem parseUuidList_joinUuids {us : List FatUuid} (h : us.Nodup) :
    parseUuidList (joinUuids us) = .ok us := by
  cases us with
  | nil => rfl
  | cons u us =>
    have hval : u.val ≠ [] := by
      intro hnil
      have hgroups := u.isFatUuid_val
      rw [hnil] at hgroups
      exact absurd hgroups (by decide)
    have hne : joinUuids (u :: us) ≠ [] := by
      rw [joinUuids, map_cons, intercalate_cons]
      exact append_ne_nil_of_left_ne_nil hval _
    have hcomma : ∀ l ∈ (u :: us).map FatUuid.val, 0x2C ∉ l := by
      intro l hl hmem
      obtain ⟨v, -, rfl⟩ := mem_map.1 hl
      have hbyte := mem_of_isGroups v.isFatUuid_val hmem
      exact absurd hbyte (by decide)
    rw [parseUuidList, trimSpace_eq_self (plain_joinUuids _), if_neg hne, joinUuids,
      splitOn_intercalate 0x2C hcomma (cons_ne_nil _ _)]
    exact foldlM_parseUuidEntry (by simpa using h)

/-! ### The round trip -/

/-- A field of a `Member` in its own line, with what reading it sets. -/
theorem decodeField_info (m : MemberFields) (hv : isInfo v = true) :
    decodeField m (ascii "POOL") v = .ok { m with pool := v }
      ∧ decodeField m (ascii "DISK") v = .ok { m with disk := v }
      ∧ decodeField m (ascii "WRITTEN") v = .ok { m with written := v } := by
  refine ⟨?_, ?_, ?_⟩
  all_goals
    rw [decodeField]
    repeat rw [if_neg (by decide)]
    rw [if_pos rfl, if_pos hv]

/-- The line of an informational field. Without a value there is none, and the field stays empty. -/
theorem foldlM_infoLine {m m' : MemberFields} (hkey : 0x3D ∉ key)
    (hread : decodeField m key v = .ok m') (hempty : v = [] → m' = m) :
    (infoLine key v).foldlM decodeMemberLine m = .ok m' := by
  unfold infoLine
  split_ifs with hv
  · rw [hempty hv]
    rfl
  · rw [foldlM_cons, decodeMemberLine_keyLine m hkey, hread]
    rfl

/-- The four fields that are always there. -/
theorem foldlM_fields (hgen : m.generation < 10 ^ 18) (hmembers : m.members.Nodup) :
    [keyLine (ascii "INSTALL_ID") m.installId.val, keyLine (ascii "GENERATION") (decimal m.generation),
      keyLine (ascii "ESP_UUID") m.espUuid.val, keyLine (ascii "MEMBERS") (joinUuids m.members)].foldlM
        decodeMemberLine .start
      = .ok ⟨some m.installId, some m.generation, some m.espUuid, m.members, [], [], []⟩ := by
  have hid : ∀ f, decodeMemberLine f (keyLine (ascii "INSTALL_ID") m.installId.val)
      = .ok { f with installId := some m.installId } := by
    intro f
    rw [decodeMemberLine_keyLine f (by decide), decodeField, if_pos rfl,
      dif_pos m.installId.isInstallId_val]
  have hnumber : ∀ f, decodeMemberLine f (keyLine (ascii "GENERATION") (decimal m.generation))
      = .ok { f with generation := some m.generation } := by
    intro f
    rw [decodeMemberLine_keyLine f (by decide), decodeField, if_neg (by decide), if_pos rfl,
      if_pos (isGeneration_decimal hgen), ofDecimal_decimal]
  have huuid : ∀ f, decodeMemberLine f (keyLine (ascii "ESP_UUID") m.espUuid.val)
      = .ok { f with espUuid := some m.espUuid } := by
    intro f
    rw [decodeMemberLine_keyLine f (by decide), decodeField, if_neg (by decide), if_neg (by decide),
      if_pos rfl, normalizeFatUuid_val]
    exact if_neg (not_not.2 rfl)
  have hlist : ∀ f, decodeMemberLine f (keyLine (ascii "MEMBERS") (joinUuids m.members))
      = .ok { f with members := m.members } := by
    intro f
    rw [decodeMemberLine_keyLine f (by decide), decodeField, if_neg (by decide), if_neg (by decide),
      if_neg (by decide), if_pos rfl, parseUuidList_joinUuids hmembers]
  rw [foldlM_cons, hid, ok_bind, foldlM_cons, hnumber, ok_bind, foldlM_cons, huuid,
    ok_bind, foldlM_cons, hlist, ok_bind]
  rfl

/-- No line of a MEMBER file holds the end of one. -/
theorem inLine_memberLines (hpool : isInfo m.pool = true) (hdisk : isInfo m.disk = true)
    (hwritten : isInfo m.written = true) : ∀ l ∈ memberLines m, InLine l := by
  have hinfo : ∀ {key v : List UInt8}, InLine key → isInfo v = true →
      ∀ l ∈ infoLine key v, InLine l := by
    intro key v hkey hv l hl
    unfold infoLine at hl
    split_ifs at hl
    · cases hl
    · rw [mem_singleton.1 hl]
      exact inLine_keyLine hkey (inLine_of_isInfo hv)
  have hdecimal : Plain (decimal m.generation) := by
    have hbyte : ∀ c : UInt8, isDigit c = true → 0x21 ≤ c ∧ c ≤ 0x7E := forall_uint8 (by decide +kernel)
    exact fun c hc => hbyte c (isDigit_of_mem_decimal hc)
  intro l hl
  rw [memberLines, mem_append, mem_append, mem_append] at hl
  rcases hl with ((hl | hl) | hl) | hl
  · simp only [mem_cons, not_mem_nil, or_false] at hl
    rcases hl with rfl | rfl | rfl | rfl | rfl
    · exact ⟨by decide, by decide⟩
    · exact inLine_keyLine ⟨by decide, by decide⟩
        (inLine_of_plain (plain_of_isInstallId m.installId.isInstallId_val))
    · exact inLine_keyLine ⟨by decide, by decide⟩ (inLine_of_plain hdecimal)
    · exact inLine_keyLine ⟨by decide, by decide⟩
        (inLine_of_plain (plain_of_isFatUuid m.espUuid.isFatUuid_val))
    · exact inLine_keyLine ⟨by decide, by decide⟩ (inLine_of_plain (plain_joinUuids m.members))
  · exact hinfo ⟨by decide, by decide⟩ hpool l hl
  · exact hinfo ⟨by decide, by decide⟩ hdisk l hl
  · exact hinfo ⟨by decide, by decide⟩ hwritten l hl

theorem decodeMember_encodeMember (hgen : m.generation < 10 ^ 18)
    (hmembers : m.members.Nodup) (hpool : isInfo m.pool = true) (hdisk : isInfo m.disk = true)
    (hwritten : isInfo m.written = true) : decodeMember (encodeMember m) = .ok m := by
  have hlines : decodedLines (encodeMember m) = memberLines m ++ [[]] :=
    decodedLines_flatMap (inLine_memberLines hpool hdisk hwritten)
  refine decodeMember_eq_ok.2 ⟨_, hlines, ?_⟩
  show (([keyLine (ascii "INSTALL_ID") m.installId.val,
      keyLine (ascii "GENERATION") (decimal m.generation), keyLine (ascii "ESP_UUID") m.espUuid.val,
      keyLine (ascii "MEMBERS") (joinUuids m.members)] ++ infoLine (ascii "POOL") m.pool
    ++ infoLine (ascii "DISK") m.disk ++ infoLine (ascii "WRITTEN") m.written)
      ++ [[]]).foldlM decodeMemberLine .start = _
  rw [foldlM_append, foldlM_append, foldlM_append, foldlM_append,
    foldlM_fields hgen hmembers, ok_bind,
    foldlM_infoLine (by decide) (decodeField_info _ hpool).1 (by rintro h; rw [h]), ok_bind,
    foldlM_infoLine (by decide) (decodeField_info _ hdisk).2.1 (by rintro h; rw [h]), ok_bind,
    foldlM_infoLine (by decide) (decodeField_info _ hwritten).2.2 (by rintro h; rw [h]), ok_bind]
  rfl

/-- `Decode` reads back what `Encode` wrote, for whatever the host calls its pool and its disk. -/
theorem member_round_trip (id : InstallId) (generation : Nat) (espUuid : FatUuid)
    (members : List FatUuid) (pool disk written : List UInt8) (hgen : generation < 10 ^ 18)
    (hmembers : members.Nodup) :
    let m : Member := ⟨id, generation, espUuid, members, sanitizeInfo pool, sanitizeInfo disk,
      sanitizeInfo written⟩
    decodeMember (encodeMember m) = .ok m :=
  decodeMember_encodeMember hgen hmembers (isInfo_sanitizeInfo pool) (isInfo_sanitizeInfo disk)
    (isInfo_sanitizeInfo written)

/-- A member with a pool that has an odd name, and no disk. -/
theorem member_round_trip_odd :
    let id : InstallId := ⟨ascii "00000000-0000-4000-8000-000000000000", by decide +kernel⟩
    let u : FatUuid := ⟨ascii "1234-ABCD", by decide +kernel⟩
    let m : Member := ⟨id, 7, u, [u], sanitizeInfo (ascii "tank=\n"), sanitizeInfo [], sanitizeInfo []⟩
    decodeMember (encodeMember m) = .ok m :=
  member_round_trip _ 7 _ _ _ _ _ (by decide) (nodup_singleton _)

end ZfsBoot.Proofs.Tool.Member
