import ZfsBoot.Lib.Outcome
import ZfsBoot.Tool.PayloadSum

/-!
# `ZfsBoot.Proofs.Tool.PayloadSum`: a manifest that `Generate` makes is one that `Verify` accepts

`decode_encode` is the round trip through the text of CHECKSUM. It holds for every manifest whose
numbers fit the file: sizes below `2 ^ 32`, and an offset within its file. `New` only makes such
manifests, so what `Generate` writes decodes, and describes the kernel and initrd it was made of
(`describes_generate`).
-/

set_option autoImplicit false

namespace ZfsBoot.Proofs.Tool.PayloadSum

open List hiding Vector
open Lib ZfsBoot.Tool.PayloadSum
open Bios (ascii PayloadSumMode)

variable {ls fs : List (List UInt8)} {raw : List UInt8} {kernel initrd name mode : List UInt8}
  {e : Entry} {m : Manifest} {off : Nat}

/-! ### Lines and fields -/

/-- Lines that end in a separator, without the last one. -/
theorem dropLast_lines (sep : UInt8) (h : ls ≠ []) :
    (ls.flatMap (· ++ [sep])).dropLast = [sep].intercalate ls := by
  induction ls with
  | nil => exact absurd rfl h
  | cons l ls ih =>
    cases ls with
    | nil => simp
    | cons l' ls =>
      rw [flatMap_cons, dropLast_append_of_ne_nil (by simp), ih (by simp),
        intercalate_cons_cons, append_assoc]

/-- A text of lines ends in the separator. -/
theorem getLast?_lines (sep : UInt8) (h : ls ≠ []) :
    (ls.flatMap (· ++ [sep])).getLast? = some sep := by
  obtain ⟨ls, l, rfl⟩ := (eq_nil_or_concat ls).resolve_left h
  simp

/-- The bytes that stand in no field of a manifest: the two separators. -/
def IsField (f : List UInt8) : Prop := 0x20 ∉ f ∧ 0x0A ∉ f

theorem isField_decimal (n : Nat) : IsField (decimal n) :=
  ⟨fun h => absurd (isDigit_of_mem_decimal h) (by decide),
    fun h => absurd (isDigit_of_mem_decimal h) (by decide)⟩

theorem isField_hexEncode (bs : List UInt8) : IsField (hexEncode bs) :=
  ⟨fun h => absurd (isHexDigit_of_mem_hexEncode h) (by decide),
    fun h => absurd (isHexDigit_of_mem_hexEncode h) (by decide)⟩

theorem isField_modeText (m : PayloadSumMode) : IsField (modeText m) := by
  cases m <;> exact ⟨by decide, by decide⟩

theorem isField_kernelName : IsField kernelName := ⟨by decide, by decide⟩

theorem isField_initrdName : IsField initrdName := ⟨by decide, by decide⟩

/-- Fields with spaces between them split back into the fields. -/
theorem splitOn_fields (hne : fs ≠ []) (h : ∀ f ∈ fs, IsField f) :
    ([0x20].intercalate fs).splitOn 0x20 = fs :=
  splitOn_intercalate 0x20 (fun f hf => (h f hf).1) hne

/-- Fields with spaces between them are one line. -/
theorem newline_notMem_fields (h : ∀ f ∈ fs, IsField f) :
    0x0A ∉ [0x20].intercalate fs := by
  induction fs with
  | nil => simp
  | cons f fs ih =>
    have hf := (h f mem_cons_self).2
    have hfs := ih fun g hg => h g (mem_cons_of_mem _ hg)
    cases fs with
    | nil => simpa using hf
    | cons g fs =>
      rw [intercalate_cons_cons]
      simp only [mem_append, not_or]
      exact ⟨⟨hf, by decide⟩, hfs⟩

/-! ### One entry -/

/-- An entry whose numbers fit the file. -/
structure Fits (e : Entry) : Prop where
  size_lt : e.size < 2 ^ 32
  offset_le : e.offset ≤ e.size

theorem parseDec_decimal {n : Nat} (h : n < 2 ^ 32) : parseDec (decimal n) = some n := by
  have hlen : (decimal n).length ≤ 10 := length_decimal_le (by decide) (by omega)
  have hdigits : (decimal n).all isDigit = true :=
    all_eq_true.2 fun c hc => isDigit_of_mem_decimal hc
  rw [parseDec, if_neg, ofDecimal_decimal, if_pos h]
  simp [decimal_ne_nil, hdigits, Nat.not_lt.2 hlen]

theorem digestOf_toList (d : Sha256.Digest) : digestOf d.toList = some d := by
  rw [digestOf, dif_pos d.length_toList]
  simp [Vector.toList]

/-- The digits of a digest are lower-case already. -/
theorem lower_hexEncode (bs : List UInt8) : (hexEncode bs).map lower = hexEncode bs := by
  have hlower : ∀ c : UInt8, isHexDigit c = true → lower c = c := by
    intro c hc
    refine if_neg fun h => ?_
    simp only [isHexDigit, decide_eq_true_eq, UInt8.le_iff_toNat_le] at hc h
    have : (0x39 : UInt8).toNat = 0x39 := rfl
    have : (0x41 : UInt8).toNat = 0x41 := rfl
    have : (0x5A : UInt8).toNat = 0x5A := rfl
    have : (0x61 : UInt8).toNat = 0x61 := rfl
    omega
  refine map_congr_left (fun c hc => hlower c (isHexDigit_of_mem_hexEncode hc)) |>.trans ?_
  exact map_id _

theorem parseEntry_fields (name : List UInt8) (h : Fits e) :
    parseEntry [name, decimal e.size, decimal e.offset, hexEncode e.sha256.toList] = some e := by
  have hoffset : e.offset < 2 ^ 32 := Nat.lt_of_le_of_lt h.offset_le h.size_lt
  simp [parseEntry, parseDec_decimal h.size_lt, parseDec_decimal hoffset, hexDecode_hexEncode,
    digestOf_toList, lower_hexEncode, Nat.not_lt.2 h.offset_le]

/-- The fields of a line of a file. -/
theorem isField_entry (hname : IsField name) (e : Entry) :
    ∀ f ∈ [name, decimal e.size, decimal e.offset, hexEncode e.sha256.toList], IsField f := by
  simp only [forall_mem_cons, not_mem_nil, false_imp_iff, implies_true, and_true]
  exact ⟨hname, isField_decimal _, isField_decimal _, isField_hexEncode _⟩

theorem splitOn_entryLine (hname : IsField name) (e : Entry) :
    (entryLine name e).splitOn 0x20
      = [name, decimal e.size, decimal e.offset, hexEncode e.sha256.toList] :=
  splitOn_fields (by simp) (isField_entry hname e)

theorem decodeLine_kernel {m : Partial} (hm : m.kernel = none) (h : Fits e) :
    decodeLine m (entryLine kernelName e) = .ok { m with kernel := some e } := by
  have hmode : kernelName ≠ ascii "MODE" := by decide
  simp [decodeLine, splitOn_entryLine isField_kernelName, hmode, hm, parseEntry_fields _ h]

theorem decodeLine_initrd {m : Partial} (hm : m.initrd = none) (h : Fits e) :
    decodeLine m (entryLine initrdName e) = .ok { m with initrd := some e } := by
  have hmode : initrdName ≠ ascii "MODE" := by decide
  have hkernel : initrdName ≠ kernelName := by decide
  simp [decodeLine, splitOn_entryLine isField_initrdName, hmode, hkernel, hm, parseEntry_fields _ h]

theorem validMode_modeText (mode : PayloadSumMode) : validMode (modeText mode) = some mode := by
  cases mode <;> decide

theorem isField_mode (mode : PayloadSumMode) :
    ∀ f ∈ [ascii "MODE", modeText mode], IsField f := by
  simp only [forall_mem_cons, not_mem_nil, false_imp_iff, implies_true, and_true]
  exact ⟨⟨by decide, by decide⟩, isField_modeText mode⟩

theorem decodeLine_mode (m : Partial) (mode : PayloadSumMode) :
    decodeLine m ([0x20].intercalate [ascii "MODE", modeText mode]) = .ok { m with mode } := by
  rw [decodeLine, splitOn_fields (by simp) (isField_mode mode)]
  simp [validMode_modeText]

/-! ### The whole manifest -/

theorem length_entryLine_le (hname : name.length = 6) (h : Fits e) :
    (entryLine name e).length ≤ 93 := by
  have hsize : (decimal e.size).length ≤ 10 :=
    length_decimal_le (by decide) (Nat.lt_of_lt_of_le h.size_lt (by decide))
  have hoffset : (decimal e.offset).length ≤ 10 :=
    length_decimal_le (by decide)
      (Nat.lt_of_le_of_lt h.offset_le (Nat.lt_of_lt_of_le h.size_lt (by decide)))
  have hsum : (hexEncode e.sha256.toList).length = 64 := by
    rw [length_hexEncode, Vector.length_toList]
  simp only [entryLine, intercalate_cons_cons, intercalate_singleton, length_append,
    length_singleton, hname, hsum]
  omega

theorem length_modeText_le (mode : PayloadSumMode) : (modeText mode).length ≤ 7 := by
  cases mode <;> decide

theorem length_encode_le (hk : Fits m.kernel) (hi : Fits m.initrd) :
    (encode m).length ≤ maxBytes := by
  have hkernel : (entryLine kernelName m.kernel).length ≤ 93 := length_entryLine_le rfl hk
  have hinitrd : (entryLine initrdName m.initrd).length ≤ 93 := length_entryLine_le rfl hi
  have hmode := length_modeText_le m.mode
  have hheader : header.length = 28 := rfl
  have hword : (ascii "MODE").length = 4 := rfl
  simp only [encode, manifestLines, flatMap_cons, flatMap_nil, length_append,
    intercalate_cons_cons, intercalate_singleton, length_singleton, length_nil,
    hheader, hword, maxBytes]
  omega

theorem newline_notMem_manifestLines (m : Manifest) : ∀ l ∈ manifestLines m, 0x0A ∉ l := by
  simp only [manifestLines, forall_mem_cons, not_mem_nil, false_imp_iff, implies_true,
    and_true]
  exact ⟨by decide, newline_notMem_fields (isField_mode m.mode),
    newline_notMem_fields (isField_entry isField_kernelName m.kernel),
    newline_notMem_fields (isField_entry isField_initrdName m.initrd)⟩

/-- The round trip through the text of CHECKSUM. -/
theorem decode_encode (hk : Fits m.kernel) (hi : Fits m.initrd) :
    decode (encode m) = .ok m := by
  have hne : manifestLines m ≠ [] := by simp [manifestLines]
  have hlines : (encode m).dropLast.splitOn 0x0A = manifestLines m := by
    rw [encode, dropLast_lines 0x0A hne]
    exact splitOn_intercalate 0x0A (newline_notMem_manifestLines m) hne
  have hlast : (encode m).getLast? = some 0x0A := getLast?_lines 0x0A hne
  rw [decode, if_neg (Nat.not_lt.2 (length_encode_le hk hi)), if_neg (not_not.2 hlast), hlines]
  simp only [manifestLines, ne_eq, not_true_eq_false, if_false, foldlM_cons, foldlM_nil,
    decodeLine_mode, decodeLine_kernel, decodeLine_initrd, hk, hi, ok_bind]
  rfl

/-! ### What `Generate` writes -/

/-- A CHECKSUM that decodes and describes the two files: `Verify` gives no error. -/
def Describes (raw kernel initrd : List UInt8) : Prop :=
  ∃ m, decode raw = .ok m ∧ verify m kernel initrd = []

theorem kernelRamOffset_lt (h : kernelRamOffset kernel = .ok off) :
    off < kernel.length := by
  unfold kernelRamOffset at h
  split_ifs at h with _ hlt
  obtain rfl := Except.ok.inj h
  exact Nat.not_le.1 hlt

theorem entryFor_eq_ok {data : List UInt8} {offset : Nat} (h : entryFor data offset = .ok e) :
    data.length < 2 ^ 32 ∧ e = ⟨data.length, offset, Sha256.digest (data.drop offset)⟩ := by
  unfold entryFor at h
  split_ifs at h with hlen
  exact ⟨by omega, (Except.ok.inj h).symm⟩

theorem verifyEntry_self (name data : List UInt8) (offset : Nat) :
    verifyEntry name ⟨data.length, offset, Sha256.digest (data.drop offset)⟩ data offset = [] := by
  simp [verifyEntry]

/-- What `New` computes, and that it fits. -/
theorem new_eq_ok (h : new kernel initrd mode = .ok m) :
    Fits m.kernel ∧ Fits m.initrd ∧ verify m kernel initrd = [] := by
  unfold new at h
  split at h
  · cases h
  · obtain ⟨off, hoff, h⟩ := bind_eq_ok.1 h
    obtain ⟨k, hk, h⟩ := bind_eq_ok.1 h
    obtain ⟨i, hi, h⟩ := bind_eq_ok.1 h
    obtain ⟨hklen, rfl⟩ := entryFor_eq_ok hk
    obtain ⟨hilen, rfl⟩ := entryFor_eq_ok hi
    obtain rfl := pure_eq_ok.1 h
    refine ⟨⟨hklen, (kernelRamOffset_lt hoff).le⟩, ⟨hilen, Nat.zero_le _⟩, ?_⟩
    simp only [verify, hoff, verifyEntry_self, append_nil]

/-- A CHECKSUM describes the payload it was generated from. -/
theorem describes_generate
    (h : generate kernel initrd mode = .ok raw) : Describes raw kernel initrd := by
  obtain ⟨m, hm, h⟩ := bind_eq_ok.1 h
  obtain rfl := pure_eq_ok.1 h
  obtain ⟨hk, hi, hverify⟩ := new_eq_ok hm
  exact ⟨m, decode_encode hk hi, hverify⟩

/-- A CHECKSUM records the size of the kernel it was generated from, and fits no other size. -/
theorem not_describes_of_length
    (h : generate kernel initrd mode = .ok raw) {kernel' initrd' : List UInt8}
    (hlen : kernel'.length ≠ kernel.length) : ¬ Describes raw kernel' initrd' := by
  rintro ⟨m', hdecode, hverify⟩
  obtain ⟨m, hm, h⟩ := bind_eq_ok.1 h
  obtain rfl := pure_eq_ok.1 h
  obtain ⟨hk, hi, hself⟩ := new_eq_ok hm
  obtain rfl : m = m' := Except.ok.inj ((decode_encode hk hi).symm.trans hdecode)
  have hsize : ∀ k i, verify m k i = [] → k.length = m.kernel.size := by
    intro k i hv
    unfold verify at hv
    split at hv
    · cases hv
    · by_contra hne
      rw [verifyEntry, if_pos hne] at hv
      simp at hv
  exact hlen ((hsize _ _ hverify).trans (hsize _ _ hself).symm)

/-- The manifest of a bzImage that fits the format. -/
theorem new_eq (hoff : kernelRamOffset kernel = .ok off)
    (hkernel : kernel.length ≤ 0xffffffff) (hinitrd : initrd.length ≤ 0xffffffff)
    (mode : PayloadSumMode) : new kernel initrd (modeText mode)
      = .ok ⟨⟨kernel.length, off, Sha256.digest (kernel.drop off)⟩,
          ⟨initrd.length, 0, Sha256.digest (initrd.drop 0)⟩, mode⟩ := by
  have hk : entryFor kernel off = .ok ⟨kernel.length, off, Sha256.digest (kernel.drop off)⟩ :=
    if_neg (Nat.not_lt.2 hkernel)
  have hi : entryFor initrd 0 = .ok ⟨initrd.length, 0, Sha256.digest (initrd.drop 0)⟩ :=
    if_neg (Nat.not_lt.2 hinitrd)
  simp only [new, validMode_modeText, hoff, hk, hi, ok_bind, pure_eq_ok]

/-- The two manifests exist for every bzImage that fits the format. -/
theorem exists_generate (hoff : kernelRamOffset kernel = .ok off)
    (hkernel : kernel.length ≤ 0xffffffff) (hinitrd : initrd.length ≤ 0xffffffff)
    (mode : PayloadSumMode) :
    (∃ raw, generate kernel initrd (modeText mode) = .ok raw)
      ∧ ∃ raw, generateBlkSum kernel initrd = .ok raw := by
  constructor
  · rw [generate, new_eq hoff hkernel hinitrd mode, ok_bind]
    exact ⟨_, rfl⟩
  · rw [generateBlkSum, hoff, ok_bind, if_neg (by omega)]
    exact ⟨_, rfl⟩

end ZfsBoot.Proofs.Tool.PayloadSum
