import ZfsBoot.Lib.Fields
import ZfsBoot.Proofs.Init.EspMember
import ZfsBoot.Proofs.Tool.Cmdline
import ZfsBoot.Proofs.Tool.Smooth

/-!
# `ZfsBoot.Proofs.Tool.Settings`: the integrity mode of a member, across an update

stage2 applies the mode that the first `alpine-zfsboot.integrity=` word of CMDLINE names, or else
the one of CHECKSUM (`appliedMode`). An update takes the second over from the installed CHECKSUM.
The first it loses: the new CMDLINE is the one of the release, with the tool's own words.
-/

set_option autoImplicit false

namespace ZfsBoot.Proofs.Tool.Settings

open List
open Lib Lib.Halting ZfsBoot.Tool ZfsBoot.Tool.Mirror ZfsBoot.Tool.PayloadSum
open ZfsBoot.Tool.Cmdline hiding integrityKey
open Tool Proofs.Tool.Cmdline Tool.BiosUpdate
open Tool.Footprint
open Proofs.Tool.Marker (readContent_run)
open Bios (PayloadSumMode ascii)
open Stage2 (firstValue modeNamed integrityKey effectiveMode)

variable {files : EspFiles} {f : EspFile} {a : BiosAssets} {n : NewPayload} {mode : PayloadSumMode}
  {key content w v : Bytes} {env : Machine} {h : Host} {opts : BiosOpts} {m : Esp}

/-! ### What stage2 applies -/

/-- The mode that the command line names: its first word of the key counts, if it is valid. -/
def wordMode (content : Bytes) : Option PayloadSumMode :=
  (firstValue integrityKey (loaderLine content)).bind modeNamed

/-- The mode of a boot from these files. -/
def appliedMode (files : EspFiles) : PayloadSumMode :=
  ((files .cmdline).bind wordMode).getD (modeOn (files .payloadSum))

/-- It is the one of stage2, with the manifest's mode. -/
theorem appliedMode_eq_effectiveMode (h : files .cmdline = some content) :
    appliedMode files = effectiveMode (loaderLine content) (modeOn (files .payloadSum)) := by
  rw [appliedMode, h]
  rfl

theorem appliedMode_of_none (h : (files .cmdline).bind wordMode = none) :
    appliedMode files = modeOn (files .payloadSum) := by
  rw [appliedMode, h]
  rfl

/-! ### Words that are not there -/

/-- No word of a text starts with a key. -/
def NoWord (key text : Bytes) : Prop := ∀ w ∈ fields text, ¬ key <+: w

theorem plain_integrityKey : Plain integrityKey := by
  show ∀ c ∈ integrityKey, 0x21 ≤ c ∧ c ≤ 0x7E
  decide +kernel

theorem loaderLine_isPrefix (content : Bytes) : loaderLine content <+: content := by
  refine (List.takeWhile_prefix _).trans ?_
  unfold stripNewline
  split
  · exact List.dropLast_prefix content
  · exact prefix_rfl

/-- A word at the start of a text starts a word of the text. -/
theorem exists_mem_splitOn_of_prefix {p s : Bytes} (hp : p <+: s) (hw : w ∈ p.splitOn 0x20)
    (hstart : key <+: w) : ∃ w' ∈ s.splitOn 0x20, key <+: w' := by
  obtain ⟨q, rfl⟩ := hp
  obtain ⟨init, last, first, tail, hsplit, -, happend⟩ := splitOn_append 0x20 p q
  rw [hsplit, mem_append, mem_singleton] at hw
  rw [happend]
  rcases hw with hw | rfl
  · exact ⟨w, mem_append_left _ hw, hstart⟩
  · exact ⟨w ++ first, mem_append_right _ mem_cons_self,
      hstart.trans (prefix_append _ _)⟩

/-- So stage2 finds no value for it. -/
theorem NoWord.firstValue_eq_none (h : NoWord key content) (hkey : Plain key)
    (hne : key ≠ []) : firstValue key (loaderLine content) = none := by
  rw [firstValue, Option.map_eq_none_iff, List.find?_eq_none]
  intro w hw hstart
  obtain ⟨w', hw', hstart'⟩ := exists_mem_splitOn_of_prefix (loaderLine_isPrefix content) hw
    (List.isPrefixOf_iff_prefix.1 hstart)
  obtain ⟨f, hf, hf'⟩ := exists_mem_fields hkey hne hw' hstart'
  exact h f hf hf'

theorem NoWord.wordMode_eq_none (h : NoWord integrityKey content) :
    wordMode content = none := by
  rw [wordMode, h.firstValue_eq_none plain_integrityKey (by decide)]
  rfl

/-! ### The words of an edited CMDLINE -/

theorem newline_mem_spaces : [0x0A] ∈ spaces := by decide

theorem fields_line_append (line raw : Bytes) :
    fields (line ++ afterFirstLine raw) = fields line ++ fields (afterFirstLine raw) := by
  cases hrest : afterFirstLine raw with
  | nil => rw [append_nil, show fields [] = [] from rfl, append_nil]
  | cons c rest =>
    obtain rfl : c = 0x0A := newline_of_head_afterFirstLine (by rw [hrest]; rfl)
    have hfirst := fields_append_space newline_mem_spaces [] rest
    rw [nil_append, show fields [] = [] from rfl, nil_append] at hfirst
    rw [fields_append_space newline_mem_spaces, hfirst]

theorem fields_eq_firstLine (raw : Bytes) :
    fields raw = fields (firstCmdlineLine raw) ++ fields (afterFirstLine raw) := by
  rw [← fields_line_append, firstLine_append]

theorem fields_trimRight (line : Bytes) : fields (trimRight line) = fields line := by
  induction line using List.reverseRecOn with
  | nil => rfl
  | append_singleton line c ih =>
    by_cases hc : c = 0x20
    · subst hc
      rw [trimRight, rdropWhile_concat_pos _ _ _ (by simp), fields_append_space (by decide),
        show fields [] = [] from rfl, append_nil]
      exact ih
    · rw [trimRight, rdropWhile_concat_neg _ _ _ (by simpa using hc)]

/-- `setCmdlineWord` adds its own word and no other. -/
theorem mem_fields_setCmdlineWord {raw value : Bytes} (hkey : Plain key)
    (hvalue : Spaceless value) (hw : w ∈ fields (setCmdlineWord raw key value)) :
    w ∈ fields raw ∨ key <+: w := by
  rw [setCmdlineWord, fields_line_append, fields_intercalate, mem_append] at hw
  rw [fields_eq_firstLine, mem_append]
  rcases hw with hw | hw
  · obtain ⟨p, hp, hw⟩ := mem_flatMap.1 hw
    have hcases : p ∈ fields (firstCmdlineLine raw) ∨ p = key ++ value := by
      split_ifs at hp
      · rw [mem_append, mem_singleton] at hp
        exact hp.imp_left mem_of_mem_filter
      · exact .inl (mem_of_mem_filter hp)
    rcases hcases with hp | rfl
    · obtain ⟨hword, hne⟩ := spaceless_of_mem_fields hp
      rw [fields_of_spaceless hword hne, mem_singleton] at hw
      exact .inl (.inl (hw ▸ hp))
    · have hword := Spaceless.plain_append hkey hvalue
      by_cases hne : key ++ value = []
      · rw [hne] at hw
        cases hw
      · rw [fields_of_spaceless hword hne, mem_singleton] at hw
        exact .inr (hw ▸ prefix_append _ _)
  · exact .inl (.inr hw)

/-- `setCmdlineInt13Chunk` does the same. -/
theorem mem_fields_setCmdlineInt13Chunk {raw value : Bytes} (hvalue : Spaceless value)
    (hw : w ∈ fields (setCmdlineInt13Chunk raw value)) : w ∈ fields raw ∨ int13ChunkKey <+: w := by
  have hplain : Plain int13ChunkKey := by
    show ∀ c ∈ int13ChunkKey, 0x21 ≤ c ∧ c ≤ 0x7E
    decide +kernel
  have hkept : ∀ p ∈ ((firstCmdlineLine raw).splitOn 0x20).filter
      (fun w => ¬ int13ChunkKey.isPrefixOf w), w ∈ fields p → w ∈ fields raw := by
    intro p hp hw
    rw [fields_eq_firstLine, mem_append, fields_eq_flatMap (firstCmdlineLine raw)]
    exact .inl (mem_flatMap.2 ⟨p, mem_of_mem_filter hp, hw⟩)
  rw [setCmdlineInt13Chunk, fields_line_append, mem_append] at hw
  rcases hw with hw | hw
  · split_ifs at hw
    · rw [append_assoc, cons_append, fields_append_space (by decide), fields_trimRight,
        fields_intercalate, mem_append] at hw
      rcases hw with hw | hw
      · obtain ⟨p, hp, hw⟩ := mem_flatMap.1 hw
        exact .inl (hkept p hp hw)
      · have hword := Spaceless.plain_append hplain hvalue
        rw [fields_of_spaceless hword (by simp [int13ChunkKey, ascii]), mem_singleton] at hw
        exact .inr (hw ▸ prefix_append _ _)
    · rw [fields_intercalate] at hw
      obtain ⟨p, hp, hw⟩ := mem_flatMap.1 hw
      exact .inl (hkept p hp hw)
  · rw [fields_eq_firstLine, mem_append]
    exact .inl (.inr hw)

/-! ### The edit of the transfer cap -/

/-- The first line after `setCmdlineInt13Chunk`. -/
def chunkLine (line value : Bytes) : Bytes :=
  if value ≠ [] then editedLine line value
  else [0x20].intercalate ((line.splitOn 0x20).filter fun w => ¬ int13ChunkKey.isPrefixOf w)

theorem setCmdlineInt13Chunk_eq_chunkLine (raw value : Bytes) :
    setCmdlineInt13Chunk raw value
      = chunkLine (firstCmdlineLine raw) value ++ afterFirstLine raw := rfl

theorem mem_chunkLine {c : UInt8} {line value : Bytes} (h : c ∈ chunkLine line value) :
    c = 0x20 ∨ c ∈ line ∨ c ∈ int13ChunkKey ∨ c ∈ value := by
  have hkept : c ∈ [0x20].intercalate ((line.splitOn 0x20).filter fun w =>
      ¬ int13ChunkKey.isPrefixOf w) → c = 0x20 ∨ c ∈ line := by
    intro h
    refine (mem_intercalate h).imp_right ?_
    rintro ⟨w, hw, hc⟩
    exact mem_of_mem_splitOn (mem_of_mem_filter hw) hc
  unfold chunkLine at h
  split_ifs at h
  · rw [editedLine, mem_append, mem_append, mem_cons] at h
    rcases h with (h | h | h) | h
    · rcases hkept ((List.rdropWhile_prefix _ _).subset h) with h | h
      · exact .inl h
      · exact .inr (.inl h)
    · exact .inl h
    · exact .inr (.inr (.inl h))
    · exact .inr (.inr (.inr h))
  · rcases hkept h with h | h
    · exact .inl h
    · exact .inr (.inl h)

theorem values_chunkLine (hkey : IsKey key) (hne : key ≠ int13ChunkKey) (line : Bytes)
    {value : Bytes} (hvalue : 0x20 ∉ value) :
    values key ((chunkLine line value).splitOn 0x20) = values key (line.splitOn 0x20) := by
  obtain ⟨hsame, hnone⟩ := values_of_other hkey isKey_int13ChunkKey hne (line.splitOn 0x20)
  unfold chunkLine
  split_ifs
  · rw [values_editedLine hkey.ne_nil line hvalue, hsame, hnone, append_nil]
  · rw [values_intercalate hkey.ne_nil, hsame]
    exact fun w hw => notMem_of_mem_splitOn (mem_of_mem_filter hw)

theorem isKey_integrityKey : IsKey integrityKey :=
  ⟨⟨ascii "alpine-zfsboot.integrity", by decide, by decide⟩, by decide, by decide⟩

/-- The edit keeps the mode word, if stage2 reads the first line to its end. -/
theorem wordMode_setCmdlineInt13Chunk {raw value : Bytes} (hnul : 0 ∉ firstCmdlineLine raw)
    (hvalue : ∀ c ∈ value, isDigit c = true) :
    wordMode (setCmdlineInt13Chunk raw value) = wordMode raw := by
  have hdigit : ∀ c : UInt8, isDigit c = false → c ∉ value := by
    intro c hc hmem
    rw [hvalue c hmem] at hc
    cases hc
  have hline := newline_notMem_firstLine raw
  have hother : ∀ c : UInt8, c ≠ 0x20 → c ∉ int13ChunkKey → isDigit c = false →
      c ∉ firstCmdlineLine raw → c ∉ chunkLine (firstCmdlineLine raw) value := by
    intro c h20 hkey hc hold hnew
    rcases mem_chunkLine hnew with h | h | h | h
    · exact h20 h
    · exact hold h
    · exact hkey h
    · exact hdigit c hc h
  have hnew := firstValue_line isKey_integrityKey raw
    (hother 0 (by decide) (by decide) (by decide) hnul)
    (hother 0x0A (by decide) (by decide) (by decide) hline)
  have hold := firstValue_line isKey_integrityKey raw hnul hline
  rw [firstLine_append] at hold
  rw [wordMode, wordMode, setCmdlineInt13Chunk_eq_chunkLine, hnew, hold,
    values_chunkLine isKey_integrityKey (by decide) _ (hdigit 0x20 (by decide))]

/-! ### The new CMDLINE -/

theorem spaceless_of_digits (h : ∀ c ∈ v, isDigit c = true) : Spaceless v := by
  have hbyte : ∀ c : UInt8, isDigit c = true → 0x21 ≤ c ∧ c ≤ 0x7E := forall_uint8 (by decide +kernel)
  exact spaceless_of_plain fun c hc => hbyte c (h c hc)

/-- The tool writes the transfer cap in digits. -/
theorem isDigit_of_parseInt13Chunk {value : Bytes} (h : parseInt13Chunk v = some value) :
    ∀ c ∈ value, isDigit c = true := by
  unfold parseInt13Chunk at h
  split_ifs at h
  · cases h
    exact fun c hc => absurd hc not_mem_nil
  · split at h
    · cases h
    · split_ifs at h
      cases h
      exact fun c hc => isDigit_of_mem_decimal hc

theorem spaceless_cmdlineValue (line key : Bytes) : Spaceless (Cmdline.cmdlineValue line key) := by
  unfold Cmdline.cmdlineValue
  rcases hlast : ((fields (firstCmdlineLine line)).filter key.isPrefixOf).getLast? with _ | w
  · exact spaceless_nil
  · have hw := mem_of_mem_filter (mem_of_getLast? hlast)
    exact (spaceless_of_mem_fields hw).1.suffix (drop_suffix _ _)

theorem spaceless_cmdlineInt13Chunk (cmd : Bytes) : Spaceless (cmdlineInt13Chunk cmd).1 := by
  unfold cmdlineInt13Chunk firstMatch
  rcases hfind : (fields (firstCmdlineLine cmd)).find? int13ChunkKey.isPrefixOf with _ | w
  · exact spaceless_nil
  · exact (spaceless_of_mem_fields (mem_of_find?_eq_some hfind)).1.suffix (drop_suffix _ _)

/-- The list that the user gives is a list of UUIDs. -/
def ListsUuids (h : Host) : Prop :=
  ∀ list, h.explicitList = some list → ∀ e ∈ list, ∃ u : FatUuid, e = u.val

theorem spaceless_joinList {list : List Bytes} (h : ∀ e ∈ list, ∃ u : FatUuid, e = u.val) :
    Spaceless (joinList list) := by
  refine spaceless_of_plain fun c hc => ?_
  rcases mem_intercalate hc with rfl | ⟨e, he, hc⟩
  · decide
  · obtain ⟨u, rfl⟩ := h e he
    exact ZfsBoot.Proofs.Init.plain_of_isFatUuid u.isFatUuid_val c hc

theorem explicitList_addEsp {forceAdopt : Bool} {h' : Host} {arg : Bytes}
    (hadd : addEsp env forceAdopt h arg = .ok h') : h'.explicitList = h.explicitList := by
  unfold addEsp at hadd
  dsimp only at hadd
  split_ifs at hadd
  · cases hadd
    rfl
  · split at hadd
    · cases hadd
    · split_ifs at hadd
      · cases hadd
        rfl
      · cases hadd
        rfl

/-- So it is on every host that `update` works on. -/
theorem listsUuids_of_updateSet {o : UpdateOpts}
    (hset : updateSet env o = .ok h) : ListsUuids h := by
  have hadded : ∀ (args : List Bytes) (h₀ h₁ : Host),
      args.foldlM (addEsp env o.host.forceAdopt) h₀ = .ok h₁ → h₁.explicitList = h₀.explicitList := by
    intro args
    induction args with
    | nil =>
      intro h₀ h₁ hfold
      cases hfold
      rfl
    | cons arg args ih =>
      intro h₀ h₁ hfold
      rw [foldlM_cons] at hfold
      obtain ⟨h₂, hone, hrest⟩ := Lib.bind_eq_ok.1 hfold
      exact (ih h₂ h₁ hrest).trans (explicitList_addEsp hone)
  unfold updateSet at hset
  split at hset
  · cases hset
  · rename_i h₀ hdiscover
    split at hset
    · cases hset
    · rename_i h₁ hadd
      split at hset
      · cases hset
      · cases hset
        have hlist : h.explicitList = h₀.explicitList := by
          unfold addEsps at hadd
          split_ifs at hadd
          · cases hadd
            rfl
          · exact hadded _ _ _ hadd
        unfold discoverHost at hdiscover
        split at hdiscover
        · cases hdiscover
        · cases hdiscover
          intro list hl e he
          rw [hlist] at hl
          split_ifs at hl
          cases hl
          obtain ⟨u, -, rfl⟩ := mem_map.1 he
          exact ⟨u, rfl⟩

/-- A key that the tool edits, other than the mode's. -/
structure OwnKey (key : Bytes) : Prop where
  isKey : IsKey key
  plain : Plain key
  ne_integrityKey : integrityKey ≠ key

theorem ownKey_int13ChunkKey : OwnKey int13ChunkKey := by
  refine ⟨isKey_int13ChunkKey, ?_, by decide⟩
  show ∀ c ∈ int13ChunkKey, 0x21 ≤ c ∧ c ≤ 0x7E
  decide +kernel

theorem ownKey_espUuidsWord : OwnKey espUuidsWord := by
  refine ⟨⟨⟨ascii "alpine-zfsboot.esp-uuids", by decide, by decide⟩, by decide, by decide⟩, ?_, by decide⟩
  show ∀ c ∈ espUuidsWord, 0x21 ≤ c ∧ c ≤ 0x7E
  decide +kernel

theorem ownKey_espSelfWord : OwnKey espSelfWord := by
  refine ⟨⟨⟨ascii "alpine-zfsboot.esp-self", by decide, by decide⟩, by decide, by decide⟩, ?_, by decide⟩
  show ∀ c ∈ espSelfWord, 0x21 ≤ c ∧ c ≤ 0x7E
  decide +kernel

section

variable {raw value : Bytes}

theorem NoWord.setCmdlineWord (h : NoWord integrityKey raw) (hkey : OwnKey key)
    (hvalue : Spaceless value) : NoWord integrityKey (setCmdlineWord raw key value) := by
  intro w hw hstart
  rcases mem_fields_setCmdlineWord hkey.plain hvalue hw with hw | hw
  · exact h w hw hstart
  · exact hkey.ne_integrityKey (isKey_integrityKey.unique hkey.isKey hstart hw)

theorem NoWord.setCmdlineInt13Chunk (h : NoWord integrityKey raw) (hvalue : Spaceless value) :
    NoWord integrityKey (setCmdlineInt13Chunk raw value) := by
  intro w hw hstart
  rcases mem_fields_setCmdlineInt13Chunk hvalue hw with hw | hw
  · exact h w hw hstart
  · exact ownKey_int13ChunkKey.ne_integrityKey
      (isKey_integrityKey.unique isKey_int13ChunkKey hstart hw)

end

section

variable {P : Run → Prop} {c : Bytes}

theorem applyInt13Chunk_noWord (mp : String) (opts : BiosOpts) (hc : NoWord integrityKey c) :
    Triple P (applyInt13Chunk mp opts c) (fun c' _ => NoWord integrityKey c') fun _ _ => True := by
  refine triple_ite (fun _ => ?_) fun _ => ?_
  · refine triple_bind (fun v _ => ∀ d ∈ v, isDigit d = true) (triple_ofExcept ?_ fun _ _ _ _ => trivial)
      fun v => triple_pure fun _ hv => hc.setCmdlineInt13Chunk (spaceless_of_digits hv)
    intro v hv _ _
    rw [int13ChunkArg] at hv
    split at hv
    · rename_i value hvalue
      cases hv
      exact isDigit_of_parseInt13Chunk hvalue
    · cases hv
  · refine triple_bind _ (triple_true _) fun raw => triple_pure fun _ _ => ?_
    show NoWord integrityKey (if (cmdlineInt13Chunk raw.orEmpty).2 = true then _ else c)
    split_ifs
    · exact hc.setCmdlineInt13Chunk (spaceless_cmdlineInt13Chunk _)
    · exact hc

theorem cmdlineFrom_noWord (src : Option Esp) (opts : BiosOpts) (installed : Bytes)
    (hc : NoWord integrityKey c) :
    Triple P (cmdlineFrom src opts c installed) (fun r _ => NoWord integrityKey r.1)
      fun _ _ => True := by
  unfold cmdlineFrom
  split
  · refine triple_bind _ (triple_true _) fun raw => triple_pure fun _ _ => ?_
    show NoWord integrityKey (if opts.int13chunk = [] ∧ _ then _ else c)
    split_ifs
    · exact hc.setCmdlineWord ownKey_int13ChunkKey (spaceless_cmdlineValue _ _)
    · exact hc
  · exact triple_pure fun _ _ => hc

/-- `prepareBios` adds only the tool's own words. -/
theorem prepareBios_noWord (env : Machine) (m : Esp) (src : Option Esp) (a : BiosAssets)
    (opts : BiosOpts) (hlists : ListsUuids h) (hword : NoWord integrityKey a.cmdline) :
    Triple P (prepareBios env h m src a opts) (fun c _ => NoWord integrityKey c)
      fun _ _ => True := by
  refine triple_bind _ (triple_true _) fun _ => triple_bind _ (triple_true _) fun _ => ?_
  refine triple_bind _ (triple_true _) fun _ => ?_
  refine triple_bind _ (applyInt13Chunk_noWord m.mountpoint opts hword) fun c => ?_
  refine ⟨fun s hc => ?_⟩
  refine Triple.ends (P := fun _ => True) ?_ s trivial
  refine triple_bind _ (triple_true _) fun installed => ?_
  refine triple_bind _ (cmdlineFrom_noWord (otherThan m src) opts installed.orEmpty hc) fun r => ?_
  refine ⟨fun s hr => ?_⟩
  refine Triple.ends (P := fun _ => True) ?_ s trivial
  refine triple_bind _ (triple_true _) fun _ => triple_pure fun _ _ => ?_
  have huuid : Spaceless m.info.uuid.val :=
    spaceless_of_plain (ZfsBoot.Proofs.Init.plain_of_isFatUuid m.info.uuid.isFatUuid_val)
  refine (hr.setCmdlineWord ownKey_espUuidsWord ?_).setCmdlineWord ownKey_espSelfWord huuid
  split
  · rename_i list hlist
    exact spaceless_joinList (hlists list hlist)
  · exact spaceless_cmdlineValue _ _

end

/-! ### The read of CHECKSUM -/

/-- An event that is a read of CHECKSUM on `mp` has read it. -/
def ReadOk (mp : String) (ev : Event Op World) : Prop :=
  ev.op.action = .readFile mp .payloadSum → ev.fate = .done

/-- If `x` ends with a value, it has read CHECKSUM on `mp` each time it asked for it. -/
abbrev Sure {ε α : Type} (mp : String) (x : ToolM ε α) : Prop := Asks (fun _ => True) (ReadOk mp) x

section

variable {ε : Type} {mp : String}

/-- What stops at the first failure is sure. -/
theorem sure_of_uses {α : Type} {A : Action → Prop} {x : ToolM ε α} (h : Uses A x) : Sure mp x :=
  h.mono (fun _ _ => trivial) fun _ _ hdone _ => hdone

theorem demand_sure (e : ε) (op : Op) : Sure mp (demand e op : ToolM ε Unit) :=
  asks_demand (fun _ _ => trivial) fun _ _ => rfl

/-- Only a file that may be missing or unreadable is another matter. -/
theorem readContent_sure (part : Part) (mp' : String) (hf : f ≠ .payloadSum) :
    Sure mp (readContent part mp' f : ToolM ε Content) := by
  have hread : Asks (fun ev : Event Op World => ev.op.action = .readFile mp' f)
      (fun ev => ev.op.action = .readFile mp' f) (readContent part mp' f : ToolM ε Content) := by
    refine asks_bind (asks_outcome (asks_observe (fun _ _ => rfl) fun _ => rfl) fun _ h => h) fun r => ?_
    rcases r with _ | _ | b <;> exact asks_pure _
  refine hread.mono (fun _ _ => trivial) fun ev h _ hsum => ?_
  rw [h, Action.readFile.injEq] at hsum
  exact absurd hsum.2 hf

theorem checkUpdateEligible_sure (disk : String) : Sure mp (checkUpdateEligible disk) :=
  asks_bind (asks_bind (asks_bind (sure_of_uses (openDisk_uses ..)) fun _ =>
    sure_of_uses (readDisk_uses ..)) fun _ => asks_pure _) fun _ => asks_require _ _

theorem checkBiosUpToDate_sure (mp' : String) (stamp : Bytes) :
    Sure mp (checkBiosUpToDate mp' stamp : ToolM ε Bool) := by
  refine asks_bind (readContent_sure .write mp' (by decide)) fun content => ?_
  cases content with
  | bytes raw => exact asks_pure _
  | absent => exact asks_pure _
  | unreadable => exact asks_pure _

theorem prepareBios_sure (env : Machine) (h : Host) (m : Esp) (src : Option Esp) (a : BiosAssets)
    (opts : BiosOpts) : Sure mp (prepareBios env h m src a opts) := by
  have hchunk : Sure mp (applyInt13Chunk m.mountpoint opts a.cmdline) := by
    refine asks_ite (fun _ => ?_) fun _ => ?_
    · exact asks_bind (asks_ofExcept _) fun _ => asks_pure _
    · exact asks_bind (readContent_sure .write _ (by decide)) fun _ => asks_pure _
  have hfrom : ∀ c installed, Sure mp (cmdlineFrom (otherThan m src) opts c installed) := by
    intro c installed
    unfold cmdlineFrom
    split
    · exact asks_bind (readContent_sure .write _ (by decide)) fun _ => asks_pure _
    · exact asks_pure _
  refine asks_bind (asks_ofExcept _) fun _ => asks_bind (asks_ofExcept _) fun _ => ?_
  refine asks_bind (asks_require _ _) fun _ => asks_bind hchunk fun c => ?_
  refine asks_bind (readContent_sure .write _ (by decide)) fun installed => ?_
  exact asks_bind (hfrom c _) fun _ => asks_bind (asks_require _ _) fun _ => asks_pure _

end

/-- A read of CHECKSUM on `mp` failed. -/
def ReadFailed (mp : String) (evs : List (Event Op World)) : Prop :=
  ∃ ev ∈ evs, ev.op.action = .readFile mp .payloadSum ∧ ev.fate ≠ .done

section

variable {ε α : Type} {mp : String} {x : ToolM ε α} {s s' : Run}

theorem Sure.readFailed_iff {a : α} (hx : Sure mp x) (h : x s = (.ok a, s')) :
    ReadFailed mp s'.events ↔ ReadFailed mp s.events := by
  obtain ⟨new, hevents, -, -, hok⟩ := hx.ends s
  rw [h] at hevents hok
  constructor
  · rintro ⟨ev, hev, hop, hfate⟩
    rw [show s'.events = new ++ s.events from hevents, mem_append] at hev
    rcases hev with hev | hev
    · exact absurd (hok ⟨a, rfl⟩ ev hev hop) hfate
    · exact ⟨ev, hev, hop, hfate⟩
  · rintro ⟨ev, hev, hbad⟩
    refine ⟨ev, ?_, hbad⟩
    rw [show s'.events = new ++ s.events from hevents]
    exact mem_append_right _ hev

theorem now_of_reads {r : Except ε α} (hx : Reads x) (h : x s = (r, s')) : s'.now = s.now := by
  obtain ⟨new, -, hlink, hlooks, -⟩ := hx.ends s
  rw [h] at hlink
  exact now_of_looks hlink hlooks

end

/-! ### A successful update -/

/-- The files of a payload that was written. -/
theorem payload_written {makeMetadata : MetadataMaker} {mp : String} {s s' : Run}
    (hrun : writePayloadWithRollback makeMetadata mp n s = (.ok (), s')) :
    ∃ metadata payloadSum blkSum, makeMetadata n = .ok metadata
      ∧ n.manifests = .ok (payloadSum, blkSum)
      ∧ Payload.Holds mp (Payload.newFiles n metadata payloadSum blkSum) s' := by
  obtain ⟨t, hrun', hok⟩ := (writePayloadWithRollback_uses makeMetadata mp n).isLocal.from_start
    (R := fun r t => r = .ok () → ∃ metadata payloadSum blkSum, makeMetadata n = .ok metadata
      ∧ n.manifests = .ok (payloadSum, blkSum)
      ∧ Payload.Holds mp (Payload.newFiles n metadata payloadSum blkSum) t)
    (fun fate hr => by
      have h := (Payload.writePayloadWithRollback_spec makeMetadata n).ends _
        (Payload.untouched_start mp s.now fate)
      revert h hr
      rcases writePayloadWithRollback makeMetadata mp n (.start fate s.now) with ⟨_ | _, t⟩
      · rintro ⟨⟩
      · rintro - ⟨metadata, payloadSum, blkSum, hmeta, hsums, hwriting⟩
        exact ⟨metadata, payloadSum, blkSum, hmeta, hsums, hwriting.holds⟩) rfl
  rw [hrun] at hrun' hok
  obtain ⟨metadata, payloadSum, blkSum, hmeta, hsums, hholds⟩ := hok rfl
  obtain rfl : s' = s.extend t := (Prod.mk.inj hrun').2
  exact ⟨metadata, payloadSum, blkSum, hmeta, hsums, hholds⟩

/-- The mode of a new CHECKSUM. -/
theorem modeOn_generate {kernel initrd raw : Bytes}
    (h : generate kernel initrd (modeText mode) = .ok raw) : modeOn (some raw) = mode := by
  rw [generate] at h
  obtain ⟨man, hnew, hraw⟩ := Lib.bind_eq_ok.1 h
  cases hraw
  obtain ⟨hk, hi, -⟩ := PayloadSum.new_eq_ok hnew
  have hmode : man.mode = mode := by
    rw [new, PayloadSum.validMode_modeText] at hnew
    obtain ⟨off, -, hnew⟩ := Lib.bind_eq_ok.1 hnew
    obtain ⟨k, -, hnew⟩ := Lib.bind_eq_ok.1 hnew
    obtain ⟨i, -, hnew⟩ := Lib.bind_eq_ok.1 hnew
    cases hnew
    rfl
  rw [modeOn, PayloadSum.decode_encode hk hi]
  exact hmode

theorem modeOn_manifests {payloadSum blkSum : Option Bytes}
    (hmode : n.integrity = modeText mode) (h : n.manifests = .ok (payloadSum, blkSum)) :
    modeOn payloadSum = if n.arch = "x86_64" then mode else .warn := by
  unfold NewPayload.manifests at h
  split_ifs at h ⊢
  · obtain ⟨raw, hraw, h⟩ := Lib.bind_eq_ok.1 h
    obtain ⟨blk, -, h⟩ := Lib.bind_eq_ok.1 h
    cases h
    rcases hgen : generate n.kernel n.initrd n.integrity with _ | raw'
    · rw [hgen] at hraw
      cases hraw
    · rw [hgen] at hraw
      cases hraw
      rw [hmode] at hgen
      exact modeOn_generate hgen
  · cases h
    rfl

/-- `updateIntegrityMode` without `--integrity`: CHECKSUM's mode if it was read, else warn. -/
theorem updateIntegrityMode_run {ε : Type} {mp : String} {s s' : Run} {text : Bytes}
    (hopts : opts.integritySet = false) (hbefore : ¬ ReadFailed mp s.events)
    (hrun : (updateIntegrityMode mp opts : ToolM ε Bytes) s = (.ok text, s')) :
    s'.now = s.now ∧ ∃ mode, text = modeText mode
      ∧ (ReadFailed mp s'.events → mode = .warn)
      ∧ (¬ ReadFailed mp s'.events → mode = modeOn (s.now.files mp .payloadSum)) := by
  have hnow : s'.now = s.now := now_of_reads (updateIntegrityMode_reads mp opts) hrun
  rw [updateIntegrityMode, if_neg (by rw [hopts]; decide), bind_apply, readContent_run] at hrun
  have hevents : ReadFailed mp (s.record ⟨.write, .readFile mp .payloadSum⟩
      (s.fate s.events.length)).events ↔ s.fate s.events.length ≠ .done := by
    rw [Journal.record_events]
    constructor
    · rintro ⟨ev, hev, hop, hfate⟩
      rcases mem_cons.1 hev with rfl | hev
      · exact hfate
      · exact absurd ⟨ev, hev, hop, hfate⟩ hbefore
    · exact fun hfate => ⟨_, mem_cons_self, rfl, hfate⟩
  refine ⟨hnow, ?_⟩
  by_cases hfate : s.fate s.events.length = .done
  · have hread : ¬ ReadFailed mp (s.record ⟨.write, .readFile mp .payloadSum⟩
        (s.fate s.events.length)).events := fun h => hevents.1 h hfate
    simp only [if_pos hfate] at hrun
    rcases hfile : s.now.files mp .payloadSum with _ | raw
    · simp only [hfile, Marker.contentOf] at hrun
      cases hrun
      exact ⟨.warn, rfl, fun _ => rfl, fun _ => rfl⟩
    · simp only [hfile, Marker.contentOf] at hrun
      rw [modeOn]
      rcases hdecode : decode raw with err | man
      · simp only [hdecode] at hrun
        cases hrun
        exact ⟨.warn, rfl, fun _ => rfl, fun _ => rfl⟩
      · simp only [hdecode] at hrun
        cases hrun
        exact ⟨man.mode, rfl, fun h => absurd h hread, fun _ => rfl⟩
  · simp only [if_neg hfate] at hrun
    cases hrun
    exact ⟨.warn, rfl, fun _ => rfl, fun h => absurd (hevents.2 hfate) h⟩

/-- Where an update takes the mode from: a new member has none of its own. -/
def modeSource (m : Esp) (src : Option Esp) (seed : Bool) : String :=
  match otherThan m src with
  | some s => if seed then s.mountpoint else m.mountpoint
  | none => m.mountpoint

/-- The mode that the new CHECKSUM gets is `mode`. -/
structure Takes (env : Machine) (mp : String) (w : World) (evs : List (Event Op World))
    (mode : PayloadSumMode) : Prop where
  read : env.arch = "x86_64" → ¬ ReadFailed mp evs → mode = modeOn (w.files mp .payloadSum)
  warn : env.arch ≠ "x86_64" ∨ ReadFailed mp evs → mode = .warn

/-- What `writeBios` leaves when it succeeds. -/
theorem writeBios_mode {mp : String} {c : Bytes} {s s' : Run} (hopts : opts.integritySet = false)
    (hbefore : ¬ ReadFailed mp s.events) (hrun : writeBios env m mp a opts c s = (.ok (), s')) :
    s'.now.files m.mountpoint .cmdline = some c
      ∧ Takes env mp s.now s'.events (modeOn (s'.now.files m.mountpoint .payloadSum)) := by
  obtain ⟨⟨⟩, s₁, hstages, hrun⟩ := Halting.bind_eq_ok.1 hrun
  obtain ⟨text, s₂, hmode, hpayload⟩ := Halting.bind_eq_ok.1 hrun
  replace hstages := relabel_eq_ok hstages
  replace hpayload := relabel_eq_ok hpayload
  -- the stages leave the files alone
  have hfiles : s₁.now.files mp .payloadSum = s.now.files mp .payloadSum := by
    obtain ⟨new, -, hlink, hconfined, -⟩ := (stages_confined m.disk a.stage1 a.stage2).ends s
    rw [hstages] at hlink
    refine files_of_linked hlink fun ev hev htarget => ?_
    cases hconfined ev hev _ htarget
  have hread₁ : ¬ ReadFailed mp s₁.events := fun h =>
    hbefore (((sure_of_uses (writeBiosStagesWithRollback_uses ..)).readFailed_iff hstages).1 h)
  obtain ⟨-, mode, rfl, hwarn, hread⟩ := updateIntegrityMode_run hopts hread₁ hmode
  have hsame : ReadFailed mp s'.events ↔ ReadFailed mp s₂.events :=
    (sure_of_uses (writePayloadWithRollback_uses ..)).readFailed_iff hpayload
  obtain ⟨metadata, payloadSum, blkSum, -, hsums, hholds⟩ := payload_written hpayload
  have hcmdline := hholds (.cmdline, some c) (by simp [Payload.newFiles])
  have hsum := hholds (.payloadSum, payloadSum) (by simp [Payload.newFiles])
  refine ⟨hcmdline, ?_⟩
  rw [show s'.now.files m.mountpoint .payloadSum = payloadSum from hsum, modeOn_manifests rfl hsums]
  constructor
  · intro harch hok
    rw [if_pos harch, hread fun h => hok (hsame.2 h), hfiles]
  · rintro (harch | hfailed)
    · rw [if_neg harch]
    · split_ifs
      · exact hwarn (hsame.1 hfailed)
      · rfl

/-- What an edit of the transfer cap leaves: the old CMDLINE, or one with another cap. -/
def ChunkEdited (m : Esp) (w w' : World) : Prop :=
  w' = w ∨ ∃ raw value, w.files m.mountpoint .cmdline = some raw ∧ (∀ c ∈ value, isDigit c = true)
    ∧ w' = w.setFile m.mountpoint .cmdline (some (setCmdlineInt13Chunk raw value))

theorem int13ChunkArg_run {value : Bytes} {s s' : Run}
    (hrun : (ofExcept (int13ChunkArg v) : ToolM StepError Bytes) s = (.ok value, s')) :
    s' = s ∧ ∀ c ∈ value, isDigit c = true := by
  unfold int13ChunkArg at hrun
  split at hrun
  · rename_i value' hvalue
    cases hrun
    exact ⟨rfl, isDigit_of_parseInt13Chunk hvalue⟩
  · cases hrun

theorem readNeeded_run {ε : Type} {mp : String} {e : ε} {s s' : Run} {raw : Bytes}
    (hrun : readNeeded mp f e s = (.ok raw, s')) :
    s'.now = s.now ∧ s.now.files mp f = some raw := by
  refine ⟨now_of_reads (readNeeded_reads mp f e) hrun, ?_⟩
  rw [readNeeded, bind_apply, readContent_run] at hrun
  by_cases hfate : s.fate s.events.length = .done
  · rcases hfile : s.now.files mp f with _ | b
    · simp only [if_pos hfate, hfile, Marker.contentOf] at hrun
      cases hrun
    · simp only [if_pos hfate, hfile, Marker.contentOf] at hrun
      cases hrun
      rfl
  · simp only [if_neg hfate] at hrun
    cases hrun

theorem updateSettings_edits {s s' : Run}
    (hopts : opts.integritySet = false) (hrun : updateSettings env h m opts s = (.ok (), s')) :
    ChunkEdited m s.now s'.now := by
  obtain ⟨⟨⟩, s₁, hskip, hrun⟩ := Halting.bind_eq_ok.1 hrun
  rw [onlyIf, if_neg (by rw [hopts]; decide)] at hskip
  cases hskip
  unfold onlyIf at hrun
  split_ifs at hrun
  · obtain ⟨value, s₂, harg, hset⟩ := Halting.bind_eq_ok.1 hrun
    obtain ⟨rfl, hdigits⟩ := int13ChunkArg_run harg
    obtain ⟨raw, s₃, hread, hset⟩ := Halting.bind_eq_ok.1 hset
    obtain ⟨hnow, hfile⟩ := readNeeded_run hread
    split_ifs at hset
    · cases hset
      exact .inl hnow
    · obtain ⟨⟨⟩, s₄, hlen, hwrite⟩ := Halting.bind_eq_ok.1 hset
      obtain ⟨-, rfl⟩ := require_eq_ok.1 hlen
      refine .inr ⟨raw, value, hfile, hdigits, ?_⟩
      rw [demand_eq_ok hwrite, ← hnow]
      rfl
  · cases hrun
    exact .inl rfl

/-- What a successful update does to the mode, as far as CMDLINE and CHECKSUM say it. -/
theorem updateBiosTarget_mode {src : Option Esp} {agree : Bool} {seed : Bool} {w : World}
    {fate : Nat → Fate} {wrote : Bool} {s : Run} (hlists : ListsUuids h)
    (hword : NoWord integrityKey a.cmdline) (hopts : opts.integritySet = false)
    (hrun : updateBiosTarget env h m src a agree opts seed (.start fate w) = (.ok wrote, s)) :
    wrote = false ∧ ChunkEdited m w s.now
      ∨ wrote = true ∧ ∃ c, s.now.files m.mountpoint .cmdline = some c ∧ NoWord integrityKey c
        ∧ Takes env (modeSource m src seed) w s.events
          (modeOn (s.now.files m.mountpoint .payloadSum)) := by
  obtain ⟨⟨⟩, s₁, hsector, hrun⟩ := Halting.bind_eq_ok.1 hrun
  obtain ⟨⟨⟩, s₂, hextent, hrun⟩ := Halting.bind_eq_ok.1 hrun
  obtain ⟨⟨⟩, s₃, heligible, hrun⟩ := Halting.bind_eq_ok.1 hrun
  obtain ⟨upToDate, s₄, hstamp, hrun⟩ := Halting.bind_eq_ok.1 hrun
  have heligible_reads : Reads (onlyIf (¬ seed = true)
      ((checkUpdateEligible m.disk).relabel (StepFailure.mk false))) :=
    asks_onlyIf fun _ => asks_relabel (checkUpdateEligible_reads m.disk)
  have hnow : s₄.now = w := by
    rw [now_of_reads (checkBiosUpToDate_reads ..) hstamp, now_of_reads heligible_reads heligible,
      now_of_reads (checkExtent_reads ..) hextent, demand_eq_ok hsector]
    rfl
  -- so far CHECKSUM was not asked for, or it was read
  have hread : ¬ ReadFailed (modeSource m src seed) s₄.events := by
    rw [(checkBiosUpToDate_sure ..).readFailed_iff hstamp,
      (show Sure _ (onlyIf (¬ seed = true) _) from asks_onlyIf fun _ =>
        asks_relabel (checkUpdateEligible_sure m.disk)).readFailed_iff heligible,
      (sure_of_uses (checkExtent_uses ..)).readFailed_iff hextent, (demand_sure _ _).readFailed_iff hsector]
    rintro ⟨ev, hev, -⟩
    cases hev
  by_cases hskip : upToDate = true ∧ ¬ seed = true
  · rw [if_pos hskip] at hrun
    obtain ⟨⟨⟩, s₅, hset, hrun⟩ := Halting.bind_eq_ok.1 hrun
    cases hrun
    have hedited := updateSettings_edits hopts (relabel_eq_ok hset)
    rw [hnow] at hedited
    exact .inl ⟨rfl, hedited⟩
  rw [if_neg hskip] at hrun
  obtain ⟨c, s₅, hprepare, hrun⟩ := Halting.bind_eq_ok.1 hrun
  replace hprepare := relabel_eq_ok hprepare
  have hnow₅ : s₅.now = w := by rw [now_of_reads (prepareBios_reads ..) hprepare, hnow]
  have hread₅ : ¬ ReadFailed (modeSource m src seed) s₅.events := by
    rw [(prepareBios_sure ..).readFailed_iff hprepare]
    exact hread
  by_cases hno : ¬ agree = true
  · rw [if_pos hno] at hrun
    cases hrun
    exact .inl ⟨rfl, .inl hnow₅⟩
  rw [if_neg hno] at hrun
  obtain ⟨⟨⟩, s₆, hwrite, hrun⟩ := Halting.bind_eq_ok.1 hrun
  cases hrun
  have hclean : NoWord integrityKey c := by
    have h := (prepareBios_noWord env m src a opts hlists hword).ends (P := fun _ => True) s₄ trivial
    rw [hprepare] at h
    exact h
  obtain ⟨hcmdline, htakes⟩ := writeBios_mode hopts hread₅ hwrite
  rw [hnow₅] at htakes
  exact .inr ⟨rfl, c, hcmdline, hclean, htakes⟩

/-- When the mode stays: of a new payload, if CHECKSUM alone gave it and the new CHECKSUM takes it
over; of an edit of the cap, if the command line that stage2 reads still names it. -/
def KeepsMode (env : Machine) (m : Esp) (src : Option Esp) (seed : Bool) (w : World) (wrote : Bool)
    (s : Run) : Prop :=
  let before := appliedMode (w.files m.mountpoint)
  let from_ := modeSource m src seed
  if wrote then
    (env.arch = "x86_64" → ¬ ReadFailed from_ s.events → modeOn (w.files from_ .payloadSum) = before)
      ∧ (env.arch ≠ "x86_64" ∨ ReadFailed from_ s.events → before = .warn)
  else ∀ raw, w.files m.mountpoint .cmdline = some raw → 0 ∈ firstCmdlineLine raw →
    appliedMode (s.now.files m.mountpoint) = before

/-- A stage2 with its version. -/
def versionedStage2 : Bytes :=
  [0, 0, 0x5a, 0x32] ++ ascii "alpine-zfsboot by UniDoc, version 1, build=1\n"

/-- The disk of a member that was installed before. -/
def enforcedDisk : DiskImage := withStages oldDisk (stage1On oldDisk) (stage2Region versionedStage2)

/-- Its CMDLINE asks for `enforce`. -/
def enforcedCmdline : Bytes := ascii "quiet alpine-zfsboot.integrity=enforce"

/-- The member, with a CHECKSUM. -/
def enforcedWorld (sum : Bytes) : World where
  files _ f := if f = .cmdline then some enforcedCmdline
    else if f = .payloadSum then some sum else none
  disk _ := enforcedDisk

/-- No flag is given: `--integrity` stands at its default. -/
def defaultBios : BiosOpts := ⟨false, modeText .warn, false, []⟩

theorem newBuild_sound : Smooth.Sound soleMachine newBuild := by
  have hkernel : kernelRamOffset newBuild.kernel = .ok 1024 := by decide +kernel
  have hlen : newBuild.kernel.length ≤ 0xffffffff := by
    rw [newBuild, Payload.length_bzImage]
    decide
  have hinitrd : newBuild.initrd.length ≤ 0xffffffff := Nat.zero_le _
  exact ⟨rfl, fun _ _ => ⟨_, rfl⟩, by decide +kernel, by decide, by decide +kernel,
    fun mode => (PayloadSum.exists_generate hkernel hlen hinitrd mode).1,
    (PayloadSum.exists_generate hkernel hlen hinitrd .warn).2⟩

theorem takesStages_enforced (sum : Bytes) : Smooth.TakesStages sole.disk (enforcedWorld sum) := by
  have ha := length_stage1On oldDisk
  have hlen : (stage2Region versionedStage2).length = stage2Bytes := length_stage2Region (by decide)
  refine ⟨show stage2Offset + stage2Bytes ≤ oldDisk.size by decide, fun b hb => ?_⟩
  show checkStage2ExtentFree (withStages enforcedDisk (stage1On enforcedDisk) b) = .ok ()
  have hdisk : withStages enforcedDisk (stage1On enforcedDisk) b
      = withStages oldDisk (stage1On oldDisk) b := by
    rw [enforcedDisk, stage1On_withStages _ ha, withStages, writeAt_stage2 _ ha (hlen.trans hb.symm),
      writeAt_stage1 _ rfl]
  rw [hdisk]
  refine checkStage2ExtentFree_oldDisk ha ?_ b
  rw [stage1On_oldDisk]
  decide

theorem enforced_run (sum : Bytes) :
    ∃ s, updateBiosTarget soleMachine soleHost sole none newBuild true defaultBios false
      (.start (fun _ => .done) (enforcedWorld sum)) = (.ok true, s) := by
  have hversion : hasStage2Version (trimStage2 (regionOn ((enforcedWorld sum).disk sole.disk)))
      = true := by
    rw [show (enforcedWorld sum).disk sole.disk = enforcedDisk from rfl, enforcedDisk,
      regionOn_withStages _ (length_stage1On _) (length_stage2Region (by decide)),
      trimStage2_stage2Region (by decide +kernel)]
    decide +kernel
  obtain ⟨w', hruns⟩ := @Smooth.updateBiosTarget_runs _ soleHost _ _ defaultBios _ _
    newBuild_sound rfl rfl (by decide +kernel) rfl (takesStages_enforced sum) hversion
    (show (enforcedWorld sum).files sole.mountpoint .cmdline = some enforcedCmdline from rfl)
    (by decide +kernel) (by decide +kernel) (by decide +kernel)
  obtain ⟨s, hrun, -⟩ := hruns.ends (.start (fun _ => .done) (enforcedWorld sum)) ⟨fun _ => rfl, rfl⟩
  exact ⟨s, hrun⟩

/-- A CHECKSUM that says `warn`. -/
theorem exists_warning_sum : ∃ sum man, decode sum = .ok man ∧ modeOn (some sum) = .warn := by
  obtain ⟨sum, hsum⟩ := newBuild_sound.payloadSum .warn
  have hmode := modeOn_generate hsum
  rw [generate] at hsum
  obtain ⟨man, hnew, hraw⟩ := Lib.bind_eq_ok.1 hsum
  cases hraw
  obtain ⟨hk, hi, -⟩ := PayloadSum.new_eq_ok hnew
  exact ⟨_, man, PayloadSum.decode_encode hk hi, hmode⟩

theorem noWord_newBuild : NoWord integrityKey newBuild.cmdline := by
  show ∀ w ∈ fields newBuild.cmdline, ¬ integrityKey <+: w
  decide +kernel

theorem listsUuids_soleHost : ListsUuids soleHost := fun _ hlist => nomatch hlist

theorem appliedMode_enforced (sum : Bytes) :
    appliedMode ((enforcedWorld sum).files sole.mountpoint) = .enforce := by
  have hword : wordMode enforcedCmdline = some .enforce := by decide +kernel
  show (wordMode enforcedCmdline).getD _ = _
  rw [hword]
  rfl

end ZfsBoot.Proofs.Tool.Settings
