import ZfsBoot.Proofs.Tool.EspSet

/-!
# `ZfsBoot.Proofs.Tool.EspChoice`: what decides which ESPs are this host's

Two things that `SelectHost` means to depend on, and the cases in which it does not. It means not to
depend on the order in which the kernel found the devices: every step on the way counts, filters or
sorts, so that two scans with the same ESPs give the same set. It means to follow the installation
that the markers name, also where the best ESP of that installation lists the members itself.
-/

set_option autoImplicit false

namespace ZfsBoot.Proofs.Tool.EspSet

open List
open Lib ZfsBoot.Tool

variable {x y : Except SelectError HostSet} {c : List UInt8} {qual' : List EspInfo} {hs : HostSet}
  {m : Member} {qual : List EspInfo} {infos infos' : List EspInfo} {list : List FatUuid}
  {u : FatUuid} {i : EspInfo} {opts : SelectOpts} {primary : Option FatUuid} {id : InstallId}
  {ignored ignored' : List Ignored}

/-- Both fail, or both return the same set up to the order of what is ignored. -/
inductive SameSelection : Except SelectError HostSet → Except SelectError HostSet → Prop where
  | error (e e' : SelectError) : SameSelection (.error e) (.error e')
  | ok (hs : HostSet) {ignored : List Ignored} (h : hs.ignored.Perm ignored) :
      SameSelection (.ok hs) (.ok { hs with ignored := ignored })

/-- Two failures. -/
theorem SameSelection.of_not_ok (hx : ∀ hs, x ≠ .ok hs)
    (hy : ∀ hs, y ≠ .ok hs) : SameSelection x y := by
  cases x with
  | ok hs => exact absurd rfl (hx hs)
  | error e =>
    cases y with
    | ok hs => exact absurd rfl (hy hs)
    | error e' => exact .error e e'

theorem SameSelection.isOk_eq (h : SameSelection x y) :
    x.isOk = y.isOk := by
  cases h <;> rfl

section Perm

variable (h : infos.Perm infos')
include h

theorem length_devsOf_perm (u : FatUuid) :
    (devsOf infos u).length = (devsOf infos' u).length :=
  ((h.filter _).map _).length_eq

theorem devsOf_eq_nil_perm (u : FatUuid) : devsOf infos u = [] ↔ devsOf infos' u = [] := by
  rw [← length_eq_zero_iff, length_devsOf_perm h, length_eq_zero_iff]

/-- A UUID on at most one device has the same ESP in every order of the scan. -/
theorem infoByUuid_perm (hcount : (devsOf infos u).length ≤ 1) :
    infoByUuid infos u = infoByUuid infos' u := by
  rw [length_devsOf] at hcount
  rw [infoByUuid_eq_head?, infoByUuid_eq_head?,
    eq_of_perm_of_length_le_one (h.filter (·.uuid = u)) hcount]

theorem presentOf_perm (hcount : ∀ u ∈ list, (devsOf infos u).length ≤ 1) :
    presentOf infos list = presentOf infos' list :=
  filterMap_congr fun u hu => infoByUuid_perm h (hcount u hu)

theorem listIdentity_perm (hcount : ∀ u ∈ list, (devsOf infos u).length ≤ 1) :
    listIdentity infos list = listIdentity infos' list := by
  induction list with
  | nil => rfl
  | cons u list ih =>
    have hu := hcount u mem_cons_self
    rw [listIdentity, listIdentity, List.findSome?_cons, List.findSome?_cons,
      infoByUuid_perm h hu, length_devsOf_perm h]
    split
    · rfl
    · exact ih fun v hv => hcount v (mem_cons_of_mem _ hv)

theorem selectList_same (source : ListSource) (primary : Option FatUuid) :
    SameSelection (selectList infos list source primary) (selectList infos' list source primary) := by
  by_cases hok : (∀ u ∈ list, (devsOf infos u).length ≤ 1) ∧ presentOf infos list ≠ []
  · obtain ⟨hcount, hne⟩ := hok
    have hcount' : ∀ u ∈ list, (devsOf infos' u).length ≤ 1 := fun u hu => by
      rw [← length_devsOf_perm h]
      exact hcount u hu
    rw [selectList_eq_ok.2 ⟨hcount, hne, rfl⟩,
      selectList_eq_ok.2 ⟨hcount', presentOf_perm h hcount ▸ hne, rfl⟩]
    have hset : listSet infos' list source primary
        = { listSet infos list source primary with
            ignored := (listSet infos' list source primary).ignored } := by
      simp only [listSet, presentOf_perm h hcount, listIdentity_perm h hcount,
        devsOf_eq_nil_perm h]
    rw [hset]
    exact .ok _ ((h.filter _).map _)
  · refine .of_not_ok (fun hs hhs => hok ?_) fun hs hhs => hok ?_
    · obtain ⟨hcount, hne, -⟩ := selectList_eq_ok.1 hhs
      exact ⟨hcount, hne⟩
    · obtain ⟨hcount, hne, -⟩ := selectList_eq_ok.1 hhs
      have hcount' : ∀ u ∈ list, (devsOf infos u).length ≤ 1 := fun u hu => by
        rw [length_devsOf_perm h]
        exact hcount u hu
      exact ⟨hcount', presentOf_perm h hcount' ▸ hne⟩

/-! The legacy rule. -/

theorem usesBroken_perm : usesBroken infos = usesBroken infos' := by
  have hnil : infos.filter EspInfo.isUnmarked = [] ↔ infos'.filter EspInfo.isUnmarked = [] := by
    rw [← length_eq_zero_iff, (h.filter _).length_eq, length_eq_zero_iff]
  simp only [usesBroken, hnil, (h.filter EspInfo.isBroken).length_eq]

theorem qualifying_perm : (qualifying infos).Perm (qualifying infos') := by
  rw [qualifying, qualifying, usesBroken_perm h]
  split_ifs
  · exact h.filter _
  · exact h.filter _

theorem legacyIgnored_perm (hignored : ignored.Perm ignored') :
    (legacyIgnored infos ignored).Perm (legacyIgnored infos' ignored') := by
  rw [legacyIgnored, legacyIgnored, usesBroken_perm h]
  split_ifs
  · simp only [((qualifying_perm h).map EspInfo.uuid).mem_iff]
    exact hignored.filter _
  · exact hignored

end Perm

theorem foldl_agreeStep (hc : c ≠ []) (qual : List EspInfo) :
    ∀ st : List UInt8 × Bool, qual.foldl agreeStep st = (c, true)
      ↔ st.2 = true ∧ (st.1 = [] ∨ st.1 = c) ∧ (st.1 = c ∨ ∃ i ∈ qual, i.configList = c)
        ∧ ∀ i ∈ qual, i.configList = [] ∨ i.configList = c := by
  induction qual with
  | nil =>
    rintro ⟨list, agree⟩
    simp only [foldl_nil, Prod.mk.injEq, not_mem_nil, false_and, exists_false, or_false,
      false_implies, implies_true, and_true]
    tauto
  | cons i qual ih =>
    rintro ⟨list, agree⟩
    rw [foldl_cons, ih, agreeStep]
    simp only [mem_cons, exists_eq_or_imp, forall_eq_or_imp]
    by_cases hi : i.configList = []
    · have hne : [] ≠ c := fun h => hc h.symm
      simp only [hi, if_true, hne, false_or, true_or, true_and]
    · simp only [hi, if_false, false_or, Bool.and_eq_true, Bool.not_eq_true',
        decide_eq_false_iff_not, not_and, not_not]
      constructor
      · rintro ⟨⟨hagree, heq⟩, rfl, -, hall⟩
        refine ⟨hagree, ?_, .inr (.inl rfl), rfl, hall⟩
        by_cases hlist : list = []
        · exact .inl hlist
        · exact .inr (heq hlist).symm
      · rintro ⟨hagree, hlist, -, rfl, hall⟩
        exact ⟨⟨hagree, fun hne => (hlist.resolve_left hne).symm⟩, rfl, .inl rfl, hall⟩

/-- The list that unmarked ESPs agree on: the only one there is. -/
theorem agreedList_eq_some :
    agreedList qual = some c ↔ c ≠ [] ∧ (∃ i ∈ qual, i.configList = c)
      ∧ ∀ i ∈ qual, i.configList = [] ∨ i.configList = c := by
  rw [agreedList]
  constructor
  · intro h
    split_ifs at h with hst
    obtain rfl := Option.some.inj h
    obtain ⟨-, -, hex, hall⟩ := (foldl_agreeStep hst.1 qual ([], true)).1 (Prod.ext rfl hst.2)
    exact ⟨hst.1, hex.resolve_left fun h => hst.1 h.symm, hall⟩
  · rintro ⟨hc, hex, hall⟩
    rw [(foldl_agreeStep hc qual ([], true)).2 ⟨rfl, .inl rfl, .inr hex, hall⟩]
    exact if_pos ⟨hc, rfl⟩

theorem agreedList_perm (h : qual.Perm qual') :
    agreedList qual = agreedList qual' := by
  refine Option.ext fun c => ?_
  simp only [agreedList_eq_some, h.mem_iff]

section Perm

variable (h : infos.Perm infos')
include h

theorem selectSeveral_same (hqual : qual.Perm qual') :
    SameSelection (selectSeveral infos qual) (selectSeveral infos' qual') := by
  rw [selectSeveral, selectSeveral, agreedList_perm hqual]
  split
  · exact selectList_same h _ _
  · exact .error _ _

theorem selectLegacy_same (hignored : ignored.Perm ignored') :
    SameSelection (selectLegacy infos ignored) (selectLegacy infos' ignored') := by
  have hqual := qualifying_perm h
  rw [selectLegacy, selectLegacy]
  rcases hq : qualifying infos with _ | ⟨i, _ | ⟨j, qual⟩⟩
  · rw [hq] at hqual
    rw [← hqual.nil_eq]
    exact .error _ _
  · rw [hq] at hqual
    rw [← singleton_perm.1 hqual]
    simp only [length_devsOf_perm h]
    split_ifs
    · exact .error _ _
    · split
      · exact .error _ _
      · exact selectList_same h _ _
    · exact .ok (legacySet i (legacyIgnored infos ignored)) (legacyIgnored_perm h hignored)
  · rcases hq' : qualifying infos' with _ | ⟨i', _ | ⟨j', qual'⟩⟩
    · exact absurd (hq' ▸ hqual.length_eq) (by simp [hq])
    · exact absurd (hq' ▸ hqual.length_eq) (by simp [hq])
    · rw [hq, hq'] at hqual
      exact selectSeveral_same h (((perm_insertionSort _ _).trans hqual).trans
        (perm_insertionSort _ _).symm)

/-! The rule for an installation. -/

theorem group_perm (id : InstallId) : (group infos id).Perm (group infos' id) := h.filter _

theorem orderedGroup_perm (hcount : ∀ i ∈ group infos id, (devsOf infos i.uuid).length ≤ 1) :
    orderedGroup infos id primary = orderedGroup infos' id primary := by
  refine orderMembers_eq_of_perm ((group_perm h id).map _) (fun _ _ _ _ => rfl) ?_
  rintro a ha b hb huuid
  obtain ⟨i, hi, rfl⟩ := mem_map.1 ha
  obtain ⟨j, hj, rfl⟩ := mem_map.1 hb
  have huuid : i.uuid = j.uuid := huuid
  have hfind := infoByUuid_of_mem (mem_group.1 hi).1 (hcount i hi)
  rw [huuid, infoByUuid_of_mem (mem_group.1 hj).1 (hcount j hj)] at hfind
  rw [Option.some.inj hfind]

theorem selectMembers_same (hignored : ignored.Perm ignored') :
    SameSelection (selectMembers infos id primary ignored)
      (selectMembers infos' id primary ignored') := by
  by_cases hcount : ∀ i ∈ group infos id, (devsOf infos i.uuid).length ≤ 1
  · have hfind : (group infos id).find? (fun i => 1 < (devsOf infos i.uuid).length) = none := by
      simpa using hcount
    have hfind' : (group infos' id).find? (fun i => 1 < (devsOf infos' i.uuid).length) = none := by
      simpa [← length_devsOf_perm h, ← (group_perm h id).mem_iff] using hcount
    rw [selectMembers, selectMembers, hfind, hfind', ← orderedGroup_perm h hcount]
    dsimp only
    split
    · split
      · exact .error _ _
      · exact selectList_same h _ _
    · have hset : memberSet infos' id primary ignored'
          = { memberSet infos id primary ignored with
              ignored := (memberSet infos' id primary ignored').ignored } := by
        simp only [memberSet, orderedGroup_perm h hcount]
      rw [hset]
      refine .ok _ (hignored.append ?_)
      rw [orderedGroup_perm h hcount]
      exact (h.filter _).filterMap _
  · refine .of_not_ok (fun hs hok => ?_) fun hs hok => ?_
    · exact hcount (selectMembers_ok hok).1
    · refine hcount fun i hi => ?_
      rw [length_devsOf_perm h]
      exact (selectMembers_ok hok).1 i ((group_perm h id).mem_iff.1 hi)

/-! The choice of the installation. -/

theorem installIds_perm : (installIds infos).Perm (installIds infos') := (h.filterMap _).dedup

theorem givesWay_perm (hprimary : markedPrimary infos opts = markedPrimary infos' opts) :
    givesWay infos opts = givesWay infos' opts := by
  refine decide_eq_decide.2 ?_
  simp only [hprimary, (installIds_perm h).length_eq, (h.filter _).length_eq, h.mem_iff,
    mem_filter]

/-- The order of the scan does not matter, if it does not matter for the primary. -/
theorem selectHost_same (hprimary : markedPrimary infos opts = markedPrimary infos' opts) :
    SameSelection (selectHost infos opts) (selectHost infos' opts) := by
  have hids := installIds_perm h
  have hnil : installIds infos = [] ↔ installIds infos' = [] := by
    rw [← length_eq_zero_iff, hids.length_eq, length_eq_zero_iff]
  rw [selectHost, selectHost, givesWay_perm h hprimary]
  simp only [hnil]
  split_ifs
  · exact selectList_same h _ _
  · exact selectLegacy_same h (h.filterMap _)
  · exact selectLegacy_same h ((h.filterMap _).append (h.filterMap _))
  · rw [chooseInstallation, chooseInstallation, hprimary]
    rcases markedPrimary infos' opts with _ | ⟨p, m⟩
    · rcases hi : installIds infos with _ | ⟨id, _ | ⟨id₂, ids⟩⟩
      all_goals rw [hi] at hids
      · rw [← hids.nil_eq]
        exact .error _ _
      · rw [← singleton_perm.1 hids]
        exact selectMembers_same h (h.filterMap _)
      · rcases hi' : installIds infos' with _ | ⟨_, _ | ⟨_, _⟩⟩
        · exact absurd (hi' ▸ hids.length_eq) (by simp)
        · exact absurd (hi' ▸ hids.length_eq) (by simp)
        · exact .error _ _
    · simp only [length_devsOf_perm h]
      split_ifs
      · exact .error _ _
      · exact selectMembers_same h (h.filterMap _)

end Perm

/-! ### A clone of the primary -/

theorem installId_of_validMember (hm : i.validMember = some m) :
    i.installId = some m.installId := by
  rw [EspInfo.installId, hm]
  rfl

theorem mem_installIds (hi : i ∈ infos) (hm : i.validMember = some m) :
    m.installId ∈ installIds infos :=
  mem_dedup.2 (mem_filterMap.2 ⟨i, hi, installId_of_validMember hm⟩)

theorem markedPrimary_perm (h : infos.Perm infos')
    (hcount : ∀ u, opts.primaryUuid = some u → (devsOf infos u).length ≤ 1) :
    markedPrimary infos opts = markedPrimary infos' opts := by
  rw [markedPrimary, markedPrimary]
  cases hu : opts.primaryUuid with
  | none => rfl
  | some u =>
    simp only [Option.bind_eq_bind, Option.bind_some, infoByUuid_perm h (hcount u hu)]

/-- A marked primary that is on two devices is refused. -/
theorem not_ok_of_markedPrimary {p : EspInfo} (hlist : opts.list = [])
    (hprimary : markedPrimary infos opts = some (p, m))
    (hcount : 1 < (devsOf infos p.uuid).length) (hs : HostSet) : selectHost infos opts ≠ .ok hs := by
  intro hok
  obtain ⟨u, -, hfind, hvalid⟩ := markedPrimary_eq_some.1 hprimary
  have hids := ne_nil_of_mem (mem_installIds (mem_of_infoByUuid hfind).1 hvalid)
  have hgives : givesWay infos opts = false := by simp [givesWay, hprimary]
  rcases selectHost_ok hok with ⟨hne, -⟩ | ⟨-, hlegacy, -⟩ | ⟨-, -, id, hid, -⟩
  · exact hne hlist
  · rcases hlegacy with hnil | hgives'
    · exact hids hnil
    · rw [hgives] at hgives'
      cases hgives'
  · rw [chooseInstallation, hprimary] at hid
    simp only [if_pos hcount] at hid
    cases hid

/-- A marked ESP that is on two devices is refused, unless it gives way. -/
theorem givesWay_of_ok {p : EspInfo} (hlist : opts.list = [])
    (hprimary : markedPrimary infos opts = none) (hp : p ∈ infos) (hm : p.validMember = some m)
    (hcount : 1 < (devsOf infos p.uuid).length) (hok : selectHost infos opts = .ok hs) :
    givesWay infos opts = true ∧ ∃ ignored, selectLegacy infos ignored = .ok hs := by
  have hmem := mem_installIds hp hm
  rcases selectHost_ok hok with ⟨hne, -⟩ | ⟨-, hlegacy, hlegacy'⟩ | ⟨-, -, id, hid, hmembers⟩
  · exact absurd hlist hne
  · exact ⟨hlegacy.resolve_left (ne_nil_of_mem hmem), hlegacy'⟩
  · -- the only installation is that of `p`, which is in its group
    rw [chooseInstallation, hprimary] at hid
    split at hid
    · rename_i heq
      cases heq
    · rename_i id' _ hids
      obtain rfl := Except.ok.inj hid
      rw [hids, mem_singleton] at hmem
      have hgroup : p ∈ group infos id' :=
        mem_group.2 ⟨hp, hmem ▸ installId_of_validMember hm⟩
      exact absurd ((selectMembers_ok hmembers).1 p hgroup) (Nat.not_le.2 hcount)
    · cases hid

theorem selectLegacy_isOk (ignored ignored' : List Ignored) :
    (selectLegacy infos ignored).isOk = (selectLegacy infos ignored').isOk := by
  rw [selectLegacy, selectLegacy]
  split
  · rfl
  · split_ifs
    · rfl
    · rfl
    · rfl
  · rfl

/-- The ESP `q` is a clone of the primary `p`, with its UUID and without its marker. `p` is the only
marked ESP, and the host has an ESP that outranks it: whether it does depends on which of `p` and
`q` the scan meets first. -/
structure CloneDecides (infos : List EspInfo) (opts : SelectOpts) (p q : EspInfo) : Prop where
  list_eq : opts.list = []
  primary_eq : opts.primaryUuid = some p.uuid
  only_marked : infos.filter (·.validMember.isSome) = [p]
  clone_mem : q ∈ infos
  clone_uuid : q.uuid = p.uuid
  clone_unmarked : q.validMember = none
  label_ne : p.label ≠ fatVolumeLabel
  outranked : ∃ i ∈ infos, i.isUnmarked = true
  legacy_ok : (selectLegacy infos []).isOk = true

theorem CloneDecides.perm {p q : EspInfo} (h : CloneDecides infos opts p q)
    (hperm : infos.Perm infos') : CloneDecides infos' opts p q where
  list_eq := h.list_eq
  primary_eq := h.primary_eq
  only_marked := (eq_of_perm_of_length_le_one (h.only_marked ▸ hperm.filter _) (by simp)).symm
  clone_mem := hperm.mem_iff.1 h.clone_mem
  clone_uuid := h.clone_uuid
  clone_unmarked := h.clone_unmarked
  label_ne := h.label_ne
  outranked := by
    obtain ⟨i, hi, hu⟩ := h.outranked
    exact ⟨i, hperm.mem_iff.1 hi, hu⟩
  legacy_ok := (selectLegacy_same hperm (List.Perm.refl [])).isOk_eq ▸ h.legacy_ok

section Clone

variable {p q : EspInfo} (h : CloneDecides infos opts p q)
include h

theorem CloneDecides.marked_mem : p ∈ infos ∧ p.validMember.isSome = true := by
  have hmem : p ∈ infos.filter (·.validMember.isSome) := by
    rw [h.only_marked]
    exact mem_singleton_self p
  simpa using mem_filter.1 hmem

theorem CloneDecides.one_lt_count : 1 < (devsOf infos p.uuid).length := by
  by_contra hcount
  have hp := infoByUuid_of_mem h.marked_mem.1 (Nat.not_lt.1 hcount)
  have hq := infoByUuid_of_mem h.clone_mem (h.clone_uuid ▸ Nat.not_lt.1 hcount)
  rw [h.clone_uuid, hp] at hq
  have hmarked := h.marked_mem.2
  rw [Option.some.inj hq, h.clone_unmarked] at hmarked
  cases hmarked

/-- The marked ESP first: the scan is refused. -/
theorem CloneDecides.marked_first : (selectHost (p :: infos.erase p) opts).isOk = false := by
  have hperm : infos.Perm (p :: infos.erase p) := perm_cons_erase h.marked_mem.1
  obtain ⟨m, hm⟩ := Option.isSome_iff_exists.1 h.marked_mem.2
  have hprimary : markedPrimary (p :: infos.erase p) opts = some (p, m) :=
    markedPrimary_eq_some.2 ⟨p.uuid, h.primary_eq, by simp [infoByUuid], hm⟩
  have hnot := not_ok_of_markedPrimary h.list_eq hprimary
    (length_devsOf_perm hperm _ ▸ h.one_lt_count)
  cases hres : selectHost (p :: infos.erase p) opts with
  | error e => rfl
  | ok hs => exact absurd hres (hnot hs)

theorem CloneDecides.givesWay_eq (hprimary : markedPrimary infos opts = none) :
    givesWay infos opts = true := by
  obtain ⟨m, hm⟩ := Option.isSome_iff_exists.1 h.marked_mem.2
  have hids : installIds infos = [m.installId] := by
    have hfilter : infos.filterMap EspInfo.installId
        = (infos.filter (·.validMember.isSome)).filterMap EspInfo.installId := by
      rw [filterMap_filter]
      refine filterMap_congr fun i _ => ?_
      cases hv : i.validMember <;> simp [EspInfo.installId, hv]
    rw [installIds, hfilter, h.only_marked, filterMap_cons, installId_of_validMember hm]
    rfl
  simp [givesWay, hprimary, hids, h.only_marked, h.label_ne, h.outranked]

/-- The clone first: the marked ESP gives way, and the host's own is found. -/
theorem CloneDecides.clone_first : (selectHost (q :: infos.erase q) opts).isOk = true := by
  have hperm : infos.Perm (q :: infos.erase q) := perm_cons_erase h.clone_mem
  have hprimary : markedPrimary (q :: infos.erase q) opts = none := by
    have hfind : infoByUuid (q :: infos.erase q) p.uuid = some q := by
      simp [infoByUuid, h.clone_uuid]
    simp [markedPrimary, h.primary_eq, hfind, h.clone_unmarked]
  have hgives := (h.perm hperm).givesWay_eq hprimary
  have hids : installIds (q :: infos.erase q) ≠ [] := by
    intro hnil
    simp [givesWay, hnil] at hgives
  rw [selectHost, if_neg (by simp [h.list_eq]), if_neg hids, if_pos hgives,
    selectLegacy_isOk _ []]
  exact (h.perm hperm).legacy_ok

end Clone

/-- A scan on which the order decides has such a clone. -/
theorem cloneDecides_of_ok (hperm : infos.Perm infos') {p : EspInfo}
    (hlist : opts.list = []) (hprimary : markedPrimary infos opts = none)
    (hprimary' : markedPrimary infos' opts = some (p, m))
    (hcount : 1 < (devsOf infos p.uuid).length) (hok : selectHost infos opts = .ok hs) :
    ∃ q, CloneDecides infos opts p q := by
  obtain ⟨u, hu, hfind, hvalid⟩ := markedPrimary_eq_some.1 hprimary'
  obtain ⟨hmem, rfl⟩ := mem_of_infoByUuid hfind
  have hp : p ∈ infos := hperm.mem_iff.2 hmem
  obtain ⟨hgives, ignored, hlegacy⟩ := givesWay_of_ok hlist hprimary hp hvalid hcount hok
  simp only [givesWay, decide_eq_true_eq] at hgives
  obtain ⟨-, -, hlabel, hunmarked, hlen⟩ := hgives
  have hmarked : p ∈ infos.filter (·.validMember.isSome) :=
    mem_filter.2 ⟨hp, by rw [hvalid]; rfl⟩
  obtain ⟨p', hp'⟩ := length_eq_one_iff.1 hlen
  have honly : infos.filter (·.validMember.isSome) = [p] := by
    rw [hp', mem_singleton] at hmarked
    rw [hp', hmarked]
  cases hq : infoByUuid infos p.uuid with
  | none =>
    rw [infoByUuid_eq_none.1 hq] at hcount
    exact absurd hcount (by decide)
  | some q =>
    obtain ⟨hqmem, hquuid⟩ := mem_of_infoByUuid hq
    refine ⟨q, hlist, hu, honly, hqmem, hquuid, ?_, hlabel p hmarked, hunmarked, ?_⟩
    · cases hqvalid : q.validMember with
      | none => rfl
      | some m' =>
        rw [markedPrimary_eq_some.2 ⟨p.uuid, hu, hq, hqvalid⟩] at hprimary
        cases hprimary
    · rw [selectLegacy_isOk [] ignored, hlegacy]
      rfl

/-- With the primary on two devices, a selection that no clone decides is the same in every order. -/
theorem selectHost_same_of_clones (hperm : infos.Perm infos') {u : FatUuid}
    (hlist : opts.list = []) (hu : opts.primaryUuid = some u)
    (hcount : 1 < (devsOf infos u).length) (hnone : ∀ p q, ¬ CloneDecides infos opts p q) :
    SameSelection (selectHost infos opts) (selectHost infos' opts) := by
  have hcount' : 1 < (devsOf infos' u).length := length_devsOf_perm hperm u ▸ hcount
  have huuid {i : List EspInfo} {p : EspInfo} {m : Member}
      (h : markedPrimary i opts = some (p, m)) : p.uuid = u := by
    obtain ⟨v, hv, hfind, -⟩ := markedPrimary_eq_some.1 h
    rw [(mem_of_infoByUuid hfind).2]
    exact Option.some.inj (hv.symm.trans hu)
  cases hp : markedPrimary infos opts with
  | none =>
    cases hp' : markedPrimary infos' opts with
    | none => exact selectHost_same hperm (hp.trans hp'.symm)
    | some pm =>
      refine .of_not_ok (fun hs hok => ?_)
        (not_ok_of_markedPrimary hlist hp' (huuid hp' ▸ hcount'))
      obtain ⟨q, hq⟩ := cloneDecides_of_ok hperm hlist hp hp' (huuid hp' ▸ hcount) hok
      exact hnone _ q hq
  | some pm =>
    refine .of_not_ok (not_ok_of_markedPrimary hlist hp (huuid hp ▸ hcount)) ?_
    cases hp' : markedPrimary infos' opts with
    | none =>
      intro hs hok
      obtain ⟨q, hq⟩ :=
        cloneDecides_of_ok hperm.symm hlist hp' hp (huuid hp ▸ hcount') hok
      exact hnone _ q (hq.perm hperm.symm)
    | some pm' => exact not_ok_of_markedPrimary hlist hp' (huuid hp' ▸ hcount')

/-- Device enumeration order decides in one case only: the UUID of the primary is on two devices, of
which one has the only valid marker of the scan and the other has none. On all other scans every
order gives the same result, up to the order of what is ignored. -/
theorem selectHost_perm_iff (infos : List EspInfo) (opts : SelectOpts) :
    (∀ infos', infos.Perm infos' → SameSelection (selectHost infos opts) (selectHost infos' opts))
      ↔ ∀ p q, ¬ CloneDecides infos opts p q := by
  constructor
  · intro hsame p q h
    have hfirst := (hsame _ (perm_cons_erase h.marked_mem.1)).isOk_eq
    have hclone := (hsame _ (perm_cons_erase h.clone_mem)).isOk_eq
    rw [h.marked_first] at hfirst
    rw [hfirst, h.clone_first] at hclone
    cases hclone
  · intro hnone infos' hperm
    by_cases hlist : opts.list = []
    · by_cases hcount : ∀ u, opts.primaryUuid = some u → (devsOf infos u).length ≤ 1
      · exact selectHost_same hperm (markedPrimary_perm hperm hcount)
      · push Not at hcount
        obtain ⟨u, hu, hcount⟩ := hcount
        exact selectHost_same_of_clones hperm hlist hu hcount hnone
    · rw [selectHost, selectHost, if_pos hlist, if_pos hlist]
      exact selectList_same hperm _ _

/-- The UUID `BBBB-0002`. -/
def uuidB : FatUuid := ⟨[0x42, 0x42, 0x42, 0x42, 0x2D, 0x30, 0x30, 0x30, 0x32], by decide⟩

/-- The installation with the given digit in all places. -/
def idOnes : InstallId :=
  ⟨[0x2D].intercalate ([8, 4, 4, 4, 12].map (List.replicate · 0x31)), by decide⟩

/-- An ESP of an installation, without a label. -/
def markedEsp (dev : String) (u : FatUuid) (id : InstallId) (configList : List UInt8) : EspInfo :=
  ⟨dev, u, [], true, true, .decoded ⟨id, 1, u, [u], [], [], []⟩, configList⟩

/-- The same volume on another disk, without the files. -/
def cloneEsp : EspInfo := ⟨"/dev/sdc1", uuidB, [], false, false, .absent, []⟩

/-- The clone before the marked ESP, and after it. -/
theorem selectHost_order_decides :
    let infos := [cloneEsp, markedEsp "/dev/sdb1" uuidB idOnes [], legacyEsp]
    let infos' := [markedEsp "/dev/sdb1" uuidB idOnes [], cloneEsp, legacyEsp]
    let opts : SelectOpts := ⟨[], .given "", some uuidB⟩
    infos.Perm infos' ∧ (selectHost infos opts).isOk = true ∧
      (selectHost infos' opts).isOk = false :=
  ⟨List.Perm.swap _ _ _, rfl, rfl⟩

/-! ### The installation of the set -/

/-- The markers say that the installation `id` is this host's: the primary ESP is one of its
members, or no other one has members. -/
structure Chooses (infos : List EspInfo) (opts : SelectOpts) (id : InstallId) : Prop where
  list_eq : opts.list = []
  not_legacy : ¬ Legacy infos opts
  chosen : chooseInstallation infos opts = .ok id

/-- The best member of the installation `id` has a list in its config, of which the first ESP with a
marker belongs to another installation, or on which no ESP has one. -/
structure ListLeaves (infos : List EspInfo) (primary : Option FatUuid) (id : InstallId)
    (best : HostMember) (list : List FatUuid) : Prop where
  unique : ∀ i ∈ group infos id, (devsOf infos i.uuid).length ≤ 1
  best_eq : (orderedGroup infos id primary).head? = some best
  configList_ne : best.configList ≠ []
  parse_eq : parseUuidList best.configList = .ok list
  list_unique : ∀ u ∈ list, (devsOf infos u).length ≤ 1
  present_ne : presentOf infos list ≠ []
  identity_ne : listIdentity infos list ≠ some id

theorem selectHost_of_chooses (h : Chooses infos opts id) :
    selectHost infos opts
      = selectMembers infos id opts.primaryUuid (infos.filterMap markerIgnored) := by
  obtain ⟨hids, hgives⟩ := not_or.1 h.not_legacy
  rw [selectHost, if_neg (by simp [h.list_eq]), if_neg hids, if_neg hgives, h.chosen]
  rfl

/-- A list in the config of the best member is followed. -/
theorem selectMembers_of_list {best : HostMember}
    (hunique : ∀ i ∈ group infos id, (devsOf infos i.uuid).length ≤ 1)
    (hbest : (orderedGroup infos id primary).head? = some best) (hne : best.configList ≠ [])
    (hparse : parseUuidList best.configList = .ok list) :
    selectMembers infos id primary ignored
      = selectList infos list (.configOf best.uuid) primary := by
  have hfind : (group infos id).find? (fun i => decide (1 < (devsOf infos i.uuid).length))
      = none := by
    simpa using hunique
  rw [selectMembers, hfind, hbest]
  simp only [Option.filter_some, hne, ne_eq, not_false_eq_true, decide_true, if_true, hparse]

/-- The set has the identity that the markers say, and marks the members of other installations. -/
def KeepsInstallation (id : InstallId) (hs : HostSet) : Prop :=
  hs.installId = some id ∧
    ∀ m ∈ hs.members, m.foreign = true ↔ ∃ other, m.installId = some other ∧ other ≠ id

theorem keepsInstallation_memberSet :
    KeepsInstallation id (memberSet infos id primary ignored) := by
  refine ⟨rfl, fun m hm => ?_⟩
  obtain ⟨hgroup, hforeign⟩ := mem_orderedGroup hm
  have hid := (mem_group.1 hgroup).2
  simp [hforeign, hid]

theorem keepsInstallation_listSet {source : ListSource} (h : listIdentity infos list = some id) :
    KeepsInstallation id (listSet infos list source primary) := by
  refine ⟨h, fun m hm => ?_⟩
  obtain ⟨m', -, rfl⟩ := mem_map.1 hm
  cases hvalid : m'.validMember with
  | none => simp [EspInfo.installId, hvalid]
  | some marker => simp [EspInfo.installId, hvalid, h]

/-- The set that `SelectHost` returns keeps the installation that the markers chose, unless the best
member's own list leaves it. -/
theorem selectHost_keepsInstallation_iff (infos : List EspInfo) (opts : SelectOpts)
    (id : InstallId) :
    (Chooses infos opts id → ∀ hs, selectHost infos opts = .ok hs → KeepsInstallation id hs)
      ↔ ∀ best list, Chooses infos opts id → ¬ ListLeaves infos opts.primaryUuid id best list := by
  constructor
  · intro hkeeps best list hchooses h
    have hok : selectHost infos opts
        = .ok (listSet infos list (.configOf best.uuid) opts.primaryUuid) := by
      rw [selectHost_of_chooses hchooses,
        selectMembers_of_list h.unique h.best_eq h.configList_ne h.parse_eq]
      exact selectList_eq_ok.2 ⟨h.list_unique, h.present_ne, rfl⟩
    exact h.identity_ne (hkeeps hchooses _ hok).1
  · intro hnone hchooses hs hok
    rw [selectHost_of_chooses hchooses] at hok
    obtain ⟨hunique, hcase⟩ := selectMembers_ok hok
    rcases hcase with ⟨best, list, hbest, hne, hparse, hlist⟩ | rfl
    · obtain ⟨hlist_unique, hpresent, rfl⟩ := selectList_eq_ok.1 hlist
      refine keepsInstallation_listSet (by_contra fun hid => ?_)
      exact hnone best list hchooses ⟨hunique, hbest, hne, hparse, hlist_unique, hpresent, hid⟩
    · exact keepsInstallation_memberSet

/-- An ESP of the only installation that lists an ESP without a marker. -/
theorem selectHost_list_leaves :
    let infos := [markedEsp "/dev/sdb1" uuidB idOnes uuidA.val, legacyEsp]
    let opts : SelectOpts := ⟨[], .given "", some uuidB⟩
    Chooses infos opts idOnes ∧
      (selectHost infos opts).map HostSet.installId = .ok none :=
  ⟨⟨rfl, by decide, rfl⟩, rfl⟩

end ZfsBoot.Proofs.Tool.EspSet
