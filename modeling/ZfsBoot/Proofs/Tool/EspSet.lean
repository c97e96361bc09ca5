import Mathlib.Order.OrderDual
import Mathlib.Data.Prod.Lex
import ZfsBoot.Lib.Sort
import ZfsBoot.Tool.EspSet

/-!
# `ZfsBoot.Proofs.Tool.EspSet`: what a selection of ESPs is

`SelectHost` has four rules, and three of them may hand the scan on to the list rule. Whatever way
it takes, the set it returns is well formed (`Selected`, `selectHost_selected`).

The order of the members is that of a key: generation, primary, position in the list, UUID
(`orderKey`). The comparison in the source is an order only between members that all have a position
or all have none, which is how both callers use it (`before_eq_false_iff`).
-/

set_option autoImplicit false

namespace ZfsBoot.Proofs.Tool.EspSet

open List
open Lib ZfsBoot.Tool

variable {m : HostMember} {infos infos' : List EspInfo} {list : List FatUuid} {u : FatUuid}
  {i : EspInfo}

/-! ### Lookups -/

theorem length_devsOf (infos : List EspInfo) (u : FatUuid) :
    (devsOf infos u).length = (infos.filter (·.uuid = u)).length := by
  rw [devsOf, length_map]

theorem infoByUuid_eq_head? (infos : List EspInfo) (u : FatUuid) :
    infoByUuid infos u = (infos.filter (·.uuid = u)).head? := by
  rw [infoByUuid, List.head?_filter]

theorem mem_of_infoByUuid (h : infoByUuid infos u = some i) : i ∈ infos ∧ i.uuid = u := by
  have := List.find?_some h
  exact ⟨mem_of_find?_eq_some h, by simpa using this⟩

/-- An ESP whose UUID is on one device is found by it. -/
theorem infoByUuid_of_mem (hi : i ∈ infos) (hcount : (devsOf infos i.uuid).length ≤ 1) :
    infoByUuid infos i.uuid = some i := by
  rw [length_devsOf] at hcount
  have hmem : i ∈ infos.filter (·.uuid = i.uuid) := mem_filter.2 ⟨hi, by simp⟩
  obtain ⟨j, hj⟩ := length_eq_one_iff.1 (le_antisymm hcount (length_pos_of_mem hmem))
  rw [infoByUuid_eq_head?, hj]
  rw [hj, mem_singleton] at hmem
  rw [hmem]
  rfl

theorem devsOf_eq_nil : devsOf infos u = [] ↔ ∀ i ∈ infos, i.uuid ≠ u := by
  rw [devsOf, map_eq_nil_iff, filter_eq_nil_iff]
  simp

theorem infoByUuid_eq_none : infoByUuid infos u = none ↔ devsOf infos u = [] := by
  rw [devsOf_eq_nil, infoByUuid, List.find?_eq_none]
  simp

/-! ### Order -/

/-- What the order of the members is by: the generation, highest first, then the primary, then the
position, then the UUID. -/
abbrev MemberKey : Type := ℕᵒᵈ ×ₗ Bool ×ₗ ℕ ×ₗ FatUuid

/-- The key of a member. -/
def orderKey (primary : Option FatUuid) (position : FatUuid → Nat) (m : HostMember) : MemberKey :=
  toLex (OrderDual.toDual m.generation,
    toLex (decide (some m.uuid ≠ primary), toLex (position m.uuid, m.uuid)))

theorem uuid_eq_of_orderKey {primary : Option FatUuid} {position : FatUuid → Nat}
    {a b : HostMember} (h : orderKey primary position a = orderKey primary position b) :
    a.uuid = b.uuid := by
  simp only [orderKey, toLex_inj, Prod.mk.injEq] at h
  exact h.2.2.2

/-- The comparison of `orderMembers` is that of the keys, if both members have a position or
neither has. -/
theorem before_eq_false_iff (primary : Option FatUuid) {rank : FatUuid → Option Nat}
    {a b : HostMember} (hrank : (rank a.uuid).isSome = (rank b.uuid).isSome) :
    before primary rank b a = false ↔
      orderKey primary (fun u => (rank u).getD 0) a
        ≤ orderKey primary (fun u => (rank u).getD 0) b := by
  simp only [before, orderKey, Prod.Lex.toLex_le_toLex, OrderDual.toDual_lt_toDual,
    OrderDual.toDual_inj]
  by_cases hgen : b.generation = a.generation
  · by_cases hprimary : decide (some b.uuid = primary) = decide (some a.uuid = primary)
    · have hnot : decide (some a.uuid ≠ primary) = decide (some b.uuid ≠ primary) := by
        simp only [ne_eq, decide_not, hprimary]
      simp only [hgen, hprimary, hnot, ne_eq, not_true_eq_false, if_false, lt_irrefl, true_and,
        false_or]
      -- the same generation, and both or neither the primary: the position decides
      cases ha : rank a.uuid with
      | none =>
        cases hb : rank b.uuid with
        | none => simp
        | some rb => simp [ha, hb] at hrank
      | some ra =>
        cases hb : rank b.uuid with
        | none => simp [ha, hb] at hrank
        | some rb =>
          by_cases hr : rb = ra
          · simp [hr]
          · have hr' : ra ≠ rb := fun h => hr h.symm
            simp [hr, hr']
            omega
    · simp only [hgen, hprimary, ne_eq, not_true_eq_false, if_false, not_false_eq_true, if_true,
        lt_irrefl, false_or, true_and]
      by_cases ha : some a.uuid = primary
      · have hb : some b.uuid ≠ primary := fun hb => hprimary (by simp [ha, hb])
        simp [ha, hb]
      · have hb : some b.uuid = primary := by
          by_contra hb
          exact hprimary (by simp [ha, hb])
        simp [ha, hb]
  · have hgen' : a.generation ≠ b.generation := fun h => hgen h.symm
    simp [hgen, hgen']
    omega

section Order

variable {ms ms' : List HostMember} {primary : Option FatUuid} {rank : FatUuid → Option Nat}

theorem orderMembers_perm (ms : List HostMember) (primary : Option FatUuid)
    (rank : FatUuid → Option Nat) : (orderMembers ms primary rank).Perm ms :=
  perm_insertionSort _ ms

theorem mem_orderMembers : m ∈ orderMembers ms primary rank ↔ m ∈ ms :=
  (orderMembers_perm ms primary rank).mem_iff

/-- The order of `orderMembers`: either all members have a position or none has. -/
theorem pairwise_orderMembers (primary : Option FatUuid) (rank : FatUuid → Option Nat)
    (hrank : ∀ a ∈ ms, ∀ b ∈ ms, (rank a.uuid).isSome = (rank b.uuid).isSome)
    (hnodup : (ms.map (·.uuid)).Nodup) :
    (orderMembers ms primary rank).Pairwise fun a b =>
      orderKey primary (fun u => (rank u).getD 0) a
        < orderKey primary (fun u => (rank u).getD 0) b := by
  have hle := pairwise_insertionSort_of_key (l := ms) fun a ha b hb =>
    before_eq_false_iff primary (hrank a ha b hb)
  have hne : (orderMembers ms primary rank).Pairwise fun a b => a.uuid ≠ b.uuid := by
    rw [← pairwise_map]
    exact ((orderMembers_perm ms primary rank).map _).nodup_iff.2 hnodup
  exact hle.imp₂ (fun a b hab hne => lt_of_le_of_ne hab fun h => hne (uuid_eq_of_orderKey h)) hne

/-- What `orderMembers` returns does not depend on the order of its input. -/
theorem orderMembers_eq_of_perm (hperm : ms.Perm ms')
    (hrank : ∀ a ∈ ms, ∀ b ∈ ms, (rank a.uuid).isSome = (rank b.uuid).isSome)
    (hinj : ∀ a ∈ ms, ∀ b ∈ ms, a.uuid = b.uuid → a = b) :
    orderMembers ms primary rank = orderMembers ms' primary rank :=
  insertionSort_eq_of_perm hperm
    (fun a ha b hb => before_eq_false_iff primary (hrank a ha b hb))
    fun a ha b hb h => hinj a ha b hb (uuid_eq_of_orderKey h)

end Order

theorem isSome_listRank (h : u ∈ list) : (listRank list u).isSome = true := by
  obtain ⟨n, hn, rfl⟩ := mem_iff_getElem.1 h
  rw [listRank, Option.isSome_map, List.find?_isSome]
  refine ⟨(list[n], n), mem_reverse.2 ?_, by simp⟩
  rw [mem_zipIdx_iff_getElem?, List.getElem?_eq_getElem hn]

/-- In a list without repetitions the position is that of the only occurrence. -/
theorem listRank_eq_idxOf (hnodup : list.Nodup) (h : u ∈ list) :
    listRank list u = some (list.idxOf u) := by
  obtain ⟨n, hn⟩ := Option.isSome_iff_exists.1 (isSome_listRank h)
  rw [hn]
  obtain ⟨⟨v, k⟩, hfind, rfl⟩ := Option.map_eq_some_iff.1 hn
  have hv : v = u := by simpa using List.find?_some hfind
  have hmem := mem_reverse.1 (mem_of_find?_eq_some hfind)
  rw [mem_zipIdx_iff_getElem?] at hmem
  obtain ⟨hk, hget⟩ : ∃ hk : k < list.length, list[k] = v := List.getElem?_eq_some_iff.1 hmem
  rw [← hv, ← hget, hnodup.idxOf_getElem]

/-! ### Lists -/

section Lists

variable {source : ListSource} {primary : Option FatUuid} {hs : HostSet}

/-- When `selectList` succeeds, and with what. -/
theorem selectList_eq_ok :
    selectList infos list source primary = .ok hs ↔
      (∀ u ∈ list, (devsOf infos u).length ≤ 1) ∧ presentOf infos list ≠ []
        ∧ hs = listSet infos list source primary := by
  rw [selectList]
  cases hfind : list.find? fun u => 1 < (devsOf infos u).length with
  | some u =>
    have hu : 1 < (devsOf infos u).length := by simpa using List.find?_some hfind
    simp only [reduceCtorEq, false_iff]
    intro h
    exact absurd (h.1 u (mem_of_find?_eq_some hfind)) (Nat.not_le.2 hu)
  | none =>
    have hcount : ∀ u ∈ list, (devsOf infos u).length ≤ 1 := by simpa using hfind
    by_cases hpresent : presentOf infos list = []
    · simp [hpresent]
    · simp only [hpresent, if_false, Except.ok.injEq, ne_eq, not_false_eq_true, true_and]
      exact ⟨fun h => ⟨hcount, h.symm⟩, fun h => h.2.symm⟩

theorem mem_presentOf (h : i ∈ presentOf infos list) : i ∈ infos ∧ i.uuid ∈ list := by
  obtain ⟨u, hu, hfind⟩ := mem_filterMap.1 h
  obtain ⟨hi, rfl⟩ := mem_of_infoByUuid hfind
  exact ⟨hi, hu⟩

/-- The present ESPs of a list are in its order. -/
theorem map_uuid_presentOf (infos : List EspInfo) (list : List FatUuid) :
    (presentOf infos list).map (·.uuid) = list.filter fun u => devsOf infos u ≠ [] := by
  induction list with
  | nil => rfl
  | cons u list ih =>
    rw [presentOf, filterMap_cons]
    cases hfind : infoByUuid infos u with
    | none =>
      rw [filter_cons_of_neg (by simpa using infoByUuid_eq_none.1 hfind)]
      exact ih
    | some i =>
      have hne : devsOf infos u ≠ [] := fun h => by
        rw [infoByUuid_eq_none.2 h] at hfind
        cases hfind
      rw [filter_cons_of_pos (by simpa using hne), map_cons,
        (mem_of_infoByUuid hfind).2]
      exact congrArg _ ih

theorem map_uuid_listSet (infos : List EspInfo) (list : List FatUuid) (source : ListSource)
    (primary : Option FatUuid) :
    ((listSet infos list source primary).members.map (·.uuid)).Perm
      (list.filter fun u => devsOf infos u ≠ []) := by
  rw [← map_uuid_presentOf, listSet, map_map]
  have hperm := (orderMembers_perm ((presentOf infos list).map fun i => ⟨i, false⟩) primary
    (listRank list)).map fun m => m.uuid
  rwa [map_map] at hperm

theorem mem_members_listSet (h : m ∈ (listSet infos list source primary).members) :
    m.toEspInfo ∈ infos ∧ m.uuid ∈ list := by
  obtain ⟨m', hm', rfl⟩ := mem_map.1 h
  obtain ⟨i, hi, rfl⟩ := mem_map.1 (mem_orderMembers.1 hm')
  exact mem_presentOf hi

end Lists

/-! ### What a selection is -/

/-- The position of a member in its set: only a list gives one. -/
def HostSet.position (hs : HostSet) (u : FatUuid) : Nat :=
  if hs.mode = .list then hs.expected.idxOf u else 0

/-- A set of ESPs that is well formed for a scan: `primary` is the ESP that its order prefers. -/
structure Selected (infos : List EspInfo) (primary : Option FatUuid) (hs : HostSet) : Prop where
  members_ne_nil : hs.members ≠ []
  nodup_uuids : (hs.members.map (·.uuid)).Nodup
  on_one_device : ∀ m ∈ hs.members, m.toEspInfo ∈ infos ∧ (devsOf infos m.uuid).length = 1
  missing_eq : hs.missing = hs.expected.filter (· ∉ hs.members.map (·.uuid))
  ordered : hs.members.Pairwise fun a b =>
    orderKey primary (HostSet.position hs) a < orderKey primary (HostSet.position hs) b
  not_copied : hs.mode ≠ .list → ∀ m ∈ hs.members, m.copiedMarker = none
  broken_alone : hs.mode ≠ .list → ∀ m ∈ hs.members, m.marker.isBroken = true →
    hs.mode = .legacy ∧ hs.members = [m]

/-- The key of a member does not depend on its flag, and only on its own position. -/
theorem orderKey_congr {primary : Option FatUuid} {position position' : FatUuid → Nat}
    {m' : HostMember} (h : m.toEspInfo = m'.toEspInfo)
    (hpos : position m.uuid = position' m'.uuid) :
    orderKey primary position m = orderKey primary position' m' := by
  rw [orderKey, orderKey, hpos, h]

theorem selected_listSet {source : ListSource} {primary : Option FatUuid} (hnodup : list.Nodup)
    (hcount : ∀ u ∈ list, (devsOf infos u).length ≤ 1) (hne : presentOf infos list ≠ []) :
    Selected infos primary (listSet infos list source primary) where
  members_ne_nil := by
    intro h
    have hperm := map_uuid_listSet infos list source primary
    rw [h, ← map_uuid_presentOf] at hperm
    exact hne (map_eq_nil_iff.1 hperm.nil_eq.symm)
  nodup_uuids := (map_uuid_listSet infos list source primary).nodup_iff.2 (hnodup.filter _)
  on_one_device := fun m hm => by
    obtain ⟨hi, hu⟩ := mem_members_listSet hm
    refine ⟨hi, le_antisymm (hcount _ hu) (length_pos_of_ne_nil fun h => ?_)⟩
    exact devsOf_eq_nil.1 h _ hi rfl
  missing_eq := by
    refine filter_congr fun u hu => ?_
    have hmem : u ∈ (listSet infos list source primary).members.map (·.uuid)
        ↔ devsOf infos u ≠ [] := by
      rw [(map_uuid_listSet infos list source primary).mem_iff, mem_filter]
      simp [hu]
    simp only [hmem, ne_eq, not_not]
  ordered := by
    have hms : (((presentOf infos list).map fun i => (⟨i, false⟩ : HostMember)).map
        (·.uuid)).Nodup := by
      rw [map_map]
      exact map_uuid_presentOf infos list ▸ hnodup.filter _
    have hlist : ∀ m ∈ (presentOf infos list).map fun i => (⟨i, false⟩ : HostMember),
        m.uuid ∈ list := by
      intro m hm
      obtain ⟨i, hi, rfl⟩ := mem_map.1 hm
      exact (mem_presentOf hi).2
    have hsorted := pairwise_orderMembers primary (listRank list)
      (fun a ha b hb => by rw [isSome_listRank (hlist a ha), isSome_listRank (hlist b hb)]) hms
    refine pairwise_map.2 (hsorted.imp_of_mem fun {a b} ha hb hab => ?_)
    have hkey : ∀ m ∈ orderMembers ((presentOf infos list).map fun i => ⟨i, false⟩) primary
        (listRank list), orderKey primary (fun u => (listRank list u).getD 0) m
          = orderKey primary (HostSet.position (listSet infos list source primary)) m := by
      refine fun m hm => orderKey_congr rfl ?_
      rw [listRank_eq_idxOf hnodup (hlist m (mem_orderMembers.1 hm))]
      rfl
    rw [hkey a ha, hkey b hb] at hab
    exact hab
  not_copied := fun h => absurd rfl h
  broken_alone := fun h => absurd rfl h

/-! ### Members of an installation -/

section Members

variable {id : InstallId} {primary : Option FatUuid} {ignored : List Ignored}

theorem mem_group : i ∈ group infos id ↔ i ∈ infos ∧ i.installId = some id := by
  simp [group, mem_filter]

/-- A UUID that no two devices carry occurs once among the ESPs of a scan. -/
theorem nodup_uuids_of_sublist {l : List EspInfo} (hsub : l.Sublist infos)
    (hcount : ∀ i ∈ l, (devsOf infos i.uuid).length ≤ 1) : (l.map (·.uuid)).Nodup := by
  refine nodup_iff_count_le_one.2 fun u => ?_
  by_cases hu : u ∈ l.map (·.uuid)
  · obtain ⟨i, hi, rfl⟩ := mem_map.1 hu
    refine Nat.le_trans ?_ (hcount i hi)
    rw [length_devsOf, List.count, countP_map, countP_eq_length_filter]
    exact (hsub.filter _).length_le
  · rw [count_eq_zero_of_not_mem hu]
    exact Nat.zero_le 1

theorem mem_orderedGroup (h : m ∈ orderedGroup infos id primary) :
    m.toEspInfo ∈ group infos id ∧ m.foreign = false := by
  obtain ⟨i, hi, rfl⟩ := mem_map.1 (mem_orderMembers.1 h)
  exact ⟨hi, rfl⟩

theorem nodup_orderedGroup (hcount : ∀ i ∈ group infos id, (devsOf infos i.uuid).length ≤ 1) :
    ((orderedGroup infos id primary).map (·.uuid)).Nodup := by
  have hperm := (orderMembers_perm ((group infos id).map fun i => ⟨i, false⟩) primary
    fun _ => none).map fun m => m.uuid
  rw [map_map] at hperm
  exact hperm.nodup_iff.2 (nodup_uuids_of_sublist filter_sublist hcount)

/-- A marker that is valid is neither copied nor broken. -/
theorem not_copied_of_installId (h : i.installId = some id) :
    i.copiedMarker = none ∧ i.marker.isBroken = false := by
  rw [EspInfo.installId, EspInfo.validMember] at h
  rw [EspInfo.copiedMarker]
  cases hmarker : i.marker with
  | absent => simp [hmarker] at h
  | broken err => simp [hmarker] at h
  | decoded m =>
    by_cases hm : m.espUuid = i.uuid
    · exact ⟨if_pos hm, rfl⟩
    · simp [hmarker, hm] at h

theorem selected_memberSet (hcount : ∀ i ∈ group infos id, (devsOf infos i.uuid).length ≤ 1)
    (hne : group infos id ≠ []) : Selected infos primary (memberSet infos id primary ignored) where
  members_ne_nil := fun h => by
    have hperm := orderMembers_perm ((group infos id).map fun i => ⟨i, false⟩) primary fun _ => none
    rw [show orderMembers _ _ _ = [] from h] at hperm
    exact hne (map_eq_nil_iff.1 hperm.nil_eq.symm)
  nodup_uuids := nodup_orderedGroup hcount
  on_one_device := fun m hm => by
    have hi := (mem_orderedGroup hm).1
    refine ⟨(mem_group.1 hi).1, le_antisymm (hcount _ hi) (length_pos_of_ne_nil fun h => ?_)⟩
    exact devsOf_eq_nil.1 h _ (mem_group.1 hi).1 rfl
  missing_eq := by
    refine List.Pairwise.insertionSort_eq (List.Pairwise.filter _ ?_)
    exact pairwise_insertionSort _ _
  ordered := by
    refine pairwise_orderMembers primary (fun _ => none) (fun _ _ _ _ => rfl) ?_
    rw [map_map]
    exact nodup_uuids_of_sublist filter_sublist hcount
  not_copied := fun _ m hm =>
    (not_copied_of_installId (mem_group.1 (mem_orderedGroup hm).1).2).1
  broken_alone := fun _ m hm hbroken => by
    rw [(not_copied_of_installId (mem_group.1 (mem_orderedGroup hm).1).2).2] at hbroken
    cases hbroken

end Members

/-! ### The ways of `SelectHost` -/

/-- A parsed list has no repetitions. -/
theorem nodup_of_parseUuidList {s : List UInt8} (h : parseUuidList s = .ok list) : list.Nodup := by
  have hfold : ∀ (parts : List (List UInt8)) (out : List FatUuid), out.Nodup →
      parts.foldlM parseUuidEntry out = .ok list → list.Nodup := by
    intro parts
    induction parts with
    | nil =>
      intro out hout h
      obtain rfl := pure_eq_ok.1 h
      exact hout
    | cons part parts ih =>
      intro out hout h
      rw [foldlM_cons] at h
      obtain ⟨out', hentry, hrest⟩ := bind_eq_ok.1 h
      refine ih out' ?_ hrest
      obtain ⟨u, -, hu⟩ := bind_eq_ok.1 hentry
      split_ifs at hu with hmem
      obtain rfl := Except.ok.inj hu
      exact hout.append (nodup_singleton u) (disjoint_singleton.2 hmem)
  rw [parseUuidList] at h
  split_ifs at h
  · obtain rfl := Except.ok.inj h
    exact nodup_nil
  · exact hfold _ [] nodup_nil h

variable {opts : SelectOpts} {hs : HostSet} {ignored : List Ignored}

/-- The list of a config was followed. -/
def FollowsList (infos : List EspInfo) (primary : Option FatUuid) (hs : HostSet) : Prop :=
  ∃ list source, list.Nodup ∧ selectList infos list source primary = .ok hs

theorem FollowsList.selected {primary : Option FatUuid} (h : FollowsList infos primary hs) :
    Selected infos primary hs := by
  obtain ⟨list, source, hnodup, hok⟩ := h
  obtain ⟨hcount, hne, rfl⟩ := selectList_eq_ok.1 hok
  exact selected_listSet hnodup hcount hne

theorem mem_qualifying (h : i ∈ qualifying infos) :
    i ∈ infos ∧ (i.isUnmarked = true ∨ i.isBroken = true) := by
  rw [qualifying] at h
  split_ifs at h
  · exact ⟨(mem_filter.1 h).1, .inr (mem_filter.1 h).2⟩
  · exact ⟨(mem_filter.1 h).1, .inl (mem_filter.1 h).2⟩

/-- The legacy rule follows a list, or takes one ESP without a marker that can be read. -/
theorem selectLegacy_ok (h : selectLegacy infos ignored = .ok hs) :
    FollowsList infos none hs ∨ ∃ i ignored', i ∈ infos ∧ (devsOf infos i.uuid).length ≤ 1
      ∧ (i.isUnmarked = true ∨ i.isBroken = true) ∧ hs = legacySet i ignored' := by
  rw [selectLegacy] at h
  split at h
  · cases h
  · rename_i i hqual
    have hi := mem_qualifying (hqual ▸ mem_singleton_self i)
    split_ifs at h with hcount hlist
    · split at h
      · cases h
      · rename_i list hparse
        exact .inl ⟨list, _, nodup_of_parseUuidList hparse, h⟩
    · exact .inr ⟨i, _, hi.1, Nat.not_lt.1 hcount, hi.2, (Except.ok.inj h).symm⟩
  · rw [selectSeveral] at h
    split at h
    · rename_i list hagreed
      obtain ⟨raw, -, hparse⟩ := Option.map_eq_some_iff.1 hagreed
      exact .inl ⟨list, _, nodup_of_parseUuidList hparse, h⟩
    · cases h

theorem selected_legacySet (hi : i ∈ infos) (hcount : (devsOf infos i.uuid).length ≤ 1)
    (hmarker : i.isUnmarked = true ∨ i.isBroken = true) (primary : Option FatUuid) :
    Selected infos primary (legacySet i ignored) where
  members_ne_nil := cons_ne_nil _ _
  nodup_uuids := nodup_singleton _
  on_one_device := fun m hm => by
    obtain rfl := mem_singleton.1 hm
    refine ⟨hi, le_antisymm hcount (length_pos_of_ne_nil fun h => ?_)⟩
    exact devsOf_eq_nil.1 h _ hi rfl
  missing_eq := by simp [legacySet]
  ordered := pairwise_singleton _ _
  not_copied := fun _ m hm => by
    obtain rfl := mem_singleton.1 hm
    rw [EspInfo.copiedMarker]
    rcases hmarker with hmarker | hmarker
    · simp only [EspInfo.isUnmarked, decide_eq_true_eq] at hmarker
      rw [hmarker.2.2]
    · simp only [EspInfo.isBroken, decide_eq_true_eq] at hmarker
      cases hm : i.marker with
      | broken err => rfl
      | absent => simp [hm, Marker.isBroken] at hmarker
      | decoded m => simp [hm, Marker.isBroken] at hmarker
  broken_alone := fun _ m hm _ => ⟨rfl, by rw [mem_singleton.1 hm]; rfl⟩

/-- The rule for an installation follows the list of its best member, or takes its members. In both
cases none of them is on two devices. -/
theorem selectMembers_ok {id : InstallId} {primary : Option FatUuid}
    (h : selectMembers infos id primary ignored = .ok hs) :
    (∀ i ∈ group infos id, (devsOf infos i.uuid).length ≤ 1)
      ∧ ((∃ best list, (orderedGroup infos id primary).head? = some best ∧ best.configList ≠ []
          ∧ parseUuidList best.configList = .ok list
          ∧ selectList infos list (.configOf best.uuid) primary = .ok hs)
        ∨ hs = memberSet infos id primary ignored) := by
  rw [selectMembers] at h
  split at h
  · cases h
  · rename_i hfind
    refine ⟨by simpa using hfind, ?_⟩
    split at h
    · rename_i best hbest
      obtain ⟨hhead, hne⟩ := Option.filter_eq_some_iff.1 hbest
      split at h
      · cases h
      · rename_i list hparse
        exact .inl ⟨best, list, hhead, of_decide_eq_true hne, hparse, h⟩
    · exact .inr (Except.ok.inj h).symm

theorem markedPrimary_eq_some {p : EspInfo} {m : Member} :
    markedPrimary infos opts = some (p, m) ↔ ∃ u, opts.primaryUuid = some u
      ∧ infoByUuid infos u = some p ∧ p.validMember = some m := by
  simp only [markedPrimary, Option.bind_eq_bind, Option.bind_eq_some_iff]
  constructor
  · rintro ⟨u, hu, p', hp, m', hm, heq⟩
    obtain ⟨rfl, rfl⟩ := Prod.mk.inj (Option.some.inj heq)
    exact ⟨u, hu, hp, hm⟩
  · rintro ⟨u, hu, hp, hm⟩
    exact ⟨u, hu, p, hp, m, hm, rfl⟩

/-- The installation that is chosen has a member. -/
theorem group_ne_nil {id : InstallId} (h : chooseInstallation infos opts = .ok id) :
    group infos id ≠ [] := by
  have hmem : ∃ i ∈ infos, i.installId = some id := by
    rw [chooseInstallation] at h
    split at h
    · rename_i p m hprimary
      split_ifs at h
      obtain rfl := Except.ok.inj h
      obtain ⟨u, -, hfind, hvalid⟩ := markedPrimary_eq_some.1 hprimary
      exact ⟨p, (mem_of_infoByUuid hfind).1, by rw [EspInfo.installId, hvalid]; rfl⟩
    · rename_i id' _ hids
      obtain rfl := Except.ok.inj h
      have hmem : id' ∈ installIds infos := by rw [hids]; exact mem_singleton_self _
      obtain ⟨i, hi, hid⟩ := mem_filterMap.1 (mem_dedup.1 hmem)
      exact ⟨i, hi, hid⟩
    · cases h
  obtain ⟨i, hi, hid⟩ := hmem
  exact ne_nil_of_mem (mem_group.2 ⟨hi, hid⟩)

/-- The scan is left to the legacy rule. -/
def Legacy (infos : List EspInfo) (opts : SelectOpts) : Prop :=
  installIds infos = [] ∨ givesWay infos opts = true

instance (infos : List EspInfo) (opts : SelectOpts) : Decidable (Legacy infos opts) :=
  inferInstanceAs (Decidable (_ ∨ _))

/-- The ways on which `SelectHost` succeeds. -/
theorem selectHost_ok (h : selectHost infos opts = .ok hs) :
    (opts.list ≠ [] ∧ selectList infos opts.list opts.listSource opts.primaryUuid = .ok hs)
    ∨ (opts.list = [] ∧ Legacy infos opts ∧ ∃ ignored, selectLegacy infos ignored = .ok hs)
    ∨ (opts.list = [] ∧ ¬ Legacy infos opts ∧ ∃ id, chooseInstallation infos opts = .ok id
      ∧ selectMembers infos id opts.primaryUuid (infos.filterMap markerIgnored) = .ok hs) := by
  rw [selectHost] at h
  split_ifs at h with hlist hids hgives
  · exact .inl ⟨hlist, h⟩
  · exact .inr (.inl ⟨not_not.1 hlist, .inl hids, _, h⟩)
  · exact .inr (.inl ⟨not_not.1 hlist, .inr hgives, _, h⟩)
  · obtain ⟨id, hid, hok⟩ := bind_eq_ok.1 h
    exact .inr (.inr ⟨not_not.1 hlist, not_or.2 ⟨hids, hgives⟩, id, hid, hok⟩)

/-- The primary ESP as far as the selection passes it: the legacy rule does not. -/
def passedPrimary (infos : List EspInfo) (opts : SelectOpts) : Option FatUuid :=
  if opts.list = [] ∧ Legacy infos opts then none else opts.primaryUuid

/-- The sets that `SelectHost` returns: those of a list, an ESP without a marker that can be read, and
the members of an installation. -/
theorem selectHost_ways (hnodup : opts.list.Nodup) (h : selectHost infos opts = .ok hs) :
    FollowsList infos (passedPrimary infos opts) hs
    ∨ (∃ i ignored, i ∈ infos ∧ (devsOf infos i.uuid).length ≤ 1
      ∧ (i.isUnmarked = true ∨ i.isBroken = true) ∧ hs = legacySet i ignored)
    ∨ ∃ id ignored, (∀ i ∈ group infos id, (devsOf infos i.uuid).length ≤ 1) ∧ group infos id ≠ []
      ∧ hs = memberSet infos id (passedPrimary infos opts) ignored := by
  rcases selectHost_ok h with ⟨hlist, hok⟩ | ⟨hlist, hlegacy, ignored, hok⟩
    | ⟨hlist, hlegacy, id, hid, hok⟩
  · rw [passedPrimary, if_neg fun h => hlist h.1]
    exact .inl ⟨_, _, hnodup, hok⟩
  · rw [passedPrimary, if_pos ⟨hlist, hlegacy⟩]
    rcases selectLegacy_ok hok with hfollows | hlegacySet
    · exact .inl hfollows
    · exact .inr (.inl hlegacySet)
  · rw [passedPrimary, if_neg fun h => hlegacy h.2]
    obtain ⟨hcount, ⟨best, list, -, -, hparse, hlist⟩ | hset⟩ := selectMembers_ok hok
    · exact .inl ⟨list, _, nodup_of_parseUuidList hparse, hlist⟩
    · exact .inr (.inr ⟨id, _, hcount, group_ne_nil hid, hset⟩)

theorem selected_of_selectHost (hnodup : opts.list.Nodup) (h : selectHost infos opts = .ok hs) :
    Selected infos (passedPrimary infos opts) hs := by
  rcases selectHost_ways hnodup h with hfollows | ⟨i, ignored, hi, hcount, hmarker, rfl⟩
    | ⟨id, ignored, hcount, hne, rfl⟩
  · exact hfollows.selected
  · exact selected_legacySet hi hcount hmarker _
  · exact selected_memberSet hcount hne

/-- The UUID `AAAA-0001`. -/
def uuidA : FatUuid := ⟨[0x41, 0x41, 0x41, 0x41, 0x2D, 0x30, 0x30, 0x30, 0x31], by decide⟩

/-- An ESP from before markers. -/
def legacyEsp : EspInfo := ⟨"/dev/sda1", uuidA, fatVolumeLabel, true, true, .absent, []⟩

/-- Nothing is given on the command line. -/
def noOpts : SelectOpts := ⟨[], .given "", none⟩

end ZfsBoot.Proofs.Tool.EspSet
