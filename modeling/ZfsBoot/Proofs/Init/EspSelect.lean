import ZfsBoot.Proofs.Init.EspMember
import ZfsBoot.Proofs.Tool.EspChoice

/-!
# `ZfsBoot.Proofs.Init.EspSelect`: the same ESP for the tool and for `/init`

What `/init` selects from a scan is compared with what `SelectHost` returns for it, where nothing is
given on either command line: no list, no booted ESP and no primary. The two have the same rules, and
each step of one is matched with the step of the other: which rows count, the order of the members
and of a list (`espOrderList_eq`, `candidates_eq`), what a list leads to (`espSelectList_eq`).

They part in the lists of the configs. A list that is malformed is an error for the tool, and `/init`
goes on without it. `SameRules` says what has to hold where that can happen.
-/

set_option autoImplicit false

namespace ZfsBoot.Proofs.Init

open List
open Lib ZfsBoot.Tool ZfsBoot.Init Tool.EspSet

variable {primary : Option FatUuid} {given : Option InstallId} {a b : EspInfo} {m : HostMember}
  {rest : List EspInfo} {infos : List EspInfo} {list : List FatUuid} {u : FatUuid} {i : EspInfo}
  {payloadOk : FatUuid → Bool}

/-! ### Rows -/

theorem espCount_eq (infos : List EspInfo) (u : FatUuid) :
    espCount infos u = (devsOf infos u).length := by
  rw [espCount, length_devsOf, countP_eq_length_filter]

theorem espRow_eq (infos : List EspInfo) (u : FatUuid) : espRow infos u = infoByUuid infos u := rfl

theorem firstMarked_eq (infos : List EspInfo) (list : List FatUuid) :
    firstMarked infos list = listIdentity infos list := by
  simp only [firstMarked, listIdentity, espCount_eq, espRow_eq]

theorem legacyRows_eq (infos : List EspInfo) : legacyRows infos = qualifying infos := by
  rw [legacyRows, qualifying, usesBroken]
  split
  · rename_i i hunmarked hbroken
    rw [if_pos (by simp [hunmarked, hbroken]), hbroken]
  · rename_i hcase
    rw [if_neg]
    simp only [decide_eq_true_eq, not_and]
    intro hunmarked hone
    obtain ⟨i, hi⟩ := length_eq_one_iff.1 hone
    exact hcase i hunmarked hi

/-! ### Orders -/

/-- What `_esp_order_list` sorts by. -/
def listKey (infos : List EspInfo) (list : List FatUuid) (u : FatUuid) : ℕᵒᵈ ×ₗ ℕ :=
  toLex (OrderDual.toDual (generationAt infos u), list.idxOf u)

theorem listKey_le_iff {u v : FatUuid} : listKey infos list u ≤ listKey infos list v ↔
    generationAt infos v < generationAt infos u ∨
      (generationAt infos u = generationAt infos v ∧ list.idxOf u ≤ list.idxOf v) := by
  simp only [listKey, Prod.Lex.toLex_le_toLex, OrderDual.toDual_lt_toDual, OrderDual.toDual_inj]

/-- The position that `zipIdx` gives to an element of a list without repetitions. -/
theorem idxOf_of_mem_zipIdx (hnodup : list.Nodup) {e : FatUuid × Nat} (he : e ∈ list.zipIdx) :
    list.idxOf e.1 = e.2 := by
  obtain ⟨hlt, hget⟩ := List.getElem?_eq_some_iff.1 (mem_zipIdx_iff_getElem?.1 he)
  rw [← hget, hnodup.idxOf_getElem]

theorem pairwise_espOrderList (infos : List EspInfo) (hnodup : list.Nodup) :
    (espOrderList infos list).Pairwise fun u v => listKey infos list u ≤ listKey infos list v := by
  rw [espOrderList, pairwise_map]
  refine pairwise_insertionSort_of_key fun a ha b hb => ?_
  rw [listKey_le_iff, idxOf_of_mem_zipIdx hnodup (mem_filter.1 ha).1,
    idxOf_of_mem_zipIdx hnodup (mem_filter.1 hb).1, orderListLe, decide_eq_true_eq]

theorem espOrderList_perm (infos : List EspInfo) (list : List FatUuid) :
    (espOrderList infos list).Perm (list.filter fun u => espCount infos u = 1) := by
  have hfilter : ((list.zipIdx.filter fun e => espCount infos e.1 = 1).map Prod.fst)
      = list.filter fun u => espCount infos u = 1 := by
    conv_rhs => rw [← zipIdx_map_fst 0 list]
    rw [filter_map]
    rfl
  rw [← hfilter]
  exact (perm_insertionSort _ _).map _

section List

variable (source : ListSource) (hnodup : list.Nodup)
  (hcount : ∀ u ∈ list, (devsOf infos u).length ≤ 1)

/-- The row of a member is its entry of the scan. -/
theorem espRow_member (hm : m.toEspInfo ∈ infos)
    (hcount : (devsOf infos m.uuid).length ≤ 1) : espRow infos m.uuid = some m.toEspInfo :=
  infoByUuid_of_mem hm hcount

include hnodup hcount in
/-- The order of a list is the same for both. -/
theorem espOrderList_eq :
    espOrderList infos list = (listSet infos list source none).members.map (·.uuid) := by
  have hfilter : (list.filter fun u => espCount infos u = 1)
      = list.filter fun u => devsOf infos u ≠ [] := by
    refine filter_congr fun u hu => decide_eq_decide.2 ?_
    have hle := hcount u hu
    rw [espCount_eq, ← length_pos_iff]
    omega
  have hperm : (espOrderList infos list).Perm
      ((listSet infos list source none).members.map (·.uuid)) :=
    (espOrderList_perm infos list).trans (hfilter ▸ (map_uuid_listSet infos list source none).symm)
  by_cases hne : presentOf infos list = []
  · rw [show (listSet infos list source none).members = [] by rw [listSet, hne]; rfl] at hperm ⊢
    exact hperm.eq_nil
  have hselected : Selected infos none (listSet infos list source none) :=
    selected_listSet hnodup hcount hne
  refine eq_of_perm_of_key hperm (fun a ha b _ h => ?_) (pairwise_espOrderList infos hnodup) ?_
  · have hidx := (Prod.mk.inj (toLex_inj.1 h)).2
    have hmem := (mem_filter.1 ((espOrderList_perm infos list).mem_iff.1 ha)).1
    exact (idxOf_inj hmem).1 hidx
  · rw [pairwise_map]
    refine hselected.ordered.imp_of_mem fun {a b} ha hb hab => ?_
    obtain ⟨hain, hau⟩ := mem_members_listSet ha
    obtain ⟨hbin, hbu⟩ := mem_members_listSet hb
    have hrow := espRow_member hain (hcount _ hau)
    have hrow' := espRow_member hbin (hcount _ hbu)
    rw [listKey_le_iff, generationAt, generationAt, hrow, hrow']
    -- no member is the primary, so the generation and the position are left of the key
    have hle := hab.le
    simp only [orderKey, Prod.Lex.toLex_le_toLex, OrderDual.toDual_lt_toDual, OrderDual.toDual_inj,
      ne_eq, reduceCtorEq, not_false_eq_true, decide_true, lt_irrefl, true_and, false_or] at hle
    exact hle.imp_right (And.imp_right fun h => h.elim le_of_lt fun h => h.1.le)

end List

/-- What the candidates of an installation are sorted by. -/
def candidateKey (i : EspInfo) : ℕᵒᵈ ×ₗ FatUuid := toLex (OrderDual.toDual i.generation, i.uuid)

theorem candidateKey_le_iff : candidateKey a ≤ candidateKey b ↔
    b.generation < a.generation ∨ (a.generation = b.generation ∧ a.uuid ≤ b.uuid) := by
  simp only [candidateKey, Prod.Lex.toLex_le_toLex, OrderDual.toDual_lt_toDual, OrderDual.toDual_inj]

/-- The order of the members is the same for both. -/
theorem candidates_eq {id : InstallId}
    (hcount : ∀ i ∈ group infos id, (devsOf infos i.uuid).length ≤ 1) :
    candidates infos id = (orderedGroup infos id none).map HostMember.toEspInfo := by
  have hgroup : ((orderedGroup infos id none).map HostMember.toEspInfo).Perm (group infos id) := by
    have hmap := (orderMembers_perm ((group infos id).map fun i => ⟨i, false⟩) none
      fun _ => none).map HostMember.toEspInfo
    rw [map_map] at hmap
    exact hmap.trans (List.Perm.of_eq (map_id _))
  have hperm : (candidates infos id).Perm
      ((orderedGroup infos id none).map HostMember.toEspInfo) :=
    (perm_insertionSort _ _).trans hgroup.symm
  have hinj : ∀ a ∈ candidates infos id, ∀ b ∈ candidates infos id,
      candidateKey a = candidateKey b → a = b := by
    intro a ha b hb h
    have huuid := (Prod.mk.inj (toLex_inj.1 h)).2
    have ha := (mem_insertionSort _).1 ha
    have hb := (mem_insertionSort _).1 hb
    have hfind := infoByUuid_of_mem (mem_group.1 ha).1 (hcount a ha)
    rw [huuid, infoByUuid_of_mem (mem_group.1 hb).1 (hcount b hb)] at hfind
    exact (Option.some.inj hfind).symm
  have hshell : (candidates infos id).Pairwise fun a b => candidateKey a ≤ candidateKey b := by
    refine pairwise_insertionSort_of_key fun a _ b _ => ?_
    rw [candidateKey_le_iff, candidateLe, decide_eq_true_eq]
  refine eq_of_perm_of_key hperm hinj hshell (pairwise_map.2 ?_)
  have hnodup : (((group infos id).map fun i => (⟨i, false⟩ : HostMember)).map (·.uuid)).Nodup := by
    rw [map_map]
    exact nodup_uuids_of_sublist filter_sublist hcount
  refine (pairwise_orderMembers none (fun _ => none) (fun _ _ _ _ => rfl) hnodup).imp ?_
  intro a b hab
  have hle := hab.le
  simp only [orderKey, Prod.Lex.toLex_le_toLex, OrderDual.toDual_lt_toDual, OrderDual.toDual_inj,
    ne_eq, reduceCtorEq, not_false_eq_true, decide_true, lt_irrefl, true_and, false_or] at hle
  exact candidateKey_le_iff.2 hle

/-! ### What a list leads to -/

/-- The ESP that the tool puts first among its own. -/
def pick (r : Except SelectError HostSet) : Option FatUuid :=
  r.toOption.bind fun hs => (hs.members.find? fun m => !m.foreign).map (·.uuid)

theorem pick_of_not_ok {r : Except SelectError HostSet} (h : ∀ hs, r ≠ .ok hs) : pick r = none := by
  cases r with
  | error e => rfl
  | ok hs => exact absurd rfl (h hs)

/-- Candidates that are all complete: the first one is taken. -/
theorem firstUsable_uuid {reason : FatUuid → String} {us : List FatUuid}
    (h : ∀ u ∈ us, payloadOk u = true) :
    (firstUsable payloadOk infos reason us).map Selection.uuid = us.head? := by
  cases us with
  | nil => rfl
  | cons u us =>
    rw [firstUsable, List.find?_cons_of_pos (h u mem_cons_self)]
    rfl

/-- The identity of a list is that of an ESP of the scan. -/
theorem exists_of_listIdentity {id : InstallId} (h : listIdentity infos list = some id) :
    ∃ u ∈ list, ∃ i, infoByUuid infos u = some i ∧ i.installId = some id := by
  obtain ⟨u, hu, hid⟩ := exists_of_findSome?_eq_some h
  split_ifs at hid
  obtain ⟨i, hi, hid⟩ := Option.bind_eq_some_iff.1 hid
  exact ⟨u, hu, i, hi, hid⟩

/-- A list on which an ESP has a marker has an identity. -/
theorem listIdentity_ne_none {id : InstallId} (hu : u ∈ list) (hcount : (devsOf infos u).length ≤ 1)
    (hi : infoByUuid infos u = some i) (hid : i.installId = some id) :
    listIdentity infos list ≠ none := by
  intro hnone
  have hone : (devsOf infos u).length = 1 := by
    refine le_antisymm hcount (length_pos_of_ne_nil fun hnil => ?_)
    rw [infoByUuid_eq_none.2 hnil] at hi
    cases hi
  have := List.findSome?_eq_none_iff.1 hnone u hu
  rw [if_pos hone, hi] at this
  rw [Option.bind_some, hid] at this
  cases this

theorem foreign_of_mem_listSet {source : ListSource}
    (hm : m ∈ (listSet infos list source primary).members) :
    m.foreign = decide (m.validMember.isSome ∧ m.installId ≠ listIdentity infos list) := by
  obtain ⟨m', -, rfl⟩ := mem_map.1 hm
  rfl

/-- Whether a listed ESP belongs to another installation is the same for both. A given identity is
that of all markers. -/
theorem markedForeign_eq {source : ListSource}
    (hgiven : ∀ gid ∈ given, ∀ i ∈ infos, ∀ id ∈ i.installId, id = gid)
    (hcount : ∀ u ∈ list, (devsOf infos u).length ≤ 1)
    (hm : m ∈ (listSet infos list source none).members) :
    markedForeign infos (given <|> listIdentity infos list) m.uuid = m.foreign := by
  obtain ⟨hin, hu⟩ := mem_members_listSet hm
  have hrow := espRow_member hin (hcount _ hu)
  unfold markedForeign
  rw [hrow, Option.bind_some, foreign_of_mem_listSet hm]
  cases hid : m.installId with
  | none =>
    have hvalid : m.validMember = none := Option.map_eq_none_iff.1 hid
    simp [hvalid]
  | some id =>
    have hvalid : m.validMember.isSome = true := by
      obtain ⟨marker, hmarker, -⟩ := Option.map_eq_some_iff.1 hid
      exact Option.isSome_of_eq_some hmarker
    obtain ⟨lid, hlid⟩ :=
      Option.ne_none_iff_exists'.1 (listIdentity_ne_none hu (hcount _ hu) hrow hid)
    cases given with
    | none => simp [hlid, hvalid]
    | some gid =>
      obtain ⟨v, -, i, hi, hiid⟩ := exists_of_listIdentity hlid
      have h1 := hgiven gid rfl _ hin id hid
      have h2 := hgiven gid rfl i (mem_of_infoByUuid hi).1 lid hiid
      simp [hlid, hvalid, h1, h2]

/-- A list leads to the same ESP, if the ESPs on it are complete. -/
theorem espSelectList_eq {source : ListSource} {text : String}
    (hnodup : list.Nodup) (hgiven : ∀ gid ∈ given, ∀ i ∈ infos, ∀ id ∈ i.installId, id = gid)
    (husable : ∀ hs, selectList infos list source none = .ok hs →
      ∀ m ∈ hs.members, m.qualifies = true ∧ payloadOk m.uuid = true) :
    (espSelectList payloadOk infos list text given).map Selection.uuid
      = pick (selectList infos list source none) := by
  rw [espSelectList]
  simp only [espCount_eq, firstMarked_eq]
  by_cases hdup : ∃ u ∈ list, 1 < (devsOf infos u).length
  · rw [if_pos hdup]
    obtain ⟨u, hu, hlt⟩ := hdup
    exact (pick_of_not_ok fun hs hok =>
      absurd ((selectList_eq_ok.1 hok).1 u hu) (Nat.not_le.2 hlt)).symm
  · have hcount : ∀ u ∈ list, (devsOf infos u).length ≤ 1 := by simpa using hdup
    rw [if_neg hdup]
    by_cases hne : presentOf infos list = []
    · have hnil : (listSet infos list source none).members = [] := by
        rw [listSet, hne]
        rfl
      rw [espOrderList_eq source hnodup hcount, hnil]
      exact (pick_of_not_ok fun hs hok => (selectList_eq_ok.1 hok).2.1 hne).symm
    · have hsel : selectList infos list source none = .ok (listSet infos list source none) :=
        selectList_eq_ok.2 ⟨hcount, hne, rfl⟩
      have hmembers := husable _ hsel
      have hown : ∀ m ∈ (listSet infos list source none).members,
          (!markedForeign infos (given <|> listIdentity infos list) m.uuid
            && qualifiesAt infos m.uuid) = !m.foreign := by
        intro m hm
        obtain ⟨hin, hu⟩ := mem_members_listSet hm
        rw [markedForeign_eq hgiven hcount hm, qualifiesAt, espRow_member hin (hcount _ hu)]
        simp [(hmembers m hm).1]
      have hfilter : ((espOrderList infos list).filter fun u =>
          !markedForeign infos (given <|> listIdentity infos list) u && qualifiesAt infos u)
            = ((listSet infos list source none).members.filter fun m => !m.foreign).map (·.uuid) := by
        rw [espOrderList_eq source hnodup hcount, filter_map]
        exact congrArg _ (filter_congr hown)
      rw [hfilter, hsel, firstUsable_uuid, List.head?_map, List.head?_filter]
      · rfl
      · intro u hu
        obtain ⟨m, hm, rfl⟩ := mem_map.1 hu
        exact (hmembers m (mem_filter.1 hm).1).2

/-! ### The rule for an installation -/

/-- The two read the same list in the config of an ESP, or neither finds one there. -/
def ReadAlike (i : EspInfo) : Prop :=
  i.configList = [] ∨ ∃ l, configUuids i = some l ∧ parseUuidList i.configList = .ok l

/-- Where the list in the config of an ESP leads the tool. -/
def listPick (infos : List EspInfo) (i : EspInfo) : Option FatUuid :=
  (parseUuidList i.configList).toOption.bind fun l =>
    pick (selectList infos l (.configOf i.uuid) none)

/-- Where the rule for an installation leads `/init`, by the config of the best member. -/
def memberPick (payloadOk : FatUuid → Bool) (infos : List EspInfo) (id : InstallId) (best : EspInfo) :
    Option FatUuid :=
  match configUuids best with
  | some l => (espSelectList payloadOk infos l (configSource best.uuid) (some id)).map Selection.uuid
  | none => (selectCandidates payloadOk infos id (candidates infos id)).map Selection.uuid

theorem configUuids_of_nil (h : i.configList = []) : configUuids i = none := by
  rw [configUuids, configField, if_pos h, if_pos (.inr rfl)]

section Members

variable {id : InstallId} {best : HostMember} {ignored : List Ignored}
  (hcount : ∀ i ∈ group infos id, (devsOf infos i.uuid).length ≤ 1)
  (hbest : (orderedGroup infos id none).head? = some best)

include hcount hbest

theorem espSelectMembers_uuid :
    (espSelectMembers payloadOk infos id).map Selection.uuid
      = memberPick payloadOk infos id best.toEspInfo := by
  have hhead : (candidates infos id).head? = some best.toEspInfo := by
    rw [candidates_eq hcount, List.head?_map, hbest]
    rfl
  have hdup : ¬ ∃ i ∈ candidates infos id, 1 < espCount infos i.uuid := by
    rintro ⟨i, hi, hlt⟩
    rw [espCount_eq] at hlt
    exact absurd (hcount i ((mem_insertionSort _).1 hi)) (Nat.not_le.2 hlt)
  rw [espSelectMembers, if_neg hdup, hhead, memberPick, Option.bind_some]
  cases configUuids best.toEspInfo <;> rfl

theorem selectMembers_of_nil (hnil : best.configList = []) :
    selectMembers infos id none ignored = .ok (memberSet infos id none ignored) := by
  have hfind : (group infos id).find? (fun i => decide (1 < (devsOf infos i.uuid).length))
      = none := by
    simpa using hcount
  rw [selectMembers, hfind, hbest]
  simp only [Option.filter_some, hnil, ne_eq, not_true_eq_false, decide_false, Bool.false_eq_true,
    if_false]

theorem pick_selectMembers :
    pick (selectMembers infos id none ignored)
      = if best.configList = [] then some best.uuid else listPick infos best.toEspInfo := by
  split_ifs with hnil
  · rw [selectMembers_of_nil hcount hbest hnil]
    have hforeign : best.foreign = false := (mem_orderedGroup (mem_of_head? hbest)).2
    obtain ⟨ms, hms⟩ := List.head?_eq_some_iff.1 hbest
    simp [pick, Except.toOption, memberSet, hms, hforeign]
  · have hfind : (group infos id).find? (fun i => decide (1 < (devsOf infos i.uuid).length))
        = none := by
      simpa using hcount
    rw [selectMembers, hfind, hbest]
    simp only [Option.filter_some, hnil, ne_eq, not_false_eq_true, decide_true, if_true, listPick]
    cases parseUuidList best.configList <;> rfl

/-- Members that are all complete: the best one is taken. -/
theorem selectCandidates_uuid (husable : ∀ m ∈ orderedGroup infos id none,
      m.qualifies = true ∧ payloadOk m.uuid = true) :
    (selectCandidates payloadOk infos id (candidates infos id)).map Selection.uuid
      = some best.uuid := by
  have hall : ((candidates infos id).map EspInfo.uuid).filter (qualifiesAt infos)
      = (orderedGroup infos id none).map (·.uuid) := by
    rw [candidates_eq hcount, map_map]
    refine filter_eq_self.2 fun u hu => ?_
    obtain ⟨m, hm, rfl⟩ := mem_map.1 hu
    have hgroup := (mem_orderedGroup hm).1
    have hrow : espRow infos m.uuid = some m.toEspInfo :=
      espRow_member (mem_group.1 hgroup).1 (hcount _ hgroup)
    simp [qualifiesAt, hrow, (husable m hm).1]
  rw [selectCandidates, hall, firstUsable_uuid, List.head?_map, hbest]
  · rfl
  · intro u hu
    obtain ⟨m, hm, rfl⟩ := mem_map.1 hu
    exact (husable m hm).2

/-- The two rules lead to the same ESP if they read the list of the best member alike. Else it
depends on where its list leads the tool. -/
theorem member_rule_iff (hids : installIds infos = [id])
    (husable : ∀ hs, selectMembers infos id none ignored = .ok hs →
      ∀ m ∈ hs.members, m.qualifies = true ∧ payloadOk m.uuid = true) :
    (espSelectMembers payloadOk infos id).map Selection.uuid
        = pick (selectMembers infos id none ignored)
      ↔ (¬ ReadAlike best.toEspInfo →
        memberPick payloadOk infos id best.toEspInfo = listPick infos best.toEspInfo) := by
  rw [espSelectMembers_uuid hcount hbest, pick_selectMembers hcount hbest]
  by_cases halike : ReadAlike best.toEspInfo
  · refine iff_of_true ?_ fun h => absurd halike h
    rcases halike with hnil | ⟨l, hl, hparse⟩
    · rw [if_pos hnil, memberPick, configUuids_of_nil hnil]
      exact selectCandidates_uuid hcount hbest (husable _ (selectMembers_of_nil hcount hbest hnil))
    · have hne : best.configList ≠ [] := fun hnil => by
        rw [configUuids_of_nil hnil] at hl
        cases hl
      have hgiven : ∀ gid ∈ some id, ∀ i ∈ infos, ∀ id' ∈ i.installId, id' = gid := by
        rintro gid hgid i hi id' hid
        obtain rfl := Option.some.inj hgid
        have hmem : id' ∈ installIds infos :=
          mem_dedup.2 (mem_filterMap.2 ⟨i, hi, hid⟩)
        rwa [hids, mem_singleton] at hmem
      rw [if_neg hne, memberPick, hl, listPick, hparse]
      refine espSelectList_eq (nodup_of_parseUuidList hparse) hgiven fun hs hok => husable hs ?_
      rw [selectMembers_of_list hcount hbest hne hparse, hok]
  · rw [if_neg fun hnil => halike (.inl hnil)]
    exact ⟨fun h _ => h, fun h => h halike⟩

end Members

/-! ### The rule without markers -/

/-- Where the only unmarked ESP leads `/init`. -/
def singlePick (payloadOk : FatUuid → Bool) (infos : List EspInfo) (i : EspInfo) : Option FatUuid :=
  match configUuids i with
  | some l => (espSelectList payloadOk infos l (configSource i.uuid) none).map Selection.uuid
  | none => some i.uuid

/-- The list that the tool takes from several unmarked ESPs. -/
def agreedUuids (qual : List EspInfo) : Option (List FatUuid) :=
  (agreedList qual).bind fun c => (parseUuidList c).toOption

/-- Where several unmarked ESPs lead the tool. -/
def severalPick (infos : List EspInfo) : Option FatUuid :=
  (agreedUuids (qualifying infos)).bind fun l => pick (selectList infos l .unmarked none)

/-- Where their lists lead `/init`, if no two of them have the same UUID. -/
def commonPick (payloadOk : FatUuid → Bool) (infos : List EspInfo) : Option FatUuid :=
  (commonUuids (qualifying infos)).bind fun l =>
    (espSelectList payloadOk infos l "EFI/ALPINE/config of the unmarked ESPs" none).map
      Selection.uuid

section Legacy

variable {ignored : List Ignored}

theorem espSelectLegacy_of_dup (hdup : ∃ i ∈ qualifying infos, 1 < (devsOf infos i.uuid).length) :
    espSelectLegacy payloadOk infos = none := by
  simp only [espSelectLegacy, legacyRows_eq, espCount_eq]
  rw [if_pos hdup]

theorem espSelectLegacy_single (hqual : qualifying infos = [i])
    (hcount : (devsOf infos i.uuid).length ≤ 1) :
    (espSelectLegacy payloadOk infos).map Selection.uuid = singlePick payloadOk infos i := by
  simp only [espSelectLegacy, legacyRows_eq, espCount_eq, hqual]
  rw [if_neg (by simpa using hcount), singlePick]
  cases configUuids i <;> rfl

theorem pick_selectLegacy_single (hqual : qualifying infos = [i])
    (hcount : (devsOf infos i.uuid).length ≤ 1) :
    pick (selectLegacy infos ignored)
      = if i.configList = [] then some i.uuid else listPick infos i := by
  simp only [selectLegacy, hqual]
  rw [if_neg (Nat.not_lt.2 hcount)]
  by_cases hnil : i.configList = []
  · rw [if_neg (not_not.2 hnil), if_pos hnil]
    rfl
  · rw [if_pos hnil, if_neg hnil, listPick]
    cases parseUuidList i.configList <;> rfl

theorem espSelectLegacy_several (hqual : qualifying infos = a :: b :: rest)
    (hdup : ¬ ∃ i ∈ qualifying infos, 1 < (devsOf infos i.uuid).length) :
    (espSelectLegacy payloadOk infos).map Selection.uuid = commonPick payloadOk infos := by
  simp only [espSelectLegacy, legacyRows_eq, espCount_eq]
  rw [if_neg hdup, commonPick, hqual]
  exact Option.map_bind

theorem pick_selectLegacy_several (hqual : qualifying infos = a :: b :: rest) :
    pick (selectLegacy infos ignored) = severalPick infos := by
  rw [selectLegacy, severalPick, agreedUuids, hqual]
  simp only [selectSeveral, agreedList_perm (perm_insertionSort _ (a :: b :: rest))]
  cases agreedList (a :: b :: rest) with
  | none => rfl
  | some c =>
    rw [Option.map_some, Option.bind_some]
    cases parseUuidList c <;> rfl

theorem single_rule_iff (hqual : qualifying infos = [i])
    (hcount : (devsOf infos i.uuid).length ≤ 1)
    (husable : ∀ hs, selectLegacy infos ignored = .ok hs →
      ∀ m ∈ hs.members, m.qualifies = true ∧ payloadOk m.uuid = true) :
    (espSelectLegacy payloadOk infos).map Selection.uuid = pick (selectLegacy infos ignored)
      ↔ (¬ ReadAlike i → singlePick payloadOk infos i = listPick infos i) := by
  rw [espSelectLegacy_single hqual hcount, pick_selectLegacy_single hqual hcount]
  by_cases halike : ReadAlike i
  · refine iff_of_true ?_ fun h => absurd halike h
    rcases halike with hnil | ⟨l, hl, hparse⟩
    · rw [if_pos hnil, singlePick, configUuids_of_nil hnil]
    · have hne : i.configList ≠ [] := fun hnil => by
        rw [configUuids_of_nil hnil] at hl
        cases hl
      rw [if_neg hne, singlePick, hl, listPick, hparse]
      refine espSelectList_eq (nodup_of_parseUuidList hparse) (fun _ h => by cases h)
        fun hs hok => husable hs ?_
      simp only [selectLegacy, hqual, hparse]
      rw [if_neg (Nat.not_lt.2 hcount), if_pos hne, hok]
  · rw [if_neg fun hnil => halike (.inl hnil)]
    exact ⟨fun h _ => h, fun h => h halike⟩

theorem several_rule_iff
    (hqual : qualifying infos = a :: b :: rest)
    (husable : ∀ hs, selectLegacy infos ignored = .ok hs →
      ∀ m ∈ hs.members, m.qualifies = true ∧ payloadOk m.uuid = true) :
    (espSelectLegacy payloadOk infos).map Selection.uuid = pick (selectLegacy infos ignored)
      ↔ if ∃ i ∈ qualifying infos, 1 < (devsOf infos i.uuid).length then severalPick infos = none
        else commonUuids (qualifying infos) ≠ agreedUuids (qualifying infos) →
          commonPick payloadOk infos = severalPick infos := by
  rw [pick_selectLegacy_several hqual]
  split_ifs with hdup
  · rw [espSelectLegacy_of_dup hdup, Option.map_none, eq_comm]
  · rw [espSelectLegacy_several hqual hdup]
    by_cases hsame : commonUuids (qualifying infos) = agreedUuids (qualifying infos)
    · refine iff_of_true ?_ fun h => absurd hsame h
      rw [commonPick, severalPick, hsame]
      cases hagreed : agreedUuids (qualifying infos) with
      | none => rfl
      | some l =>
        obtain ⟨c, hc, hparse⟩ := Option.bind_eq_some_iff.1 hagreed
        have hparse := toOption_eq_some.1 hparse
        refine espSelectList_eq (nodup_of_parseUuidList hparse) (fun _ h => by cases h)
          fun hs hok => husable hs ?_
        rw [hqual] at hc
        rw [selectLegacy, hqual]
        simp only [selectSeveral, agreedList_perm (perm_insertionSort _ (a :: b :: rest)), hc,
          Option.map_some, hparse]
        exact hok
    · exact ⟨fun h _ => h, fun h => h hsame⟩

end Legacy

/-! ### The whole selection -/

/-- Nothing is given: no list, and no primary ESP. -/
def bareOpts (source : ListSource) : SelectOpts := ⟨[], source, none⟩

/-- The ESPs of the tool's set have their files, and their payload has its sizes. -/
def Usable (payloadOk : FatUuid → Bool) (infos : List EspInfo) (source : ListSource) : Prop :=
  ∀ hs, selectHost infos (bareOpts source) = .ok hs →
    ∀ m ∈ hs.members, m.qualifies = true ∧ payloadOk m.uuid = true

/-- `/init` selects nothing where the tool has an error, and else the first of the tool's members
that is not foreign. -/
structure SameEsp (payloadOk : FatUuid → Bool) (infos : List EspInfo) (source : ListSource) :
    Prop where
  none_iff : espSelect payloadOk infos [] [] = none ↔
    ∀ hs, selectHost infos (bareOpts source) ≠ .ok hs
  uuid_eq : ∀ hs s, selectHost infos (bareOpts source) = .ok hs →
    espSelect payloadOk infos [] [] = some s →
      (hs.members.find? fun m => !m.foreign).map (·.uuid) = some s.uuid

/-- What has to hold where the two can part: the lists of the configs that decide are read alike, or
lead to the same ESP all the same, and unmarked ESPs with one UUID lead the tool nowhere. -/
structure SameRules (payloadOk : FatUuid → Bool) (infos : List EspInfo) (source : ListSource) :
    Prop where
  member : ∀ id best, Chooses infos (bareOpts source) id →
    (∀ i ∈ group infos id, (devsOf infos i.uuid).length ≤ 1) →
    (orderedGroup infos id none).head? = some best → ¬ ReadAlike best.toEspInfo →
      memberPick payloadOk infos id best.toEspInfo = listPick infos best.toEspInfo
  single : ∀ i, Legacy infos (bareOpts source) → qualifying infos = [i] →
    (devsOf infos i.uuid).length ≤ 1 → ¬ ReadAlike i →
      singlePick payloadOk infos i = listPick infos i
  several : Legacy infos (bareOpts source) → 2 ≤ (qualifying infos).length →
    if ∃ i ∈ qualifying infos, 1 < (devsOf infos i.uuid).length then severalPick infos = none
    else commonUuids (qualifying infos) ≠ agreedUuids (qualifying infos) →
      commonPick payloadOk infos = severalPick infos

section Host

variable {source : ListSource}

/-- A set has a member of its own. -/
theorem exists_own_listSet (hne : presentOf infos list ≠ [])
    (hcount : ∀ u ∈ list, (devsOf infos u).length ≤ 1) :
    ∃ m ∈ (listSet infos list source primary).members, m.foreign = false := by
  have hmember : ∀ i ∈ presentOf infos list, ∃ m ∈ (listSet infos list source primary).members,
      m.toEspInfo = i := fun i hi =>
    ⟨_, mem_map.2 ⟨⟨i, false⟩, mem_orderMembers.2 (mem_map.2 ⟨i, hi, rfl⟩), rfl⟩, rfl⟩
  cases hid : listIdentity infos list with
  | none =>
    -- no ESP of the list has a marker
    obtain ⟨i, hi⟩ := exists_mem_of_ne_nil _ hne
    obtain ⟨m, hm, rfl⟩ := hmember i hi
    refine ⟨m, hm, ?_⟩
    obtain ⟨hin, hu⟩ := mem_members_listSet hm
    rw [foreign_of_mem_listSet hm, hid, decide_eq_false_iff_not]
    rintro ⟨hvalid, -⟩
    obtain ⟨marker, hmarker⟩ := Option.isSome_iff_exists.1 hvalid
    exact listIdentity_ne_none hu (hcount _ hu) (infoByUuid_of_mem hin (hcount _ hu))
      (installId_of_validMember hmarker) hid
  | some id =>
    obtain ⟨u, hu, i, hi, hiid⟩ := exists_of_listIdentity hid
    obtain ⟨m, hm, rfl⟩ := hmember i (mem_filterMap.2 ⟨u, hu, hi⟩)
    exact ⟨m, hm, by simp [foreign_of_mem_listSet hm, hid, hiid]⟩

theorem exists_own {hs : HostSet} (h : selectHost infos (bareOpts source) = .ok hs) :
    ∃ m ∈ hs.members, m.foreign = false := by
  rcases selectHost_ok h with ⟨hne, -⟩ | ⟨-, -, ignored, hok⟩ | ⟨-, -, id, hid, hok⟩
  · exact absurd rfl hne
  · rcases selectLegacy_ok hok with ⟨l, source', -, hlist⟩ | ⟨i, ignored', -, -, -, rfl⟩
    · obtain ⟨hcount, hne, rfl⟩ := selectList_eq_ok.1 hlist
      exact exists_own_listSet hne hcount
    · exact ⟨_, mem_singleton_self _, rfl⟩
  · obtain ⟨hcount, ⟨best, l, -, -, -, hlist⟩ | rfl⟩ := selectMembers_ok hok
    · obtain ⟨hcount, hne, rfl⟩ := selectList_eq_ok.1 hlist
      exact exists_own_listSet hne hcount
    · obtain ⟨m, hm⟩ := exists_mem_of_ne_nil _
        (selected_memberSet hcount (group_ne_nil hid)).members_ne_nil
      exact ⟨m, hm, (mem_orderedGroup hm).2⟩

theorem sameEsp_iff : SameEsp payloadOk infos source ↔
    (espSelect payloadOk infos [] []).map Selection.uuid
      = pick (selectHost infos (bareOpts source)) := by
  cases hhost : selectHost infos (bareOpts source) with
  | error e =>
    have hnot : ∀ hs, selectHost infos (bareOpts source) ≠ .ok hs := by simp [hhost]
    rw [show pick (.error e) = none from rfl, Option.map_eq_none_iff]
    exact ⟨fun h => h.none_iff.2 hnot,
      fun h => ⟨iff_of_true h hnot, fun hs _ hok => absurd hok (hnot hs)⟩⟩
  | ok hs =>
    obtain ⟨m, hm, hforeign⟩ := exists_own hhost
    have hfind : (hs.members.find? fun m => !m.foreign).isSome = true :=
      List.find?_isSome.2 ⟨m, hm, by simp [hforeign]⟩
    obtain ⟨own, hown⟩ := Option.isSome_iff_exists.1 hfind
    have hpick : pick (.ok hs) = some own.uuid := by
      rw [pick, Except.toOption, Option.bind_some, hown]
      rfl
    rw [hpick]
    constructor
    · intro h
      cases hesp : espSelect payloadOk infos [] [] with
      | none => exact absurd hhost (h.none_iff.1 hesp hs)
      | some s =>
        have := h.uuid_eq hs s hhost hesp
        rw [hown] at this
        exact this.symm
    · intro h
      obtain ⟨s, hs', huuid⟩ := Option.map_eq_some_iff.1 h
      refine ⟨?_, fun hs'' s' hok hesp => ?_⟩
      · rw [hs']
        exact iff_of_false (by simp) fun hnot => hnot hs hhost
      · obtain rfl := Except.ok.inj (hhost.symm.trans hok)
        obtain rfl := Option.some.inj (hs'.symm.trans hesp)
        rw [hown, huuid]
        rfl

theorem espSelect_nothing_given :
    espSelect payloadOk infos [] [] = espSelectMarked payloadOk infos none := by
  have hself : espNormUuid [] = none := by decide
  simp only [espSelect, espSelf, hself, ne_eq, not_true_eq_false, if_false]

/-- The only installation gives way for both, or for neither. -/
theorem outranked_eq (source : ListSource) {id : InstallId} (hids : installIds infos = [id]) :
    outranked infos id = givesWay infos (bareOpts source) := by
  have hfilter : (infos.filter fun i => i.installId = some id)
      = infos.filter fun i => i.validMember.isSome := by
    refine filter_congr fun i hi => ?_
    cases hvalid : i.validMember with
    | none => simp [EspInfo.installId, hvalid]
    | some m =>
      have hmem := mem_installIds hi hvalid
      rw [hids, mem_singleton] at hmem
      simp [EspInfo.installId, hvalid, hmem]
  have hprimary : markedPrimary infos (bareOpts source) = none := rfl
  rw [outranked, givesWay, hfilter, hids, hprimary]
  simp only [length_singleton, Option.isNone_none, true_and]
  refine decide_eq_decide.2 ⟨fun h => ⟨h.1, h.2.2, h.2.1⟩, fun h => ⟨h.1, h.2.2, h.2.1⟩⟩

/-- The rules lead to the same ESP where there are no markers that count. -/
theorem legacy_iff (hlegacy : Legacy infos (bareOpts source))
    (husable : Usable payloadOk infos source) :
    (espSelectLegacy payloadOk infos).map Selection.uuid
        = pick (selectHost infos (bareOpts source))
      ↔ SameRules payloadOk infos source := by
  obtain ⟨ignored, hhost⟩ : ∃ ignored,
      selectHost infos (bareOpts source) = selectLegacy infos ignored := by
    rw [selectHost, if_neg (by simp [bareOpts])]
    by_cases hids : installIds infos = []
    · exact ⟨_, if_pos hids⟩
    · rw [if_neg hids, if_pos (hlegacy.resolve_left hids)]
      exact ⟨_, rfl⟩
  have hlegacy_usable : ∀ hs, selectLegacy infos ignored = .ok hs →
      ∀ m ∈ hs.members, m.qualifies = true ∧ payloadOk m.uuid = true :=
    fun hs hok => husable hs (hhost.trans hok)
  have hmember : ∀ id, ¬ Chooses infos (bareOpts source) id := fun id h => h.not_legacy hlegacy
  have hsingle : ∀ i, qualifying infos = [i] → ¬ 2 ≤ (qualifying infos).length := by
    intro i h
    simp [h]
  rw [hhost]
  rcases hqual : qualifying infos with _ | ⟨i, _ | ⟨b, rest⟩⟩
  · refine iff_of_true ?_ ⟨fun id _ h => absurd h (hmember id), fun i _ h => ?_, fun _ h => ?_⟩
    · simp only [espSelectLegacy, selectLegacy, legacyRows_eq, hqual]
      rfl
    · rw [hqual] at h
      cases h
    · rw [hqual] at h
      exact absurd h (by decide)
  · by_cases hcount : (devsOf infos i.uuid).length ≤ 1
    · rw [single_rule_iff hqual hcount hlegacy_usable]
      refine ⟨fun h => ⟨fun id _ h => absurd h (hmember id), fun j _ hj _ => ?_,
        fun _ h => absurd h (hsingle i hqual)⟩, fun h => h.single i hlegacy hqual hcount⟩
      obtain rfl := singleton_inj.1 (hqual.symm.trans hj)
      exact h
    · refine iff_of_true ?_ ⟨fun id _ h => absurd h (hmember id), fun j _ hj h => ?_,
        fun _ h => absurd h (hsingle i hqual)⟩
      · rw [espSelectLegacy_of_dup ⟨i, hqual ▸ mem_singleton_self i, Nat.not_le.1 hcount⟩]
        simp only [selectLegacy, hqual, if_pos (Nat.not_le.1 hcount)]
        rfl
      · obtain rfl := singleton_inj.1 (hqual.symm.trans hj)
        exact absurd h hcount
  · rw [several_rule_iff hqual hlegacy_usable]
    refine ⟨fun h => ⟨fun id _ h => absurd h (hmember id), fun j _ hj => ?_, fun _ _ => h⟩,
      fun h => h.several hlegacy (by rw [hqual]; simp)⟩
    rw [hqual] at hj
    cases hj

/-- The rules lead to the same ESP where the only installation has the markers that count. -/
theorem member_iff {id : InstallId} (hids : installIds infos = [id])
    (hgives : ¬ givesWay infos (bareOpts source) = true) (husable : Usable payloadOk infos source) :
    (espSelectMembers payloadOk infos id).map Selection.uuid
        = pick (selectHost infos (bareOpts source))
      ↔ SameRules payloadOk infos source := by
  have hlegacy : ¬ Legacy infos (bareOpts source) := by
    rintro (hnil | hgives')
    · rw [hids] at hnil
      cases hnil
    · exact hgives hgives'
  have hprimary : markedPrimary infos (bareOpts source) = none := rfl
  have hchooses : Chooses infos (bareOpts source) id :=
    ⟨rfl, hlegacy, by rw [chooseInstallation, hprimary, hids]⟩
  have hid : ∀ id', Chooses infos (bareOpts source) id' → id' = id :=
    fun id' h => Except.ok.inj (h.chosen.symm.trans hchooses.chosen)
  have hhost := selectHost_of_chooses hchooses
  rw [hhost]
  by_cases hcount : ∀ i ∈ group infos id, (devsOf infos i.uuid).length ≤ 1
  · obtain ⟨best, hbest⟩ : ∃ best, (orderedGroup infos id none).head? = some best := by
      have hne : (memberSet infos id none []).members ≠ [] :=
        (selected_memberSet hcount (group_ne_nil hchooses.chosen)).members_ne_nil
      exact ⟨_, List.head?_eq_some_head hne⟩
    rw [show (bareOpts source).primaryUuid = none from rfl,
      member_rule_iff hcount hbest hids fun hs hok => husable hs (hhost.trans hok)]
    refine ⟨fun h => ⟨fun id' best' hid' _ hbest' => ?_, fun i h => absurd h hlegacy,
      fun h => absurd h hlegacy⟩, fun h => h.member id best hchooses hcount hbest⟩
    obtain rfl := hid id' hid'
    obtain rfl := Option.some.inj (hbest.symm.trans hbest')
    exact h
  · refine iff_of_true ?_ ⟨fun id' best' hid' hcount' => ?_, fun i h => absurd h hlegacy,
      fun h => absurd h hlegacy⟩
    · push Not at hcount
      obtain ⟨i, hi, hlt⟩ := hcount
      have hcand : i ∈ candidates infos id := (mem_insertionSort _).2 hi
      rw [espSelectMembers, if_pos ⟨i, hcand, by rwa [espCount_eq]⟩]
      exact (pick_of_not_ok fun hs hok =>
        absurd ((selectMembers_ok hok).1 i hi) (Nat.not_le.2 hlt)).symm
    · obtain rfl := hid id' hid'
      exact absurd hcount' hcount

end Host

/-- An ESP from before markers whose config has a list that is no list: "x". -/
def malformedEsp : EspInfo := { legacyEsp with configList := [0x78] }

end ZfsBoot.Proofs.Init
