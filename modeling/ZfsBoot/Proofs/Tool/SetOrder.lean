import ZfsBoot.Proofs.Tool.Marker
import ZfsBoot.Tool.Command

/-!
# `ZfsBoot.Proofs.Tool.SetOrder`: a change of the set and the order of its members

`esp add`, `esp remove` and `esp adopt` write MEMBER on members whose content they do not change: the
list of members is another one now. A member that is behind must stay behind all the same.

`Leveled` says which generation each member ends with. `esp add` and `esp remove` let every member
keep its own, but one at generation 0 is raised. `esp adopt` gives one new generation to all members
that are not named on its command line, so those that were behind catch up. `set_order_iff` has the
exact condition for each.
-/

set_option autoImplicit false

namespace ZfsBoot.Proofs.Tool.SetOrder

open List hiding attach
open Lib Lib.Halting ZfsBoot.Tool ZfsBoot.Tool.Mirror
open Tool.EspSet Tool.Host
open Tool.Footprint Proofs.Tool.Marker

variable {gen : Nat} {src y : Esp} {id : Option InstallId} {answer : Bool} {forceAdopt yes : Bool}
  {o : HostOpts} {seen : List FatUuid} {targets : List EspInfo} {x m : Esp} {arg : Bytes}
  {status : Nat} {s' : Run} {w' w : World} {args : List Bytes} {fate : Nat → Fate} {ms : List Esp}
  {h₀ : Host} {u : FatUuid}

/-! ### Parts that leave MEMBER alone -/

section
variable {ε : Type} {env : Machine} {h : Host}

theorem addToLists_spares (h : Host) (uuids : List FatUuid) (ms : List Esp) :
    Spares (addToLists h uuids ms) :=
  addToLists_stays h uuids fun _ _ _ => hasFiles_spared _

theorem dropFromLists_spares (uefi : Bool) (u : FatUuid) (ms : List Esp) :
    Spares (dropFromLists uefi u ms : ToolM ε Bool) :=
  dropFromLists_stays uefi u fun _ _ _ => hasFiles_spared _

/-! ### Which generation each member ends with -/

/-- Every member of `ms` has the generation that `genOf` gives it, and MEMBER is as it was in `w`
everywhere else. -/
structure Leveled (genOf : Esp → Nat) (ms : List Esp) (w w' : World) : Prop where
  others : ∀ mp, mp ∉ ms.map Esp.mountpoint → w'.files mp .member = w.files mp .member
  each : ∀ m ∈ ms, generationOn w' m.info = genOf m

theorem finalizeMembersAt_leveled (h' : Host) (genOf : Esp → Nat) (pool : Bytes)
    (hnodup : (ms.map Esp.mountpoint).Nodup) (w : World) :
    Triple (SameMarkers w) (finalizeMembersAt env h' ms genOf pool : ToolM ε _)
      (fun errs s => errs = [] → Leveled genOf ms w s.now) fun _ _ => True :=
  ((finalizeMembersAt_spec env h' genOf pool hnodup w).post fun _ _ hs hnil =>
    ⟨hs.1.others, hs.2 hnil⟩).post_error fun _ _ _ => trivial

/-- What leaves MEMBER alone, before the rest. -/
theorem triple_spares {α β : Type} {x : ToolM ε α} {f : α → ToolM ε β} {Q : β → Run → Prop}
    (hx : Spares x) (hf : ∀ a, Triple (SameMarkers w) (f a) Q fun _ _ => True) :
    Triple (SameMarkers w) (x >>= f) Q fun _ _ => True :=
  triple_bind _ (hx.keeps.post_error fun _ _ _ => trivial) hf

/-- `esp add`, where it does not fail. -/
theorem addMember_leveled (hatt : Attached env h) (src : Esp)
    (husable : m.usable true h.uefi = .ok ()) (w : World) :
    Triple (SameMarkers w) (addMember env h src m : ToolM ε Nat)
      (fun status s => status ≠ 1 → Leveled (ownGen (addedGeneration src) m)
        (h.members.filter fun x => x.mounted ∧ ¬ x.foreign) w s.now) fun _ _ => True := by
  have hcopy : Spares (copyBootChain env h.uefi src m) :=
    spares_of_writes (copyBootChain_writes env h.uefi src m (hasDisk_of_usable husable))
  refine triple_spares (asks_outcome hcopy fun _ _ => trivial) fun copied => ?_
  rcases copied with e | ⟨⟩
  · exact triple_pure fun _ _ hne => absurd rfl hne
  · refine triple_spares (asks_outcome (addToLists_spares ..) fun _ _ => trivial) fun listed =>
      triple_spares (spares_of_reads (poolOf_reads ..)) fun pool =>
        triple_bind _ (finalizeMembersAt_leveled _ _ pool
          (hatt.nodup_mountpoints filter_sublist) w) fun errs =>
          triple_ite (fun _ => triple_pure fun _ _ hne => absurd rfl hne) fun hok =>
            triple_pure fun s hs _ => hs ?_
    by_contra hne
    exact hok (.inl hne)

/-- One group of members, and then the others. -/
theorem Leveled.groups {gen' : Nat} {w₁ : World} (hnodup : (ms.map Esp.mountpoint).Nodup)
    (h₁ : Leveled (fun _ => gen) (ms.filter Esp.added) w w₁)
    (h₂ : Leveled (fun _ => gen') (ms.filter fun m => ¬ m.added) w₁ w') :
    Leveled (fun m => if m.added then gen else gen') ms w w' where
  others mp hmp := by
    have hsub (p : Esp → Bool) : mp ∉ (ms.filter p).map Esp.mountpoint := fun hmem =>
      hmp ((filter_sublist.map Esp.mountpoint).mem hmem)
    rw [h₂.others mp (hsub _), h₁.others mp (hsub _)]
  each m hm := by
    cases hadded : m.added with
    | false => exact h₂.each m (mem_filter.mpr ⟨hm, by simp [hadded]⟩)
    | true =>
      -- the second group does not reach it
      have hout : m.mountpoint ∉ (ms.filter fun m => ¬ m.added).map Esp.mountpoint := by
        intro hmem
        obtain ⟨m', hm', heq⟩ := mem_map.mp hmem
        obtain ⟨hm', hadded'⟩ := mem_filter.mp hm'
        rw [inj_on_of_nodup_map hnodup hm' hm heq, hadded] at hadded'
        cases hadded'
      have hkept : generationOn w' m.info = generationOn w₁ m.info :=
        generationOn_congr (h₂.others _ hout)
      exact hkept.trans (h₁.each m (mem_filter.mpr ⟨hm, hadded⟩))

/-- `esp adopt`, where it does not fail. -/
theorem adoptMembers_leveled (hatt : Attached env h) (gen : Nat) (w : World) :
    Triple (SameMarkers w) (adoptMembers env h gen : ToolM ε Nat)
      (fun status s => status ≠ 1 → (∀ m ∈ h.members, m.added → m.mounted) ∧
        Leveled (fun m => if m.added then gen else gen + 1) (h.members.filter Esp.mounted) w s.now)
      fun _ _ => True := by
  have hmounted : ((h.members.filter Esp.mounted).map Esp.mountpoint).Nodup :=
    hatt.nodup_mountpoints filter_sublist
  refine triple_spares (asks_outcome (addToLists_spares ..) fun _ _ => trivial) fun listed =>
    triple_bind _ (finalizeMembersAt_leveled h (fun _ => gen) []
      ((filter_sublist.map _).nodup hmounted) w) fun errs =>
    triple_now fun w₁ => triple_bind (fun errs' s => errs = [] → errs' = [] →
      Leveled (fun m => if m.added then gen else gen + 1) (h.members.filter Esp.mounted) w s.now) ?_
      fun errs' => triple_ite (fun _ => triple_pure fun _ _ hne => absurd rfl hne) fun hok =>
        triple_pure fun s hs _ => ?_
  · refine ⟨fun s hs => ?_⟩
    refine ((finalizeMembersAt_leveled h (fun _ => gen + 1) []
      ((filter_sublist.map _).nodup hmounted) w₁).post fun errs' s' hs' hnil hnil' => ?_).ends s
      fun mp => by rw [hs.1]
    exact Leveled.groups hmounted (hs.1 ▸ hs.2 hnil) (hs' hnil')
  · have herrs : errs = [] := by_contra fun hne => hok (.inr (.inl hne))
    have herrs' : errs' = [] := by_contra fun hne => hok (.inr (.inr (.inl hne)))
    refine ⟨fun m hm hadded => by_contra fun hunmounted => hok (.inl ?_), hs herrs herrs'⟩
    exact any_eq_true.mpr ⟨m, hm, by simp [hadded, hunmounted]⟩

/-! ### `esp remove` -/

/-- The medium without the marker of the ESP that is removed. -/
def unmarked (h : Host) (u : FatUuid) (w : World) : World :=
  match (h.members.filter fun m => m.info.uuid = u).getLast? with
  | none => w
  | some m => if m.mounted then w.setFile m.mountpoint .member none else w

theorem removeMarker_unmarked (u : FatUuid) (w : World) :
    Triple (SameMarkers w) (removeMarker h u : ToolM ε Bool)
      (fun removed s => removed = true → SameMarkers (unmarked h u w) s) fun _ _ => True := by
  unfold removeMarker unmarked
  cases (h.members.filter fun m => m.info.uuid = u).getLast? with
  | none => exact triple_pure fun s hs _ => hs
  | some m =>
    dsimp only
    cases m.mounted with
    | false => exact triple_pure fun s hs _ => hs
    | true =>
      refine triple_perform fun s hs fate hdone mp => ?_
      obtain rfl : fate = .done := of_decide_eq_true hdone
      show (s.now.setFile m.mountpoint .member none).files mp .member = _
      by_cases hmp : mp = m.mountpoint
      · subst hmp
        rw [World.setFile_files_self, if_pos rfl, World.setFile_files_self,
          Function.update_self, Function.update_self]
      · rw [World.setFile_files_of_ne _ _ _ hmp, if_pos rfl, World.setFile_files_of_ne _ _ _ hmp]
        exact hs mp

/-- The members that `esp remove` writes MEMBER on. -/
def kept (h : Host) (u : FatUuid) : List Esp :=
  (h.without u).members.filter fun m => m.mounted ∧ m.info.validMember.isSome ∧ ¬ m.foreign

/-- `esp remove`, where it does not fail. -/
theorem removeMember_leveled (hatt : Attached env h) (u : FatUuid) (w : World) :
    Triple (SameMarkers w) (removeMember env h u : ToolM ε Nat)
      (fun status s => status ≠ 1 →
        Leveled (keepGen (h.without u).maxGeneration) (kept h u) (unmarked h u w) s.now)
      fun _ _ => True := by
  have hnodup : ((kept h u).map Esp.mountpoint).Nodup :=
    hatt.nodup_mountpoints (filter_sublist.trans filter_sublist)
  refine triple_bind _ (removeMarker_unmarked u w) fun removed => ?_
  cases removed with
  | false =>
    -- the status is 1, whatever follows
    refine triple_bind (fun _ _ => True) (triple_true _) fun failed => triple_bind (fun _ _ => True)
      (triple_true _) fun pool => triple_bind (fun _ _ => True) (triple_true _) fun errs =>
        triple_ite (fun _ => triple_pure fun _ _ hne => absurd rfl hne) fun hok => ?_
    exact absurd (.inl (by simp)) hok
  | true =>
    refine Triple.pre (P := SameMarkers (unmarked h u w)) ?_ fun s hs => hs rfl
    refine triple_spares (dropFromLists_spares ..) fun failed =>
      triple_spares (spares_of_reads (poolOf_reads ..)) fun pool =>
        triple_bind _ (finalizeMembersAt_leveled _ _ pool hnodup _) fun errs =>
          triple_ite (fun _ => triple_pure fun _ _ hne => absurd rfl hne) fun hok =>
            triple_pure fun s hs _ => hs ?_
    exact by_contra fun hne => hok (.inr (.inr hne))

end

/-! ### The generations after a run -/

section
variable {env : Machine} {h : Host} {scan : Scan env}

/-- An ESP can be mounted. -/
def CanMount (env : Machine) (i : EspInfo) : Prop := (env.mount i.dev).isOk = true

instance (i : EspInfo) : Decidable (CanMount env i) := inferInstanceAs (Decidable (_ = true))

theorem mounted_attach (uefi : Bool) (mode : Mode) (i : EspInfo) (foreign added : Bool) :
    (attach env uefi mode i foreign added).mounted = true ↔ CanMount env i := by
  unfold attach Esp.mounted CanMount
  cases env.mount i.dev with
  | error e => simp [Except.isOk, Except.toBool]
  | ok u => simp [Except.isOk, Except.toBool]

/-- A member that a run does not write MEMBER on. -/
theorem Leveled.kept (hatt : Attached env h) {genOf : Esp → Nat}
    (hlev : Leveled genOf ms w w') (hsub : ms ⊆ h.members) (hm : m ∈ h.members)
    (hout : m ∉ ms) : generationOn w' m.info = generationOn w m.info := by
  refine generationOn_congr (hlev.others _ fun hmem => hout ?_)
  obtain ⟨m', hm', heq⟩ := mem_map.mp hmem
  rwa [← hatt.eq_of_mountpoint (hsub hm') hm heq]

/-- What `addSet` has checked. -/
structure Addition (env : Machine) (o : HostOpts) (arg : Bytes) (h₀ h : Host) (src m : Esp) :
    Prop where
  found : discoverHost env o = .ok h₀
  source : h₀.bestSource = some src
  added : addEsps env h₀ arg o.forceAdopt = .ok h
  longer : h.members.length ≠ h₀.members.length
  last : h.members.getLast? = some m
  usable : m.usable true h.uefi = .ok ()
  disks : h.checkDistinctDisks = .ok ()

theorem addition_of_addSet
    (hadd : addSet env o arg = .ok (h, src, m)) : ∃ h₀, Addition env o arg h₀ h src m := by
  rw [addSet] at hadd
  split at hadd
  · cases hadd
  · rename_i h₀ hfound
    split at hadd
    · cases hadd
    · cases hadd
    · rename_i src' h' hsource hadded
      split_ifs at hadd with hlen
      split at hadd
      · cases hadd
      · rename_i m' hlast
        split at hadd
        · rename_i husable hdisks
          obtain ⟨rfl, rfl, rfl⟩ : h' = h ∧ src' = src ∧ m' = m := by
            simpa using hadd
          exact ⟨h₀, hfound, hsource, hadded, hlen, hlast, husable, hdisks⟩
        · cases hadd

/-- A member of the set that was found. -/
theorem found_attach (hfound : discoverHost env o = .ok h)
    (hx : x ∈ h.members) : (x.mounted = true ↔ CanMount env x.info) ∧ x.added = false := by
  obtain ⟨set, -, -, -, -, hmembers⟩ := discoverHost_found hfound
  rw [hmembers] at hx
  obtain ⟨i, -, rfl⟩ := mem_map.mp hx
  exact ⟨mounted_attach .., rfl⟩

/-- `esp add`: a member of the set keeps its generation, unless that is 0. -/
theorem add_generation
    (hadd : Addition env o arg h₀ h src m)
    (hlev : Leveled (ownGen (addedGeneration src) m)
      (h.members.filter fun x => x.mounted ∧ ¬ x.foreign) scan.world w')
    (hx : x ∈ h₀.members) (hforeign : x.foreign = false) :
    generationOn w' x.info = if CanMount env x.info ∧ x.info.generation = 0
      then addedGeneration src else x.info.generation := by
  obtain ⟨hmounted, hold⟩ := found_attach hadd.found hx
  obtain ⟨new, -, rfl, hatt⟩ := addEsps_ok hadd.added (discoverHost_attached hadd.found)
  have hx' : x ∈ (grown env h₀ new).members := mem_append_left _ hx
  have hbefore := generationOn_scan scan (hatt.scanned x hx')
  -- the ESP that is added is none of the members that were there
  have hne : x.info.uuid ≠ m.info.uuid := by
    intro heq
    have hm := mem_of_getLast? hadd.last
    obtain rfl := hatt.eq_of_uuid hx' hm heq
    have hnew : new.map (fun i => attach env h₀.uefi h₀.set.mode i false true) ≠ [] := by
      intro hnil
      exact hadd.longer (by rw [grown, hnil, append_nil])
    have hlast := hadd.last
    rw [grown, List.getLast?_append_of_ne_nil _ hnew] at hlast
    obtain ⟨i, -, hi⟩ := mem_map.mp (mem_of_getLast? hlast)
    rw [← hi] at hold
    cases hold
  by_cases hin : CanMount env x.info
  · have hmem : x ∈ (grown env h₀ new).members.filter fun x => x.mounted ∧ ¬ x.foreign :=
      mem_filter.mpr ⟨hx', by simp [hmounted.mpr hin, hforeign]⟩
    rw [hlev.each x hmem, ownGen, if_neg hne]
    by_cases hzero : x.info.generation = 0
    · rw [if_neg (by omega), if_pos ⟨hin, hzero⟩]
    · rw [if_pos (by omega), if_neg fun hc => hzero hc.2]
  · have hout : x ∉ (grown env h₀ new).members.filter fun x => x.mounted ∧ ¬ x.foreign := by
      intro hmem
      have hm := (mem_filter.mp hmem).2
      simp only [decide_eq_true_eq] at hm
      exact hin (hmounted.mp hm.1)
    rw [hlev.kept hatt filter_sublist.subset hx' hout, hbefore, if_neg fun hc => hin hc.1]

/-- The marker of the ESP that is removed, and of the others. -/
theorem generationOn_unmarked (hatt : Attached env h) (hx : x ∈ h.members) :
    generationOn (unmarked h u scan.world) x.info =
      if x.info.uuid = u ∧ x.mounted then 0 else x.info.generation := by
  have hbefore := generationOn_scan scan (hatt.scanned x hx)
  rw [unmarked]
  cases hlast : (h.members.filter fun m => m.info.uuid = u).getLast? with
  | none =>
    rw [if_neg, hbefore]
    rintro ⟨hu, -⟩
    rw [List.getLast?_eq_none_iff, filter_eq_nil_iff] at hlast
    exact hlast x hx (decide_eq_true hu)
  | some y =>
    obtain ⟨hy, hyu⟩ := mem_filter.mp (mem_of_getLast? hlast)
    have hyu : y.info.uuid = u := of_decide_eq_true hyu
    dsimp only
    by_cases hu : x.info.uuid = u
    · obtain rfl := hatt.eq_of_uuid hx hy (hu.trans hyu.symm)
      cases hmounted : x.mounted with
      | false => simpa using hbefore
      | true =>
        rw [if_pos rfl, if_pos ⟨hu, rfl⟩, generationOn, markerOn]
        show ((markerOf _ ((scan.world.setFile x.mountpoint .member none).files x.mountpoint
          .member)).map Member.generation).getD 0 = 0
        rw [World.setFile_files_self, Function.update_self]
        rfl
    · have hrest : ¬ (x.info.uuid = u ∧ x.mounted = true) := fun hc => hu hc.1
      have hne : x.info.dev ≠ y.mountpoint := fun heq =>
        hu ((congrArg (fun m : Esp => m.info.uuid) (hatt.eq_of_mountpoint hx hy heq)).trans hyu)
      rw [if_neg hrest, ← hbefore]
      refine generationOn_congr ?_
      split
      · rw [World.setFile_files_of_ne _ _ _ hne]
      · rfl

/-- `esp remove`: the ESP that is removed loses its marker, and a member of the set keeps its
generation, unless it has a marker with 0. -/
theorem remove_generation (hfound : discoverHost env o = .ok h)
    (hlev : Leveled (keepGen (h.without u).maxGeneration) (kept h u)
      (unmarked h u scan.world) w') (hx : x ∈ h.members) (hforeign : x.foreign = false) :
    generationOn w' x.info =
      if x.info.uuid = u then (if CanMount env x.info then 0 else x.info.generation)
      else if CanMount env x.info ∧ x.info.validMember.isSome ∧ x.info.generation = 0
        then (h.without u).maxGeneration
      else x.info.generation := by
  have hatt := discoverHost_attached hfound
  have hmounted := (found_attach hfound hx).1
  have hsub : kept h u ⊆ h.members :=
    (filter_sublist.trans filter_sublist).subset
  have hmem : x ∈ kept h u ↔ x.info.uuid ≠ u ∧ CanMount env x.info ∧ x.info.validMember.isSome := by
    rw [kept, mem_filter, Host.without, mem_filter, ← hmounted]
    simp [hx, hforeign]
  by_cases hin : x ∈ kept h u
  · obtain ⟨hu, hcan, hvalid⟩ := hmem.mp hin
    rw [hlev.each x hin, if_neg hu, keepGen]
    by_cases hzero : x.info.generation = 0
    · rw [if_neg (by omega), if_pos ⟨hcan, hvalid, hzero⟩]
    · rw [if_pos (by omega), if_neg fun hc => hzero hc.2.2]
  · rw [hlev.kept hatt hsub hx hin, generationOn_unmarked hatt hx]
    by_cases hu : x.info.uuid = u
    · simp [hu, hmounted]
    · rw [if_neg fun hc => hu hc.1, if_neg hu, if_neg]
      rintro ⟨hcan, hvalid, -⟩
      exact hin (hmem.mpr ⟨hu, hcan, hvalid⟩)

/-! ### What `esp adopt` writes -/

/-- The set that `esp adopt` starts from. -/
theorem adoptSet_spec (env : Machine) :
    (∀ m ∈ (adoptSet env).members, m.toEspInfo ∈ env.infos ∧
      m.foreign = decide (¬ Own (adoptSet env).installId m.toEspInfo)) ∧
    ((adoptSet env).members.map fun m => m.uuid).Nodup := by
  rw [adoptSet]
  split
  · rename_i set hset
    have hsel := selected_of_selectHost nodup_nil hset
    exact ⟨fun m hm => ⟨(hsel.on_one_device m hm).1, foreign_eq nodup_nil hset hm⟩,
      hsel.nodup_uuids⟩
  · exact ⟨fun m hm => (nomatch hm), nodup_nil⟩

/-- The ESPs that `esp adopt` takes in, and the UUIDs that its command line names. -/
structure Adoption (env : Machine) (id : Option InstallId) (forceAdopt : Bool) (seen : List FatUuid)
    (targets : List EspInfo) : Prop where
  scanned : ∀ t ∈ targets, t ∈ env.infos
  named : ∀ t ∈ targets, t.uuid ∈ seen
  nodup : (targets.map EspInfo.uuid).Nodup
  marked : ∀ t ∈ targets, t.validMember.isSome → t.installId ≠ id ∧ forceAdopt = true

theorem adoption_step {seen' : List FatUuid} {targets' : List EspInfo}
    (hadopt : Adoption env id forceAdopt seen targets)
    (hstep : adoptTarget env id forceAdopt (seen, targets) arg = some (seen', targets')) :
    Adoption env id forceAdopt seen' targets' := by
  rw [adoptTarget] at hstep
  split at hstep
  · cases hstep
  · rename_i i hi
    split_ifs at hstep with hseen hdir hown hforeign
    · obtain ⟨rfl, rfl⟩ := Prod.mk.inj (Option.some.inj hstep)
      exact hadopt
    · obtain ⟨rfl, rfl⟩ := Prod.mk.inj (Option.some.inj hstep)
      exact ⟨hadopt.scanned, fun t ht => mem_cons_of_mem _ (hadopt.named t ht), hadopt.nodup,
        hadopt.marked⟩
    · obtain ⟨rfl, rfl⟩ := Prod.mk.inj (Option.some.inj hstep)
      refine ⟨?_, ?_, ?_, ?_⟩
      · exact forall_mem_append.mpr ⟨hadopt.scanned, by simpa using findInfo_mem hi⟩
      · exact forall_mem_append.mpr
          ⟨fun t ht => mem_cons_of_mem _ (hadopt.named t ht), by simp⟩
      · rw [map_append]
        refine hadopt.nodup.append (nodup_singleton _) (disjoint_singleton.mpr ?_)
        intro hmem
        obtain ⟨t, ht, heq⟩ := mem_map.mp hmem
        exact hseen (heq ▸ hadopt.named t ht)
      · refine forall_mem_append.mpr ⟨hadopt.marked, ?_⟩
        intro t ht hvalid
        obtain rfl := mem_singleton.mp ht
        refine ⟨fun hid => hown ⟨hvalid, hid⟩, ?_⟩
        cases forceAdopt with
        | true => rfl
        | false => exact absurd ⟨hvalid, by simp⟩ hforeign

theorem adoption_of_adoptTargets (h : adoptTargets env id forceAdopt args = some (seen, targets)) :
    Adoption env id forceAdopt seen targets := by
  have hfold : ∀ (args : List Bytes) (acc : List FatUuid × List EspInfo),
      Adoption env id forceAdopt acc.1 acc.2 →
      args.foldlM (adoptTarget env id forceAdopt) acc = some (seen, targets) →
      Adoption env id forceAdopt seen targets := by
    intro args
    induction args with
    | nil =>
      intro acc hacc hrun
      obtain rfl := Option.some.inj hrun
      exact hacc
    | cons arg args ih =>
      intro acc hacc hrun
      rw [foldlM_cons] at hrun
      obtain ⟨acc', hstep, hrest⟩ := Option.bind_eq_some_iff.mp hrun
      exact ih acc' (adoption_step hacc hstep) hrest
  exact hfold args ([], []) ⟨by simp, by simp, nodup_nil, by simp⟩ h

theorem adoptHost_attached
    (hadopt : Adoption env (adoptSet env).installId forceAdopt seen targets) (id : InstallId) :
    Attached env (adoptHost env (adoptSet env) id seen targets) := by
  obtain ⟨hset, hnodup⟩ := adoptSet_spec env
  constructor
  · refine forall_mem_append.mpr ⟨?_, ?_⟩
    · intro m hm
      obtain ⟨t, ht, rfl⟩ := mem_map.mp hm
      exact hadopt.scanned t ht
    · intro m hm
      obtain ⟨x, hx, rfl⟩ := mem_map.mp hm
      exact (hset x (mem_filter.mp hx).1).1
  · rw [adoptHost, map_append, map_map, map_map]
    refine hadopt.nodup.append (hnodup.sublist (filter_sublist.map _)) ?_
    intro u hu hu'
    obtain ⟨t, ht, rfl⟩ := mem_map.mp hu
    obtain ⟨x, hx, heq⟩ := mem_map.mp hu'
    have heq : x.uuid = t.uuid := heq
    exact of_decide_eq_true (mem_filter.mp hx).2 (heq ▸ hadopt.named t ht)

/-- A member that the command line does not name, and that can be mounted. -/
def Unnamed (env : Machine) (seen : List FatUuid) (i : EspInfo) : Prop :=
  i.uuid ∉ seen ∧ CanMount env i

/-- `esp adopt`: the ESPs that are taken in get the highest generation of the set, and all members
that are not named the next one. -/
theorem adopt_generation
    (hadopt : Adoption env (adoptSet env).installId forceAdopt seen targets) {id : InstallId}
    
    (hmounted : ∀ m ∈ (adoptHost env (adoptSet env) id seen targets).members, m.added → m.mounted)
    (hlev : Leveled (fun m => if m.added then gen else gen + 1)
      ((adoptHost env (adoptSet env) id seen targets).members.filter Esp.mounted) scan.world w') :
    (∀ t ∈ targets, generationOn w' t = gen) ∧
    ∀ x ∈ (adoptSet env).members, x.toEspInfo ∉ targets →
      (Unnamed env seen x.toEspInfo → generationOn w' x.toEspInfo = gen + 1) ∧
      (¬ Unnamed env seen x.toEspInfo → generationOn w' x.toEspInfo = x.generation) := by
  have hatt := adoptHost_attached hadopt id
  refine ⟨fun t ht => ?_, fun x hx htarget => ⟨fun hin => ?_, fun hout => ?_⟩⟩
  · have hmem : attach env false (adoptSet env).mode t false true ∈
        (adoptHost env (adoptSet env) id seen targets).members :=
      mem_append_left _ (mem_map_of_mem ht)
    exact hlev.each _ (mem_filter.mpr ⟨hmem, hmounted _ hmem rfl⟩)
  · have hmem : attach env false (adoptSet env).mode x.toEspInfo false false ∈
        (adoptHost env (adoptSet env) id seen targets).members :=
      mem_append_right _ (mem_map_of_mem (mem_filter.mpr ⟨hx, by simpa using hin.1⟩))
    exact hlev.each _ (mem_filter.mpr ⟨hmem, (mounted_attach ..).mpr hin.2⟩)
  · -- MEMBER is not written there
    rw [← generationOn_scan scan ((adoptSet_spec env).1 x hx).1]
    refine generationOn_congr (hlev.others _ fun hmem => ?_)
    obtain ⟨m, hm, heq⟩ := mem_map.mp hmem
    obtain ⟨hm, hcan⟩ := mem_filter.mp hm
    have hinfo := info_eq_of_dev (hatt.scanned m hm) ((adoptSet_spec env).1 x hx).1 heq
    rcases mem_append.mp hm with hm | hm
    · obtain ⟨t, ht, rfl⟩ := mem_map.mp hm
      exact htarget (hinfo ▸ ht)
    · obtain ⟨y, hy, rfl⟩ := mem_map.mp hm
      have hinfo : y.toEspInfo = x.toEspInfo := hinfo
      have hseen := of_decide_eq_true (mem_filter.mp hy).2
      rw [mounted_attach, hinfo] at hcan
      exact hout ⟨by rw [← hinfo]; exact hseen, hcan⟩

end

/-! ### The order -/

section
variable {env : Machine}

/-- An ESP that is present and in the set before the command, by the set's flag `foreign`. -/
def InSet (env : Machine) : SetCommand → (foreign : Bool) → EspInfo → Prop
  | .add o _ _ _, foreign, i | .remove o _ _ _, foreign, i =>
    ∃ h m, discoverHost env o = .ok h ∧ m ∈ h.members ∧ m.foreign = foreign ∧ m.info = i
  | .adopt _ _ _, foreign, i => ∃ m ∈ (adoptSet env).members, m.foreign = foreign ∧ m.toEspInfo = i

/-- The two members end in another order: `i` was behind `j`, and is not any more. -/
def CatchesUp (env : Machine) : SetCommand → EspInfo → EspInfo → Prop
  | .add o arg yes answer, i, j => (yes ∨ answer) ∧ ∃ h src m, addSet env o arg = .ok (h, src, m) ∧
      (CanMount env i ∧ i.generation = 0) ∧ j.generation ≤ addedGeneration src
  | .remove o arg yes answer, i, j => (yes ∨ answer) ∧ ∃ h u, removeSet env o arg = .ok (h, u) ∧
      (j.uuid = u ∧ CanMount env j ∨
        i.uuid ≠ u ∧ (CanMount env i ∧ i.validMember.isSome ∧ i.generation = 0) ∧
          j.generation ≤ (h.without u).maxGeneration)
  | .adopt args _ forceAdopt, i, j => ∃ seen targets,
      adoptTargets env (adoptSet env).installId forceAdopt args = some (seen, targets) ∧
        targets ≠ [] ∧ (i ∉ targets ∧ Unnamed env seen i ∨ i ∈ targets ∧ ¬ Unnamed env seen j)

/-- An ESP that `esp adopt` takes in. -/
def TakesIn (env : Machine) : SetCommand → EspInfo → Prop
  | .adopt args _ forceAdopt, t => ∃ seen targets,
      adoptTargets env (adoptSet env).installId forceAdopt args = some (seen, targets) ∧ t ∈ targets
  | _, _ => False

/-- A member of the set on which `esp adopt` writes MEMBER. -/
def Rewrites (env : Machine) : SetCommand → EspInfo → Prop
  | .adopt args _ forceAdopt, x => ∃ seen targets,
      adoptTargets env (adoptSet env).installId forceAdopt args = some (seen, targets) ∧
        (x ∈ targets ∨ Unnamed env seen x)
  | _, _ => False

/-- A run that writes nothing. -/
theorem order_of_idle (scan : Scan env) {i j : EspInfo} (hi : i ∈ env.infos) (hj : j ∈ env.infos)
    (hlt : i.generation < j.generation) {c : Prop} (hc : ¬ c) :
    generationOn scan.world i < generationOn scan.world j ↔ ¬ c := by
  rw [generationOn_scan scan hi, generationOn_scan scan hj]
  exact iff_of_true hlt hc

theorem add_order_iff {ε : Type} {scan : Scan env}
    (hrun : (runEspAdd env o arg yes answer (.start fate scan.world) : Except ε Nat × Run)
      = (.ok status, s')) (hok : status ≠ 1) (hfound : discoverHost env o = .ok h₀)
    (hx : x ∈ h₀.members) (hy : y ∈ h₀.members) (hfx : x.foreign = false)
    (hfy : y.foreign = false) (hlt : x.info.generation < y.info.generation) :
    generationOn s'.now x.info < generationOn s'.now y.info ↔
      ¬ CatchesUp env (.add o arg yes answer) x.info y.info := by
  have hatt := discoverHost_attached hfound
  rcases hadd : addSet env o arg with st | ⟨h, src, m⟩
  · rw [runEspAdd, hadd] at hrun
    obtain ⟨-, rfl⟩ := Prod.mk.inj hrun
    exact order_of_idle scan (hatt.scanned x hx) (hatt.scanned y hy) hlt (by simp [CatchesUp, hadd])
  · rw [runEspAdd, hadd] at hrun
    dsimp only at hrun
    split_ifs at hrun with hasked
    · obtain ⟨-, rfl⟩ := Prod.mk.inj hrun
      exact order_of_idle scan (hatt.scanned x hx) (hatt.scanned y hy) hlt fun hcatch =>
        hcatch.1.elim hasked.1 hasked.2
    · obtain ⟨h₀', haddition⟩ := addition_of_addSet hadd
      obtain rfl : h₀' = h₀ := Except.ok.inj (haddition.found.symm.trans hfound)
      obtain ⟨-, -, -, hattached⟩ := addEsps_ok haddition.added hatt
      have hlev := (addMember_leveled (ε := ε) hattached src haddition.usable scan.world).ends
        (.start fate scan.world) fun _ => rfl
      rw [hrun] at hlev
      rw [add_generation haddition (hlev hok) hx hfx, add_generation haddition (hlev hok) hy hfy,
        if_neg (c := CanMount env y.info ∧ y.info.generation = 0) (by omega)]
      have hcatch : CatchesUp env (.add o arg yes answer) x.info y.info ↔
          (CanMount env x.info ∧ x.info.generation = 0) ∧
            y.info.generation ≤ addedGeneration src := by
        simp [CatchesUp, hadd, show yes ∨ answer by tauto]
      rw [hcatch]
      split_ifs with hzero
      · simp [hzero]
      · simp [hzero, hlt]

theorem discovered_of_removeSet {h : Host}
    (hremove : removeSet env o arg = .ok (h, u)) : discoverHost env o = .ok h := by
  rw [removeSet] at hremove
  split at hremove
  · cases hremove
  · rename_i h₀ hfound
    dsimp only at hremove
    split at hremove
    · cases hremove
    · split_ifs at hremove
      obtain rfl := (Prod.mk.inj (Except.ok.inj hremove)).1
      exact hfound

theorem remove_order_iff {ε : Type} {scan : Scan env}
    
    (hrun : (runEspRemove env o arg yes answer (.start fate scan.world) : Except ε Nat × Run)
      = (.ok status, s')) (hok : status ≠ 1) (hfound : discoverHost env o = .ok h₀)
    (hx : x ∈ h₀.members) (hy : y ∈ h₀.members) (hfx : x.foreign = false)
    (hfy : y.foreign = false) (hlt : x.info.generation < y.info.generation) :
    generationOn s'.now x.info < generationOn s'.now y.info ↔
      ¬ CatchesUp env (.remove o arg yes answer) x.info y.info := by
  have hatt := discoverHost_attached hfound
  rcases hremove : removeSet env o arg with st | ⟨h, u⟩
  · rw [runEspRemove, hremove] at hrun
    obtain ⟨-, rfl⟩ := Prod.mk.inj hrun
    exact order_of_idle scan (hatt.scanned x hx) (hatt.scanned y hy) hlt (by simp [CatchesUp, hremove])
  · rw [runEspRemove, hremove] at hrun
    dsimp only at hrun
    split_ifs at hrun with hasked
    · obtain ⟨-, rfl⟩ := Prod.mk.inj hrun
      exact order_of_idle scan (hatt.scanned x hx) (hatt.scanned y hy) hlt fun hcatch =>
        hcatch.1.elim hasked.1 hasked.2
    · obtain rfl : h₀ = h := Except.ok.inj (hfound.symm.trans (discovered_of_removeSet hremove))
      have hlev := (removeMember_leveled (ε := ε) hatt u scan.world).ends
        (.start fate scan.world) fun _ => rfl
      rw [hrun] at hlev
      have hcatch : CatchesUp env (.remove o arg yes answer) x.info y.info ↔
          (y.info.uuid = u ∧ CanMount env y.info ∨ x.info.uuid ≠ u ∧
            (CanMount env x.info ∧ x.info.validMember.isSome ∧ x.info.generation = 0) ∧
              y.info.generation ≤ (h₀.without u).maxGeneration) := by
        simp [CatchesUp, hremove, show yes ∨ answer by tauto]
      rw [remove_generation hfound (hlev hok) hx hfx, remove_generation hfound (hlev hok) hy hfy,
        hcatch]
      by_cases hyu : y.info.uuid = u
      · have hxu : x.info.uuid ≠ u := by
          intro hxu
          obtain rfl := hatt.eq_of_uuid hx hy (hxu.trans hyu.symm)
          exact Nat.lt_irrefl _ hlt
        rw [if_neg hxu, if_pos hyu]
        by_cases hcan : CanMount env y.info
        · simp [hyu, hcan]
        · rw [if_neg hcan]
          split_ifs with hzero
          · simp [hcan, hxu, hzero]
          · simp [hcan, hzero, hlt]
      · rw [if_neg hyu, if_neg (c := CanMount env y.info ∧ _ ∧ _) fun hzero => by omega]
        by_cases hxu : x.info.uuid = u
        · rw [if_pos hxu]
          have hle : (if CanMount env x.info then 0 else x.info.generation) < y.info.generation := by
            split_ifs <;> omega
          simp [hyu, hxu, hle]
        · rw [if_neg hxu]
          split_ifs with hzero
          · simp [hyu, hxu, hzero]
          · simp [hyu, hzero, hlt]

/-- A successful `esp adopt` that takes something in comes to its last step, with the id that the set
has or a new one. -/
theorem runEspAdopt_last {ε : Type} {s : Run}
    (hrun : (runEspAdopt env args yes forceAdopt s : Except ε Nat × Run)
      = (.ok status, s')) (hok : status ≠ 1)
    (htargets : adoptTargets env (adoptSet env).installId forceAdopt args = some (seen, targets))
    (hne : targets ≠ []) :
    ∃ id, (adoptMembers env (adoptHost env (adoptSet env) id seen targets)
      (adoptedGeneration (adoptSet env)) s : Except ε Nat × Run) = (.ok status, s') := by
  have hfails : ((.ok 1, s) : Except ε Nat × Run) ≠ (.ok status, s') := fun heq =>
    hok (Except.ok.inj (Prod.mk.inj heq).1).symm
  obtain ⟨t, ts, rfl⟩ := exists_cons_of_ne_nil hne
  rw [runEspAdopt, htargets] at hrun
  cases hid : (adoptSet env).installId with
  | some id =>
    rw [hid] at hrun
    dsimp only at hrun
    split_ifs at hrun
    · exact ⟨id, hrun⟩
    · exact absurd hrun hfails
  | none =>
    rw [hid] at hrun
    cases hnew : env.newInstallId with
    | error e =>
      rw [hnew] at hrun
      exact absurd hrun hfails
    | ok id =>
      rw [hnew] at hrun
      dsimp only at hrun
      split_ifs at hrun
      · exact ⟨id, hrun⟩
      · exact absurd hrun hfails

/-- What it leaves. -/
theorem runEspAdopt_generation {ε : Type} {scan : Scan env}
    (hrun : (runEspAdopt env args yes forceAdopt (.start fate scan.world) : Except ε Nat × Run)
      = (.ok status, s')) (hok : status ≠ 1)
    (htargets : adoptTargets env (adoptSet env).installId forceAdopt args = some (seen, targets))
    (hne : targets ≠ []) :
    (∀ t ∈ targets, generationOn s'.now t = adoptedGeneration (adoptSet env)) ∧
    ∀ x ∈ (adoptSet env).members, x.toEspInfo ∉ targets →
      (Unnamed env seen x.toEspInfo →
        generationOn s'.now x.toEspInfo = adoptedGeneration (adoptSet env) + 1) ∧
      (¬ Unnamed env seen x.toEspInfo → generationOn s'.now x.toEspInfo = x.generation) := by
  have hadopt := adoption_of_adoptTargets htargets
  obtain ⟨id, hlast⟩ := runEspAdopt_last hrun hok htargets hne
  have hlev := (adoptMembers_leveled (ε := ε) (adoptHost_attached hadopt id)
    (adoptedGeneration (adoptSet env)) scan.world).ends (.start fate scan.world) fun _ => rfl
  rw [hlast] at hlev
  exact adopt_generation hadopt (hlev hok).1 (hlev hok).2

theorem generation_le_adopted {x : HostMember} (hx : x ∈ (adoptSet env).members) :
    x.generation ≤ adoptedGeneration (adoptSet env) := by
  have hle : x.generation ≤ setMaxGeneration (adoptSet env) :=
    (le_foldl_max _ 0).2 _ (mem_map_of_mem hx)
  rw [adoptedGeneration]
  split_ifs <;> omega

/-- An ESP that is taken in is no member with a marker of the set. -/
theorem notMem_targets
    (hadopt : Adoption env (adoptSet env).installId forceAdopt seen targets) {y : HostMember}
    (hy : y ∈ (adoptSet env).members) (hfy : y.foreign = false) (hpos : 0 < y.generation) :
    y.toEspInfo ∉ targets := by
  intro hmem
  have hvalid : y.validMember.isSome := by
    rw [EspInfo.generation] at hpos
    cases hm : y.validMember with
    | none => simp [hm] at hpos
    | some m => rfl
  have hown : Own (adoptSet env).installId y.toEspInfo := by
    have hforeign := ((adoptSet_spec env).1 y hy).2
    rw [hfy] at hforeign
    exact not_not.mp (of_decide_eq_false hforeign.symm)
  exact (hadopt.marked _ hmem hvalid).1 (hown hvalid)

theorem adopt_order_iff {ε : Type} {scan : Scan env}
    (hrun : (runEspAdopt env args yes forceAdopt (.start fate scan.world) : Except ε Nat × Run)
      = (.ok status, s')) (hok : status ≠ 1) {x y : HostMember} (hx : x ∈ (adoptSet env).members)
    (hy : y ∈ (adoptSet env).members) (hfy : y.foreign = false)
    (hlt : x.generation < y.generation) :
    generationOn s'.now x.toEspInfo < generationOn s'.now y.toEspInfo ↔
      ¬ CatchesUp env (.adopt args yes forceAdopt) x.toEspInfo y.toEspInfo := by
  obtain ⟨hscanned, -⟩ := adoptSet_spec env
  cases htargets : adoptTargets env (adoptSet env).installId forceAdopt args with
  | none =>
    rw [runEspAdopt, htargets] at hrun
    exact absurd (Except.ok.inj (Prod.mk.inj hrun).1).symm hok
  | some plan =>
    obtain ⟨seen, targets⟩ := plan
    by_cases hne : targets = []
    · subst hne
      rw [runEspAdopt, htargets] at hrun
      obtain ⟨-, rfl⟩ := Prod.mk.inj hrun
      exact order_of_idle scan (hscanned x hx).1 (hscanned y hy).1 hlt (by simp [CatchesUp, htargets])
    · obtain ⟨htaken, hothers⟩ := runEspAdopt_generation hrun hok htargets hne
      have hcatch : CatchesUp env (.adopt args yes forceAdopt) x.toEspInfo y.toEspInfo ↔
          (x.toEspInfo ∉ targets ∧ Unnamed env seen x.toEspInfo ∨
            x.toEspInfo ∈ targets ∧ ¬ Unnamed env seen y.toEspInfo) := by
        simp [CatchesUp, htargets, hne]
      have hytaken : y.toEspInfo ∉ targets :=
        notMem_targets (adoption_of_adoptTargets htargets) hy hfy (by omega)
      have hyle := generation_le_adopted hy
      obtain ⟨hynext, hysame⟩ := hothers y hy hytaken
      rw [hcatch]
      by_cases hxtaken : x.toEspInfo ∈ targets
      · -- `x` gets the highest generation, which `y` exceeds only if it is written too
        rw [htaken _ hxtaken]
        by_cases hyin : Unnamed env seen y.toEspInfo
        · simp [hynext hyin, hxtaken, hyin]
        · simp [hysame hyin, hxtaken, hyin, hyle]
      · obtain ⟨hxnext, hxsame⟩ := hothers x hx hxtaken
        by_cases hxin : Unnamed env seen x.toEspInfo
        · -- all members that are not named get the same generation
          have hyle' : generationOn s'.now y.toEspInfo ≤ adoptedGeneration (adoptSet env) + 1 := by
            by_cases hyin : Unnamed env seen y.toEspInfo
            · rw [hynext hyin]
            · rw [hysame hyin]
              omega
          simp [hxnext hxin, hxtaken, hxin, hyle']
        · have hle : x.generation < generationOn s'.now y.toEspInfo := by
            by_cases hyin : Unnamed env seen y.toEspInfo
            · rw [hynext hyin]
              omega
            · rw [hysame hyin]
              exact hlt
          simp [hxsame hxin, hxtaken, hxin, hle]

/-- What is taken in ends below every member that is written, unless that is taken in too. -/
theorem taken_order_iff {ε : Type} {scan : Scan env}
    (hrun : (runEspAdopt env args yes forceAdopt (.start fate scan.world) : Except ε Nat × Run)
      = (.ok status, s')) (hok : status ≠ 1) {t : EspInfo} {x : HostMember}
    (ht : TakesIn env (.adopt args yes forceAdopt) t) (hx : x ∈ (adoptSet env).members)
    (hwrites : Rewrites env (.adopt args yes forceAdopt) x.toEspInfo) :
    generationOn s'.now t < generationOn s'.now x.toEspInfo ↔
      ¬ TakesIn env (.adopt args yes forceAdopt) x.toEspInfo := by
  obtain ⟨seen, targets, htargets, ht⟩ := ht
  obtain ⟨seen', targets', hplan, hwrites⟩ := hwrites
  rw [htargets] at hplan
  cases hplan
  obtain ⟨htaken, hothers⟩ := runEspAdopt_generation hrun hok htargets (ne_nil_of_mem ht)
  have hiff : TakesIn env (.adopt args yes forceAdopt) x.toEspInfo ↔ x.toEspInfo ∈ targets := by
    simp [TakesIn, htargets]
  rw [hiff, htaken t ht]
  by_cases hxtaken : x.toEspInfo ∈ targets
  · simp [htaken _ hxtaken, hxtaken]
  · simp [(hothers x hx hxtaken).1 (hwrites.resolve_left hxtaken), hxtaken]

/-- What the three commands do to the order of the generations, exactly: a member that was behind
another stays behind it unless it catches up, and what `esp adopt` takes in ends below every member
of the set that is written unless that one is taken in too. -/
theorem set_order_iff {ε : Type} (scan : Scan env) (cmd : SetCommand) (fate : Nat → Fate)
    (status : Nat) (s' : Run)
    (hrun : (cmd.run env (.start fate scan.world) : Except ε Nat × Run) = (.ok status, s'))
    (hok : status ≠ 1) :
    (∀ i j, InSet env cmd false i → InSet env cmd false j →
      generationOn scan.world i < generationOn scan.world j →
      (generationOn s'.now i < generationOn s'.now j ↔ ¬ CatchesUp env cmd i j)) ∧
    ∀ t x foreign, TakesIn env cmd t → InSet env cmd foreign x → Rewrites env cmd x →
      (generationOn s'.now t < generationOn s'.now x ↔ ¬ TakesIn env cmd x) := by
  cases cmd with
  | add o arg yes answer =>
    refine ⟨?_, fun t x _ ht => ht.elim⟩
    rintro i j ⟨h, x, hfound, hx, hfx, rfl⟩ ⟨h', y, hfound', hy, hfy, rfl⟩ hlt
    obtain rfl : h' = h := Except.ok.inj (hfound'.symm.trans hfound)
    have hatt := discoverHost_attached hfound
    rw [generationOn_scan scan (hatt.scanned x hx), generationOn_scan scan (hatt.scanned y hy)]
      at hlt
    exact add_order_iff hrun hok hfound hx hy hfx hfy hlt
  | remove o arg yes answer =>
    refine ⟨?_, fun t x _ ht => ht.elim⟩
    rintro i j ⟨h, x, hfound, hx, hfx, rfl⟩ ⟨h', y, hfound', hy, hfy, rfl⟩ hlt
    obtain rfl : h' = h := Except.ok.inj (hfound'.symm.trans hfound)
    have hatt := discoverHost_attached hfound
    rw [generationOn_scan scan (hatt.scanned x hx), generationOn_scan scan (hatt.scanned y hy)]
      at hlt
    exact remove_order_iff hrun hok hfound hx hy hfx hfy hlt
  | adopt args yes forceAdopt =>
    obtain ⟨hscanned, -⟩ := adoptSet_spec env
    constructor
    · rintro i j ⟨x, hx, -, rfl⟩ ⟨y, hy, hfy, rfl⟩ hlt
      rw [generationOn_scan scan (hscanned x hx).1, generationOn_scan scan (hscanned y hy).1] at hlt
      exact adopt_order_iff hrun hok hx hy hfy hlt
    · rintro t i foreign ht ⟨x, hx, -, rfl⟩ hwrites
      exact taken_order_iff hrun hok ht hx hwrites

end

/-! ### A set in which a copy is behind, and a third ESP is taken in -/

def aheadEsp : EspInfo := memberEsp "/dev/sda1" uuidA idOnes 2 [uuidA, uuidB]

def behindEsp : EspInfo := memberEsp "/dev/sdb1" uuidB idOnes 1 [uuidA, uuidB]

def unmarkedEsp : EspInfo := ⟨"/dev/sdc1", uuidC, fatVolumeLabel, true, true, .absent, []⟩

def behindMachine : Machine := plainMachine false [aheadEsp, behindEsp, unmarkedEsp] (by decide)

def behindScan : Scan behindMachine where
  world := plainWorld [aheadEsp, behindEsp, unmarkedEsp] fun _ _ => none
  shows := by decide +kernel

/-- `esp adopt` of the third one. -/
def adoptThird : SetCommand := .adopt [uuidC.val] true false

/-- The run, with every step carried out. -/
def adoptThirdRun : Except Unit Nat × Run :=
  adoptThird.run behindMachine (.start (fun _ => .done) behindScan.world)

/-- The host's own ESPs are in the set. -/
theorem behind_inSet : InSet behindMachine adoptThird false aheadEsp
    ∧ InSet behindMachine adoptThird false behindEsp :=
  ⟨⟨⟨aheadEsp, false⟩, by decide +kernel, rfl, rfl⟩, ⟨⟨behindEsp, false⟩, by decide +kernel, rfl, rfl⟩⟩

/-- Both get generation 3, so that it is no longer to be seen which copy was behind. -/
theorem adopt_levels_members : adoptThirdRun.1 = .ok 0
    ∧ InSet behindMachine adoptThird false aheadEsp ∧ InSet behindMachine adoptThird false behindEsp
    ∧ generationOn behindScan.world behindEsp < generationOn behindScan.world aheadEsp
    ∧ generationOn adoptThirdRun.2.now behindEsp = 3
    ∧ generationOn adoptThirdRun.2.now aheadEsp = 3 :=
  ⟨by decide +kernel, behind_inSet.1, behind_inSet.2, by decide +kernel, by decide +kernel,
    by decide +kernel⟩

/-- The third one is taken in, and ends below both. -/
theorem set_order_adoptThird : TakesIn behindMachine adoptThird unmarkedEsp
    ∧ Rewrites behindMachine adoptThird behindEsp ∧ ¬ TakesIn behindMachine adoptThird behindEsp
    ∧ CatchesUp behindMachine adoptThird behindEsp aheadEsp
    ∧ generationOn adoptThirdRun.2.now unmarkedEsp < generationOn adoptThirdRun.2.now behindEsp
    ∧ ¬ generationOn adoptThirdRun.2.now behindEsp < generationOn adoptThirdRun.2.now aheadEsp := by
  have hplan : adoptTargets behindMachine (adoptSet behindMachine).installId false [uuidC.val]
      = some ([uuidC], [unmarkedEsp]) := by decide +kernel
  have hunnamed : Unnamed behindMachine [uuidC] behindEsp := ⟨by decide, rfl⟩
  have hbehind : behindEsp ∉ [unmarkedEsp] := by decide
  have htaken : TakesIn behindMachine adoptThird unmarkedEsp := ⟨_, _, hplan, by simp⟩
  have hwrites : Rewrites behindMachine adoptThird behindEsp := ⟨_, _, hplan, .inr hunnamed⟩
  have hother : ¬ TakesIn behindMachine adoptThird behindEsp := by
    rintro ⟨seen, targets, hplan', hmem⟩
    rw [hplan] at hplan'
    cases hplan'
    exact hbehind hmem
  have hcatch : CatchesUp behindMachine adoptThird behindEsp aheadEsp :=
    ⟨_, _, hplan, by simp, .inl ⟨hbehind, hunnamed⟩⟩
  have horder := set_order_iff behindScan adoptThird (fun _ => .done) 0 adoptThirdRun.2
    (Prod.ext (by decide +kernel : adoptThirdRun.1 = .ok 0) rfl) (by decide)
  exact ⟨htaken, hwrites, hother, hcatch,
    (horder.2 _ _ _ htaken behind_inSet.2 hwrites).mpr hother,
    fun hlt => (horder.1 _ _ behind_inSet.2 behind_inSet.1 (by decide +kernel)).mp hlt hcatch⟩

end ZfsBoot.Proofs.Tool.SetOrder
