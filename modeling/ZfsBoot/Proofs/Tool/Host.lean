import Mathlib.Data.List.Pairwise
import ZfsBoot.Proofs.Tool.EspSet
import ZfsBoot.Tool.EspCmd

/-!
# `ZfsBoot.Proofs.Tool.Host`: the ESPs that a command works on

Every command that writes starts from the set that `SelectHost` returns, and some add ESPs to it.
This module says what the host is that comes out. Its ESPs are ESPs of the scan, and no two of them
share a UUID (`Attached`), so no two of them share a mountpoint either. One that is not `foreign` has
no marker of another installation (`Own`), whether it was selected or added.
-/

set_option autoImplicit false

namespace ZfsBoot.Proofs.Tool.Host

open List
open Lib ZfsBoot.Tool ZfsBoot.Tool.Mirror Tool.EspSet

variable {id : Option InstallId} {ms : List Esp} {forceAdopt : Bool} {i : EspInfo} {arg : Bytes}

/-- The ESP has no marker of another installation than `id`. -/
def Own (id : Option InstallId) (i : EspInfo) : Prop := i.validMember.isSome → i.installId = id

instance (id : Option InstallId) (i : EspInfo) : Decidable (Own id i) :=
  inferInstanceAs (Decidable (_ → _))

theorem own_of_installId (h : i.installId = id) : Own id i :=
  fun _ => h

/-- An ESP from before markers, or with one that cannot be read, belongs to nobody. -/
theorem own_of_unmarked (h : i.isUnmarked = true ∨ i.isBroken = true) : Own id i := by
  intro hvalid
  rw [EspInfo.validMember] at hvalid
  simp only [EspInfo.isUnmarked, EspInfo.isBroken, decide_eq_true_eq] at h
  cases hm : i.marker with
  | absent => simp [hm] at hvalid
  | broken err => simp [hm] at hvalid
  | decoded m => simp [hm, Marker.isBroken] at h

/-! ### The selected set -/

section
variable {infos : List EspInfo} {opts : SelectOpts} {hs : HostSet} {m : HostMember}

/-- The flag of a member says whether its marker is another installation's. -/
theorem foreign_eq (hnodup : opts.list.Nodup) (h : selectHost infos opts = .ok hs)
    (hm : m ∈ hs.members) : m.foreign = decide (¬ Own hs.installId m.toEspInfo) := by
  rcases selectHost_ways hnodup h with ⟨list, source, -, hlist⟩ | ⟨i, ignored, -, -, hmarker, rfl⟩
    | ⟨id, ignored, -, -, rfl⟩
  · obtain ⟨-, -, rfl⟩ := selectList_eq_ok.1 hlist
    obtain ⟨m', -, rfl⟩ := mem_map.1 hm
    simp only [Own, Classical.not_imp]
    rfl
  · obtain rfl := mem_singleton.1 hm
    simp [own_of_unmarked hmarker]
  · obtain ⟨hgroup, hforeign⟩ := mem_orderedGroup hm
    rw [hforeign, eq_comm, decide_eq_false_iff_not, not_not]
    exact own_of_installId (mem_group.1 hgroup).2

end

/-! ### Hosts -/

section
variable {env : Machine} {o : HostOpts} {h h' : Host} {m m' : Esp}

/-- The ESPs of a host are ESPs of the scan, each under a UUID of its own. -/
structure Attached (env : Machine) (h : Host) : Prop where
  scanned : ∀ m ∈ h.members, m.info ∈ env.infos
  nodup : (h.members.map fun m => m.info.uuid).Nodup

theorem Attached.eq_of_uuid (hatt : Attached env h) (hm : m ∈ h.members) (hm' : m' ∈ h.members)
    (heq : m.info.uuid = m'.info.uuid) : m = m' :=
  inj_on_of_nodup_map hatt.nodup hm hm' heq

/-- A device of the scan is that of one ESP. -/
theorem info_eq_of_dev {i' : EspInfo} (hi : i ∈ env.infos) (hi' : i' ∈ env.infos)
    (heq : i.dev = i'.dev) : i = i' :=
  inj_on_of_nodup_map env.distinct hi hi' heq

theorem Attached.eq_of_mountpoint (hatt : Attached env h) (hm : m ∈ h.members) (hm' : m' ∈ h.members)
    (heq : m.mountpoint = m'.mountpoint) : m = m' :=
  hatt.eq_of_uuid hm hm'
    (congrArg EspInfo.uuid (info_eq_of_dev (hatt.scanned m hm) (hatt.scanned m' hm') heq))

/-- The host of a set, as `discoverHost` mounts it. -/
structure Found (env : Machine) (o : HostOpts) (set : HostSet) (h : Host) : Prop where
  selected : selectHost env.infos ⟨o.list, o.listSource, env.primaryUuid⟩ = .ok set
  uefi_eq : h.uefi = env.uefi
  set_eq : h.set = set
  installId_eq : h.installId = set.installId
  members_eq : h.members
    = set.members.map fun m => attach env env.uefi set.mode m.toEspInfo m.foreign false

theorem discoverHost_found (hdisc : discoverHost env o = .ok h) : ∃ set, Found env o set h := by
  rw [discoverHost] at hdisc
  split at hdisc
  · cases hdisc
  · rename_i set hset
    obtain rfl := Except.ok.inj hdisc
    exact ⟨set, hset, rfl, rfl, rfl, rfl⟩

theorem discoverHost_attached (hdisc : discoverHost env o = .ok h) : Attached env h := by
  obtain ⟨set, hset, -, -, -, hmembers⟩ := discoverHost_found hdisc
  have hsel := selected_of_selectHost o.nodup hset
  constructor
  · intro m hm
    rw [hmembers] at hm
    obtain ⟨m, hmem, rfl⟩ := mem_map.1 hm
    exact (hsel.on_one_device m hmem).1
  · rw [hmembers, map_map]
    exact hsel.nodup_uuids

/-- A member that was found is `foreign` exactly if its marker is another installation's. -/
theorem discoverHost_foreign (hdisc : discoverHost env o = .ok h) (hm : m ∈ h.members) :
    m.foreign = decide (¬ Own h.installId m.info) := by
  obtain ⟨set, hset, -, -, hid, hmembers⟩ := discoverHost_found hdisc
  rw [hmembers] at hm
  obtain ⟨m, hmem, rfl⟩ := mem_map.1 hm
  rw [hid]
  exact foreign_eq o.nodup hset hmem

theorem Attached.nodup_mountpoints (hatt : Attached env h)
    (hsub : ms.Sublist h.members) : (ms.map Esp.mountpoint).Nodup := by
  have hnodup : (h.members.map Esp.mountpoint).Nodup := by
    refine List.Nodup.map_on (fun m hm m' hm' heq => hatt.eq_of_mountpoint hm hm' heq) ?_
    exact List.Nodup.of_map _ hatt.nodup
  exact hnodup.sublist (hsub.map _)

/-- The highest generation is none too low. -/
theorem le_foldl_max (l : List Nat) (b : Nat) : b ≤ l.foldl max b ∧ ∀ a ∈ l, a ≤ l.foldl max b := by
  induction l generalizing b with
  | nil => simp
  | cons c l ih =>
    obtain ⟨hb, hl⟩ := ih (max b c)
    refine ⟨(le_max_left b c).trans hb, fun a ha => ?_⟩
    rcases mem_cons.1 ha with rfl | ha
    · exact (le_max_right b a).trans hb
    · exact hl a ha

theorem le_maxGeneration (hm : m ∈ h.members) (hforeign : m.foreign = false) :
    m.info.generation ≤ h.maxGeneration := by
  refine (le_foldl_max _ 0).2 _ (mem_map_of_mem (mem_filter.2 ⟨hm, ?_⟩))
  simp [hforeign]

/-- The best source is a member of the host's own that was there before. -/
theorem bestSource_mem (hbest : h.bestSource = some m) :
    m ∈ h.members ∧ m.mounted = true ∧ m.added = false ∧ m.foreign = false := by
  have hfold : ∀ (ms : List Esp) (best : Option Esp), ms.foldl betterSource best = some m →
      best = some m ∨ m ∈ ms ∧ m.mounted = true ∧ m.added = false ∧ m.foreign = false := by
    intro ms
    induction ms with
    | nil => exact fun best h => .inl h
    | cons m' ms ih =>
      intro best h
      rcases ih _ h with hstep | ⟨hmem, hrest⟩
      · unfold betterSource at hstep
        split_ifs at hstep with hskip
        · exact .inl hstep
        · have hm' : m' = m ∨ best = some m := by
            split at hstep
            · exact .inl (Option.some.inj hstep)
            · split_ifs at hstep
              · exact .inl (Option.some.inj hstep)
              · exact .inr hstep
          rcases hm' with rfl | hbest
          · simp only [not_or, Bool.not_eq_true, not_not] at hskip
            exact .inr ⟨mem_cons_self, by simpa using hskip⟩
          · exact .inl hbest
      · exact .inr ⟨mem_cons_of_mem _ hmem, hrest⟩
  exact (hfold h.members none hbest).resolve_left nofun

/-! ### ESPs that are added -/

/-- `h` with ESPs added. -/
def grown (env : Machine) (h : Host) (new : List EspInfo) : Host :=
  { h with members := h.members ++ new.map fun i => attach env h.uefi h.set.mode i false true }

/-- An ESP that `addESPs` may add to the host: one of the scan that is not there yet, and without
`force-adopt` one that is not another installation's. -/
structure Addable (env : Machine) (h : Host) (forceAdopt : Bool) (i : EspInfo) : Prop where
  scanned : i ∈ env.infos
  own : forceAdopt = false → Own h.installId i

theorem findInfo_mem (hfind : findInfo env arg = .ok i) :
    i ∈ env.infos := by
  rw [findInfo] at hfind
  split at hfind
  · split at hfind
    · cases hfind
    · rename_i i' hfilter
      obtain rfl := Except.ok.inj hfind
      exact (mem_filter.1 (hfilter ▸ mem_singleton_self i')).1
    · cases hfind
  · split at hfind
    · rename_i i' hfind'
      obtain rfl := Except.ok.inj hfind
      exact mem_of_find?_eq_some hfind'
    · cases hfind

theorem addEsp_ok (hok : addEsp env forceAdopt h arg = .ok h') :
    h' = h ∨ ∃ i, Addable env h forceAdopt i ∧ i.uuid ∉ h.members.map (·.info.uuid)
      ∧ h' = grown env h [i] := by
  rw [addEsp] at hok
  split_ifs at hok with harg
  · exact .inl (Except.ok.inj hok).symm
  · split at hok
    · cases hok
    · rename_i i hfind
      split_ifs at hok with hdup hforeign
      · exact .inl (Except.ok.inj hok).symm
      · refine .inr ⟨i, ⟨findInfo_mem hfind, fun hforce hvalid => ?_⟩, ?_, (Except.ok.inj hok).symm⟩
        · exact not_not.1 fun hne => hforeign ⟨hvalid, hne, by simp [hforce]⟩
        · rw [mem_map]
          rintro ⟨m, hm, heq⟩
          exact hdup (any_eq_true.2 ⟨m, hm, decide_eq_true heq⟩)

theorem grown_grown (env : Machine) (h : Host) (new new' : List EspInfo) :
    grown env (grown env h new) new' = grown env h (new ++ new') := by
  simp [grown]

/-- `addESPs` adds some ESPs behind the members. -/
theorem addEsps_ok (hok : addEsps env h arg forceAdopt = .ok h') (hatt : Attached env h) :
    ∃ new, (∀ i ∈ new, Addable env h forceAdopt i) ∧ h' = grown env h new ∧ Attached env h' := by
  have hfold : ∀ (args : List Bytes) (h : Host), Attached env h →
      args.foldlM (addEsp env forceAdopt) h = .ok h' →
      ∃ new, (∀ i ∈ new, Addable env h forceAdopt i) ∧ h' = grown env h new ∧ Attached env h' := by
    intro args
    induction args with
    | nil =>
      intro h hatt hok
      obtain rfl := pure_eq_ok.1 hok
      exact ⟨[], by simp, by simp [grown], hatt⟩
    | cons arg args ih =>
      intro h hatt hok
      rw [foldlM_cons] at hok
      obtain ⟨h₁, hfirst, hrest⟩ := bind_eq_ok.1 hok
      rcases addEsp_ok hfirst with rfl | ⟨i, hi, hnew, rfl⟩
      · exact ih _ hatt hrest
      · have hatt₁ : Attached env (grown env h [i]) := by
          constructor
          · intro m hm
            rcases mem_append.1 hm with hm | hm
            · exact hatt.scanned m hm
            · obtain rfl := mem_singleton.1 hm
              exact hi.scanned
          · rw [grown, map_append]
            exact hatt.nodup.append (nodup_singleton _) (disjoint_singleton.2 hnew)
        obtain ⟨new, hnew', rfl, hatt'⟩ := ih _ hatt₁ hrest
        refine ⟨i :: new, fun j hj => ?_, grown_grown env h [i] new, hatt'⟩
        rcases mem_cons.1 hj with rfl | hj
        · exact hi
        · exact ⟨(hnew' j hj).scanned, (hnew' j hj).own⟩
  rw [addEsps] at hok
  split_ifs at hok
  · obtain rfl := Except.ok.inj hok
    exact ⟨[], by simp, by simp [grown], hatt⟩
  · exact hfold _ h hatt hok

/-! ### Disks -/

/-- `checkDistinctDisks` looks at the member. -/
def HasDisk (m : Esp) : Prop := m.mounted = true ∧ m.diskErr.isNone = true

instance (m : Esp) : Decidable (HasDisk m) := inferInstanceAs (Decidable (_ ∧ _))

end

end ZfsBoot.Proofs.Tool.Host
