import ZfsBoot.Proofs.Tool.SetOrder
import ZfsBoot.Proofs.Tool.SettingOrder

/-!
# `ZfsBoot.Proofs.Tool.Foreign`: the ESPs of other installations

A disk of another machine may be plugged in, and its ESP looks like one of ours. What tells them apart
is the marker: a member whose marker names another installation is foreign, and no command is to write
on it unless the operator insists.

The flag is set in one place, when the host is discovered, and every command honours it on its own
way. `update` and the settings ask `usable`, `esp add` and `esp remove` filter the members. What each
of them writes to lies in the places of members that are not foreign (`Stays`, `OwnPlaces`), so an ESP
of another installation is left alone. There are two ways around that (`Exposed`). `esp adopt`
attaches the members of the set again, and no longer as foreign ones. And a disk is written for the
sake of one ESP, whatever other ESPs are on it.
-/

set_option autoImplicit false

namespace ZfsBoot.Proofs.Tool.Foreign

open List
open Lib Lib.Halting ZfsBoot.Tool ZfsBoot.Tool.Mirror
open Tool.EspSet Tool.Host Tool.Footprint
open Proofs.Tool.Marker Tool.SetOrder Tool.SettingOrder

variable {arg : Bytes} {src : Esp} {id : Option InstallId}

/-! ### The places of a host's own members -/

/-- What a member carries besides MEMBER. -/
abbrev Content (uefi : Bool) (m : Esp) : Target → Prop := Area m.mountpoint (diskOf uefi m)

/-- The event is meant to change something in `area`. -/
def Touches (area : Target → Prop) (ev : Event Op World) : Prop :=
  ∃ t, target ev.op.action = some t ∧ area t

theorem diskOf_eq_some {uefi : Bool} {m : Esp} {d : String} (h : diskOf uefi m = some d) :
    uefi = false ∧ HasDisk m ∧ m.disk = d := by
  rw [diskOf] at h
  split_ifs at h with hdisk
  exact ⟨hdisk.1, hdisk.2, Option.some.inj h⟩

/-- A file of a member's ESP, or the disk that its stages are on. -/
def Place (uefi : Bool) (m : Esp) (t : Target) : Prop :=
  (∃ f, t = .file m.mountpoint f) ∨ ∃ d, diskOf uefi m = some d ∧ t = .disk d

/-- The places of the members that are not foreign. -/
def OwnPlaces (uefi : Bool) (ms : List Esp) (t : Target) : Prop :=
  ∃ m ∈ ms, m.foreign = false ∧ Place uefi m t

section
variable {ε : Type} {uefi : Bool} {ms : List Esp} {m : Esp}

theorem ownPlaces_of_content (hm : m ∈ ms) (hown : m.foreign = false) {t : Target}
    (ht : Content uefi m t) : OwnPlaces uefi ms t := by
  refine ⟨m, hm, hown, ?_⟩
  rcases ht with ⟨f, -, rfl⟩ | hdisk
  · exact .inl ⟨f, rfl⟩
  · exact .inr hdisk

theorem ownPlaces_file (hm : m ∈ ms) (hown : m.foreign = false) (f : EspFile) :
    OwnPlaces uefi ms (.file m.mountpoint f) :=
  ⟨m, hm, hown, .inl ⟨f, rfl⟩⟩

theorem hasFiles_own (hm : m ∈ ms) (hown : m.foreign = false) : HasFiles (OwnPlaces uefi ms) m :=
  fun f _ => ownPlaces_file hm hown f

/-- Without `force-adopt` a foreign member is not usable. -/
theorem own_of_usable (husable : m.usable false uefi = .ok ()) : m.foreign = false := by
  cases hforeign : m.foreign with
  | false => rfl
  | true =>
    rw [Esp.usable, hforeign] at husable
    cases hmount : m.mountErr <;> simp [hmount] at husable

end

/-! ### `update` -/

section
variable {ε : Type} (env : Machine) (o : UpdateOpts) {h : Host} {res : Results}

/-- A foreign member has an error. -/
def Blamed (ms : List Esp) (res : Results) : Prop :=
  ∀ m ∈ ms, m.foreign = true → (res m.info.uuid).err.isSome

theorem Blamed.own {ms : List Esp} {m : Esp} (hres : Blamed ms res) (hm : m ∈ ms)
    (herr : (res m.info.uuid).err.isNone) : m.foreign = false := by
  cases hforeign : m.foreign with
  | false => rfl
  | true =>
    have hsome := hres m hm hforeign
    rw [Option.isNone_iff_eq_none.mp herr] at hsome
    cases hsome

/-- Errors stay. -/
theorem Blamed.congr {ms : List Esp} {res' : Results} (hres : Blamed ms res)
    (herr : ∀ u, (res u).err.isSome → (res' u).err.isSome) : Blamed ms res' :=
  fun m hm hforeign => herr _ (hres m hm hforeign)

theorem fail_err (res : Results) (m : Esp) (err : StepError) (u : FatUuid)
    (hu : (res u).err.isSome) : ((res.fail m err) u).err.isSome := by
  rw [Results.fail, Function.update_apply]
  split_ifs
  · rfl
  · exact hu

theorem wrote_err (res : Results) (m : Esp) (u : FatUuid) (hu : (res u).err.isSome) :
    ((res.wrote m) u).err.isSome := by
  rw [Results.wrote, Function.update_apply]
  split_ifs with heq
  · exact heq ▸ hu
  · exact hu

theorem repairFrom_stays (h : Host) (src : Option Esp) (m : Esp) (seed : Bool)
    (hdisk : h.uefi = false → HasDisk m) :
    Stays (Content h.uefi m) (repairFrom env h src m seed : ToolM ε Result) := by
  unfold repairFrom
  cases otherThan m src with
  | none => exact asks_pure _
  | some s =>
    refine asks_ite (fun _ => asks_pure _) fun _ => asks_bind (stays_outcome (stays_of_writes
      (repairMember_writes env h.uefi s m hdisk) fun _ ht => ht)) fun out => ?_
    cases out <;> exact asks_pure _

theorem updateMember_stays (h : Host) (src : Option Esp) (m : Esp) :
    Stays (Content h.uefi m) (updateMember env o h src m : ToolM ε Result) := by
  unfold updateMember
  cases husable : m.usable o.host.forceAdopt h.uefi with
  | error err => exact asks_pure _
  | ok u =>
    have hdisk : h.uefi = false → HasDisk m := hasDisk_of_usable husable
    refine asks_bind (stays_of_reads (isSeed_reads env h m)) fun seed => asks_bind (stays_outcome
      (stays_of_writes (updateTarget_writes env o h src m seed hdisk) fun _ ht => ht)) fun out => ?_
    rcases out with f | (_ | _)
    · exact asks_pure _
    · exact repairFrom_stays env h src m seed hdisk
    · exact asks_pure _

theorem updateMember_gives (hforce : o.host.forceAdopt = false) (src : Option Esp) {m : Esp}
    (hm : m ∈ h.members) :
    Gives (Confined (OwnPlaces h.uefi h.members)) (fun r => m.foreign = true → r.err.isSome)
      (updateMember env o h src m : ToolM ε Result) := by
  cases husable : m.usable false h.uefi with
  | error err =>
    rw [updateMember, hforce, husable]
    exact yields_pure fun _ => rfl
  | ok =>
    have hown := own_of_usable husable
    refine (gives_of_asks (updateMember_stays env o h src m)).mono (fun ev hev => ?_)
      fun r _ _ _ hforeign => ?_
    · exact hev.mono fun t ht => ownPlaces_of_content hm hown ht
    · rw [hown] at hforeign
      cases hforeign

theorem updateLoop_gives (hforce : o.host.forceAdopt = false) (src : Option Esp) {ms : List Esp}
    (hsub : ∀ m ∈ ms, m ∈ h.members) (hnodup : (ms.map fun m => m.info.uuid).Nodup)
    (res : Results) :
    Gives (Confined (OwnPlaces h.uefi h.members))
      (fun res' => Blamed ms res' ∧ ∀ u, u ∉ ms.map (fun m => m.info.uuid) → res' u = res u)
      (updateLoop env o h src ms res : ToolM ε Results) := by
  induction ms generalizing res with
  | nil => exact yields_pure ⟨fun _ hm => (nomatch hm), fun _ _ => rfl⟩
  | cons m ms ih =>
    obtain ⟨hm, hms⟩ := forall_mem_cons.mp hsub
    obtain ⟨hnew, hnodup⟩ := nodup_cons.mp hnodup
    refine gives_bind (updateMember_gives env o hforce src hm) fun r hr => ?_
    refine (ih hms hnodup (Function.update res m.info.uuid r)).mono (fun _ hev => hev) ?_
    rintro res' - - ⟨hblamed, hkeep⟩
    constructor
    · intro m' hm' hforeign
      rcases mem_cons.mp hm' with rfl | hm'
      · rw [hkeep _ hnew, Function.update_self]
        exact hr hforeign
      · exact hblamed m' hm' hforeign
    · intro u hu
      rw [map_cons, mem_cons, not_or] at hu
      rw [hkeep u hu.2, Function.update_of_ne hu.1]

theorem updateLists_gives (src : Option Esp) (hres : Blamed h.members res) :
    Gives (Confined (OwnPlaces h.uefi h.members))
      (fun r => r.1.members = h.members ∧ r.1.uefi = h.uefi ∧ Blamed h.members r.2)
      (updateLists h src res : ToolM ε (Host × Results)) := by
  unfold updateLists
  dsimp only
  split_ifs
  · exact yields_pure ⟨rfl, rfl, hres⟩
  · refine gives_bind (gives_outcome (addToLists_stays _ _ fun m hm hown => ?_)) fun listed _ => ?_
    · exact hasFiles_own (mem_filter.mp hm).1 hown
    · cases listed with
      | ok u => exact yields_pure ⟨rfl, rfl, hres⟩
      | error err =>
        refine yields_pure ⟨rfl, rfl, ?_⟩
        cases src with
        | none => exact hres
        | some s => exact hres.congr (fail_err res s err)

theorem recordList_gives (hsrc : src ∈ h.members) (hown : src.foreign = false)
    (hres : Blamed h.members res) :
    Gives (Confined (OwnPlaces h.uefi h.members)) (Blamed h.members)
      (recordList h src res : ToolM ε Results) := by
  unfold recordList
  cases h.explicitList with
  | none => exact yields_pure hres
  | some list =>
    refine gives_bind (gives_of_asks (stays_of_reads (readContent_reads ..))) fun raw _ => ?_
    split_ifs
    · exact yields_pure hres
    · refine gives_bind (gives_outcome (stays_of_hasFiles (hasFiles_own hsrc hown)
        (setConfigFile_writes ..))) fun r _ => ?_
      cases r with
      | ok u => exact yields_pure (hres.congr (wrote_err res src))
      | error err => exact yields_pure (hres.congr (fail_err res src err))

theorem syncLoop_gives (src : Esp) {ms : List Esp} (hsub : ∀ m ∈ ms, m ∈ h.members)
    (hres : Blamed h.members res) :
    Gives (Confined (OwnPlaces h.uefi h.members)) (Blamed h.members)
      (syncLoop src ms res : ToolM ε Results) := by
  induction ms generalizing res with
  | nil => exact yields_pure hres
  | cons m ms ih =>
    obtain ⟨hm, hms⟩ := forall_mem_cons.mp hsub
    rw [syncLoop]
    split_ifs with hskip
    · exact ih hms hres
    · have hown : m.foreign = false := hres.own hm (by simpa using fun herr => hskip (.inr herr))
      refine gives_bind (gives_outcome (stays_of_hasFiles (hasFiles_own hm hown)
        (syncConfig_writes src m))) fun r _ => ?_
      cases r with
      | error err => exact ih hms (hres.congr (fail_err res m _))
      | ok wrote =>
        cases wrote with
        | false => exact ih hms hres
        | true => exact ih hms (hres.congr (wrote_err res m))

theorem updateConfig_gives {src : Option Esp}
    (hsrc : ∀ s, src = some s → s ∈ h.members ∧ s.foreign = false) (hres : Blamed h.members res) :
    Gives (Confined (OwnPlaces h.uefi h.members)) (Blamed h.members)
      (updateConfig h src res : ToolM ε Results) := by
  cases src with
  | none => exact yields_pure hres
  | some s =>
    obtain ⟨hs, hown⟩ := hsrc s rfl
    exact gives_bind (recordList_gives hs hown hres) fun res' hres' =>
      syncLoop_gives s (fun _ hm => hm) hres'

theorem updateFinalize_gives (src : Option Esp) (hres : Blamed h.members res) :
    Gives (Confined (OwnPlaces h.uefi h.members)) (fun _ => True)
      (updateFinalize env h src res : ToolM ε Results) := by
  refine gives_of_asks (q := fun _ => True) ?_
  refine asks_bind (stays_of_reads (poolOf_reads ..)) fun pool =>
    asks_bind (finalizeMembersAt_stays _ _ _ pool fun m hm => ?_) fun errs => asks_pure _
  obtain ⟨hm, herr⟩ := mem_filter.mp hm
  exact ownPlaces_file hm (hres.own hm herr) .member

/-- `runUpdate` keeps to the places of members that are not foreign. -/
theorem updateHost_gives (hforce : o.host.forceAdopt = false)
    (hnodup : (h.members.map fun m => m.info.uuid).Nodup) :
    Gives (Confined (OwnPlaces h.uefi h.members)) (fun _ => True)
      (updateHost env o h : ToolM ε Results) := by
  have hsrc : ∀ s, h.bestSource = some s → s ∈ h.members ∧ s.foreign = false := by
    intro s hs
    obtain ⟨hmem, -, -, hown⟩ := bestSource_mem hs
    exact ⟨hmem, hown⟩
  refine gives_bind (S := fun r => r.1.members = h.members ∧ r.1.uefi = h.uefi
    ∧ Blamed h.members r.2) ?_ fun r hr => ?_
  · refine gives_bind (updateLoop_gives env o hforce h.bestSource (fun _ hm => hm) hnodup _)
      fun res hres => gives_bind (updateLists_gives h.bestSource hres.1) fun r hr => ?_
    obtain ⟨h', res'⟩ := r
    obtain ⟨hmembers, huefi, hres'⟩ := hr
    dsimp only at hmembers huefi hres'
    refine gives_bind (S := Blamed h.members) ?_ fun res'' hres'' =>
      yields_pure ⟨hmembers, huefi, hres''⟩
    rw [← hmembers] at hsrc hres'
    rw [← hmembers, ← huefi]
    exact updateConfig_gives hsrc hres'
  · obtain ⟨h', res'⟩ := r
    obtain ⟨hmembers, huefi, hres'⟩ := hr
    dsimp only at hmembers huefi hres'
    rw [← hmembers, ← huefi]
    exact updateFinalize_gives env h.bestSource (hmembers ▸ hres')

theorem runUpdate_gives (hforce : o.host.forceAdopt = false) (hset : updateSet env o = .ok h)
    (hnodup : (h.members.map fun m => m.info.uuid).Nodup) :
    Gives (Confined (OwnPlaces h.uefi h.members)) (fun _ => True)
      (runUpdate env o : ToolM ε Nat) := by
  rw [runUpdate, hset]
  dsimp only
  split_ifs
  · exact yields_pure trivial
  · exact gives_bind (updateHost_gives env o hforce hnodup) fun _ _ => yields_pure trivial

end

/-! ### The other commands

None of them but `esp add` writes to a disk: their places are those of a UEFI host. -/

section
variable {ε : Type} (env : Machine) {h : Host}

theorem settingLoop_gives (st : Setting) {ms : List Esp} (hsub : ∀ m ∈ ms, m ∈ h.members) :
    Gives (Confined (OwnPlaces true h.members)) (fun r => ∀ m ∈ r.1, m ∈ h.members ∧ m.foreign = false)
      (settingLoop env h false st ms : ToolM ε (List Esp × Bool)) := by
  induction ms with
  | nil => exact yields_pure fun _ hm => (nomatch hm)
  | cons m ms ih =>
    obtain ⟨hm, hms⟩ := forall_mem_cons.mp hsub
    have hstep : Gives (Confined (OwnPlaces true h.members))
        (fun r => (∃ a, r = .ok a) → m.foreign = false)
        (Halting.outcome (do
          ofExcept (m.usable false h.uefi)
          applySetting env h st m) : ToolM ε (Except StepError Unit)) := by
      cases husable : m.usable false h.uefi with
      | error err =>
        show Gives _ _ (pure (.error err) : ToolM ε (Except StepError Unit))
        exact yields_pure fun hok => hok.elim nofun
      | ok u =>
        have hown := own_of_usable husable
        refine (gives_outcome (asks_bind (asks_ofExcept _) fun _ => stays_of_hasFiles
          (hasFiles_own hm hown) (applySetting_writes env h st m))).mono (fun _ hev => hev) ?_
        exact fun _ _ _ _ _ => hown
    refine gives_bind hstep fun r hr => gives_bind (ih hms) fun rest hrest => ?_
    cases r with
    | error err => exact yields_pure hrest
    | ok u => exact yields_pure (forall_mem_cons.mpr ⟨⟨hm, hr ⟨u, rfl⟩⟩, hrest⟩)

theorem forEachMember_gives {o : HostOpts} (hforce : o.forceAdopt = false) (st : Setting)
    (hdisc : discoverHost env o = .ok h) :
    Gives (Confined (OwnPlaces true h.members)) (fun _ => True)
      (forEachMember env o st : ToolM ε Nat) := by
  rw [forEachMember, hdisc, hforce]
  refine gives_bind (gives_of_asks (q := fun _ => True) ?_) fun differs _ => ?_
  · exact asks_ite (fun _ => stays_of_reads (payloadDifference_reads env h)) fun _ => asks_pure _
  · split_ifs
    · exact yields_pure trivial
    · refine gives_bind (S := fun r => ∀ m ∈ r.1, m ∈ h.members ∧ m.foreign = false) ?_
        fun r hr => ?_
      · refine gives_bind (gives_of_asks (stays_of_reads (digestAll_reads ..))) fun old _ =>
          gives_bind (settingLoop_gives env st fun _ hm => hm) fun r hr => ?_
        exact gives_bind (gives_of_asks (stays_of_reads (anyChanged_reads ..))) fun _ _ =>
          yields_pure hr
      · refine gives_bind (gives_of_asks (q := fun _ => True) ?_) fun _ _ => yields_pure trivial
        refine asks_ite (fun _ => asks_bind (stays_of_reads (poolOf_reads ..)) fun pool =>
          asks_bind (finalizeMembersAt_stays _ _ _ pool fun m hm => ?_) fun _ => asks_pure _)
          fun _ => asks_pure _
        obtain ⟨hm, hown⟩ := hr m hm
        exact ownPlaces_file hm hown .member

theorem runEspAdd_stays {o : HostOpts} (yes answer : Bool) {m : Esp}
    (hadd : addSet env o arg = .ok (h, src, m)) (hm : m ∈ h.members) (hown : m.foreign = false)
    (husable : m.usable true h.uefi = .ok ()) :
    Stays (OwnPlaces h.uefi h.members) (runEspAdd env o arg yes answer : ToolM ε Nat) := by
  rw [runEspAdd, hadd]
  refine asks_ite (fun _ => asks_pure _) fun _ => ?_
  have hcopy : Stays (OwnPlaces h.uefi h.members) (copyBootChain env h.uefi src m) :=
    stays_of_writes (copyBootChain_writes env h.uefi src m (hasDisk_of_usable husable))
      fun t ht => ownPlaces_of_content hm hown ht
  refine asks_bind (stays_outcome hcopy) fun copied => ?_
  cases copied with
  | error err => exact asks_pure _
  | ok u =>
    have hok : ∀ x ∈ h.members.filter (fun x => decide (x.mounted = true ∧ ¬ x.foreign = true)),
        x ∈ h.members ∧ x.foreign = false := by
      intro x hx
      obtain ⟨hx, hkeep⟩ := mem_filter.mp hx
      exact ⟨hx, by simpa using (of_decide_eq_true hkeep).2⟩
    refine asks_bind (stays_outcome (addToLists_stays _ _ fun x hx hown =>
      hasFiles_own (hok x hx).1 hown)) fun listed => ?_
    refine asks_bind (stays_of_reads (poolOf_reads ..)) fun pool =>
      asks_bind (finalizeMembersAt_stays _ _ _ pool fun x hx =>
        ownPlaces_file (hok x hx).1 (hok x hx).2 .member) fun errs => ?_
    exact asks_ite (fun _ => asks_pure _) fun _ => asks_pure _

/-- `esp remove` also deletes MEMBER on the ESP that it names. -/
theorem runEspRemove_stays {o : HostOpts} (yes answer : Bool) {u : FatUuid}
    (hremove : removeSet env o arg = .ok (h, u)) :
    Stays (fun t => OwnPlaces true h.members t
        ∨ ∃ m ∈ h.members, m.info.uuid = u ∧ t = .file m.mountpoint .member)
      (runEspRemove env o arg yes answer : ToolM ε Nat) := by
  rw [runEspRemove, hremove]
  refine asks_ite (fun _ => asks_pure _) fun _ => ?_
  have hmarker : Stays (fun t => OwnPlaces true h.members t
      ∨ ∃ m ∈ h.members, m.info.uuid = u ∧ t = .file m.mountpoint .member)
      (removeMarker h u : ToolM ε Bool) := by
    unfold removeMarker
    cases hlast : (h.members.filter fun m => m.info.uuid = u).getLast? with
    | none => exact asks_pure _
    | some m =>
      obtain ⟨hm, hu⟩ := mem_filter.mp (mem_of_getLast? hlast)
      refine asks_ite (fun _ => asks_perform (fun fate after t ht => .inr ?_) fun _ _ => trivial)
        fun _ => asks_pure _
      obtain rfl := Option.some.inj ht
      exact ⟨m, hm, of_decide_eq_true hu, rfl⟩
  have hsub : ∀ m ∈ (h.without u).members, m ∈ h.members := fun m hm => (mem_filter.mp hm).1
  refine asks_bind hmarker fun removed => asks_bind (dropFromLists_stays _ u fun m hm hown f _ =>
    .inl (ownPlaces_file (hsub m hm) hown f)) fun failed => ?_
  refine asks_bind (stays_of_reads (poolOf_reads ..)) fun pool =>
    asks_bind (finalizeMembersAt_stays _ _ _ pool fun m hm => ?_) fun errs => ?_
  · obtain ⟨hm, hkeep⟩ := mem_filter.mp hm
    exact .inl (ownPlaces_file (hsub m hm) (by simpa using (of_decide_eq_true hkeep).2.2) .member)
  · exact asks_ite (fun _ => asks_pure _) fun _ => asks_pure _

/-- The ESPs that `esp adopt` writes on: those it takes in, and the members it does not name. -/
def Adopted (seen : List FatUuid) (targets : List EspInfo) (i : EspInfo) : Prop :=
  i ∈ targets ∨ (∃ x ∈ (adoptSet env).members, x.toEspInfo = i) ∧ Unnamed env seen i

theorem adoptMembers_stays (id : InstallId) (seen : List FatUuid) (targets : List EspInfo)
    (gen : Nat) :
    Stays (fun t => ∃ i, Adopted env seen targets i ∧ ∃ f, t = .file i.dev f)
      (adoptMembers env (adoptHost env (adoptSet env) id seen targets) gen : ToolM ε Nat) := by
  have hok : ∀ m ∈ (adoptHost env (adoptSet env) id seen targets).members.filter Esp.mounted,
      Adopted env seen targets m.info := by
    intro m hm
    obtain ⟨hm, hmounted⟩ := mem_filter.mp hm
    rcases mem_append.mp hm with hm | hm
    · obtain ⟨t, ht, rfl⟩ := mem_map.mp hm
      exact .inl ht
    · obtain ⟨x, hx, rfl⟩ := mem_map.mp hm
      obtain ⟨hx, hseen⟩ := mem_filter.mp hx
      exact .inr ⟨⟨x, hx, rfl⟩, of_decide_eq_true hseen, (mounted_attach ..).mp hmounted⟩
  have hsub (p : Esp → Bool) : ∀ m ∈ ((adoptHost env (adoptSet env) id seen targets).members.filter
      Esp.mounted).filter p, Adopted env seen targets m.info :=
    fun m hm => hok m (mem_filter.mp hm).1
  refine asks_bind (stays_outcome (addToLists_stays _ _ fun m hm _ f _ => ⟨m.info, hok m hm, f, rfl⟩))
    fun listed => ?_
  refine asks_bind (finalizeMembersAt_stays _ _ _ _ fun m hm => ⟨m.info, hsub _ m hm, _, rfl⟩)
    fun errs => ?_
  refine asks_bind (finalizeMembersAt_stays _ _ _ _ fun m hm => ⟨m.info, hsub _ m hm, _, rfl⟩)
    fun errs' => ?_
  exact asks_ite (fun _ => asks_pure _) fun _ => asks_pure _

theorem runEspAdopt_stays {args : List Bytes} (yes : Bool) {forceAdopt : Bool}
    {seen : List FatUuid} {targets : List EspInfo}
    (htargets : adoptTargets env (adoptSet env).installId forceAdopt args = some (seen, targets)) :
    Stays (fun t => targets ≠ [] ∧ ∃ i, Adopted env seen targets i ∧ ∃ f, t = .file i.dev f)
      (runEspAdopt env args yes forceAdopt : ToolM ε Nat) := by
  rw [runEspAdopt, htargets]
  cases targets with
  | nil => exact asks_pure _
  | cons t ts =>
    have hstays (id : InstallId) : Stays (fun t' => t :: ts ≠ [] ∧ ∃ i,
        Adopted env seen (t :: ts) i ∧ ∃ f, t' = .file i.dev f)
        (adoptMembers env (adoptHost env (adoptSet env) id seen (t :: ts))
          (adoptedGeneration (adoptSet env)) : ToolM ε Nat) :=
      (adoptMembers_stays env id seen (t :: ts) _).mono
        (fun _ hev => hev.mono fun t' ht' => ⟨by simp, ht'⟩) fun _ _ _ => trivial
    cases (adoptSet env).installId with
    | some id => exact asks_ite (fun _ => asks_pure _) fun _ => hstays id
    | none =>
      cases env.newInstallId with
      | error err => exact asks_pure _
      | ok id => exact asks_ite (fun _ => asks_pure _) fun _ => hstays id

end

/-! ### Every command -/

section
variable (env : Machine)

/-- `--force-adopt` is given. -/
def forced : Command → Bool
  | .update o => o.host.forceAdopt
  | .setting o _ | .change (.add o _ _ _) | .change (.remove o _ _ _) => o.forceAdopt
  | .change (.adopt _ _ forceAdopt) => forceAdopt

/-- The install id of the set that the command selects, if it finds one. -/
def selectedId : Command → Option (Option InstallId)
  | .update o => (discoverHost env o.host).toOption.map Host.installId
  | .setting o _ | .change (.add o _ _ _) | .change (.remove o _ _ _) =>
    (discoverHost env o).toOption.map Host.installId
  | .change (.adopt _ _ _) => some (adoptSet env).installId

/-- The ESP has a valid marker of another installation. -/
def IsForeign (cmd : Command) (i : EspInfo) : Prop :=
  ∃ id, selectedId env cmd = some id ∧ ¬ Own id i

/-- The command line of `esp remove` names the ESP. -/
def Removed : Command → EspInfo → Prop
  | .change (.remove o arg _ _), i => ∃ h u, removeSet env o arg = .ok (h, u) ∧ i.uuid = u
  | _, _ => False

/-- The ESP is on the disk. -/
def OnDisk (i : EspInfo) (d : String) : Prop :=
  env.diskOfEsp i.dev = .ok d ∨ env.partitionBase i.dev = d

/-- A file of the ESP, or the disk it is on. -/
def EspPlace (i : EspInfo) (t : Target) : Prop :=
  (∃ f, t = .file i.dev f) ∨ ∃ d, OnDisk env i d ∧ t = .disk d

/-- The ESP is on the disk of a member of the host's own. -/
def SharesDisk (h : Host) (i : EspInfo) : Prop :=
  ∃ m ∈ h.members, m.foreign = false ∧ ∃ d, diskOf h.uefi m = some d ∧ OnDisk env i d

/-- The command can reach the ESP although it is foreign: it is on a disk that is written for another
ESP, or `esp adopt` takes it for a member of the host's own. -/
def Exposed : Command → EspInfo → Prop
  | .update o, i => ∃ h, updateSet env o = .ok h ∧ SharesDisk env h i
  | .change (.add o arg _ _), i => ∃ h src m, addSet env o arg = .ok (h, src, m) ∧ SharesDisk env h i
  | .change (.adopt args _ forceAdopt), i => ∃ seen targets,
      adoptTargets env (adoptSet env).installId forceAdopt args = some (seen, targets) ∧
        targets ≠ [] ∧ (∃ x ∈ (adoptSet env).members, x.toEspInfo = i) ∧ Unnamed env seen i
  | _, _ => False

variable {env} {i : EspInfo}

/-- The members that are not foreign have no marker of another installation. -/
def OwnMembers (env : Machine) (id : Option InstallId) (h : Host) : Prop :=
  ∀ m ∈ h.members, m.foreign = false → m.info ∈ env.infos ∧ Own id m.info

theorem ownMembers_discovered {o : HostOpts} {h : Host} (hdisc : discoverHost env o = .ok h) :
    OwnMembers env h.installId h := by
  intro m hm hown
  refine ⟨(discoverHost_attached hdisc).scanned m hm, ?_⟩
  have hforeign := discoverHost_foreign hdisc hm
  rw [hown] at hforeign
  exact not_not.mp (of_decide_eq_false hforeign.symm)

theorem ownMembers_grown {h : Host} {new : List EspInfo}
    (hown : OwnMembers env id h) (hnew : ∀ i ∈ new, i ∈ env.infos ∧ Own id i) :
    OwnMembers env id (grown env h new) := by
  intro m hm hforeign
  rcases mem_append.mp hm with hm | hm
  · exact hown m hm hforeign
  · obtain ⟨i, hi, rfl⟩ := mem_map.mp hm
    exact hnew i hi

theorem ownMembers_added {o : HostOpts} {h h' : Host}
    (hdisc : discoverHost env o = .ok h) (hadd : addEsps env h arg false = .ok h') :
    OwnMembers env h.installId h' ∧ (h'.members.map fun m => m.info.uuid).Nodup := by
  obtain ⟨new, hnew, rfl, hatt⟩ := addEsps_ok hadd (discoverHost_attached hdisc)
  refine ⟨ownMembers_grown (ownMembers_discovered hdisc) fun i hi => ?_, hatt.nodup⟩
  exact ⟨(hnew i hi).scanned, (hnew i hi).own rfl⟩

/-- What stays in the places of own members does not come to a foreign ESP, unless by its disk. -/
theorem not_touches_of_own {h : Host} {uefi : Bool} {ev : Event Op World}
    (hown : OwnMembers env id h) (hi : i ∈ env.infos) (hforeign : ¬ Own id i)
    (hev : Confined (OwnPlaces uefi h.members) ev)
    (hdisk : ¬ ∃ m ∈ h.members, m.foreign = false ∧ ∃ d, diskOf uefi m = some d ∧ OnDisk env i d) :
    ¬ Touches (EspPlace env i) ev := by
  rintro ⟨t, ht, hplace⟩
  obtain ⟨m, hm, hmown, hmplace⟩ := hev t ht
  rcases hmplace with ⟨f, rfl⟩ | ⟨d, hd, rfl⟩
  · rcases hplace with ⟨f', heq⟩ | ⟨d, -, heq⟩
    · obtain ⟨hscanned, howns⟩ := hown m hm hmown
      have hinfo : m.info = i := info_eq_of_dev hscanned hi (Target.file.inj heq).1
      exact hforeign (hinfo ▸ howns)
    · cases heq
  · rcases hplace with ⟨f', heq⟩ | ⟨d', hon, heq⟩
    · cases heq
    · cases heq
      exact hdisk ⟨m, hm, hmown, d, hd, hon⟩

/-- On a host that is taken for a UEFI one no disk is written. -/
theorem not_shares_true {h : Host} :
    ¬ ∃ m ∈ h.members, m.foreign = false ∧ ∃ d, diskOf true m = some d ∧ OnDisk env i d := by
  rintro ⟨m, -, -, d, hd, -⟩
  obtain ⟨huefi, -⟩ := diskOf_eq_some hd
  cases huefi

theorem selectedId_found {o : HostOpts} {h : Host} (hdisc : discoverHost env o = .ok h)
    (hid : (discoverHost env o).toOption.map Host.installId = some id) : h.installId = id := by
  rw [hdisc] at hid
  exact Option.some.inj hid

theorem update_spares {ε : Type} {o : UpdateOpts} (hforce : o.host.forceAdopt = false)
    (hi : i ∈ env.infos) (hforeign : IsForeign env (.update o) i)
    (hexposed : ¬ Exposed env (.update o) i) (fate : Nat → Fate) (w : World) :
    ∀ ev ∈ (runUpdate env o (.start fate w) : Except ε Nat × Run).2.events,
      ¬ Touches (EspPlace env i) ev := by
  cases hset : updateSet env o with
  | error err =>
    rw [runUpdate, hset]
    exact fun ev hev => absurd hev List.not_mem_nil
  | ok h =>
    obtain ⟨id, hid, hforeign⟩ := hforeign
    have hadd := hset
    rw [updateSet] at hadd
    split at hadd
    · cases hadd
    · rename_i h₀ hdisc
      split at hadd
      · cases hadd
      · rename_i h₁ hadded
        split at hadd
        · cases hadd
        · cases hadd
          rw [hforce] at hadded
          obtain ⟨hown, hnodup⟩ := ownMembers_added hdisc hadded
          obtain rfl := selectedId_found hdisc hid
          intro ev hev
          have hconf := (runUpdate_gives (ε := ε) env o hforce hset hnodup).events fate w ev hev
          exact not_touches_of_own hown hi hforeign hconf fun hshares => hexposed ⟨_, hset, hshares⟩

theorem setting_spares {ε : Type} {o : HostOpts} (hforce : o.forceAdopt = false) (st : Setting)
    (hi : i ∈ env.infos) (hforeign : IsForeign env (.setting o st) i) (fate : Nat → Fate)
    (w : World) :
    ∀ ev ∈ (forEachMember env o st (.start fate w) : Except ε Nat × Run).2.events,
      ¬ Touches (EspPlace env i) ev := by
  cases hdisc : discoverHost env o with
  | error err =>
    rw [forEachMember, hdisc]
    exact fun ev hev => absurd hev List.not_mem_nil
  | ok h =>
    obtain ⟨id, hid, hforeign⟩ := hforeign
    obtain rfl := selectedId_found hdisc hid
    intro ev hev
    have hconf := (forEachMember_gives (ε := ε) env hforce st hdisc).events fate w ev hev
    exact not_touches_of_own (ownMembers_discovered hdisc) hi hforeign hconf not_shares_true

/-- The ESP that is added stands last, and is not foreign. -/
theorem last_of_addition {o : HostOpts} {h₀ h : Host} {m : Esp}
    (haddition : Addition env o arg h₀ h src m) : m ∈ h.members ∧ m.foreign = false := by
  have hm : m ∈ h.members := mem_of_getLast? haddition.last
  refine ⟨hm, ?_⟩
  obtain ⟨new, -, hgrown, -⟩ :=
    addEsps_ok haddition.added (discoverHost_attached haddition.found)
  have hne : new ≠ [] := by
    rintro rfl
    exact haddition.longer (by rw [hgrown, grown, map_nil, append_nil])
  have hlast := haddition.last
  rw [hgrown, grown, List.getLast?_append_of_ne_nil _ (by simpa using hne)] at hlast
  obtain ⟨i, -, rfl⟩ := mem_map.mp (mem_of_getLast? hlast)
  rfl

theorem add_spares {ε : Type} {o : HostOpts} (hforce : o.forceAdopt = false) (arg : Bytes)
    (yes answer : Bool) (hi : i ∈ env.infos)
    (hforeign : IsForeign env (.change (.add o arg yes answer)) i)
    (hexposed : ¬ Exposed env (.change (.add o arg yes answer)) i) (fate : Nat → Fate) (w : World) :
    ∀ ev ∈ (runEspAdd env o arg yes answer (.start fate w) : Except ε Nat × Run).2.events,
      ¬ Touches (EspPlace env i) ev := by
  rcases hadd : addSet env o arg with status | ⟨h, src, m⟩
  · rw [runEspAdd, hadd]
    exact fun ev hev => absurd hev List.not_mem_nil
  · obtain ⟨h₀, haddition⟩ := addition_of_addSet hadd
    obtain ⟨id, hid, hforeign⟩ := hforeign
    obtain rfl := selectedId_found haddition.found hid
    have hadded := haddition.added
    rw [hforce] at hadded
    obtain ⟨hown, -⟩ := ownMembers_added haddition.found hadded
    obtain ⟨hm, hmown⟩ := last_of_addition haddition
    intro ev hev
    have hconf := (gives_of_asks (runEspAdd_stays (ε := ε) env yes answer hadd hm hmown
      haddition.usable)).events fate w ev hev
    exact not_touches_of_own hown hi hforeign hconf fun hshares => hexposed ⟨_, _, _, hadd, hshares⟩

theorem remove_spares {ε : Type} (o : HostOpts) (arg : Bytes) (yes answer : Bool)
    (hi : i ∈ env.infos) (hforeign : IsForeign env (.change (.remove o arg yes answer)) i)
    (hnamed : ¬ Removed env (.change (.remove o arg yes answer)) i) (fate : Nat → Fate) (w : World) :
    ∀ ev ∈ (runEspRemove env o arg yes answer (.start fate w) : Except ε Nat × Run).2.events,
      ¬ Touches (EspPlace env i) ev := by
  rcases hremove : removeSet env o arg with status | ⟨h, u⟩
  · rw [runEspRemove, hremove]
    exact fun ev hev => absurd hev List.not_mem_nil
  · have hdisc := discovered_of_removeSet hremove
    obtain ⟨id, hid, hforeign⟩ := hforeign
    obtain rfl := selectedId_found hdisc hid
    intro ev hev
    have hconf := (gives_of_asks (runEspRemove_stays (ε := ε) env yes answer hremove)).events
      fate w ev hev
    by_cases hmarker : ∃ m ∈ h.members, m.info.uuid = u
        ∧ target ev.op.action = some (.file m.mountpoint .member)
    · obtain ⟨m, hm, hu, htarget⟩ := hmarker
      rintro ⟨t, ht, hplace⟩
      rw [htarget] at ht
      cases ht
      rcases hplace with ⟨f, heq⟩ | ⟨d, -, heq⟩
      · have hinfo : m.info = i := info_eq_of_dev ((discoverHost_attached hdisc).scanned m hm) hi
          (Target.file.inj heq).1
        exact hnamed ⟨h, u, hremove, hinfo ▸ hu⟩
      · cases heq
    · refine not_touches_of_own (ownMembers_discovered hdisc) hi hforeign (fun t ht => ?_)
        not_shares_true
      rcases hconf t ht with hplace | ⟨m, hm, hu, rfl⟩
      · exact hplace
      · exact absurd ⟨m, hm, hu, ht⟩ hmarker

theorem adopt_spares {ε : Type} (args : List Bytes) (yes : Bool) (hi : i ∈ env.infos)
    (hforeign : IsForeign env (.change (.adopt args yes false)) i)
    (hexposed : ¬ Exposed env (.change (.adopt args yes false)) i) (fate : Nat → Fate) (w : World) :
    ∀ ev ∈ (runEspAdopt env args yes false (.start fate w) : Except ε Nat × Run).2.events,
      ¬ Touches (EspPlace env i) ev := by
  cases htargets : adoptTargets env (adoptSet env).installId false args with
  | none =>
    rw [runEspAdopt, htargets]
    exact fun ev hev => absurd hev List.not_mem_nil
  | some plan =>
    obtain ⟨seen, targets⟩ := plan
    obtain ⟨id, hid, hforeign⟩ := hforeign
    obtain rfl := Option.some.inj hid
    have hadopt := adoption_of_adoptTargets htargets
    intro ev hev
    have hconf := (gives_of_asks (runEspAdopt_stays (ε := ε) env yes htargets)).events fate w ev hev
    rintro ⟨t, ht, hplace⟩
    obtain ⟨hne, j, hj, f, rfl⟩ := hconf t ht
    have hscanned : j ∈ env.infos := by
      rcases hj with hj | ⟨⟨x, hx, rfl⟩, -⟩
      · exact hadopt.scanned j hj
      · exact ((adoptSet_spec env).1 x hx).1
    rcases hplace with ⟨f', heq⟩ | ⟨d, -, heq⟩
    · obtain rfl : j = i := info_eq_of_dev hscanned hi (Target.file.inj heq).1
      rcases hj with hj | hj
      · -- what is taken in has no valid marker at all
        refine hforeign fun hvalid => ?_
        cases (hadopt.marked j hj hvalid).2
      · exact hexposed ⟨seen, targets, htargets, hne, hj⟩
    · cases heq

/-- No command without `--force-adopt` writes to an ESP of another installation, or to the disk it is
on, unless `esp remove` names it or the command is one that it is exposed to. -/
theorem foreign_untouched {ε : Type} (cmd : Command) (hforce : forced cmd = false)
    (hi : i ∈ env.infos) (hforeign : IsForeign env cmd i) (hnamed : ¬ Removed env cmd i)
    (hexposed : ¬ Exposed env cmd i) (fate : Nat → Fate) (w : World) :
    ∀ ev ∈ (cmd.run env (.start fate w) : Except ε Nat × Run).2.events,
      ¬ Touches (EspPlace env i) ev := by
  cases cmd with
  | update o => exact update_spares hforce hi hforeign hexposed fate w
  | setting o st => exact setting_spares hforce st hi hforeign fate w
  | change c =>
    cases c with
    | add o arg yes answer => exact add_spares hforce arg yes answer hi hforeign hexposed fate w
    | remove o arg yes answer => exact remove_spares o arg yes answer hi hforeign hnamed fate w
    | adopt args yes forceAdopt =>
      obtain rfl : forceAdopt = false := hforce
      exact adopt_spares args yes hi hforeign hexposed fate w

end

/-! ### A list that names an ESP of another installation -/

/-- Another install id. -/
def idTwos : InstallId :=
  ⟨[0x2D].intercalate ([8, 4, 4, 4, 12].map (List.replicate · 0x32)), by decide⟩

/-- The primary ESP: the list in its config names `uuidB` too. -/
def listingEsp : EspInfo :=
  { memberEsp "/dev/sda1" uuidA idOnes 1 [uuidA] with configList := joinUuids [uuidA, uuidB] }

/-- A member of another installation. -/
def strangerEsp : EspInfo := memberEsp "/dev/sdb1" uuidB idTwos 1 [uuidB]

def strangerMachine : Machine :=
  { plainMachine false [listingEsp, strangerEsp, unmarkedEsp] (by decide) with
    primaryUuid := some uuidA }

def strangerScan : Scan strangerMachine where
  world := plainWorld [listingEsp, strangerEsp, unmarkedEsp] fun _ _ => none
  shows := by decide +kernel

def adoptUnmarked : Command := .change adoptThird

/-- The run, with every step carried out. -/
def adoptUnmarkedRun : Except Unit Nat × Run :=
  adoptUnmarked.run strangerMachine (.start (fun _ => .done) strangerScan.world)

theorem stranger_isForeign : IsForeign strangerMachine adoptUnmarked strangerEsp :=
  ⟨some idOnes, by decide +kernel, by decide +kernel⟩

/-- `esp adopt` of a third ESP marks the stranger for this installation. -/
theorem adopt_marks_foreign : forced adoptUnmarked = false
    ∧ strangerEsp ∈ strangerMachine.infos ∧ IsForeign strangerMachine adoptUnmarked strangerEsp
    ∧ ¬ Removed strangerMachine adoptUnmarked strangerEsp ∧ adoptUnmarkedRun.1 = .ok 0
    ∧ (∃ ev ∈ adoptUnmarkedRun.2.events, Touches (EspPlace strangerMachine strangerEsp) ev)
    ∧ (markerOn strangerScan.world strangerEsp).map Member.installId = some idTwos
    ∧ (markerOn adoptUnmarkedRun.2.now strangerEsp).map Member.installId = some idOnes := by
  have hwrites : ∃ ev ∈ adoptUnmarkedRun.2.events,
      target ev.op.action = some (.file strangerEsp.dev .member) := by decide +kernel
  obtain ⟨ev, hev, htarget⟩ := hwrites
  exact ⟨rfl, by decide +kernel, stranger_isForeign, id, by decide +kernel,
    ⟨ev, hev, _, htarget, .inl ⟨_, rfl⟩⟩, by decide +kernel, by decide +kernel⟩

/-- A setting leaves the stranger alone on the same machine. -/
theorem foreign_untouched_setting :
    IsForeign strangerMachine (.setting plainOpts (.int13chunk [0x31])) strangerEsp
    ∧ ∀ ev ∈ ((Command.setting plainOpts (.int13chunk [0x31])).run strangerMachine
        (.start (fun _ => .done) strangerScan.world) : Except Unit Nat × Run).2.events,
      ¬ Touches (EspPlace strangerMachine strangerEsp) ev := by
  have hforeign : IsForeign strangerMachine (.setting plainOpts (.int13chunk [0x31])) strangerEsp :=
    ⟨some idOnes, by decide +kernel, by decide +kernel⟩
  exact ⟨hforeign, foreign_untouched _ rfl (by decide +kernel) hforeign id id _ _⟩

end ZfsBoot.Proofs.Tool.Foreign
