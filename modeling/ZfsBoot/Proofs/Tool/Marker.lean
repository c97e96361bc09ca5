import ZfsBoot.Proofs.Tool.EspChoice
import ZfsBoot.Proofs.Tool.Footprint

/-!
# `ZfsBoot.Proofs.Tool.Marker`: what MEMBER says after a run

MEMBER is what makes an ESP a member, and its generation says which copy is the newest. This module
reads it off the medium (`markerOn`, `generationOn`) and says what `finalizeMembersAt` leaves there:
on every member of its list the record that was wanted or, where it reports an error, perhaps the one
before. Everything else is as it was.

A run starts from a `Scan`: the markers that the machine was found with are those that its ESPs
carry.
-/

set_option autoImplicit false

namespace ZfsBoot.Proofs.Tool.Marker

open Lib Lib.Halting ZfsBoot.Tool ZfsBoot.Tool.Mirror

open Tool.Host Tool.Footprint

variable (part : Part) {want : Member} {mp : String} {i : EspInfo} {w' : World} {ms : List Esp}

/-- The valid marker that the contents of MEMBER are for the ESP `u`. -/
def markerOf (u : FatUuid) (file : Option Bytes) : Option Member :=
  (file.bind fun raw => (decodeMember raw).toOption).filter (·.espUuid = u)

/-- The valid marker that an ESP carries. -/
def markerOn (w : World) (i : EspInfo) : Option Member := markerOf i.uuid (w.files i.dev .member)

/-- The generation that an ESP carries; 0 without a valid marker. -/
def generationOn (w : World) (i : EspInfo) : Nat := ((markerOn w i).map Member.generation).getD 0

/-- What is on the ESPs when a run starts: the markers are those of the scan. -/
structure Scan (env : Machine) where
  world : World
  shows : ∀ i ∈ env.infos, markerOn world i = i.validMember

theorem generationOn_scan {env : Machine} (scan : Scan env) (hi : i ∈ env.infos) :
    generationOn scan.world i = i.generation := by
  rw [generationOn, scan.shows i hi, EspInfo.generation]

theorem generationOn_congr {w : World}
    (h : w'.files i.dev .member = w.files i.dev .member) : generationOn w' i = generationOn w i := by
  rw [generationOn, generationOn, markerOn, markerOn, h]

/-! ### One record -/

/-- The contents of MEMBER are a record for `want`, up to what is only informational. -/
def Records (want : Member) (file : Option Bytes) : Prop :=
  ∃ got, (file.bind fun raw => (decodeMember raw).toOption) = some got
    ∧ got.installId = want.installId ∧ got.generation = want.generation ∧ got.espUuid = want.espUuid

theorem generationOn_of_records {w : World}
    (h : Records want (w.files i.dev .member)) (hu : want.espUuid = i.uuid) :
    generationOn w i = want.generation := by
  obtain ⟨got, hgot, -, hgen, huuid⟩ := h
  rw [generationOn, markerOn, markerOf, hgot, Option.filter_some, if_pos]
  · exact hgen
  · exact decide_eq_true (huuid.trans hu)

theorem records_of_sameRecord {file : Option Bytes}
    (h : sameRecord want (file.bind fun raw => (decodeMember raw).toOption) = true) :
    Records want file := by
  cases hcur : file.bind fun raw => (decodeMember raw).toOption with
  | none =>
    rw [hcur] at h
    cases h
  | some cur =>
    rw [hcur, sameRecord, decide_eq_true_eq] at h
    exact ⟨cur, hcur, h.1, h.2.1, h.2.2.1⟩

/-- What `Validate` lets through reads back. -/
theorem records_encodeMember (h : validateMember want = .ok ()) :
    Records want (some (encodeMember want)) := by
  rw [validateMember] at h
  split at h
  · cases h
  · rename_i got hgot
    split_ifs at h with hne
    simp only [not_or, ne_eq, not_not] at hne
    exact ⟨got, by rw [Option.bind_some, hgot]; rfl, hne.1, hne.2.2, hne.2.1⟩

/-! ### Reading -/

/-- What `os.ReadFile` finds. -/
def contentOf : Option Bytes → Content
  | none => .absent
  | some b => .bytes b

section
variable {ε : Type} {w : World}

theorem readFile_spec (mp : String) (f : EspFile) (e : ε) :
    Triple (fun s => s.now = w) (readFile part mp f e)
      (fun r s => s.now = w ∧ r = w.files mp f) fun _ s => s.now = w := by
  refine triple_observe (fun s hs => ?_) fun s hs fate _ => ?_
  · rw [Journal.record_now, ← hs]
    exact ⟨rfl, rfl⟩
  · rw [Journal.record_now, ← hs]
    cases fate <;> rfl

theorem readContent_spec (mp : String) (f : EspFile) :
    Triple (fun s => s.now = w) (readContent part mp f : ToolM ε Content)
      (fun c s => s.now = w ∧ (c = .unreadable ∨ c = contentOf (w.files mp f))) fun _ _ => False := by
  refine triple_bind (fun r s => s.now = w ∧ ∀ file, r = .ok file → file = w.files mp f)
    (triple_outcome ?_) fun r => ?_
  · exact ((readFile_spec part mp f ()).post fun r s hs => ⟨hs.1, fun file hfile => by
      cases hfile; exact hs.2⟩).post_error fun _ s hs => ⟨hs, by simp⟩
  · rcases r with _ | _ | b
    · exact triple_pure fun s hs => ⟨hs.1, .inl rfl⟩
    · exact triple_pure fun s hs => ⟨hs.1, .inr (by rw [← hs.2 none rfl]; rfl)⟩
    · exact triple_pure fun s hs => ⟨hs.1, .inr (by rw [← hs.2 (some b) rfl]; rfl)⟩

theorem readMember_spec (mp : String) :
    Triple (fun s => s.now = w) (readMember mp : ToolM ε (Option Member))
      (fun r s => s.now = w
        ∧ (r = none ∨ r = (w.files mp .member).bind fun raw => (decodeMember raw).toOption))
      fun _ _ => False := by
  refine triple_bind _ (readContent_spec .write mp .member) fun c => ?_
  cases c with
  | bytes raw =>
    refine triple_pure fun s hs => ⟨hs.1, .inr ?_⟩
    cases hfile : w.files mp .member with
    | none => simp [hfile, contentOf] at hs
    | some b =>
      obtain ⟨-, hc | hc⟩ := hs
      · cases hc
      · rw [hfile] at hc
        cases hc
        rfl
  | absent => exact triple_pure fun s hs => ⟨hs.1, .inl rfl⟩
  | unreadable => exact triple_pure fun s hs => ⟨hs.1, .inl rfl⟩

/-! ### Writing -/

/-- MEMBER on one ESP is the record that was wanted; nothing else is touched. -/
def Marked (mp : String) (want : Member) (w w' : World) : Prop :=
  w' = w ∧ Records want (w.files mp .member)
    ∨ validateMember want = .ok () ∧ w' = w.setFile mp .member (some (encodeMember want))

theorem finalizeMember_spec (mp : String) (want : Member) :
    Triple (fun s => s.now = w) (finalizeMember mp want)
      (fun _ s => Marked mp want w s.now) fun _ s => s.now = w ∨ Marked mp want w s.now := by
  refine triple_bind _ ((readMember_spec mp).post_error fun _ _ h => h.elim) fun cur =>
    triple_ite (fun hsame => triple_pure fun s hs => ?_) fun _ => ?_
  · obtain ⟨rfl, hnone | hcur⟩ := hs
    · rw [hnone] at hsame
      cases hsame
    · exact .inl ⟨rfl, records_of_sameRecord (hcur ▸ hsame)⟩
  · refine triple_bind (fun _ s => s.now = w ∧ validateMember want = .ok ())
      (triple_ofExcept (fun _ hok s hs => ⟨hs.1, ?_⟩) fun _ _ s hs => .inl hs.1) fun _ =>
      triple_demand (fun s hs => ?_) fun s hs fate _ => ?_
    · cases hvalid : validateMember want with
      | error err =>
        rw [hvalid] at hok
        cases hok
      | ok u => rfl
    · exact .inr ⟨hs.2, by rw [Journal.record_now, hs.1]; rfl⟩
    · rw [Journal.record_now, hs.1]
      cases fate with
      | failed => exact .inl rfl
      | done => exact .inr (.inr ⟨hs.2, rfl⟩)
      | late => exact .inr (.inr ⟨hs.2, rfl⟩)

theorem Marked.records (h : Marked mp want w w') :
    Records want (w'.files mp .member) := by
  rcases h with ⟨rfl, hrec⟩ | ⟨hvalid, rfl⟩
  · exact hrec
  · rw [World.setFile_files_self, Function.update_self]
    exact records_encodeMember hvalid

theorem Marked.files_eq {mp' : String} {f : EspFile}
    (h : Marked mp want w w') (hne : f ≠ .member ∨ mp' ≠ mp) : w'.files mp' f = w.files mp' f := by
  rcases h with ⟨rfl, -⟩ | ⟨-, rfl⟩
  · rfl
  · by_cases hmp : mp' = mp
    · subst hmp
      rw [World.setFile_files_self, Function.update_of_ne (hne.resolve_right fun h => h rfl)]
    · rw [World.setFile_files_of_ne _ _ _ hmp]

/-! ### All members -/

/-- What `finalizeMembersAt` leaves of `w`: on each member MEMBER as it was, or the record that is
wanted there. -/
structure Finalized (want : Esp → Member) (ms : List Esp) (w w' : World) : Prop where
  others : ∀ mp f, f ≠ .member ∨ mp ∉ ms.map Esp.mountpoint → w'.files mp f = w.files mp f
  each : ∀ m ∈ ms, w'.files m.mountpoint .member = w.files m.mountpoint .member
    ∨ Records (want m) (w'.files m.mountpoint .member)

/-- All of them have the record that is wanted. -/
def AllRecorded (want : Esp → Member) (ms : List Esp) (w : World) : Prop :=
  ∀ m ∈ ms, Records (want m) (w.files m.mountpoint .member)

theorem Finalized.cons {want : Esp → Member} {m : Esp} {w w₁ w₂ : World}
    (hm : m.mountpoint ∉ ms.map Esp.mountpoint)
    (hfirst : w₁ = w ∨ Marked m.mountpoint (want m) w w₁) (hrest : Finalized want ms w₁ w₂) :
    Finalized want (m :: ms) w w₂ where
  others := by
    intro mp f hne
    have hne' : f ≠ .member ∨ mp ∉ ms.map Esp.mountpoint :=
      hne.imp_right fun h hmem => h (List.mem_cons_of_mem _ hmem)
    rw [hrest.others mp f hne']
    rcases hfirst with rfl | hmarked
    · rfl
    · refine hmarked.files_eq (hne.imp_right ?_)
      rintro h rfl
      exact h List.mem_cons_self
  each := by
    intro m' hm'
    rcases List.mem_cons.1 hm' with rfl | hm'
    · rw [hrest.others _ _ (.inr hm)]
      exact hfirst.imp (fun h => by rw [h]) Marked.records
    · have hne : m'.mountpoint ≠ m.mountpoint := fun heq => hm (heq ▸ List.mem_map_of_mem hm')
      have hsame : w₁.files m'.mountpoint .member = w.files m'.mountpoint .member := by
        rcases hfirst with rfl | hmarked
        · rfl
        · exact hmarked.files_eq (.inr hne)
      rw [← hsame]
      exact hrest.each m' hm'

theorem finalizeEach_spec (want : Esp → Member)
    (hnodup : (ms.map Esp.mountpoint).Nodup) (w : World) :
    Triple (fun s => s.now = w)
      (onEach (fun m => finalizeMember m.mountpoint (want m)) ms : ToolM ε _)
      (fun errs s => Finalized want ms w s.now ∧ (errs = [] → AllRecorded want ms s.now))
      fun _ _ => False := by
  induction ms generalizing w with
  | nil =>
    refine triple_pure fun s hs => ?_
    rw [hs]
    exact ⟨⟨fun _ _ _ => rfl, by simp⟩, fun _ => by simp [AllRecorded]⟩
  | cons m ms ih =>
    obtain ⟨hm, hnodup⟩ := List.nodup_cons.1 hnodup
    refine triple_bind (fun r s => ∃ w₁, s.now = w₁
        ∧ ((∃ a, r = .ok a) → Marked m.mountpoint (want m) w w₁)
        ∧ (w₁ = w ∨ Marked m.mountpoint (want m) w w₁)) (triple_outcome ?_) fun r =>
      triple_exists fun w₁ => triple_of_and fun hfirst => triple_bind _ (ih hnodup w₁) fun errs =>
        triple_pure fun s hs => ?_
    · refine ((finalizeMember_spec m.mountpoint (want m)).post fun _ s hs => ?_).post_error
        fun e s hs => ?_
      · exact ⟨s.now, rfl, fun _ => hs, .inr hs⟩
      · exact ⟨s.now, rfl, by simp, hs⟩
    · refine ⟨hs.1.cons hm hfirst.2, fun hnil => ?_⟩
      cases r with
      | error err => cases hnil
      | ok a =>
        intro m' hm'
        rcases List.mem_cons.1 hm' with rfl | hm'
        · rw [hs.1.others _ _ (.inr hm)]
          exact (hfirst.1 ⟨a, rfl⟩).records
        · exact hs.2 hnil m' hm'

/-- The MEMBER files are those of `w`. -/
def SameMarkers (w : World) (s : Run) : Prop :=
  ∀ mp, s.now.files mp .member = w.files mp .member

/-- What `finalizeMembersAt` leaves of the markers of `w`. -/
structure Levels (genOf : Esp → Nat) (ms : List Esp) (w : World) (s : Run) : Prop where
  others : ∀ mp, mp ∉ ms.map Esp.mountpoint → s.now.files mp .member = w.files mp .member
  each : ∀ m ∈ ms, s.now.files m.mountpoint .member = w.files m.mountpoint .member
    ∨ generationOn s.now m.info = genOf m

theorem finalizeMembersAt_spec (env : Machine) (h : Host) (genOf : Esp → Nat)
    (pool : Bytes) (hnodup : (ms.map Esp.mountpoint).Nodup) (w : World) :
    Triple (SameMarkers w) (finalizeMembersAt env h ms genOf pool : ToolM ε _)
      (fun errs s => Levels genOf ms w s
        ∧ (errs = [] → ∀ m ∈ ms, generationOn s.now m.info = genOf m)) fun _ _ => False := by
  unfold finalizeMembersAt
  cases h.ensureInstallId env with
  | error err =>
    refine triple_pure fun s hs => ⟨⟨fun mp _ => hs mp, fun m _ => .inl (hs _)⟩, fun hnil => ?_⟩
    rw [List.map_eq_nil_iff] at hnil
    simp [hnil]
  | ok id =>
    refine triple_now fun w₁ => ⟨fun s hs => ?_⟩
    refine ((finalizeEach_spec (fun m => wanted env h id pool (genOf m) m) hnodup w₁).post
      fun errs s' hs' => ⟨⟨fun mp hmp => ?_, fun m hm => ?_⟩, fun hnil m hm => ?_⟩).ends s hs.1
    · rw [hs'.1.others mp .member (.inr hmp), ← hs.1, hs.2 mp]
    · exact (hs'.1.each m hm).imp (fun heq => by rw [heq, ← hs.1, hs.2])
        fun hrec => generationOn_of_records hrec rfl
    · exact generationOn_of_records (hs'.2 hnil m hm) rfl

/-! ### Parts that leave MEMBER alone -/

/-- `x` changes no MEMBER file. -/
abbrev Spares {α : Type} (x : ToolM ε α) : Prop :=
  Stays (fun t => ∀ mp, t ≠ .file mp .member) x

variable {α : Type} {x : ToolM ε α}

theorem hasFiles_spared (m : Esp) : HasFiles (fun t => ∀ mp, t ≠ .file mp .member) m :=
  fun _ hf _ heq => hf (Target.file.inj heq).2

theorem spares_of_writes {disk : Option String} (h : Writes mp disk x) : Spares x := by
  refine stays_of_writes h ?_
  rintro t (⟨f, hf, rfl⟩ | ⟨d, -, rfl⟩) mp' heq
  · exact hf (Target.file.inj heq).2
  · cases heq

theorem spares_of_reads (h : Reads x) : Spares x := stays_of_reads h

theorem Spares.keeps (h : Spares x) :
    Triple (SameMarkers w) x (fun _ => SameMarkers w) fun _ => SameMarkers w := by
  refine ⟨fun s hs => ?_⟩
  obtain ⟨new, -, hlink, hnew, -⟩ := h.ends s
  have hkeep : SameMarkers w (x s).2 := by
    intro mp
    rw [files_of_linked hlink fun ev hev ht => hnew ev hev _ ht mp rfl]
    exact hs mp
  revert hkeep
  rcases x s with ⟨e | a, s'⟩ <;> exact id

end

/-- `os.ReadFile`, as it goes. -/
theorem readContent_run {ε : Type} (mp : String) (f : EspFile) (s : Run) :
    (readContent part mp f : ToolM ε Content) s
      = (.ok (if s.fate s.events.length = .done then contentOf (s.now.files mp f)
          else .unreadable),
        s.record ⟨part, .readFile mp f⟩ (s.fate s.events.length)) := by
  by_cases hfate : s.fate s.events.length = .done
  · cases hfile : s.now.files mp f <;>
      simp [readContent, readFile, observe, demand, hfate, hfile, contentOf]
  · simp [readContent, readFile, observe, demand, hfate]

/-! ### Without failures -/

section
variable {ε : Type} {w : World}

theorem readContent_runs (mp : String) (f : EspFile) :
    Runs w (readContent part mp f : ToolM ε Content) (.ok (contentOf (w.files mp f))) w := by
  have hread : Runs w (readFile part mp f () : ToolM Unit _) (.ok (w.files mp f)) w :=
    runs_observe () (⟨part, .readFile mp f⟩ : Op) _ fun _ => rfl
  refine runs_bind (runs_outcome hread) ?_
  cases w.files mp f with
  | none => exact runs_pure _
  | some b => exact runs_pure _

theorem readRegion_runs (disk : String) (off n : Nat) (e : ε) :
    Runs w (readRegion disk off n e) (((w.disk disk).readAt off n).mapError fun _ => e) w := by
  have hopen : Runs w (demand e ⟨.write, .openDisk disk⟩ : ToolM ε Unit) (.ok ()) w := runs_demand _ _
  exact runs_bind hopen (runs_bind
    (runs_observe e (⟨.write, .readAt disk off n⟩ : Op) _ fun _ => rfl) (runs_ofExcept _))

theorem readStage2_runs (disk : String) (e : ε) :
    Runs w (readStage2 disk e)
      ((((w.disk disk).readAt stage2Offset stage2Bytes).mapError fun _ => e).map trimStage2) w := by
  have hregion := readRegion_runs (w := w) disk stage2Offset stage2Bytes e
  unfold readStage2
  revert hregion
  cases ((w.disk disk).readAt stage2Offset stage2Bytes).mapError fun _ => e with
  | error e' => exact fun h => runs_bind_error h
  | ok region => exact fun h => runs_bind h (runs_pure _)

theorem finalizeMember_runs
    (hsame : sameRecord want ((w.files mp .member).bind fun raw => (decodeMember raw).toOption) = false)
    (hvalid : validateMember want = .ok ()) :
    Runs w (finalizeMember mp want) (.ok ()) (w.setFile mp .member (some (encodeMember want))) := by
  have hread : Runs w (readMember mp : ToolM StepError _)
      (.ok ((w.files mp .member).bind fun raw => (decodeMember raw).toOption)) w := by
    refine runs_bind (readContent_runs .write mp .member) ?_
    cases w.files mp .member with
    | none => exact runs_pure _
    | some raw => exact runs_pure _
  refine runs_bind hread ?_
  rw [if_neg (by simp [hsame]), hvalid]
  exact runs_bind (runs_pure ()) (runs_demand _ _)

end

/-! ### Machines on which everything works -/

section
open Tool.EspSet

/-- An ESP with a marker of its own. -/
def memberEsp (dev : String) (u : FatUuid) (id : InstallId) (generation : Nat)
    (members : List FatUuid) : EspInfo :=
  ⟨dev, u, fatVolumeLabel, true, true, .decoded ⟨id, generation, u, members, [], [], []⟩, []⟩

/-- The disk of a partition. -/
def plainDisk (dev : String) : String :=
  if dev = "/dev/sda1" then "/dev/sda" else if dev = "/dev/sdb1" then "/dev/sdb" else "/dev/sdc"

/-- Every ESP can be mounted, every one is a partition of a disk, and every loader is of one build. -/
def plainMachine (uefi : Bool) (infos : List EspInfo) (distinct : (infos.map EspInfo.dev).Nodup) :
    Machine where
  uefi := uefi
  arch := "x86_64"
  infos := infos
  distinct := distinct
  primaryUuid := none
  partitionBase := plainDisk
  diskOfEsp := fun dev => .ok (plainDisk dev)
  mount := fun _ => .ok ()
  names := fun _ _ => false
  loaderInfo := fun bytes => .ok ⟨"x86_64", [], bytes, []⟩
  loaderSection := fun _ _ => .ok []
  deepMetadata := fun _ _ _ _ _ => .ok []
  newInstallId := .ok idOnes
  diskHint := fun _ => []
  nowUtc := fun _ => []

/-- The files of the ESPs, with the markers of the scan. -/
def plainWorld (infos : List EspInfo) (files : EspInfo → EspFiles) : World where
  files := fun dev f =>
    (infos.find? (·.dev = dev)).bind fun i =>
      match f, i.marker with
      | .member, .decoded m => some (encodeMember m)
      | .member, _ => none
      | f, _ => files i f
  disk := fun _ => ⟨2 ^ 20, by decide, fun _ => 0⟩

/-- Nothing is given on the command line. -/
def plainOpts : HostOpts := ⟨[], List.nodup_nil, .given "", false, [], false⟩

/-- A third UUID. -/
def uuidC : FatUuid := ⟨[0x43, 0x43, 0x43, 0x43, 0x2D, 0x30, 0x30, 0x30, 0x33], by decide⟩

end

end ZfsBoot.Proofs.Tool.Marker
