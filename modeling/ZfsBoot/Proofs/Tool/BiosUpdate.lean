import ZfsBoot.Proofs.Tool.Marker
import ZfsBoot.Proofs.Tool.Payload
import ZfsBoot.Proofs.Tool.Stages

/-!
# `ZfsBoot.Proofs.Tool.BiosUpdate`: an update of one BIOS target that fails

`updateBIOSTarget` writes the stages and then the payload, and each of the two rolls itself back.
There is no rollback over both. A failure of the payload comes when the stages are committed, and
they stay. A target that is up to date gets its settings, one after the other, with no rollback.

`failed_update_unchanged_iff` says for every failed run whose rollbacks succeeded when nothing has changed.
-/

set_option autoImplicit false

namespace ZfsBoot.Proofs.Tool.BiosUpdate

open List
open Lib Lib.Halting ZfsBoot.Tool ZfsBoot.Tool.Mirror ZfsBoot.Tool.Cmdline
open ZfsBoot.Tool.PayloadSum Tool Tool.Footprint
open Proofs.Tool.Marker Tool.EspSet

variable {action : Action} {ev : Event Op World} {c : Prop} {op : Op} {src : Option Esp}
  {agree seed : Bool} {evs : List (Event Op World)} {w' : World}

/-! ### Rollbacks that succeed -/

/-- The operation reported success. Two operations also answer for the disk: the check of the extent,
and a read, which must not go past the end. -/
def Succeeded (ev : Event Op World) : Prop :=
  ev.fate = .done ∧
    match ev.op.action with
    | .checkExtent disk => checkStage2ExtentFree (ev.after.disk disk) = .ok ()
    | .readAt disk off n => ∃ bytes, (ev.after.disk disk).readAt off n = .ok bytes
    | _ => True

/-- Something that a rollback asked for did not succeed. -/
def RollbackFailed (s : Run) : Prop := ∃ ev ∈ s.events, ev.op.part = .rollback ∧ ¬ Succeeded ev

section

variable {ε α : Type} {P : Run → Prop}

/-- What has failed has failed. -/
theorem rollbackFailed_stays {p q : Event Op World → Prop} {x : ToolM ε α} (hx : Asks p q x) :
    Triple RollbackFailed x (fun _ => RollbackFailed) fun _ => RollbackFailed := by
  refine ⟨fun s hs => ?_⟩
  obtain ⟨new, hevents, -⟩ := hx.ends s
  obtain ⟨ev, hev, hpart⟩ := hs
  have hlater : RollbackFailed (x s).2 :=
    ⟨ev, by rw [hevents]; exact mem_append_right _ hev, hpart⟩
  revert hlater
  rcases x s with ⟨_ | _, _⟩ <;> exact id

/-- An operation of a rollback, if it is carried out or else has failed. -/
theorem demand_rollback {e : ε} {Q : Unit → Run → Prop}
    (h : ∀ s, P s → Q () (s.record ⟨.rollback, action⟩ .done)) :
    Triple P (demand e ⟨.rollback, action⟩ : ToolM ε Unit) Q fun _ => RollbackFailed := by
  refine triple_demand h fun s _ fate hfate => ?_
  exact ⟨_, mem_cons_self, rfl, fun hok => hfate hok.1⟩

/-- An operation of a rollback that answers for the disk. -/
theorem ask_rollback {ζ β : Type} {g : World → Except ζ β} {e : ε} {h : ζ → ε}
    (hP : ∀ s, P s → P (s.record ⟨.rollback, action⟩ .done))
    (hanswer : ∀ ev : Event Op World, ev.op.action = action → Succeeded ev →
      ∃ b, g ev.after = .ok b) :
    Triple P (observe e ⟨.rollback, action⟩ g >>= fun r => ofExcept (r.mapError h))
      (fun b s => P s ∧ g s.now = .ok b) fun _ => RollbackFailed := by
  refine triple_bind (fun r s => P s ∧ r = g s.now ∧ ∃ ev ∈ s.events,
    ev.op = ⟨.rollback, action⟩ ∧ ev.after = s.now) (triple_observe ?_ ?_) fun r => ?_
  · intro s hs
    exact ⟨hP s hs, rfl, _, mem_cons_self, rfl, rfl⟩
  · intro s _ fate hfate
    exact ⟨_, mem_cons_self, rfl, fun hok => hfate hok.1⟩
  · refine triple_ofExcept ?_ ?_
    · rintro b hr s ⟨hs, rfl, -⟩
      refine ⟨hs, ?_⟩
      cases hg : g s.now with
      | error err => rw [hg] at hr; cases hr
      | ok b' => rw [hg] at hr; cases hr; rfl
    · rintro err hr s ⟨-, rfl, ev, hev, hop, hafter⟩
      refine ⟨ev, hev, by rw [hop], fun hok => ?_⟩
      obtain ⟨b, hb⟩ := hanswer ev (by rw [hop]) hok
      rw [← hafter, hb] at hr
      cases hr

theorem checkExtent_rollback {disk : String} {e : StageError → ε}
    (hP : ∀ s, P s → P (s.record ⟨.rollback, .checkExtent disk⟩ .done)) :
    Triple P (checkExtent .rollback disk e) (fun _ => P) fun _ => RollbackFailed := by
  refine (ask_rollback hP fun ev hop hok => ⟨(), ?_⟩).post fun _ _ h => h.1
  have hfree := hok.2
  rw [hop] at hfree
  exact hfree

theorem readDisk_rollback {disk : String} {off n : Nat} {e : ε}
    (hP : ∀ s, P s → P (s.record ⟨.rollback, .readAt disk off n⟩ .done)) :
    Triple P (readDisk .rollback disk off n e)
      (fun bytes s => P s ∧ (s.now.disk disk).readAt off n = .ok bytes) fun _ => RollbackFailed := by
  refine ask_rollback hP fun ev hop hok => ?_
  have hread := hok.2
  rw [hop] at hread
  exact hread

end

section

variable {disk : String} {content : List UInt8} {ε : Type} {E : ε → Run → Prop}

theorem writeStage1_rollback (hlen : content.length = stage1Bytes) :
    Triple (fun _ => True) (writeStage1 .rollback disk content) (fun _ _ => True)
      fun _ => RollbackFailed := by
  refine triple_bind _ (triple_require fun s _ hne => absurd hlen hne) fun _ => ?_
  refine triple_bind _ (checkExtent_rollback fun _ h => h) fun _ => ?_
  refine triple_bind (fun _ _ => True) (demand_rollback fun _ _ => trivial) fun _ => ?_
  refine triple_bind _ (readDisk_rollback fun _ _ => trivial) fun _ => ?_
  refine triple_bind (fun _ _ => True) ?_ fun _ => triple_pure fun _ _ => trivial
  exact triple_bind (fun _ _ => True) (demand_rollback fun _ _ => trivial) fun _ =>
    demand_rollback fun _ _ => trivial

/-- The stage2 that was written is read back. -/
theorem verifyStage2At_rollback (hlen : content.length = stage2Bytes) {e : StageError → ε} :
    Triple (fun s : Run => (s.now.disk disk).bytes stage2Offset stage2Bytes = content)
      (verifyStage2At .rollback disk content e) (fun _ _ => True) fun _ => RollbackFailed := by
  refine triple_bind _ (readDisk_rollback fun s hs => hs) fun region => ?_
  refine ⟨fun s ⟨hbytes, hread⟩ => ?_⟩
  obtain rfl : region = content := (eq_bytes_of_readAt hread).trans hbytes
  have htake : region.take region.length = region := take_length
  have hdrop : (region.drop region.length).findIdx? (· != 0) = none := by simp
  rw [htake, bind_apply, require, if_pos rfl, hdrop]
  trivial

theorem writeStage2_rollback (hlen : content.length = stage2Bytes) :
    Triple (fun _ => True) (writeStage2 .rollback disk content) (fun _ _ => True)
      fun _ => RollbackFailed := by
  have hregion := stage2Region_of_length hlen
  refine triple_bind _ (triple_require fun s _ hgt => absurd hlen.le hgt) fun _ => ?_
  refine triple_bind _ (checkExtent_rollback fun _ h => h) fun _ => ?_
  refine triple_bind (fun _ _ => True) (demand_rollback fun _ _ => trivial) fun _ => ?_
  refine triple_bind _ (readDisk_rollback fun _ _ => trivial) fun _ => ?_
  refine triple_bind _ ?_ fun _ => triple_bind _ (verifyStage2At_rollback hlen) fun _ =>
    triple_pure fun _ _ => trivial
  rw [hregion]
  refine triple_bind (fun _ s => (s.now.disk disk).bytes stage2Offset stage2Bytes = content)
    (demand_rollback fun s _ => ?_) fun _ => demand_rollback fun s hs => hs
  have hdisk : (s.record ⟨.rollback, .writeAt disk stage2Offset content⟩ .done).now.disk disk
      = (s.now.disk disk).writeAt stage2Offset content := Function.update_self ..
  have hback := bytes_writeAt (s.now.disk disk) stage2Offset content
  rw [hlen] at hback
  rw [hdisk, hback]

/-- A rollback that says that it failed did fail. -/
theorem rollbackStage_failed {write : List UInt8 → ToolM WriteFailure (List UInt8)}
    (hwrite : Triple (fun _ => True) (write content) (fun _ _ => True) fun _ => RollbackFailed) :
    Triple (fun _ => True) (rollbackStage write (some content) : ToolM ε Bool)
      (fun ok s => ok = true ∨ RollbackFailed s) E := by
  rw [rollbackStage_some]
  refine triple_rescue _ (triple_bind _ hwrite fun _ => triple_pure fun _ _ => .inl rfl) fun _ => ?_
  exact triple_pure fun _ h => .inr h

end

/-- Both rollbacks of the stages say that they restored what they had to, or one of them failed. -/
def StagesRestored (f : StagesFailure) (s : Run) : Prop :=
  (f.stage1Restored = true ∧ f.stage2Restored = true) ∨ RollbackFailed s

section

variable {disk : String} {stage1 stage2 : List UInt8} {w : World} {α : Type}
  {Q : α → Run → Prop}

theorem rollbackStage1_failed (disk : String) (w : World) {E : StagesFailure → Run → Prop} :
    Triple (fun _ => True) (rollbackStage1 disk (some (stage1On (w.disk disk))))
      (fun ok s => ok = true ∨ RollbackFailed s) E :=
  rollbackStage_failed (writeStage1_rollback (length_stage1On _))

theorem rollbackStage2_failed (disk : String) (w : World) {E : StagesFailure → Run → Prop} :
    Triple (fun _ => True) (rollbackStage2 disk (some (regionOn (w.disk disk))))
      (fun ok s => ok = true ∨ RollbackFailed s) E :=
  rollbackStage_failed (writeStage2_rollback (length_regionOn _))

theorem undo_stage2_restored (err : StagesError) :
    Triple (fun _ => True) (rollbackStage2 disk (some (regionOn (w.disk disk))) >>= fun restored =>
      stop ⟨err, true, restored⟩) Q StagesRestored := by
  refine triple_bind _ (rollbackStage2_failed disk w) fun restored => triple_stop ?_
  rintro s (rfl | hfailed)
  · exact .inl ⟨rfl, rfl⟩
  · exact .inr hfailed

theorem undo_both_restored (err : StagesError) :
    Triple (fun _ => True) (rollbackStage1 disk (some (stage1On (w.disk disk))) >>= fun restored1 =>
      rollbackStage2 disk (some (regionOn (w.disk disk))) >>= fun restored2 =>
        stop ⟨err, restored1, restored2⟩) Q StagesRestored := by
  refine triple_bind _ (rollbackStage1_failed disk w) fun restored1 => ⟨fun s hs => ?_⟩
  rcases hs with rfl | hfailed
  · exact (undo_stage2_restored err).ends s trivial
  · -- a failure of the first rollback stays one through the second
    have hasks : Tries (OnDisk disk) (rollbackStage2 disk (some (regionOn (w.disk disk))) :
        ToolM StagesFailure Bool) := rollbackStage_tries (writeStage2_uses .rollback disk) _
    have hstays : Triple RollbackFailed _ (fun _ => RollbackFailed) StagesRestored :=
      (rollbackFailed_stays hasks).post_error fun _ _ => Or.inr
    exact (triple_bind _ hstays fun _ => triple_stop fun _ => Or.inr).ends s hfailed

/-- If everything that the rollbacks of the stages ask for succeeds, they restore both. -/
theorem stages_restored :
    Triple (Staged disk stage1 stage2 w (stage1On (w.disk disk)) (regionOn (w.disk disk)))
      (writeBiosStagesWithRollback disk stage1 stage2) (fun _ _ => True) StagesRestored := by
  refine triple_bind _ (triple_rescue _ (writeStage2_spec fun _ _ => .oldNew)
    fun f => ?_) fun previous2 => triple_of_and fun hprevious2 => ?_
  · refine ⟨fun s hs => ?_⟩
    rcases hs with ⟨hf, -⟩ | ⟨hf, -⟩ <;> rw [hf]
    · exact .inl ⟨rfl, rfl⟩
    · exact (undo_stage2_restored _).ends s trivial
  subst hprevious2
  refine triple_bind (fun _ => Staged disk stage1 stage2 w (stage1On (w.disk disk))
    (stage2Region stage2)) (triple_rescue _ (verifyStage2_staged stage2) fun err => ?_) fun _ => ?_
  · exact (undo_stage2_restored _).pre fun _ _ => trivial
  refine triple_bind _ (triple_rescue _ (writeStage1_spec fun _ _ => .newNew)
    fun f => ?_) fun previous1 => triple_of_and fun hprevious1 => ?_
  · refine ⟨fun s hs => ?_⟩
    rcases hs with ⟨hf, -⟩ | ⟨hf, -⟩ <;> rw [hf]
    · rw [rollbackStage1_none_bind]
      exact (undo_stage2_restored _).ends s trivial
    · exact (undo_both_restored _).ends s trivial
  subst hprevious1
  refine triple_rescue _ ((verifyStage1_staged stage1).post fun _ _ _ => trivial) fun err => ?_
  exact (undo_both_restored _).pre fun _ _ => trivial

end

/-! ### Settings -/

/-- The file of the ESP at `mp` that an event is meant to write. -/
def fileWritten (mp : String) (ev : Event Op World) : Option EspFile :=
  match ev.op.action with
  | .writeFile mp' f _ => if mp' = mp then some f else none
  | _ => none

/-- The event changes nothing, or writes a file of the ESP at `mp`. -/
def LooksOrWrites (mp : String) (ev : Event Op World) : Prop :=
  Looks ev ∨ ∃ part f content, ev.op = ⟨part, .writeFile mp f content⟩

/-- Besides reading, `x` only writes these files of the ESP at `mp`, in this order, the newest
first, and each at most once. -/
def Sets {ε α : Type} (mp : String) (fs : List EspFile) (x : ToolM ε α) : Prop :=
  Traces (fun new _ => (∀ ev ∈ new, LooksOrWrites mp ev) ∧
    (new.filterMap (fileWritten mp)).Sublist fs) x

section

variable {ε ε' α β : Type} {mp : String} {fs fs' : List EspFile} {x : ToolM ε α}

theorem fileWritten_of_looks (h : Looks ev) : fileWritten mp ev = none := by
  obtain ⟨⟨part, action⟩, fate, after⟩ := ev
  cases action with
  | writeFile => cases h
  | _ => rfl

theorem sets_of_reads (h : Reads x) : Sets mp [] x := by
  refine Traces.mono h fun new r hnew => ⟨fun ev hev => .inl (hnew.1 ev hev), ?_⟩
  rw [filterMap_eq_nil_iff.mpr fun ev hev => fileWritten_of_looks (hnew.1 ev hev)]

theorem Sets.mono (h : Sets mp fs x) (hfs : fs.Sublist fs') : Sets mp fs' x :=
  Traces.mono h fun _ _ hnew => ⟨hnew.1, hnew.2.trans hfs⟩

theorem sets_bind {f : α → ToolM ε β} (hx : Sets mp fs x) (hf : ∀ a, Sets mp fs' (f a)) :
    Sets mp (fs' ++ fs) (x >>= f) := by
  refine traces_bind hx hf (fun new e h => ⟨h.1, h.2.trans (sublist_append_right _ _)⟩) ?_
  intro old a new r hold hnew
  refine ⟨forall_mem_append.mpr ⟨hnew.1, hold.1⟩, ?_⟩
  rw [filterMap_append]
  exact hnew.2.append hold.2

/-- What is read first is not a setting. -/
theorem sets_reads_bind {f : α → ToolM ε β} (hx : Reads x) (hf : ∀ a, Sets mp fs (f a)) :
    Sets mp fs (x >>= f) := by
  have hbind := sets_bind (sets_of_reads hx) hf
  rwa [append_nil] at hbind

theorem sets_ite [Decidable c] {y : ToolM ε α} (hx : Sets mp fs x) (hy : Sets mp fs y) :
    Sets mp fs (if c then x else y) := by
  split_ifs
  · exact hx
  · exact hy

theorem sets_onlyIf [Decidable c] {x : ToolM ε Unit} (hx : Sets mp fs x) :
    Sets mp fs (onlyIf c x) :=
  sets_ite hx ((sets_of_reads (asks_pure ())).mono (nil_sublist _))

theorem sets_writeFile (part : Part) (mp : String) (f : EspFile) (content : List UInt8) (e : ε) :
    Sets mp [f] (writeFile part mp f content e) := by
  refine traces_bind (R := fun new _ => ∃ fate after,
      new = [(⟨⟨part, .writeFile mp f content⟩, fate, after⟩ : Event Op World)])
    (S := fun _ new _ => new = []) (traces_perform fun fate after => ⟨fate, after, rfl⟩)
    (fun ok => ?_) ?_ ?_
  · cases ok with
    | false => exact traces_stop rfl
    | true => exact traces_pure rfl
  · rintro _ _ ⟨fate, after, rfl⟩
    exact ⟨by simp [LooksOrWrites], by simp [fileWritten]⟩
  · rintro _ _ _ _ ⟨fate, after, rfl⟩ rfl
    exact ⟨by simp [LooksOrWrites], by simp [fileWritten]⟩

theorem sets_stop (e : ε) : Sets mp fs (stop e : ToolM ε α) :=
  (sets_of_reads (asks_stop e)).mono (nil_sublist _)

theorem setIntegrityMode_sets (env : Machine) (uefi : Bool) (mp : String) (mode : Bytes) :
    Sets mp [.payloadSum, .blkSum] (setIntegrityMode env uefi mp mode) := by
  unfold setIntegrityMode
  cases PayloadSum.validMode mode with
  | none => exact sets_stop _
  | some man =>
    refine sets_reads_bind (readContent_reads ..) fun c => ?_
    cases c with
    | unreadable => exact sets_stop _
    | absent =>
      refine sets_reads_bind (readInstalledKernelInitrd_reads ..) fun _ => ?_
      refine sets_reads_bind (asks_ofExcept _) fun _ => ?_
      refine sets_reads_bind (asks_ofExcept _) fun _ => ?_
      exact sets_bind (sets_writeFile ..) fun _ => sets_writeFile ..
    | bytes raw =>
      refine sets_reads_bind (asks_ofExcept _) fun _ => ?_
      exact (sets_writeFile ..).mono (by simp)

theorem setInt13Chunk_sets (mp : String) (value : Bytes) :
    Sets mp [.cmdline] (setInt13Chunk mp value) := by
  refine sets_reads_bind (readNeeded_reads ..) fun raw => ?_
  dsimp only
  split_ifs
  · exact (sets_of_reads (asks_pure ())).mono (nil_sublist _)
  · exact sets_reads_bind (asks_require _ _) fun _ => sets_writeFile ..

theorem updateSettings_sets (env : Machine) (h : Host) (m : Esp) (opts : BiosOpts) :
    Sets m.mountpoint [.cmdline, .payloadSum, .blkSum] (updateSettings env h m opts) := by
  have hchunk : Sets m.mountpoint [.cmdline] (onlyIf (opts.int13chunk ≠ []) do
      let v ← ofExcept (int13ChunkArg opts.int13chunk)
      setInt13Chunk m.mountpoint v) := by
    refine sets_onlyIf (sets_reads_bind (asks_ofExcept _) fun _ => ?_)
    exact setInt13Chunk_sets ..
  exact sets_bind (sets_onlyIf (setIntegrityMode_sets ..)) fun _ => hchunk

theorem mem_filterMap_fileWritten {f : EspFile}
    {part : Part} {content : List UInt8} (hev : ev ∈ evs)
    (hop : ev.op = ⟨part, .writeFile mp f content⟩) : f ∈ evs.filterMap (fileWritten mp) := by
  refine mem_filterMap.mpr ⟨ev, hev, ?_⟩
  rw [fileWritten, hop]
  exact if_pos rfl

/-- A file that no event writes is as before. -/
theorem files_eq_of_notMem {w : World} (h : Linked w evs w')
    (hevs : ∀ ev ∈ evs, LooksOrWrites mp ev) {f : EspFile}
    (hf : f ∉ evs.filterMap (fileWritten mp)) : w'.files mp f = w.files mp f := by
  refine files_of_linked h fun ev hev htarget => hf ?_
  rcases hevs ev hev with hlooks | ⟨part, g, content, hop⟩
  · rw [hlooks] at htarget
    cases htarget
  · rw [hop] at htarget
    cases htarget
    exact mem_filterMap_fileWritten hev hop

/-- What a write of a file leaves. -/
theorem files_after_writeFile (fate : Fate) (part : Part) (g f : EspFile) (content : List UInt8)
    (w : World) : (fate.after (⟨part, .writeFile mp g content⟩ : Op) w).files mp f
      = if fate ≠ .failed ∧ g = f then some content else w.files mp f := by
  have hset : (w.setFile mp g (some content)).files mp f
      = if g = f then some content else w.files mp f := by
    rw [World.setFile_files_self, Function.update_apply]
    simp only [eq_comm]
  cases fate with
  | failed => rfl
  | done => simpa [Fate.after] using hset
  | late => simpa [Fate.after] using hset

/-- When the files that were written hold what they held before. -/
theorem files_eq_iff_of_sets {w : World} (h : Linked w evs w')
    (hevs : ∀ ev ∈ evs, LooksOrWrites mp ev) (hnodup : (evs.filterMap (fileWritten mp)).Nodup)
    (f : EspFile) :
    w'.files mp f = w.files mp f ↔ ∀ ev ∈ evs, ev.fate ≠ .failed → ∀ part content,
      ev.op = ⟨part, .writeFile mp f content⟩ → w.files mp f = some content := by
  induction h with
  | nil => simp
  | @cons w₁ evs op fate hlink ih =>
    obtain ⟨hev, hrest⟩ := forall_mem_cons.mp hevs
    rw [forall_mem_cons]
    rcases hev with hlooks | ⟨part, g, content, hop⟩
    · -- nothing is written now
      rw [filterMap_cons_none (fileWritten_of_looks hlooks)] at hnodup
      have hsame : (fate.after op w₁).files mp f = w₁.files mp f :=
        files_of_linked (.cons op fate (.nil w₁)) fun ev hev => by
          rw [mem_singleton.mp hev, hlooks]
          simp
      rw [hsame, ih hrest hnodup]
      refine ⟨fun h => ⟨fun _ part content hop => ?_, h⟩, And.right⟩
      rw [Looks, show op = _ from hop] at hlooks
      cases hlooks
    · obtain rfl : op = _ := hop
      have hwritten : fileWritten mp (⟨⟨part, .writeFile mp g content⟩, fate,
          fate.after (⟨part, .writeFile mp g content⟩ : Op) w₁⟩ : Event Op World) = some g :=
        if_pos rfl
      rw [filterMap_cons_some hwritten, nodup_cons] at hnodup
      rw [files_after_writeFile]
      by_cases hg : g = f
      · -- this is the one write of `f`
        subst hg
        have hnone : ∀ ev ∈ evs, ev.fate ≠ .failed → ∀ part content',
            ev.op = ⟨part, .writeFile mp g content'⟩ → w.files mp g = some content' :=
          fun ev hev _ part content' hop => absurd (mem_filterMap_fileWritten hev hop) hnodup.1
        rw [files_eq_of_notMem hlink hrest hnodup.1]
        constructor
        · intro h
          refine ⟨fun hfate part' content' hop => ?_, hnone⟩
          rw [if_pos ⟨hfate, rfl⟩] at h
          cases hop
          exact h.symm
        · rintro ⟨h, -⟩
          split_ifs with hfate
          · exact (h hfate.1 part content rfl).symm
          · rfl
      · rw [if_neg fun h => hg h.2, ih hrest hnodup.2]
        refine ⟨fun h => ⟨fun _ part' content' hop => ?_, h⟩, And.right⟩
        cases hop
        exact absurd rfl hg

end

/-! ### The whole run -/

/-- Nothing has been asked for but to look. -/
structure Quiet (w : World) (s : Run) : Prop where
  now_eq : s.now = w
  looks : ∀ ev ∈ s.events, Looks ev

/-- Looking changes nothing. -/
theorem now_of_looks {w : World} (h : Linked w evs w') (hevs : ∀ ev ∈ evs, Looks ev) : w' = w := by
  refine Linked.keeps (f := id) h fun ev hev w₀ hafter => ?_
  have hlooks := hevs ev hev
  obtain ⟨⟨part, action⟩, fate, after⟩ := ev
  have hact : action.act w₀ = w₀ := by
    cases action with
    | writeFile | remove | writeAt => cases hlooks
    | readFile | checkSectorSize | checkExtent | openDisk | readAt | sync => rfl
  rw [id, id, hafter]
  cases fate with
  | failed => rfl
  | done => exact hact
  | late => exact hact

/-- A write to a file leaves the disks. -/
theorem disk_of_linked {w : World} (h : Linked w evs w')
    (disk : String) (hevs : ∀ ev ∈ evs, target ev.op.action ≠ some (.disk disk)) :
    w'.disk disk = w.disk disk := by
  refine Linked.keeps (f := fun w : World => w.disk disk) h fun ev hev w₀ hafter => ?_
  have hne := hevs ev hev
  obtain ⟨⟨part, action⟩, fate, after⟩ := ev
  have hact : (action.act w₀).disk disk = w₀.disk disk := by
    cases action with
    | writeAt disk' off bytes =>
      refine Function.update_of_ne (fun heq => hne ?_) _ _
      rw [heq]
      rfl
    | readFile | writeFile | remove | checkSectorSize | checkExtent | openDisk | readAt | sync => rfl
  rw [hafter]
  cases fate with
  | failed => rfl
  | done => exact hact
  | late => exact hact

section

variable {ε α : Type} {w : World}

theorem reads_quiet {x : ToolM ε α} (h : Reads x) :
    Triple (Quiet w) x (fun _ => Quiet w) fun _ => Quiet w := by
  refine ⟨fun s hs => ?_⟩
  obtain ⟨new, hevents, hlink, hlooks, -⟩ := h.ends s
  have hquiet : Quiet w (x s).2 := by
    refine ⟨(now_of_looks hlink hlooks).trans hs.now_eq, ?_⟩
    rw [hevents]
    exact forall_mem_append.mpr ⟨hlooks, hs.looks⟩
  revert hquiet
  rcases x s with ⟨e | a, s'⟩ <;> exact id

theorem Quiet.record {s : Run} (h : Quiet w s) (hop : target op.action = none)
    (fate : Fate) : Quiet w (s.record op fate) := by
  refine ⟨?_, forall_mem_cons.mpr ⟨hop, h.looks⟩⟩
  have hlink : Linked s.now [⟨op, fate, fate.after op s.now⟩] (fate.after op s.now) :=
    .cons op fate (.nil _)
  refine (now_of_looks hlink fun ev hev => ?_).trans h.now_eq
  rw [mem_singleton.mp hev]
  exact hop

theorem demand_quiet {e : ε} {E : ε → Run → Prop} (hop : target op.action = none)
    (hE : ∀ s, Quiet w s → E e s) :
    Triple (Quiet w) (demand e op : ToolM ε Unit) (fun _ => Quiet w) E :=
  triple_demand (fun _ hs => hs.record hop .done) fun _ hs fate _ => hE _ (hs.record hop fate)

theorem checkExtent_quiet {disk : String} {e : StageError → ε} {E : ε → Run → Prop}
    (hE : ∀ err s, Quiet w s → E (e err) s) :
    Triple (Quiet w) (checkExtent .write disk e) (fun _ => Quiet w) E := by
  refine triple_bind (fun _ => Quiet w) (triple_observe (fun _ hs => hs.record rfl .done)
    fun _ hs fate _ => hE _ _ (hs.record rfl fate)) fun r => ?_
  cases r with
  | ok _ => exact triple_pure fun _ hs => hs
  | error err => exact triple_stop fun _ hs => hE _ _ hs

theorem checkBiosUpToDate_quiet (mp : String) (stamp : Bytes) {E : ε → Run → Prop} :
    Triple (Quiet w) (checkBiosUpToDate mp stamp) (fun _ => Quiet w) E := by
  have htotal : Triple (fun s => s.now = w) (checkBiosUpToDate mp stamp : ToolM ε Bool)
      (fun _ _ => True) fun _ _ => False := by
    refine triple_bind _ (Marker.readContent_spec .write mp .cmdline) fun c => ?_
    cases c with
    | unreadable | absent | bytes => exact triple_pure fun _ _ => trivial
  exact (reads_quiet (checkBiosUpToDate_reads mp stamp)).of_total htotal fun _ hs => hs.now_eq

end

/-- The files of a payload. -/
def payloadFiles : List EspFile := [.kernel, .initrd, .cmdline, .metadata, .payloadSum, .blkSum]

/-- The stages and the payload of a member are the same. -/
structure Unchanged (m : Esp) (w w' : World) : Prop where
  stage1 : stage1On (w'.disk m.disk) = stage1On (w.disk m.disk)
  stage2 : regionOn (w'.disk m.disk) = regionOn (w.disk m.disk)
  files : ∀ f ∈ payloadFiles, w'.files m.mountpoint f = w.files m.mountpoint f

theorem Unchanged.refl (m : Esp) (w : World) : Unchanged m w w := ⟨rfl, rfl, fun _ _ => rfl⟩

/-- What a failed run does not roll back was there before. After a failure of the payload
(`wrote`) these are the new stages, and else the settings that it wrote. -/
def NothingNew (m : Esp) (a : BiosAssets) (w : World) (f : StepFailure)
    (evs : List (Event Op World)) : Prop :=
  if f.wrote then
    stage1On (w.disk m.disk) = a.stage1 ∧ regionOn (w.disk m.disk) = stage2Region a.stage2
  else
    ∀ ev ∈ evs, ev.fate ≠ .failed → ∀ g ∈ payloadFiles, ∀ part content,
      ev.op = ⟨part, .writeFile m.mountpoint g content⟩ → w.files m.mountpoint g = some content

/-- A failed run, if its rollbacks succeeded. -/
def Judged (m : Esp) (a : BiosAssets) (w : World) (f : StepFailure) (s : Run) : Prop :=
  ¬ RollbackFailed s → (Unchanged m w s.now ↔ NothingNew m a w f s.events)

section

variable {m : Esp} {a : BiosAssets} {w : World} {s : Run}

/-- A run that has only looked has changed nothing. -/
theorem Quiet.judged (h : Quiet w s) (err : StepError) : Judged m a w ⟨false, err⟩ s := by
  intro _
  rw [h.now_eq]
  refine iff_of_true (.refl m w) fun ev hev _ g _ part content hop => ?_
  have hlooks := h.looks ev hev
  rw [Looks, hop] at hlooks
  cases hlooks

theorem updateSettings_judged (env : Machine) (h : Host) (opts : BiosOpts) :
    Triple (Quiet w) ((updateSettings env h m opts).relabel (StepFailure.mk false))
      (fun _ _ => True) (Judged m a w) := by
  refine triple_rescue (fun err s => Judged m a w ⟨false, err⟩ s) ⟨fun s hs => ?_⟩ fun err =>
    triple_stop fun _ h => h
  obtain ⟨new, hevents, hlink, hevs, hsub⟩ := (updateSettings_sets env h m opts).ends s
  rw [hs.now_eq] at hlink
  have hdisk := disk_of_linked hlink m.disk fun ev hev => by
    rcases hevs ev hev with hlooks | ⟨part, g, content, hop⟩
    · rw [hlooks]
      simp
    · rw [hop]
      simp [target]
  have hfiles := files_eq_iff_of_sets hlink hevs (hsub.nodup (by decide))
  have hjudged : ∀ err, Judged m a w ⟨false, err⟩ (updateSettings env h m opts s).2 := by
    intro err _
    constructor
    · intro hsame ev hev hfate g hg part content hop
      rw [hevents] at hev
      rcases mem_append.mp hev with hnew | hold
      · exact (hfiles g).mp (hsame.files g hg) ev hnew hfate part content hop
      · have hlooks := hs.looks ev hold
        rw [Looks, hop] at hlooks
        cases hlooks
    · intro hkept
      refine ⟨by rw [hdisk], by rw [hdisk], fun g hg => (hfiles g).mpr ?_⟩
      intro ev hev hfate part content hop
      refine hkept ev ?_ hfate g hg part content hop
      rw [hevents]
      exact mem_append_left _ hev
  revert hjudged
  rcases updateSettings env h m opts s with ⟨err | _, s'⟩
  · exact fun h => h err
  · exact fun _ => trivial

/-- The stages are all that their writers change. -/
theorem stages_confined (disk : String) (stage1 stage2 : List UInt8) :
    Asks (Confined (· = .disk disk)) (fun _ => True)
      (writeBiosStagesWithRollback disk stage1 stage2) :=
  (writeBiosStagesWithRollback_uses disk stage1 stage2).mono (fun _ hev _ => target_onDisk hev)
    fun _ _ _ => trivial

/-- The world with the new stages. -/
def Committed (m : Esp) (a : BiosAssets) (w : World) (s : Run) : Prop :=
  s.now = World.staged m.disk w a.stage1 (stage2Region a.stage2)
    ∧ a.stage1.length = stage1Bytes ∧ (stage2Region a.stage2).length = stage2Bytes

theorem RollbackFailed.extend {t : Run} (h : RollbackFailed t) : RollbackFailed (s.extend t) := by
  obtain ⟨ev, hev, hpart⟩ := h
  exact ⟨ev, mem_append_left _ hev, hpart⟩

theorem writeStages_judged :
    Triple (Quiet w) ((writeBiosStagesWithRollback m.disk a.stage1 a.stage2).relabel
      fun f => ⟨false, .stages f.err⟩) (fun _ => Committed m a w) (Judged m a w) := by
  refine triple_rescue (fun f s => Judged m a w ⟨false, .stages f.err⟩ s) ⟨fun s hs => ?_⟩ fun f =>
    triple_stop fun _ h => h
  obtain ⟨t, hrun, hstaged, hrestored⟩ :=
    (writeBiosStagesWithRollback_uses m.disk a.stage1 a.stage2).isLocal.from_start
      (R := fun r t => Ends (fun _ => Staged m.disk a.stage1 a.stage2 w a.stage1
          (stage2Region a.stage2)) (Unwound m.disk a.stage1 a.stage2 w) (r, t)
        ∧ Ends (fun _ _ => True) StagesRestored (r, t))
      (fun fate => ⟨ends_run _ _ _ w fate, stages_restored.ends _ (staged_start ..)⟩) hs.now_eq
  obtain ⟨new, hevents, -, hconfined, -⟩ := (stages_confined m.disk a.stage1 a.stage2).ends s
  revert hrun hstaged hrestored hevents
  rcases writeBiosStagesWithRollback m.disk a.stage1 a.stage2 s with ⟨f | _, s'⟩
  · intro hrun hstaged hrestored hevents hfailed
    obtain rfl : s' = s.extend t := (Prod.mk.inj hrun).2
    obtain ⟨h1, h2⟩ := hrestored.resolve_right fun h => hfailed h.extend
    have hnow : (s.extend t).now = w := hstaged.restored h1 h2
    rw [hnow]
    refine iff_of_true (.refl m w) fun ev hev _ g _ part content hop => ?_
    have htarget : target ev.op.action = some (.file m.mountpoint g) := by rw [hop]; rfl
    rw [hevents] at hev
    rcases mem_append.mp hev with hnew | hold
    · cases hconfined ev hnew _ htarget
    · cases (hs.looks ev hold).symm.trans htarget
  · intro hrun hstaged _ _
    obtain rfl : s' = s.extend t := (Prod.mk.inj hrun).2
    exact ⟨hstaged.now_eq, hstaged.length_stage1, hstaged.length_stage2⟩

/-- The mode that a CHECKSUM records; one that is absent or damaged stands for `warn`. -/
def modeOn (file : Option Bytes) : Bios.PayloadSumMode :=
  match file with
  | none => .warn
  | some raw =>
    match PayloadSum.decode raw with
    | .ok man => man.mode
    | .error _ => .warn

/-- `updateIntegrityMode` never fails: a CHECKSUM that cannot be read stands for `warn`, too. -/
theorem updateIntegrityMode_spec {ε : Type} {w : World} (mp : String) (opts : BiosOpts) :
    Triple (fun s => s.now = w) (updateIntegrityMode mp opts : ToolM ε Bytes)
      (fun mode s => s.now = w ∧ (opts.integritySet = true ∧ mode = opts.integrity
        ∨ opts.integritySet = false ∧ (mode = PayloadSum.modeText .warn
          ∨ mode = PayloadSum.modeText (modeOn (w.files mp .payloadSum)))))
      fun _ _ => False := by
  unfold updateIntegrityMode
  split_ifs with hset
  · exact triple_pure fun s hs => ⟨hs, .inl ⟨hset, rfl⟩⟩
  have hnot : opts.integritySet = false := Bool.eq_false_iff.mpr hset
  refine triple_bind _ (Marker.readContent_spec .write mp .payloadSum) fun c => ?_
  cases c with
  | unreadable => exact triple_pure fun s hs => ⟨hs.1, .inr ⟨hnot, .inl rfl⟩⟩
  | absent => exact triple_pure fun s hs => ⟨hs.1, .inr ⟨hnot, .inl rfl⟩⟩
  | bytes raw =>
    refine ⟨fun s ⟨hs, hc⟩ => ?_⟩
    have hfile : w.files mp .payloadSum = some raw := by
      cases hraw : w.files mp .payloadSum with
      | none => rw [hraw] at hc; rcases hc with hc | hc <;> cases hc
      | some b => rw [hraw] at hc; rcases hc with hc | hc <;> cases hc; rfl
    rw [hfile, modeOn]
    dsimp only
    cases PayloadSum.decode raw with
    | error err => exact ⟨hs, .inr ⟨hnot, .inl rfl⟩⟩
    | ok man => exact ⟨hs, .inr ⟨hnot, .inr rfl⟩⟩

theorem writePayload_judged (makeMetadata : MetadataMaker) (n : NewPayload) :
    Triple (Committed m a w) ((writePayloadWithRollback makeMetadata m.mountpoint n).relabel
      fun err => ⟨true, .payload err⟩) (fun _ _ => True) (Judged m a w) := by
  refine triple_rescue (fun err s => Judged m a w ⟨true, .payload err⟩ s) ⟨fun s hs => ?_⟩ fun err =>
    triple_stop fun _ h => h
  obtain ⟨hnow, hlen1, hlen2⟩ := hs
  obtain ⟨t, hrun, hpayload⟩ :=
    (writePayloadWithRollback_uses makeMetadata m.mountpoint n).isLocal.from_start
      (R := fun r t => ∀ e, r = .error e → Payload.Ended m.mountpoint n s.now e t)
      (fun fate e he => by
        have h := (Payload.writePayloadWithRollback_spec makeMetadata n).ends _
          (Payload.untouched_start m.mountpoint s.now fate)
        revert h he
        rcases writePayloadWithRollback makeMetadata m.mountpoint n (.start fate s.now)
          with ⟨e' | _, t⟩
        · rintro ⟨⟩ h
          exact h
        · rintro ⟨⟩) rfl
  have hwrites : Writes m.mountpoint none (writePayloadWithRollback makeMetadata m.mountpoint n) :=
    (writePayloadWithRollback_uses ..).writes
  obtain ⟨new, -, hlink, hwithin, -⟩ := hwrites.ends s
  revert hrun hpayload hlink
  rcases writePayloadWithRollback makeMetadata m.mountpoint n s with ⟨err | _, s'⟩
  · intro hrun hpayload hlink hfailed
    obtain rfl : s' = s.extend t := (Prod.mk.inj hrun).2
    have hfiles : ∀ f ∈ payloadFiles, (s.extend t).now.files m.mountpoint f
        = w.files m.mountpoint f := by
      intro f hf
      have hback : Payload.RolledBack t := by
        intro ev hev hpart
        by_contra hfate
        exact hfailed ⟨ev, mem_append_left _ hev, hpart, fun hok => hfate hok.1⟩
      have hold := (hpayload err rfl).restored hback (f, s.now.files m.mountpoint f)
        (mem_map_of_mem hf)
      rw [hnow] at hold
      exact hold
    have hdisk : (s.extend t).now.disk m.disk
        = withStages (w.disk m.disk) a.stage1 (stage2Region a.stage2) := by
      rw [disk_of_linked hlink m.disk, hnow, disk_staged]
      intro ev hev htarget
      rcases hwithin ev hev _ htarget with ⟨f, -, hfile⟩ | ⟨d, hd, -⟩
      · cases hfile
      · cases hd
    show Unchanged m w (s.extend t).now ↔ _ ∧ _
    constructor
    · rintro ⟨h1, h2, -⟩
      rw [hdisk, stage1On_withStages _ hlen1] at h1
      rw [hdisk, regionOn_withStages _ hlen1 hlen2] at h2
      exact ⟨h1.symm, h2.symm⟩
    · rintro ⟨h1, h2⟩
      refine ⟨?_, ?_, hfiles⟩
      · rw [hdisk, stage1On_withStages _ hlen1, h1]
      · rw [hdisk, regionOn_withStages _ hlen1 hlen2, h2]
  · exact fun _ _ _ => trivial

theorem writeBios_judged (env : Machine) (integrityFrom : String) (opts : BiosOpts) (c : Bytes) :
    Triple (Quiet w) (writeBios env m integrityFrom a opts c) (fun _ _ => True) (Judged m a w) := by
  refine triple_bind _ writeStages_judged fun _ => ?_
  refine triple_bind (fun _ => Committed m a w) ⟨fun s hs => ?_⟩ fun _ => writePayload_judged ..
  have hends := (updateIntegrityMode_spec (ε := StepFailure) integrityFrom opts).ends s hs.1
  revert hends
  rcases (updateIntegrityMode integrityFrom opts : ToolM StepFailure Bytes) s with ⟨_ | mode, s'⟩
  · exact False.elim
  · exact fun h => ⟨h.1, hs.2⟩

theorem updateBiosTarget_judged (m : Esp) (a : BiosAssets) (w : World) (env : Machine) (h : Host)
    (src : Option Esp) (agree : Bool) (opts : BiosOpts) (seed : Bool) :
    Triple (Quiet w) (updateBiosTarget env h m src a agree opts seed) (fun _ _ => True)
      (Judged m a w) := by
  have hquiet : ∀ (f : StepFailure) (s : Run), f.wrote = false → Quiet w s → Judged m a w f s := by
    rintro ⟨_, err⟩ s rfl hs
    exact hs.judged err
  have hlook : ∀ {α : Type} {x : ToolM StepError α} {f : StepError → StepFailure},
      (∀ err, (f err).wrote = false) → Reads x →
      Triple (Quiet w) (x.relabel f) (fun _ => Quiet w) (Judged m a w) := fun hf hx =>
    triple_rescue _ (reads_quiet hx) fun err => triple_stop fun s => hquiet _ s (hf err)
  -- up to the first write the target is only looked at
  refine triple_bind _ (demand_quiet rfl fun s => hquiet _ s rfl) fun _ => ?_
  refine triple_bind _ (checkExtent_quiet fun err s => hquiet _ s rfl) fun _ => ?_
  refine triple_bind (fun _ => Quiet w) ?_ fun _ => ?_
  · exact triple_ite (fun _ => hlook (fun _ => rfl) (checkUpdateEligible_reads ..)) fun _ =>
      triple_pure fun _ h => h
  refine triple_bind _ (checkBiosUpToDate_quiet _ _) fun upToDate => ?_
  refine triple_ite (fun _ => ?_) fun _ => ?_
  · exact triple_bind _ (updateSettings_judged env h opts) fun _ => triple_pure fun _ _ => trivial
  refine triple_bind _ (hlook (fun _ => rfl) (prepareBios_reads ..)) fun c => ?_
  refine triple_ite (fun _ => triple_pure fun _ _ => trivial) fun _ => ?_
  exact triple_bind _ (writeBios_judged env _ opts c) fun _ => triple_pure fun _ _ => trivial

end

/-- What `updateBiosTarget_judged` says of a run that failed. -/
theorem judged_of_run {env : Machine} {h : Host} {m : Esp} {a : BiosAssets}
    {opts : BiosOpts} {w : World} {fate : Nat → Fate} {f : StepFailure}
    {s : Run} (hrun : updateBiosTarget env h m src a agree opts seed (.start fate w) = (.error f, s))
    (hback : ∀ ev ∈ s.events, ev.op.part = .rollback → Succeeded ev) :
    Judged m a w f s ∧ ¬ RollbackFailed s := by
  have hstart : Quiet w (.start fate w) := ⟨rfl, fun _ h => absurd h not_mem_nil⟩
  have hends := (updateBiosTarget_judged m a w env h src agree opts seed).ends _ hstart
  rw [hrun] at hends
  refine ⟨hends, ?_⟩
  rintro ⟨ev, hev, hpart, hnot⟩
  exact hnot (hback ev hev hpart)

section

variable {env : Machine} {h : Host} {m : Esp} {a : BiosAssets} {opts : BiosOpts} {w : World}
  {fate : Nat → Fate}

/-- The new stages stay when the payload fails. -/
theorem stages_changed {err : StepError} {s : Run}
    (hrun : updateBiosTarget env h m src a agree opts seed (.start fate w) = (.error ⟨true, err⟩, s))
    (hback : ∀ ev ∈ s.events, ev.op.part = .rollback → Succeeded ev)
    (hne : stage1On (w.disk m.disk) ≠ a.stage1) : ¬ Unchanged m w s.now := by
  obtain ⟨hjudged, hnot⟩ := judged_of_run hrun hback
  intro hsame
  exact hne ((hjudged hnot).1 hsame).1

/-- The stages are written in 15 operations, if none of them fails. -/
theorem stages_run (fate : Nat → Fate) {disk : String} {stage1 stage2 : List UInt8}
    (hdone : ∀ k < 15, fate k = .done) (hsize : stage2Offset + stage2Bytes ≤ (w.disk disk).size)
    (h1 : stage1.length = stage1Bytes) (h2 : stage2.length ≤ stage2Bytes)
    (hgate : ∀ b, checkStage2ExtentFree
      (withStages (w.disk disk) (stage1On (w.disk disk)) b) = .ok ()) :
    let r := writeBiosStagesWithRollback disk stage1 stage2 (.start fate w)
    r.1 = .ok () ∧ r.2.events.map (·.op.part) = List.replicate 15 .write := by
  have hstart : (Journal.start fate w : Run) = .start fate
      (World.staged disk w (stage1On (w.disk disk)) (regionOn (w.disk disk))) := by
    rw [staged_self]
  have hlen2 := length_stage2Region h2
  rw [hstart]
  simp [writeBiosStagesWithRollback, writeStage2, writeStage1, checkExtent, readDisk, writeDisk,
    observe, demand, require, verifyStage2At, verifyStage2, verifyStage1, Except.mapError,
    Journal.start, h1, h2, hlen2, disk_staged, hgate, readAt_stage1 hsize, readAt_stage2 hsize,
    length_stage1On, length_regionOn, act_writeAt_stage1, act_writeAt_stage2, take_stage2Region,
    findIdx?_stage2Region, hdone]

/-- The next operation is the backup of KERNEL. -/
theorem writeBios_backup_failed (env : Machine) (m : Esp) (mp : String) (a : BiosAssets)
    (opts : BiosOpts) (c : Bytes) (s : Run) (hopts : opts.integritySet = true)
    (hnow : s.now = w)
    (hdone : ∀ k < 15, s.fate (s.events.length + k) = .done)
    (hfailed : s.fate (s.events.length + 15) = .failed)
    (hsize : stage2Offset + stage2Bytes ≤ (w.disk m.disk).size)
    (h1 : a.stage1.length = stage1Bytes) (h2 : a.stage2.length ≤ stage2Bytes)
    (hgate : ∀ b, checkStage2ExtentFree
      (withStages (w.disk m.disk) (stage1On (w.disk m.disk)) b) = .ok ())
    (hs : ∀ ev ∈ s.events, ev.op.part = .write) :
    ∃ s', writeBios env m mp a opts c s = (.error ⟨true, .payload (.backup .kernel)⟩, s')
      ∧ ∀ ev ∈ s'.events, ev.op.part = .write := by
  subst hnow
  have hrun := (writeBiosStagesWithRollback_uses m.disk a.stage1 a.stage2).isLocal.run_eq s
  obtain ⟨hok, hparts⟩ := stages_run s.fresh.fate hdone hsize h1 h2 hgate
  change (writeBiosStagesWithRollback m.disk a.stage1 a.stage2 s.fresh).1 = _ at hok
  change (writeBiosStagesWithRollback m.disk a.stage1 a.stage2 s.fresh).2.events.map _ = _ at hparts
  rw [hok] at hrun
  generalize (writeBiosStagesWithRollback m.disk a.stage1 a.stage2 s.fresh).2 = t at hrun hparts
  have hlen : t.events.length = 15 := by simpa using congrArg List.length hparts
  have hfate : (s.extend t).fate (s.extend t).events.length = .failed := by
    rw [Journal.extend, length_append, hlen, Nat.add_comm]
    exact hfailed
  have hmode : (updateIntegrityMode mp opts : ToolM StepFailure Bytes) = pure opts.integrity := by
    rw [updateIntegrityMode, if_pos hopts]
  refine ⟨(s.extend t).record ⟨.write, .readFile m.mountpoint .kernel⟩ .failed, ?_, ?_⟩
  · simp [writeBios, Halting.relabel, hrun, hmode, writePayloadWithRollback, backupPayload,
      readFile, observe, demand, hfate]
  · simp only [Journal.record, Journal.extend, mem_cons, mem_append]
    rintro ev (rfl | hev | hev)
    · rfl
    · exact eq_of_mem_replicate (hparts ▸ mem_map_of_mem hev)
    · exact hs ev hev

/-- The looks at a new member before its update is prepared. -/
def looked (m : Esp) (fate : Nat → Fate) (w : World) : Run :=
  (((Journal.start fate w : Run).record ⟨.write, .checkSectorSize m.disk⟩ .done).record
    ⟨.write, .checkExtent m.disk⟩ .done).record ⟨.write, .readFile m.mountpoint .cmdline⟩ .done

/-- `updateBIOSTarget` of a new member, in its parts. -/
theorem seed_run {c : Bytes} {s s' : Run} {f : StepFailure} (hdone : ∀ k < 3, fate k = .done)
    (hextent : checkStage2ExtentFree (w.disk m.disk) = .ok ())
    (hfile : w.files m.mountpoint .cmdline = none)
    (hprepare : prepareBios env h m none a opts (looked m fate w) = (.ok c, s))
    (hwrite : writeBios env m m.mountpoint a opts c s = (.error f, s')) :
    updateBiosTarget env h m none a true opts true (.start fate w) = (.error f, s') := by
  have hother : otherThan m none = none := rfl
  simp only [looked, Journal.start] at hprepare
  simp [updateBiosTarget, demand, checkExtent, observe, checkBiosUpToDate, readContent, readFile,
    hother, Journal.start, hdone, hextent, onlyIf, Halting.relabel, hprepare, hwrite, hfile,
    Except.mapError]

end

/-- A machine with one ESP. -/
def soleEsp : EspInfo := memberEsp "/dev/sda1" uuidA idOnes 1 [uuidA]

@[inherit_doc soleEsp]
def soleMachine : Machine := plainMachine false [soleEsp] (by decide)

/-- Its only member. -/
def sole : Esp := attach soleMachine false .member soleEsp false false

@[inherit_doc sole]
def soleHost : Host where
  uefi := false
  set := ⟨.member, none, some idOnes, [⟨soleEsp, false⟩], [uuidA], [], []⟩
  members := [sole]
  installId := some idOnes
  explicitList := none

/-- A release with another stage1. -/
def newBuild : BiosAssets := ⟨newStage1, newStage2, Payload.bzImage 508, [], Bios.ascii "quiet"⟩

/-- `--integrity=warn`. -/
def plainBios : BiosOpts := ⟨false, modeText .warn, true, []⟩

/-- Only the operation after the stages fails. -/
def backupFate (k : Nat) : Fate := if k = 20 then .failed else .done

/-- All that `updateBIOSTarget` checks before its first write is in order. -/
theorem prepare_run {s : Run} (hs : s.now = oldWorld) (h0 : s.fate s.events.length = .done)
    (h1 : s.fate (s.events.length + 1) = .done) :
    ∃ c, prepareBios soleMachine soleHost sole none newBuild plainBios s
      = (.ok c, (s.record ⟨.write, .readFile sole.mountpoint .cmdline⟩ .done).record
          ⟨.write, .readFile sole.mountpoint .cmdline⟩ .done) := by
  have hkernel : PayloadSum.kernelRamOffset newBuild.kernel = .ok 1024 := by decide +kernel
  have hlen : newBuild.kernel.length ≤ 0xffffffff := by
    rw [newBuild, Payload.length_bzImage]
    decide
  have hinitrd : newBuild.initrd.length ≤ 0xffffffff := Nat.zero_le _
  obtain ⟨raw, hraw⟩ := (PayloadSum.exists_generate hkernel hlen hinitrd .warn).1
  have hmeta : preflightBiosMetadata soleMachine (parseText newBuild.cmdline) newBuild.kernel
      newBuild.initrd = .ok () := by
    simp only [preflightBiosMetadata, hraw]
    rfl
  have hcheck : checkStage2 newBuild.stage2 = .ok () := by decide +kernel
  have hpair : checkStagePair newBuild.stage2 plainBios.force = .ok () := by
    rw [checkStagePair, hcheck]
  have hvalid : (validMode plainBios.integrity).isSome = true := by decide +kernel
  have hchunk : plainBios.int13chunk = [] := rfl
  have hnone : cmdlineInt13Chunk [] = ([], false) := by decide +kernel
  have hother : otherThan sole none = none := rfl
  have hlist : soleHost.explicitList = none := rfl
  have hfile : ∀ mp f, oldWorld.files mp f = none := fun _ _ => rfl
  have hfits : (setCmdlineWord (setCmdlineWord newBuild.cmdline espUuidsWord
      (cmdlineValue [] espUuidsWord)) espSelfWord sole.info.uuid.val).length ≤ cmdlineMaxBytes := by
    decide +kernel
  simp [prepareBios, hmeta, hpair, hvalid, require, applyInt13Chunk, hchunk, readContent, readFile,
    hs, h0, h1, observe, demand, editCmdline, cmdlineFrom, hother, hlist, checkCmdlineLength, hfits,
    hnone, hfile, Content.orEmpty]

/-- KERNEL cannot be read once the new stages are on the disk. Nothing is left to roll back. -/
theorem backup_failed_run :
    ∃ s, updateBiosTarget soleMachine soleHost sole none newBuild true plainBios true
        (.start backupFate oldWorld) = (.error ⟨true, .payload (.backup .kernel)⟩, s)
      ∧ ∀ ev ∈ s.events, ev.op.part = .rollback → Succeeded ev := by
  have hdone : ∀ k < 20, backupFate k = .done := fun k hk => if_neg (Nat.ne_of_lt hk)
  have hdisk : oldWorld.disk sole.disk = oldDisk := rfl
  have hlen1 : newBuild.stage1.length = stage1Bytes := by decide +kernel
  have hgate : ∀ b, checkStage2ExtentFree
      (withStages (oldWorld.disk sole.disk) (stage1On (oldWorld.disk sole.disk)) b) = .ok () := by
    intro b
    refine checkStage2ExtentFree_oldDisk (length_stage1On _) ?_ b
    rw [hdisk, stage1On_oldDisk]
    decide
  have hextent : checkStage2ExtentFree (oldWorld.disk sole.disk) = .ok () := by
    have h := hgate (regionOn (oldWorld.disk sole.disk))
    rwa [withStages_self] at h
  have hlooked : (looked sole backupFate oldWorld).now = oldWorld := rfl
  obtain ⟨c, hc⟩ := prepare_run hlooked (hdone 3 (by decide)) (hdone 4 (by decide))
  obtain ⟨s, hs, hparts⟩ := writeBios_backup_failed soleMachine sole sole.mountpoint newBuild
    plainBios c (((looked sole backupFate oldWorld).record
      ⟨.write, .readFile sole.mountpoint .cmdline⟩ .done).record
      ⟨.write, .readFile sole.mountpoint .cmdline⟩ .done) rfl hlooked
    (fun k hk => hdone _ (by simp [looked, Journal.start]; omega)) rfl (by decide) hlen1 (by decide)
    hgate (by simp [looked, Journal.start])
  refine ⟨s, seed_run (fun k hk => hdone k (by omega)) hextent rfl hc hs, fun ev hev hpart => ?_⟩
  rw [hparts ev hev] at hpart
  cases hpart

end ZfsBoot.Proofs.Tool.BiosUpdate
