import ZfsBoot.Lib.Outcome
import ZfsBoot.Proofs.Tool.PartTable
import ZfsBoot.Proofs.Tool.StageCompat

/-!
# `ZfsBoot.Proofs.Tool.Stages`: the two boot stages on the disk

`writeBIOSStagesWithRollback` writes stage2, then stage1, and undoes both in reverse order. The
disk is at any time the disk of the start with one of two stage1s and one of two stage2s
(`withStages`). What the run does is a walk through these four disks, and the claims are about
where it can stop.

Three of the four boot: the old pair, the old stage1 with the new stage2, and the new pair. The
fourth, the new stage1 with the old stage2, comes up when the rollback of stage1 fails and the one
of stage2 does not. A stage1 that checks a sum can then meet a stage2 that only the old stage1
accepted: `stages_written_iff` says that this is all, and `new_stage1_old_stage2` that it happens.
-/

set_option autoImplicit false

namespace ZfsBoot.Proofs.Tool

open List
open Lib Lib.Halting ZfsBoot.Tool

variable {bytes' region content : List UInt8} {op : Op} {i : Nat} {bytes : List UInt8} {off : Nat}
  {part : Part} {α : Type}

/-! ### Disks -/

/-- A disk with these two stages. -/
def withStages (img : DiskImage) (stage1 region : List UInt8) : DiskImage :=
  (img.writeAt stage2Offset region).writeAt 0 stage1

theorem byte_writeAt (img : DiskImage) (off : Nat) (bytes : List UInt8) (i : Nat) :
    (img.writeAt off bytes).byte i
      = if off ≤ i ∧ i < off + bytes.length then bytes.getD (i - off) 0 else img.byte i := rfl

/-- Disks that differ in their bytes at most. -/
theorem diskImage_eq {img img' : DiskImage} (hsize : img.size = img'.size)
    (h : ∀ i, img.byte i = img'.byte i) : img = img' := by
  cases img
  cases img'
  obtain rfl := hsize
  obtain rfl := funext h
  rfl

/-- What was written is read back. -/
theorem bytes_writeAt (img : DiskImage) (off : Nat) (bytes : List UInt8) :
    (img.writeAt off bytes).bytes off bytes.length = bytes := by
  refine ext_getElem (by simp [DiskImage.bytes]) fun i hi hi' => ?_
  rw [getElem_bytes, byte_writeAt, if_pos ⟨by omega, by omega⟩, Nat.add_sub_cancel_left,
    getD_eq_getElem _ _ hi']

/-- A write elsewhere does not change what is read. -/
theorem bytes_writeAt_of_disjoint (img : DiskImage) {start n : Nat}
    (h : start + n ≤ off ∨ off + bytes.length ≤ start) :
    (img.writeAt off bytes).bytes start n = img.bytes start n := by
  refine map_congr_left fun i hi => ?_
  rw [mem_range] at hi
  rw [byte_writeAt, if_neg (by omega)]

/-- Writing what is there changes nothing. -/
theorem writeAt_bytes (img : DiskImage) (off n : Nat) : img.writeAt off (img.bytes off n) = img := by
  refine diskImage_eq rfl fun i => ?_
  rw [byte_writeAt, length_bytes]
  split_ifs with h
  · rw [getD_eq_getElem _ _ (by rw [length_bytes]; omega), getElem_bytes]
    congr 1
    omega
  · rfl

/-- The second of two writes of the same range counts. -/
theorem writeAt_writeAt (img : DiskImage) (off : Nat) (h : bytes.length = bytes'.length) :
    (img.writeAt off bytes).writeAt off bytes' = img.writeAt off bytes' := by
  refine diskImage_eq rfl fun i => ?_
  simp only [byte_writeAt, h]
  split_ifs <;> rfl

/-- Writes of disjoint ranges commute. -/
theorem writeAt_comm (img : DiskImage) {off' : Nat}
    (h : off + bytes.length ≤ off' ∨ off' + bytes'.length ≤ off) :
    (img.writeAt off bytes).writeAt off' bytes' = (img.writeAt off' bytes').writeAt off bytes := by
  refine diskImage_eq rfl fun i => ?_
  simp only [byte_writeAt]
  split_ifs <;> first | rfl | omega

/-- What stands in the place of stage1 on a disk. -/
@[irreducible] def stage1On (img : DiskImage) : List UInt8 := img.bytes 0 stage1Bytes

/-- What stands in the place of stage2 on a disk. -/
@[irreducible] def regionOn (img : DiskImage) : List UInt8 := img.bytes stage2Offset stage2Bytes

theorem stage1On_eq (img : DiskImage) : stage1On img = img.bytes 0 stage1Bytes := by
  unfold stage1On
  rfl

theorem regionOn_eq (img : DiskImage) : regionOn img = img.bytes stage2Offset stage2Bytes := by
  unfold regionOn
  rfl

section

variable (img : DiskImage) {a a' b b' : List UInt8}

theorem withStages_self : withStages img (stage1On img) (regionOn img) = img := by
  rw [withStages, regionOn_eq, writeAt_bytes, stage1On_eq, writeAt_bytes]

theorem stage1On_withStages (ha : a.length = stage1Bytes) : stage1On (withStages img a b) = a := by
  rw [stage1On_eq, withStages, ← ha, bytes_writeAt]

theorem regionOn_withStages (ha : a.length = stage1Bytes) (hb : b.length = stage2Bytes) :
    regionOn (withStages img a b) = b := by
  rw [regionOn_eq, withStages, bytes_writeAt_of_disjoint _ (.inr (by rw [ha]; decide)), ← hb,
    bytes_writeAt]

theorem writeAt_stage1 (h : a.length = a'.length) :
    (withStages img a b).writeAt 0 a' = withStages img a' b := by
  rw [withStages, writeAt_writeAt _ _ h, withStages]

theorem writeAt_stage2 (ha : a.length = stage1Bytes) (h : b.length = b'.length) :
    (withStages img a b).writeAt stage2Offset b' = withStages img a b' := by
  rw [withStages, writeAt_comm _ (.inl (by rw [ha]; decide)), writeAt_writeAt _ _ h, withStages]

end

theorem length_stage1On (img : DiskImage) : (stage1On img).length = stage1Bytes := by
  rw [stage1On_eq, length_bytes]

theorem length_regionOn (img : DiskImage) : (regionOn img).length = stage2Bytes := by
  rw [regionOn_eq, length_bytes]

theorem length_stage2Region {stage2 : List UInt8} (h : stage2.length ≤ stage2Bytes) :
    (stage2Region stage2).length = stage2Bytes := by
  rw [stage2Region, length_append, length_replicate]
  omega

/-- A region that fills its place needs no padding. -/
theorem stage2Region_of_length (h : region.length = stage2Bytes) :
    stage2Region region = region := by
  rw [stage2Region, h, Nat.sub_self, replicate_zero, append_nil]

/-! ### The walk -/

section

variable (disk : String) (stage1 stage2 : List UInt8) (w : World)

/-- The world of the start with these two stages on the disk. -/
def World.staged (a b : List UInt8) : World := w.setDisk disk (withStages (w.disk disk) a b)

/-- A write to the disk that was carried out. -/
def Wrote (ev : Event Op World) : Prop :=
  ev.fate ≠ .failed ∧ ∃ off bytes, ev.op.action = .writeAt disk off bytes

/-- The old stage2 was put back. -/
def Undone (ev : Event Op World) : Prop :=
  ev.op = ⟨.rollback, .writeAt disk stage2Offset (regionOn (w.disk disk))⟩

/-- The pairs that a write can leave: the old stage1 with either stage2, the new pair, and, when the
old stage2 was put back, the new stage1 with it. -/
inductive Reached (ev : Event Op World) : List UInt8 → List UInt8 → Prop where
  | oldNew : Reached ev (stage1On (w.disk disk)) (stage2Region stage2)
  | newNew : Reached ev stage1 (stage2Region stage2)
  | oldOld : Reached ev (stage1On (w.disk disk)) (regionOn (w.disk disk))
  | newOld (h : Undone disk w ev) : Reached ev stage1 (regionOn (w.disk disk))

/-- A write left one of these pairs. -/
def Left (ev : Event Op World) : Prop :=
  ∃ a b, a.length = stage1Bytes ∧ b.length = stage2Bytes ∧ ev.after = World.staged disk w a b
    ∧ Reached disk stage1 stage2 w ev a b

/-- The disk has these two stages now, and all writes so far are known. -/
structure Staged (a b : List UInt8) (s : Run) : Prop where
  now_eq : s.now = World.staged disk w a b
  length_stage1 : a.length = stage1Bytes
  length_stage2 : b.length = stage2Bytes
  left : ∀ ev ∈ s.events, Wrote disk ev → Left disk stage1 stage2 w ev

variable {disk stage1 stage2 w} {a b : List UInt8} {ε : Type} {s : Run}

theorem setDisk_setDisk (w : World) (disk : String) (img img' : DiskImage) :
    (w.setDisk disk img).setDisk disk img' = w.setDisk disk img' := by
  simp [World.setDisk]

theorem disk_staged (a b : List UInt8) :
    (World.staged disk w a b).disk disk = withStages (w.disk disk) a b := by
  simp [World.staged, World.setDisk]

/-- An operation that does not write leaves everything. -/
theorem Staged.read (h : Staged disk stage1 stage2 w a b s) (fate : Fate)
    (hact : ∀ w, op.action.act w = w) (hop : ∀ off bytes, op.action ≠ .writeAt disk off bytes) :
    Staged disk stage1 stage2 w a b (s.record op fate) := by
  refine ⟨?_, h.length_stage1, h.length_stage2, forall_mem_cons.2 ⟨?_, h.left⟩⟩
  · cases fate
    · exact (hact _).trans h.now_eq
    · exact h.now_eq
    · exact (hact _).trans h.now_eq
  · rintro ⟨-, off, bytes, hwrite⟩
    exact absurd hwrite (hop off bytes)

/-- `demand` of an operation that does not write. -/
theorem demand_staged {e : ε} (hact : ∀ w, op.action.act w = w)
    (hop : ∀ off bytes, op.action ≠ .writeAt disk off bytes) :
    Triple (Staged disk stage1 stage2 w a b) (demand e op)
      (fun _ => Staged disk stage1 stage2 w a b)
      (fun e' s => e' = e ∧ Staged disk stage1 stage2 w a b s) :=
  triple_demand (fun _ hs => hs.read _ hact hop) fun _ hs fate _ => ⟨rfl, hs.read fate hact hop⟩

theorem checkExtent_staged (part : Part) (e : StageError → ε) :
    Triple (Staged disk stage1 stage2 w a b) (checkExtent part disk e)
      (fun _ => Staged disk stage1 stage2 w a b)
      (fun e' s => (∃ err, e' = e err) ∧ Staged disk stage1 stage2 w a b s) := by
  refine triple_bind (fun _ => Staged disk stage1 stage2 w a b) (triple_observe
    (fun s hs => hs.read _ (fun _ => rfl) (by simp))
    fun s hs fate _ => ⟨⟨_, rfl⟩, hs.read fate (fun _ => rfl) (by simp)⟩) fun result => ?_
  refine triple_ofExcept (fun _ _ s hs => hs) fun e' he' s hs => ?_
  cases result with
  | ok _ => cases he'
  | error err => exact ⟨⟨_, (Except.error.inj he').symm⟩, hs⟩

theorem readDisk_staged (part : Part) (off n : Nat) (e : ε) :
    Triple (Staged disk stage1 stage2 w a b) (readDisk part disk off n e)
      (fun bytes s => Staged disk stage1 stage2 w a b s
        ∧ bytes = (withStages (w.disk disk) a b).bytes off n)
      (fun e' s => e' = e ∧ Staged disk stage1 stage2 w a b s) := by
  refine triple_bind (fun result s => Staged disk stage1 stage2 w a b s
      ∧ result = (withStages (w.disk disk) a b).readAt off n) (triple_observe (fun s hs => ?_)
    fun s hs fate _ => ⟨rfl, hs.read fate (fun _ => rfl) (by simp)⟩) fun result => ?_
  · refine ⟨hs.read _ (fun _ => rfl) (by simp), ?_⟩
    rw [show Fate.done.after (Op.mk part (.readAt disk off n)) s.now = s.now from rfl, hs.now_eq,
      disk_staged]
  · refine triple_of_and fun hresult => triple_ofExcept (fun bytes hbytes s hs => ⟨hs, ?_⟩)
      fun e' he' s hs => ⟨?_, hs⟩
    · exact eq_bytes_of_readAt (hresult.symm.trans (mapError_eq_ok.1 hbytes))
    · cases result with
      | ok _ => cases he'
      | error err => exact (Except.error.inj he').symm

/-- A write takes the disk from one pair of stages to another, or leaves it. -/
theorem Staged.write (h : Staged disk stage1 stage2 w a b s)
    {a' b' : List UInt8} (ha : a'.length = stage1Bytes) (hb : b'.length = stage2Bytes)
    (hwrite : (withStages (w.disk disk) a b).writeAt off bytes = withStages (w.disk disk) a' b')
    (hpair : ∀ ev : Event Op World, ev.op = ⟨part, .writeAt disk off bytes⟩ →
      Reached disk stage1 stage2 w ev a' b') (fate : Fate) :
    (fate = .failed ∧ Staged disk stage1 stage2 w a b (s.record ⟨part, .writeAt disk off bytes⟩ fate))
      ∨ (fate ≠ .failed
        ∧ Staged disk stage1 stage2 w a' b' (s.record ⟨part, .writeAt disk off bytes⟩ fate)) := by
  have hact : (Action.writeAt disk off bytes).act s.now = World.staged disk w a' b' := by
    rw [h.now_eq, Action.act, disk_staged, hwrite, World.staged, setDisk_setDisk, World.staged]
  by_cases hfate : fate = .failed
  · subst hfate
    refine .inl ⟨rfl, h.now_eq, h.length_stage1, h.length_stage2,
      forall_mem_cons.2 ⟨fun hw => absurd rfl hw.1, h.left⟩⟩
  · have hafter : fate.after (Op.mk part (.writeAt disk off bytes)) s.now
        = World.staged disk w a' b' := by
      cases fate
      · exact hact
      · exact absurd rfl hfate
      · exact hact
    exact .inr ⟨hfate, hafter, ha, hb,
      forall_mem_cons.2 ⟨fun _ => ⟨a', b', ha, hb, hafter, hpair _ rfl⟩, h.left⟩⟩

/-- A write and its sync. -/
theorem writeDisk_staged {a' b' : List UInt8} {e : StageError → ε}
    (ha : a'.length = stage1Bytes) (hb : b'.length = stage2Bytes)
    (hwrite : (withStages (w.disk disk) a b).writeAt off bytes = withStages (w.disk disk) a' b')
    (hpair : ∀ ev : Event Op World, ev.op = ⟨part, .writeAt disk off bytes⟩ →
      Reached disk stage1 stage2 w ev a' b') :
    Triple (Staged disk stage1 stage2 w a b) (writeDisk part disk off bytes e)
      (fun _ => Staged disk stage1 stage2 w a' b')
      (fun e' s => (∃ err, e' = e err)
        ∧ (Staged disk stage1 stage2 w a b s ∨ Staged disk stage1 stage2 w a' b' s)) := by
  refine triple_bind (fun _ => Staged disk stage1 stage2 w a' b') (triple_demand (fun s hs => ?_)
    fun s hs fate _ => ⟨⟨_, rfl⟩, ?_⟩) fun _ => ?_
  · exact ((hs.write ha hb hwrite hpair .done).resolve_left fun h => absurd h.1 (by decide)).2
  · exact (hs.write ha hb hwrite hpair fate).imp And.right And.right
  · exact (demand_staged (fun _ => rfl) (by simp)).post_error
      fun _ _ h => ⟨⟨_, h.1⟩, .inr h.2⟩

theorem verifyStage2At_staged (part : Part) (want : List UInt8) (e : StageError → ε) :
    Triple (Staged disk stage1 stage2 w a b) (verifyStage2At part disk want e)
      (fun _ => Staged disk stage1 stage2 w a b)
      (fun e' s => (∃ err, e' = e err) ∧ Staged disk stage1 stage2 w a b s) := by
  refine triple_bind _ ((readDisk_staged part _ _ _).post_error fun _ _ h => ⟨⟨_, h.1⟩, h.2⟩)
    fun region => ?_
  refine triple_of_and fun _ => triple_bind _
    (triple_require fun s hs _ => ⟨⟨_, rfl⟩, hs⟩) fun _ => triple_of_and fun _ => ?_
  split
  · exact triple_stop fun s hs => ⟨⟨_, rfl⟩, hs⟩
  · exact triple_pure fun s hs => hs

/-- What a writer that fails leaves, if it was to replace `previous` and take the disk from `before`
to `after`. -/
def Failed (previous : List UInt8) (before after : Run → Prop) (f : WriteFailure) (s : Run) : Prop :=
  (f.previous = none ∧ before s) ∨ (f.previous = some previous ∧ (before s ∨ after s))

theorem writeStage2_spec
    (hpair : ∀ ev : Event Op World,
      ev.op = ⟨part, .writeAt disk stage2Offset (stage2Region content)⟩ →
      Reached disk stage1 stage2 w ev a (stage2Region content)) :
    Triple (Staged disk stage1 stage2 w a b) (writeStage2 part disk content)
      (fun previous s => Staged disk stage1 stage2 w a (stage2Region content) s ∧ previous = b)
      (Failed b (Staged disk stage1 stage2 w a b)
        (Staged disk stage1 stage2 w a (stage2Region content))) := by
  refine triple_bind _ (triple_require fun s hs _ => .inl ⟨rfl, hs⟩) fun _ => ?_
  refine triple_of_and fun hcontent => ?_
  have hregion := length_stage2Region hcontent
  refine triple_bind _ ((checkExtent_staged part _).post_error ?_) fun _ => ?_
  · rintro _ s ⟨⟨err, rfl⟩, hs⟩
    exact .inl ⟨rfl, hs⟩
  refine triple_bind _ ((demand_staged (fun _ => rfl) (by simp)).post_error ?_) fun _ => ?_
  · rintro _ s ⟨rfl, hs⟩
    exact .inl ⟨rfl, hs⟩
  refine triple_bind _ ((readDisk_staged part _ _ _).post_error ?_) fun previous => ?_
  · rintro _ s ⟨rfl, hs⟩
    exact .inl ⟨rfl, hs⟩
  refine ⟨fun s ⟨hs, hprevious⟩ => ?_⟩
  have ha := hs.length_stage1
  obtain rfl : previous = b := by
    rw [hprevious, ← regionOn_eq, regionOn_withStages _ ha hs.length_stage2]
  refine Triple.ends (P := Staged disk stage1 stage2 w a previous) ?_ s hs
  have hwrite := writeAt_stage2 (w.disk disk) ha (hs.length_stage2.trans hregion.symm)
  refine triple_bind _ ((writeDisk_staged ha hregion hwrite hpair).post_error ?_) fun _ => ?_
  · rintro _ s ⟨⟨err, rfl⟩, hs⟩
    exact .inr ⟨rfl, hs⟩
  refine triple_bind _ ((verifyStage2At_staged part _ _).post_error ?_) fun _ => ?_
  · rintro _ s ⟨⟨err, rfl⟩, hs⟩
    exact .inr ⟨rfl, .inr hs⟩
  exact triple_pure fun s hs => ⟨hs, rfl⟩

theorem writeStage1_spec
    (hpair : ∀ ev : Event Op World, ev.op = ⟨part, .writeAt disk 0 content⟩ →
      Reached disk stage1 stage2 w ev content b) :
    Triple (Staged disk stage1 stage2 w a b) (writeStage1 part disk content)
      (fun previous s => Staged disk stage1 stage2 w content b s ∧ previous = a)
      (Failed a (Staged disk stage1 stage2 w a b) (Staged disk stage1 stage2 w content b)) := by
  refine triple_bind _ (triple_require fun s hs _ => .inl ⟨rfl, hs⟩) fun _ => ?_
  refine triple_of_and fun hcontent => ?_
  refine triple_bind _ ((checkExtent_staged part _).post_error ?_) fun _ => ?_
  · rintro _ s ⟨⟨err, rfl⟩, hs⟩
    exact .inl ⟨rfl, hs⟩
  refine triple_bind _ ((demand_staged (fun _ => rfl) (by simp)).post_error ?_) fun _ => ?_
  · rintro _ s ⟨rfl, hs⟩
    exact .inl ⟨rfl, hs⟩
  refine triple_bind _ ((readDisk_staged part _ _ _).post_error ?_) fun previous => ?_
  · rintro _ s ⟨rfl, hs⟩
    exact .inl ⟨rfl, hs⟩
  refine ⟨fun s ⟨hs, hprevious⟩ => ?_⟩
  have ha := hs.length_stage1
  obtain rfl : previous = a := by
    rw [hprevious, ← stage1On_eq, stage1On_withStages _ ha]
  refine Triple.ends (P := Staged disk stage1 stage2 w previous b) ?_ s hs
  have hwrite : (withStages (w.disk disk) previous b).writeAt 0 content
      = withStages (w.disk disk) content b := writeAt_stage1 _ (ha.trans hcontent.symm)
  refine triple_bind _ ((writeDisk_staged hcontent hs.length_stage2 hwrite hpair).post_error ?_)
    fun _ => triple_pure fun s hs => ⟨hs, rfl⟩
  rintro _ s ⟨⟨err, rfl⟩, hs⟩
  exact .inr ⟨rfl, hs⟩

/-- Either stage1. -/
def OldOrNew (disk : String) (stage1 : List UInt8) (w : World) (a : List UInt8) : Prop :=
  a = stage1On (w.disk disk) ∨ a = stage1

variable {E : ε → Run → Prop}

theorem rollbackStage_some (write : List UInt8 → ToolM WriteFailure (List UInt8))
    (content : List UInt8) :
    (rollbackStage write (some content) : ToolM ε Bool)
      = (do let _ ← write content; return true : ToolM WriteFailure Bool).rescue
          fun _ => pure false := rfl

/-- Without an old stage1 only the rollback of stage2 is left. -/
theorem rollbackStage1_none_bind (disk : String) (f : Bool → ToolM ε α) :
    (rollbackStage1 disk none >>= f) = f true := rfl

/-- The old stage2 is put back, under whichever stage1 is there. -/
theorem rollbackStage2_spec (ha : OldOrNew disk stage1 w a) :
    Triple (fun s => ∃ b, Staged disk stage1 stage2 w a b s)
      (rollbackStage2 disk (some (regionOn (w.disk disk))))
      (fun ok s => ∃ b, Staged disk stage1 stage2 w a b s
        ∧ (ok = true → b = regionOn (w.disk disk))) E := by
  have hregion := stage2Region_of_length (length_regionOn (w.disk disk))
  rw [rollbackStage2, rollbackStage_some]
  refine triple_exists fun b => triple_rescue _ (triple_bind _ (writeStage2_spec fun ev hop => ?_)
    fun _ => triple_pure fun s hs => ⟨_, hs.1, fun _ => hregion⟩) fun f => ?_
  · rw [hregion] at hop ⊢
    rcases ha with rfl | rfl
    · exact .oldOld
    · exact .newOld hop
  · refine triple_pure ?_
    rintro s (⟨-, hs⟩ | ⟨-, hs | hs⟩)
    · exact ⟨_, hs, by simp⟩
    · exact ⟨_, hs, by simp⟩
    · exact ⟨_, hs, by simp⟩

/-- The old stage1 is put back, over the new stage2. -/
theorem rollbackStage1_spec :
    Triple (fun s => ∃ a, OldOrNew disk stage1 w a
        ∧ Staged disk stage1 stage2 w a (stage2Region stage2) s)
      (rollbackStage1 disk (some (stage1On (w.disk disk))))
      (fun ok s => ∃ a, OldOrNew disk stage1 w a
        ∧ Staged disk stage1 stage2 w a (stage2Region stage2) s
        ∧ (ok = true → a = stage1On (w.disk disk))) E := by
  refine triple_exists fun a => Triple.pre (P := fun s => Staged disk stage1 stage2 w a
    (stage2Region stage2) s ∧ OldOrNew disk stage1 w a) (triple_of_and fun ha => ?_) fun _ => And.symm
  refine triple_rescue _ (triple_bind _ (writeStage1_spec fun _ _ => .oldNew)
    fun _ => triple_pure fun s hs => ⟨_, .inl rfl, hs.1, fun _ => rfl⟩) fun f => ?_
  refine triple_pure ?_
  rintro s (⟨-, hs⟩ | ⟨-, hs | hs⟩)
  · exact ⟨_, ha, hs, by simp⟩
  · exact ⟨_, ha, hs, by simp⟩
  · exact ⟨_, .inl rfl, hs, by simp⟩

/-! ### The whole run -/

theorem staged_self : World.staged disk w (stage1On (w.disk disk)) (regionOn (w.disk disk)) = w := by
  rw [World.staged, withStages_self, World.setDisk, Function.update_eq_self]

/-- How a run ends with an error: every write is known, and the disk is as before if the rollbacks
restored it. -/
structure Unwound (disk : String) (stage1 stage2 : List UInt8) (w : World) (f : StagesFailure)
    (s : Run) : Prop where
  left : ∀ ev ∈ s.events, Wrote disk ev → Left disk stage1 stage2 w ev
  restored : f.stage1Restored = true → f.stage2Restored = true → s.now = w

/-- The end of a rollback of stage2, after one of stage1 that said `ok1`. -/
theorem Staged.unwound {a b : List UInt8} {s : Run} (h : Staged disk stage1 stage2 w a b s)
    {err : StagesError} {ok1 ok2 : Bool} (ha : ok1 = true → a = stage1On (w.disk disk))
    (hb : ok2 = true → b = regionOn (w.disk disk)) :
    Unwound disk stage1 stage2 w ⟨err, ok1, ok2⟩ s :=
  ⟨h.left, fun h1 h2 => by rw [h.now_eq, ha h1, hb h2, staged_self]⟩

/-- Stage2 is rolled back, under the old stage1. -/
theorem undo_stage2 (err : StagesError) {Q : α → Run → Prop} :
    Triple (fun s => ∃ b, Staged disk stage1 stage2 w (stage1On (w.disk disk)) b s)
      (rollbackStage2 disk (some (regionOn (w.disk disk))) >>= fun restored =>
        stop ⟨err, true, restored⟩) Q (Unwound disk stage1 stage2 w) := by
  refine triple_bind _ (rollbackStage2_spec (.inl rfl)) fun restored => triple_stop ?_
  rintro s ⟨b, hs, hb⟩
  exact hs.unwound (fun _ => rfl) hb

/-- Both stages are rolled back, from the new stage2. -/
theorem undo_both (err : StagesError) {Q : α → Run → Prop} :
    Triple (fun s => ∃ a, OldOrNew disk stage1 w a
        ∧ Staged disk stage1 stage2 w a (stage2Region stage2) s)
      (rollbackStage1 disk (some (stage1On (w.disk disk))) >>= fun restored1 =>
        rollbackStage2 disk (some (regionOn (w.disk disk))) >>= fun restored2 =>
          stop ⟨err, restored1, restored2⟩) Q (Unwound disk stage1 stage2 w) := by
  refine triple_bind _ rollbackStage1_spec fun restored1 => triple_exists fun a => ?_
  refine ⟨fun s ⟨ha, hs, hrestored⟩ => ?_⟩
  refine Triple.ends (P := fun s => ∃ b, Staged disk stage1 stage2 w a b s) ?_ s ⟨_, hs⟩
  refine triple_bind _ (rollbackStage2_spec ha) fun restored2 => triple_stop ?_
  rintro s ⟨b, hs, hb⟩
  exact hs.unwound hrestored hb

theorem verifyStage2_staged (want : List UInt8) :
    Triple (Staged disk stage1 stage2 w a b) (verifyStage2 disk want)
      (fun _ => Staged disk stage1 stage2 w a b) (fun _ => Staged disk stage1 stage2 w a b) := by
  refine triple_bind _ (triple_require fun s hs _ => hs) fun _ => triple_of_and fun _ => ?_
  refine triple_bind _ ((demand_staged (fun _ => rfl) (by simp)).post_error fun _ _ h => h.2)
    fun _ => ?_
  exact (verifyStage2At_staged _ _ _).post_error fun _ _ h => h.2

theorem verifyStage1_staged (want : List UInt8) :
    Triple (Staged disk stage1 stage2 w a b) (verifyStage1 disk want)
      (fun _ => Staged disk stage1 stage2 w a b) (fun _ => Staged disk stage1 stage2 w a b) := by
  refine triple_bind _ (triple_require fun s hs _ => hs) fun _ => triple_of_and fun _ => ?_
  refine triple_bind _ ((demand_staged (fun _ => rfl) (by simp)).post_error fun _ _ h => h.2)
    fun _ => ?_
  refine triple_bind _ ((readDisk_staged _ _ _ _).post_error fun _ _ h => h.2) fun got => ?_
  exact triple_of_and fun _ => (triple_require (E := fun _ => Staged disk stage1 stage2 w a b)
    fun s hs _ => hs).post fun _ _ h => h.1

/-- Everything that `writeBIOSStagesWithRollback` does to the disk. -/
theorem writeBiosStagesWithRollback_spec (disk : String) (stage1 stage2 : List UInt8) (w : World) :
    Triple (Staged disk stage1 stage2 w (stage1On (w.disk disk)) (regionOn (w.disk disk)))
      (writeBiosStagesWithRollback disk stage1 stage2)
      (fun _ => Staged disk stage1 stage2 w stage1 (stage2Region stage2))
      (Unwound disk stage1 stage2 w) := by
  refine triple_bind _ (triple_rescue _ (writeStage2_spec fun _ _ => .oldNew)
    fun f => ?_) fun previous2 => triple_of_and fun hprevious2 => ?_
  · -- stage2 could not be written: there is nothing to undo, or the old one to put back
    refine ⟨fun s hs => ?_⟩
    rcases hs with ⟨hf, hs⟩ | ⟨hf, hs⟩ <;> rw [hf]
    · exact hs.unwound (fun _ => rfl) fun _ => rfl
    · exact (undo_stage2 _).ends s (hs.elim (fun h => ⟨_, h⟩) fun h => ⟨_, h⟩)
  subst hprevious2
  refine triple_bind (fun _ => Staged disk stage1 stage2 w (stage1On (w.disk disk))
    (stage2Region stage2)) (triple_rescue _ (verifyStage2_staged stage2) fun err => ?_) fun _ => ?_
  · exact (undo_stage2 _).pre fun s hs => ⟨_, hs⟩
  refine triple_bind _ (triple_rescue _ (writeStage1_spec fun _ _ => .newNew)
    fun f => ?_) fun previous1 => triple_of_and fun hprevious1 => ?_
  · -- the same for stage1, and then the old stage2
    refine ⟨fun s hs => ?_⟩
    rcases hs with ⟨hf, hs⟩ | ⟨hf, hs⟩ <;> rw [hf]
    · rw [rollbackStage1_none_bind]
      exact (undo_stage2 _).ends s ⟨_, hs⟩
    · exact (undo_both _).ends s (hs.elim (fun h => ⟨_, .inl rfl, h⟩) fun h => ⟨_, .inr rfl, h⟩)
  subst hprevious1
  refine triple_rescue _ (verifyStage1_staged stage1) fun err => ?_
  exact (undo_both _).pre fun s hs => ⟨_, .inr rfl, hs⟩

/-- Stage1 on the disk jumps into the stage2 on the disk. -/
def PairAccepted (disk : String) (w : World) : Prop :=
  stage1Accepts (stage1On (w.disk disk)) (regionOn (w.disk disk)) = true

/-- The rollback put the old stage2 back under the new stage1, which does not accept it. -/
structure Mismatched (disk : String) (stage1 : List UInt8) (w : World) (ev : Event Op World) :
    Prop where
  wrote : Wrote disk ev
  undone : Undone disk w ev
  stage1_eq : stage1On (ev.after.disk disk) = stage1
  region_eq : regionOn (ev.after.disk disk) = regionOn (w.disk disk)
  refused : stage1Accepts stage1 (regionOn (w.disk disk)) = false

/-- A stage2 that `CheckStage2` accepts is accepted by every stage1. -/
theorem stage1Accepts_of_checkStage2 (a : List UInt8)
    (h : checkStage2 region = .ok ()) : stage1Accepts a region = true := by
  have hle : region.length ≤ stage2Bytes := by
    by_contra hgt
    rw [checkStage2, if_pos (.inr (Nat.not_le.1 hgt))] at h
    cases h
  obtain ⟨hmagic, -⟩ := (checkStage2_eq_ok_iff hle).1 h
  have hlen : 4 ≤ region.length := length_of_le16 hmagic (by decide)
  rw [stage1Accepts, if_neg (by rw [not_or, not_not]; exact ⟨Nat.not_lt.2 hlen, hmagic⟩), h]
  split_ifs <;> rfl

theorem pairAccepted_staged {a b : List UInt8} (ha : a.length = stage1Bytes)
    (hb : b.length = stage2Bytes) :
    PairAccepted disk (World.staged disk w a b) ↔ stage1Accepts a b = true := by
  rw [PairAccepted, disk_staged, stage1On_withStages _ ha, regionOn_withStages _ ha hb]

theorem staged_start (disk : String) (stage1 stage2 : List UInt8) (w : World) (fate : Nat → Fate) :
    Staged disk stage1 stage2 w (stage1On (w.disk disk)) (regionOn (w.disk disk)) (.start fate w) :=
  ⟨staged_self.symm, length_stage1On _, length_regionOn _, fun _ h => absurd h not_mem_nil⟩

/-- How a run ends. -/
theorem ends_run (disk : String) (stage1 stage2 : List UInt8) (w : World) (fate : Nat → Fate) :
    Ends (fun _ => Staged disk stage1 stage2 w stage1 (stage2Region stage2))
      (Unwound disk stage1 stage2 w)
      (writeBiosStagesWithRollback disk stage1 stage2 (.start fate w)) :=
  (writeBiosStagesWithRollback_spec disk stage1 stage2 w).ends _ (staged_start ..)

/-- All writes of a run are known. -/
theorem left_of_mem {fate : Nat → Fate} {ev : Event Op World}
    (hev : ev ∈ (writeBiosStagesWithRollback disk stage1 stage2 (.start fate w)).2.events)
    (hw : Wrote disk ev) : Left disk stage1 stage2 w ev := by
  have h := ends_run disk stage1 stage2 w fate
  revert h hev
  rcases writeBiosStagesWithRollback disk stage1 stage2 (.start fate w) with ⟨f | u, s⟩
  · exact fun hev h => h.left ev hev hw
  · exact fun hev h => h.left ev hev hw

/-- The new disk: the two stages in their places, and every other byte as before. -/
structure Installed (img img' : DiskImage) (stage1 stage2 : List UInt8) : Prop where
  size_eq : img'.size = img.size
  stage1_eq : img'.bytes 0 stage1.length = stage1
  stage2_eq : img'.bytes stage2Offset stage2Bytes = stage2 ++ List.replicate (stage2Bytes - stage2.length) 0
  byte_eq : ∀ i, stage1.length ≤ i → (i < stage2Offset ∨ stage2Offset + stage2Bytes ≤ i) →
    img'.byte i = img.byte i

theorem installed_withStages (img : DiskImage) {stage1 stage2 : List UInt8}
    (h1 : stage1.length = stage1Bytes) (h2 : (stage2Region stage2).length = stage2Bytes) :
    Installed img (withStages img stage1 (stage2Region stage2)) stage1 stage2 where
  size_eq := rfl
  stage1_eq := by rw [h1, ← stage1On_eq, stage1On_withStages _ h1]
  stage2_eq := by
    rw [← regionOn_eq, regionOn_withStages _ h1 h2]
    rfl
  byte_eq := fun i hi hi' => by
    rw [withStages, byte_writeAt, if_neg (by omega), byte_writeAt, if_neg (by rw [h2]; omega)]

/-- For every disk, every pair of stages and every way the operations go. On success the new stages
are in place and nothing else changed. On an error whose rollbacks succeeded the disk is as before.
And if the pair at the start is accepted and the new stage2 passes `CheckStage2`, then every write
leaves a pair that is accepted, unless the rollback puts the old stage2 back under a new stage1 that
refuses it. -/
theorem stages_written_iff (disk : String) (stage1 stage2 : List UInt8) (w : World)
    (fate : Nat → Fate) :
    let run := writeBiosStagesWithRollback disk stage1 stage2 (.start fate w)
    (run.1 = .ok () → Installed (w.disk disk) (run.2.now.disk disk) stage1 stage2)
    ∧ (∀ f, run.1 = .error f → f.stage1Restored = true → f.stage2Restored = true →
      run.2.now.disk disk = w.disk disk)
    ∧ (PairAccepted disk w → checkStage2 (stage2Region stage2) = .ok () →
      ((∀ ev ∈ run.2.events, Wrote disk ev → PairAccepted disk ev.after)
        ↔ ∀ ev ∈ run.2.events, ¬ Mismatched disk stage1 w ev)) := by
  intro run
  have hends : Ends _ _ run := ends_run disk stage1 stage2 w fate
  have hleft : ∀ ev ∈ run.2.events, Wrote disk ev → Left disk stage1 stage2 w ev :=
    fun ev => left_of_mem
  clear_value run
  refine ⟨fun hok => ?_, fun f hf h1 h2 => ?_, fun hstart hcheck => ⟨fun hall ev hev hm => ?_,
    fun hall ev hev hw => ?_⟩⟩
  · rcases run with ⟨f | u, s⟩
    · cases hok
    · have hnow : s.now = World.staged disk w stage1 (stage2Region stage2) := hends.now_eq
      rw [hnow, disk_staged]
      exact installed_withStages _ hends.length_stage1 hends.length_stage2
  · rcases run with ⟨f' | u, s⟩
    · obtain rfl := Except.error.inj hf
      rw [hends.restored h1 h2]
    · cases hf
  · have haccepted := hall ev hev hm.wrote
    rw [PairAccepted, hm.stage1_eq, hm.region_eq, hm.refused] at haccepted
    cases haccepted
  · obtain ⟨a, b, ha, hb, hafter, hpair⟩ := hleft ev hev hw
    rw [hafter, pairAccepted_staged ha hb]
    cases hpair with
    | oldNew => exact stage1Accepts_of_checkStage2 _ hcheck
    | newNew => exact stage1Accepts_of_checkStage2 _ hcheck
    | oldOld => exact hstart
    | newOld hundone =>
      by_contra hrefused
      refine hall ev hev ⟨hw, hundone, ?_, ?_, Bool.eq_false_iff.2 hrefused⟩
      · rw [hafter, disk_staged, stage1On_withStages _ ha]
      · rw [hafter, disk_staged, regionOn_withStages _ ha hb]

end

/-! ### A stage1 that cannot be put back -/

section

variable {disk : String} {stage1 stage2 : List UInt8} {w : World} {a a' b b' : List UInt8}

theorem act_writeAt_stage1 (ha : a.length = stage1Bytes) (ha' : a'.length = stage1Bytes) :
    (Action.writeAt disk 0 a').act (World.staged disk w a b) = World.staged disk w a' b := by
  rw [Action.act, disk_staged, writeAt_stage1 _ (ha.trans ha'.symm), World.staged, setDisk_setDisk,
    World.staged]

theorem act_writeAt_stage2 (ha : a.length = stage1Bytes) (hb : b.length = stage2Bytes)
    (hb' : b'.length = stage2Bytes) :
    (Action.writeAt disk stage2Offset b').act (World.staged disk w a b)
      = World.staged disk w a b' := by
  rw [Action.act, disk_staged, writeAt_stage2 _ ha (hb.trans hb'.symm), World.staged,
    setDisk_setDisk, World.staged]

theorem readAt_stage1 (hsize : stage2Offset + stage2Bytes ≤ (w.disk disk).size)
    (ha : a.length = stage1Bytes) :
    (withStages (w.disk disk) a b).readAt 0 stage1Bytes = .ok a := by
  rw [readAt_of_le, ← stage1On_eq, stage1On_withStages _ ha]
  exact Nat.le_trans (by decide) hsize

theorem readAt_stage2 (hsize : stage2Offset + stage2Bytes ≤ (w.disk disk).size)
    (ha : a.length = stage1Bytes) (hb : b.length = stage2Bytes) :
    (withStages (w.disk disk) a b).readAt stage2Offset stage2Bytes = .ok b := by
  rw [readAt_of_le, ← regionOn_eq, regionOn_withStages _ ha hb]
  exact hsize

theorem take_stage2Region (stage2 : List UInt8) :
    (stage2Region stage2).take stage2.length = stage2 := by
  simp [stage2Region]

theorem findIdx?_stage2Region (stage2 : List UInt8) :
    ((stage2Region stage2).drop stage2.length).findIdx? (· != 0) = none := by
  simp [stage2Region]

/-- The sync after the write of stage1 fails, and so does the write that would undo it. -/
def mismatchFate (k : Nat) : Fate := if k = 12 ∨ k = 16 then .failed else .done

/-- Such a run ends with the old stage2 under the new stage1, on any disk where the extent of stage2
stays free. -/
theorem mismatched_run (disk : String) (hsize : stage2Offset + stage2Bytes ≤ (w.disk disk).size)
    (h1 : stage1.length = stage1Bytes) (h2 : stage2.length ≤ stage2Bytes)
    (hgate : ∀ a b, a = stage1On (w.disk disk) ∨ a = stage1 →
      checkStage2ExtentFree (withStages (w.disk disk) a b) = .ok ()) :
    ∃ ev ∈ (writeBiosStagesWithRollback disk stage1 stage2 (.start mismatchFate w)).2.events,
      Wrote disk ev ∧ ev.after = World.staged disk w stage1 (regionOn (w.disk disk)) := by
  have hstart : (Journal.start mismatchFate w : Run) = .start mismatchFate
      (World.staged disk w (stage1On (w.disk disk)) (regionOn (w.disk disk))) := by
    rw [staged_self]
  have hlen2 := length_stage2Region h2
  have hregion := stage2Region_of_length (length_regionOn (w.disk disk))
  have htake : (regionOn (w.disk disk)).take stage2Bytes = regionOn (w.disk disk) :=
    take_of_length_le (length_regionOn _).le
  have hdrop : (regionOn (w.disk disk)).drop stage2Bytes = [] :=
    drop_of_length_le (length_regionOn _).le
  have hgate_old := fun b => hgate _ b (.inl rfl)
  have hgate_new := fun b => hgate _ b (.inr rfl)
  rw [hstart]
  -- the last write of the run: `rollbackStage2`, after `rollbackStage1` gave up
  refine ⟨⟨⟨.rollback, .writeAt disk stage2Offset (regionOn (w.disk disk))⟩, .done,
    World.staged disk w stage1 (regionOn (w.disk disk))⟩, ?_, ⟨by simp, _, _, rfl⟩, rfl⟩
  simp [writeBiosStagesWithRollback, writeStage2, writeStage1, checkExtent, readDisk, writeDisk,
    observe, demand, require, verifyStage2At, verifyStage2, rollbackStage2, rollbackStage1,
    rollbackStage_some, Except.mapError, mismatchFate, Journal.start, h1, h2, hlen2, hregion, htake,
    hdrop, disk_staged, hgate_old, hgate_new, readAt_stage1 hsize, readAt_stage2 hsize,
    length_stage1On, length_regionOn, act_writeAt_stage1, act_writeAt_stage2, take_stage2Region,
    findIdx?_stage2Region]

theorem byte_withStages_between (img : DiskImage) (ha : a.length = stage1Bytes)
    (hi : stage1Bytes ≤ i) (hi' : i < stage2Offset) : (withStages img a b).byte i = img.byte i := by
  rw [withStages, byte_writeAt, if_neg (by omega), byte_writeAt, if_neg (by omega)]

theorem byte_withStages_zero (img : DiskImage) (ha : a.length = stage1Bytes) :
    (withStages img a b).byte 0 = a.getD 0 0 := by
  rw [withStages, byte_writeAt, if_pos ⟨le_rfl, by rw [ha]; decide⟩]

/-- On a disk with an empty MBR table the extent of stage2 is free. -/
theorem checkStage2ExtentFree_of_empty {img : DiskImage} (hsize : 1024 ≤ img.size)
    (hjump : img.byte 0 ≠ 0xEB ∧ img.byte 0 ≠ 0xE9) (h510 : img.byte 510 = 0x55)
    (h511 : img.byte 511 = 0xAA) (hgpt : img.byte 512 ≠ 0x45)
    (hentries : ∀ i < 64, img.byte (446 + i) = 0) : checkStage2ExtentFree img = .ok () := by
  have hheader : readGptHeader img = .error .noGptSignature := by
    have hsignature : (img.bytes sectorSize sectorSize).take 8 ≠ gptSignature := by
      intro h
      have hhead := congrArg (byteAt · 0) h
      rw [show (img.bytes sectorSize sectorSize).take 8 = img.bytes sectorSize 8 from
        take_drop_bytes img sectorSize (a := 0) (by decide), byteAt_bytes _ _ (by decide)] at hhead
      exact hgpt (UInt8.toNat_inj.1 hhead)
    rw [readGptHeader, readAt_of_le hsize]
    simp only [checkGptHeader, if_pos hsignature]
  have hfat : looksLikeFatBootSector (img.bytes 0 sectorSize) = false := by
    have hne : ¬ (byteAt (img.bytes 0 sectorSize) 0 = 0xEB
        ∨ byteAt (img.bytes 0 sectorSize) 0 = 0xE9) := by
      rw [byteAt_bytes _ _ (by decide)]
      rintro (h | h)
      · exact hjump.1 (UInt8.toNat_inj.1 h)
      · exact hjump.2 (UInt8.toNat_inj.1 h)
    simp [looksLikeFatBootSector, not_or.1 hne]
  have hcount : ∀ i < mbrMaxPartitions,
      (decodeMbrEntry (img.bytes 0 sectorSize) i).sectorCount = 0 := by
    intro i hi
    rw [mbrMaxPartitions] at hi
    have hbyte : ∀ k < 4, byteAt (img.bytes 0 sectorSize) (446 + i * 16 + 12 + k) = 0 := by
      intro k hk
      rw [byteAt_bytes _ _ (by rw [sectorSize]; omega), Nat.zero_add, Nat.add_assoc, Nat.add_assoc,
        hentries _ (by omega)]
      rfl
    have h0 := hbyte 0 (by decide)
    have h1 := hbyte 1 (by decide)
    have h2 := hbyte 2 (by decide)
    have h3 := hbyte 3 (by decide)
    simp [decodeMbrEntry, le32, le16, h0, h1, h2, h3]
  have hmbr : mbrPartitions img = .ok [] := by
    have hsector : img.readAt 0 sectorSize = .ok (img.bytes 0 sectorSize) :=
      readAt_of_le (Nat.le_trans (by decide) hsize)
    have hmark : ¬ (byteAt (img.bytes 0 sectorSize) 510 ≠ 0x55
        ∨ byteAt (img.bytes 0 sectorSize) 511 ≠ 0xAA) := by
      rw [byteAt_bytes _ _ (by decide), byteAt_bytes _ _ (by decide), Nat.zero_add, Nat.zero_add,
        h510, h511]
      decide
    simp only [mbrPartitions, hsector, if_neg hmark, hfat]
    refine congrArg Except.ok (filter_eq_nil_iff.2 fun e he => ?_)
    obtain ⟨i, hi, rfl⟩ := mem_map.1 he
    simp [hcount i (mem_range.1 hi)]
  rw [checkStage2ExtentFree, hheader]
  simp only [hmbr]
  rfl

end

/-- A disk without partitions. Its stage1 is empty. Its stage2 has the magic word, the marker of a
sum, and a length of zero words. -/
def oldDisk : DiskImage where
  size := 51200
  size_lt := by decide
  byte := fun i =>
    if i = 510 then 0x55 else if i = 511 then 0xAA
    else if i = stage2Offset + 2 then 0x5a else if i = stage2Offset + 3 then 0x32
    else if i = stage2Offset + 4 then 0x31 else if i = stage2Offset + 5 then 0x53 else 0

/-- A machine with this disk. -/
def oldWorld : World := ⟨fun _ _ => none, fun _ => oldDisk⟩

/-- A stage1 that checks the sum of its stage2. -/
def newStage1 : List UInt8 := stage1MarkerCheck ++ List.replicate 434 0

/-- A stage2 without a sum. -/
def newStage2 : List UInt8 := [0, 0, 0x5a, 0x32]

theorem checkStage2ExtentFree_oldDisk {a : List UInt8} (ha : a.length = stage1Bytes)
    (hjump : a.getD 0 0 ≠ 0xEB ∧ a.getD 0 0 ≠ 0xE9) (b : List UInt8) :
    checkStage2ExtentFree (withStages oldDisk a b) = .ok () := by
  have hbyte : ∀ i, stage1Bytes ≤ i → i < stage2Offset →
      (withStages oldDisk a b).byte i = oldDisk.byte i :=
    fun i hi hi' => byte_withStages_between _ ha hi hi'
  have hsize : 1024 ≤ oldDisk.size := by decide
  refine checkStage2ExtentFree_of_empty hsize ?_ ?_ ?_ ?_ fun i hi => ?_
  · rwa [byte_withStages_zero _ ha]
  · rw [hbyte _ (by decide) (by decide)]
    decide
  · rw [hbyte _ (by decide) (by decide)]
    decide
  · rw [hbyte _ (by decide) (by decide)]
    decide
  · have hlt : 446 + i < stage2Offset := Nat.lt_trans (Nat.add_lt_add_left hi 446) (by decide)
    rw [hbyte _ (by rw [stage1Bytes]; omega) hlt]
    simp only [oldDisk]
    repeat rw [if_neg (by omega)]

theorem stage1On_oldDisk : stage1On oldDisk = List.replicate stage1Bytes 0 := by
  rw [stage1On_eq]
  decide +kernel

theorem le16_regionOn (img : DiskImage) (hi : i + 1 < stage2Bytes) :
    le16 (regionOn img) i = (img.byte (stage2Offset + i)).toNat
      + 2 ^ 8 * (img.byte (stage2Offset + (i + 1))).toNat := by
  rw [le16, regionOn_eq, byteAt_bytes _ _ (by omega), byteAt_bytes _ _ hi]

/-- The stage2 of this disk suits exactly the stage1s that do not check a sum. -/
theorem stage1Accepts_oldDisk (a : List UInt8) :
    stage1Accepts a (regionOn oldDisk) = !stage1ChecksSum a := by
  have hmagic : le16 (regionOn oldDisk) 2 = stage2Magic := by
    rw [le16_regionOn _ (by decide)]
    decide
  have hmarker : le16 (regionOn oldDisk) 4 = stage2SumMarker := by
    rw [le16_regionOn _ (by decide)]
    decide
  have hwords : le16 (regionOn oldDisk) 6 = 0 := by
    rw [le16_regionOn _ (by decide)]
    decide
  have h4 : 4 ≤ stage2Bytes := by decide
  have h10 : ¬ stage2Bytes < 10 := by decide
  have hcheck : checkStage2 (regionOn oldDisk) = .error (.length 0) := by
    simp [checkStage2, hmagic, hmarker, le16_stage2Region, hwords, length_regionOn, h4, h10]
  simp only [stage1Accepts, length_regionOn, hmagic, hcheck, Nat.not_lt.2 h4]
  cases stage1ChecksSum a <;> rfl

/-- The pair at the start is accepted and the new stage2 is good, no write that fails changes the
disk, and still the run leaves a pair that its stage1 refuses. -/
theorem new_stage1_old_stage2 :
    newStage1.length = stage1Bytes ∧ newStage2.length ≤ stage2Bytes
    ∧ (∀ k, mismatchFate k ≠ .late)
    ∧ PairAccepted "/dev/sda" oldWorld ∧ checkStage2 (stage2Region newStage2) = .ok ()
    ∧ ∃ ev ∈ (writeBiosStagesWithRollback "/dev/sda" newStage1 newStage2
        (.start mismatchFate oldWorld)).2.events,
        Wrote "/dev/sda" ev ∧ ¬ PairAccepted "/dev/sda" ev.after := by
  have hdisk : oldWorld.disk "/dev/sda" = oldDisk := rfl
  have hlen1 : newStage1.length = stage1Bytes := by decide +kernel
  have hlen2 : newStage2.length ≤ stage2Bytes := by decide
  have hchecks : stage1ChecksSum newStage1 = true := by decide +kernel
  have hold : stage1ChecksSum (stage1On oldDisk) = false := by
    rw [stage1On_oldDisk]
    decide +kernel
  have hgate : ∀ a b, a = stage1On (oldWorld.disk "/dev/sda") ∨ a = newStage1 →
      checkStage2ExtentFree (withStages (oldWorld.disk "/dev/sda") a b) = .ok () := by
    rintro a b (rfl | rfl)
    · refine checkStage2ExtentFree_oldDisk (length_stage1On _) ?_ b
      rw [hdisk, stage1On_oldDisk]
      decide
    · exact checkStage2ExtentFree_oldDisk hlen1 (by decide) b
  refine ⟨hlen1, hlen2, fun k => ?_, ?_, ?_, ?_⟩
  · rw [mismatchFate]
    split <;> simp
  · rw [PairAccepted, hdisk, stage1Accepts_oldDisk, hold]
    rfl
  · rw [checkStage2_eq_ok_iff (length_stage2Region hlen2).le, le16_stage2Region, le16_stage2Region]
    exact ⟨by decide, fun _ h => absurd h (by decide)⟩
  · obtain ⟨ev, hev, hwrote, hafter⟩ :=
      mismatched_run (w := oldWorld) "/dev/sda" (by decide) hlen1 hlen2 hgate
    refine ⟨ev, hev, hwrote, fun haccepted => ?_⟩
    rw [hafter, pairAccepted_staged hlen1 (length_regionOn _), hdisk, stage1Accepts_oldDisk,
      hchecks] at haccepted
    cases haccepted

end ZfsBoot.Proofs.Tool
