import ZfsBoot.Lib.Memory
import ZfsBoot.Proofs.Fat.Bounds

/-!
# `ZfsBoot.Proofs.Fat.Frame`: what the reader leaves alone

The reader writes RAM through `unreal_copy` and nowhere else. A read without a callback therefore
leaves everything outside its destination as it was (`readRange_sameOutside`), and the other calls
leave all of RAM. A read with a callback changes the callback's context through the callback only
(`readRange_ctx`). None of this needs a mounted volume.

`GoodVolume` is what makes a call end at all.
-/

set_option autoImplicit false

namespace ZfsBoot.Proofs.Fat

open Lib Bios

variable {dst length offset : UInt32} {file : FatFile} {batch : Nat} {δ κ : Type} (bk : Backend δ)
  (vol : FatVolume) {m : Machine δ} {r : Bool × κ × FatRun δ}

/-! ### RAM -/

theorem ram_setSlot (b : Bool) (c : FatCache) (st : FatRun δ) : (st.setSlot b c).m.ram = st.m.ram := by
  cases b <;> rfl

theorem ram_getNext (cluster : Nat) (b : Bool) (st : FatRun δ) :
    (fatGetNextClusterSlot bk vol cluster b st).2.m.ram = st.m.ram := by
  rw [fatGetNextClusterSlot]
  split
  · rfl
  · dsimp only
    split
    · rfl
    · split
      · exact ram_setSlot _ _ (st.read bk _ _).2
      · exact ram_setSlot _ _ (st.read bk _ _).2

theorem ram_tortoise (w : FatChainWalk) (st : FatRun δ) :
    (fatTortoiseAdvance bk vol w st).2.2.m.ram = st.m.ram := by
  have h := ram_getNext bk vol w.tortoise true st
  rw [fatTortoiseAdvance]
  revert h
  rcases fatGetNextClusterSlot bk vol w.tortoise true st with ⟨_ | next, st'⟩
  · exact id
  · intro h
    dsimp only
    split_ifs <;> exact h

theorem ram_advance (w : FatChainWalk) (st : FatRun δ) :
    (fatChainAdvance bk vol w st).2.2.m.ram = st.m.ram := by
  have h := ram_getNext bk vol w.cluster false st
  rw [fatChainAdvance, fatGetNextCluster]
  dsimp only
  split
  · rfl
  · revert h
    rcases fatGetNextClusterSlot bk vol w.cluster false st with ⟨_ | next, st'⟩
    · exact id
    · intro h
      dsimp only
      split
      · exact h
      · split
        · exact (ram_tortoise bk vol _ st').trans h
        · exact h

theorem ram_advanceN (n : Nat) : ∀ (w : FatChainWalk) (st : FatRun δ),
    (fatChainAdvanceN bk vol n w st).2.2.m.ram = st.m.ram := by
  induction n with
  | zero => exact fun _ _ => rfl
  | succ n ih =>
    intro w st
    have h := ram_advance bk vol w st
    rw [fatChainAdvanceN]
    revert h
    rcases fatChainAdvance bk vol w st with ⟨_ | _, w', st'⟩
    · exact id
    · exact fun h => (ih w' st').trans h

theorem ram_lookAhead (batch fuel : Nat) : ∀ (run probe : Nat) (st : FatRun δ),
    (fatLookAhead bk vol batch fuel run probe st).2.m.ram = st.m.ram := by
  induction fuel with
  | zero => exact fun _ _ _ => rfl
  | succ fuel ih =>
    intro run probe st
    have h := ram_getNext bk vol probe false st
    rw [fatLookAhead, fatGetNextCluster]
    split_ifs
    · revert h
      rcases fatGetNextClusterSlot bk vol probe false st with ⟨_ | next, st'⟩
      · exact id
      · intro h
        dsimp only
        split_ifs
        · exact h
        · exact (ih _ _ st').trans h
    · rfl

theorem ram_offsetLba (file : FatFile) (offset : UInt32) (m : Machine δ) :
    (fatOffsetLba bk vol file offset m).2.m.ram = m.ram := by
  rw [fatOffsetLba]
  split_ifs
  · rfl
  · have h := ram_advanceN bk vol
      (offset.toNat / u32 (vol.bytesPerSector * vol.sectorsPerCluster))
      (fatChainWalkInit file.firstCluster.toNat) m.start
    dsimp only
    revert h
    rcases fatChainAdvanceN bk vol _ _ _ with ⟨_ | _, w', st'⟩ <;> exact id

theorem ram_scanSectors (packedName : List UInt8) (wantDir : Bool) (count : Nat) :
    ∀ (lba : Nat) (st : FatRun δ),
      (scanSectors bk packedName wantDir lba count st).2.m.ram = st.m.ram := by
  induction count with
  | zero => exact fun _ _ => rfl
  | succ count ih =>
    intro lba st
    rw [scanSectors]
    split
    · split
      · exact ih _ _
      · rfl
    · rfl

theorem ram_findBody (packedName : List UInt8) (wantDir : Bool) (w : FatChainWalk)
    (st : FatRun δ) : (findBody bk vol packedName wantDir (w, st)).Sat
      (fun s => s.2.m.ram = st.m.ram) (fun r => r.2.m.ram = st.m.ram) := by
  have hscan := ram_scanSectors bk packedName wantDir vol.sectorsPerCluster
    (clusterToLba vol w.cluster) st
  rw [findBody]
  revert hscan
  dsimp only
  rcases scanSectors bk packedName wantDir (clusterToLba vol w.cluster)
    vol.sectorsPerCluster st with ⟨_ | _ | ⟨c, size⟩, st1⟩
  · intro hscan
    have hadv := (ram_advance bk vol w st1).trans hscan
    dsimp only
    revert hadv
    rcases fatChainAdvance bk vol w st1 with ⟨_ | _, w', st2⟩ <;> exact id
  · exact id
  · exact id

theorem ram_findInDir {dirCluster : Nat} {packedName : List UInt8} {wantDir : Bool}
    {st : FatRun δ} {r : Option (Nat × Nat) × FatRun δ}
    (h : fatFindInDir bk vol dirCluster packedName wantDir st = some r) :
    r.2.m.ram = st.m.ram := by
  unfold fatFindInDir at h
  split at h
  · cases h
    rfl
  · have hbody (s : FatChainWalk × FatRun δ) (hs : s.2.m.ram = st.m.ram) :
        (findBody bk vol packedName wantDir s).Sat (fun s => s.2.m.ram = st.m.ram)
          (fun r => r.2.m.ram = st.m.ram) := by
      have := ram_findBody bk vol packedName wantDir s.1 s.2
      rwa [hs] at this
    exact Loop.run_sat hbody rfl h

theorem ram_openFrom (fuel : Nat) : ∀ (dirCluster : Nat) (p : List UInt8) (st : FatRun δ)
    (r : Option FatFile × FatRun δ), fatOpenFrom bk vol fuel dirCluster p st = some r →
    r.2.m.ram = st.m.ram := by
  induction fuel with
  | zero => exact fun _ _ _ _ h => by cases h
  | succ fuel ih =>
    intro dirCluster p st r h
    rw [fatOpenFrom] at h
    dsimp only at h
    split at h
    · cases h
      rfl
    · split at h
      · cases h
        rfl
      · split at h
        · cases h
        · rename_i hfind
          cases h
          exact ram_findInDir bk vol hfind
        · rename_i hfind
          have hram := ram_findInDir bk vol hfind
          split at h
          · cases h
            exact hram
          · split at h
            · cases h
              exact hram
            · exact (ih _ _ _ _ h).trans hram

theorem ram_mount (pl sectors : UInt64) (m : Machine δ) :
    (fatMount bk pl sectors m).2.m.ram = m.ram := by
  unfold fatMount
  dsimp only
  split <;> rfl

theorem ram_open {path : List UInt8} {r : Option FatFile × FatRun δ}
    (h : fatOpen bk vol path m = some r) : r.2.m.ram = m.ram := by
  rw [fatOpen] at h
  split at h
  · exact ram_openFrom bk vol _ _ _ _ _ h
  · cases h
    rfl

/-! ### The destination of a read -/

theorem sameOutside_unrealCopy {dst n : Nat} {bytes : List UInt8} (m : Machine δ)
    (h : bytes.length ≤ n) : SameOutside dst n m.ram (unrealCopy dst bytes m).ram := by
  intro a ha
  show (if a < 2 ^ 32 ∧ u32 (a + 2 ^ 32 - u32 dst) < bytes.length then _ else m.ram a) = _
  refine if_neg fun hin => ha _ (Nat.lt_of_lt_of_le hin.2 h) ?_
  unfold u32
  omega

variable {bk vol}

/-- The loop of a read without a callback: RAM outside the destination is as it was, and the
copies go on where the last one ended. -/
structure Framed (dst length : Nat) (ram : Nat → UInt8) (s : RangeLoop δ κ) : Prop where
  le : s.remaining ≤ length
  at_ : s.dstPhys = u32 (dst + (length - s.remaining))
  ram : SameOutside dst length ram s.st.m.ram

theorem framed_body {dst length : Nat} {ram : Nat → UInt8} {s : RangeLoop δ κ}
    (hs : Framed dst length ram s) : (rangeBody bk vol batch none s).Sat (Framed dst length ram)
      (fun r => SameOutside dst length ram r.2.2.m.ram) := by
  rw [rangeBody]
  split
  · exact hs.ram
  · dsimp only
    have hbytes : bytesThisRun vol (runSectors bk vol batch s).1 s ≤ s.remaining := by
      unfold bytesThisRun
      dsimp only
      split <;> omega
    have hlook : (runSectors bk vol batch s).2.m.ram = s.st.m.ram := ram_lookAhead _ _ _ _ _ _ _
    generalize bytesThisRun vol (runSectors bk vol batch s).1 s = bytes at hbytes ⊢
    generalize sectorsNeeded vol bytes s = needed
    generalize (runSectors bk vol batch s).2 = st at hlook ⊢
    have hram : SameOutside dst length ram st.m.ram := hlook ▸ hs.ram
    rw [rangeRequest]
    dsimp only
    split
    · exact hram
    · generalize hstaged : FatRun.stage _ _ = staged
      have hst : staged.m.ram = st.m.ram := by
        rw [← hstaged]
        rfl
      have hle := hs.le
      -- the copy is inside the destination
      have hcopy : SameOutside dst length ram (deliver none bytes s staged).2.m.ram := by
        refine hram.trans ?_
        have hpart : SameOutside s.dstPhys bytes staged.m.ram (deliver none bytes s staged).2.m.ram :=
          sameOutside_unrealCopy staged.m (List.length_take_le _ (staged.m.ioBuf.drop s.sectorOff))
        rw [hst, hs.at_] at hpart
        exact hpart.widen (show length - s.remaining + bytes ≤ length by omega)
      have hadv := ram_advanceN bk vol
        (if s.remaining - bytes > 0 then (s.sectorInCluster + needed) / vol.sectorsPerCluster else 0)
        s.w (deliver none bytes s staged).2
      revert hadv
      rcases fatChainAdvanceN bk vol _ s.w (deliver none bytes s staged).2 with ⟨_ | _, w', st'⟩
      · intro hadv
        show SameOutside dst length ram st'.m.ram
        exact hadv ▸ hcopy
      · refine fun hadv => ⟨?_, ?_, hadv ▸ hcopy⟩
        · show s.remaining - bytes ≤ length
          omega
        · show u32 (s.dstPhys + bytes) = u32 (dst + (length - (s.remaining - bytes)))
          rw [hs.at_, u32_add_u32]
          congr 1
          omega

/-- A read keeps what holds of a loop over the RAM and the context it starts with, and goes through
a pass. -/
theorem readRange_sat {progress : Option (Progress δ κ)} {ctx : κ} {Inv : RangeLoop δ κ → Prop}
    {Post : Bool × κ × FatRun δ → Prop} (hout : ∀ ok st, st.m.ram = m.ram → Post (ok, ctx, st))
    (hin : ∀ w k o st, st.m.ram = m.ram → Inv ⟨w, length.toNat, k, o, dst.toNat, ctx, st⟩)
    (hbody : ∀ s, Inv s → (rangeBody bk vol batch progress s).Sat Inv Post)
    (h : fatReadRange bk vol batch file offset length dst progress ctx m = some r) : Post r := by
  have hadv := ram_advanceN bk vol (offset.toNat / u32 (vol.bytesPerSector * vol.sectorsPerCluster))
    (fatChainWalkInit file.firstCluster.toNat) m.start.clearError
  unfold fatReadRange at h
  dsimp only at h
  split_ifs at h
  pick_goal 4
  · split at h
    all_goals
      rename_i heq
      rw [heq] at hadv
    · cases h
      exact hout _ _ hadv
    · exact Loop.run_sat hbody (hin _ _ _ _ hadv) h
  all_goals
    cases h
    exact hout _ _ rfl

/-- A read without a callback writes its destination and no other RAM. -/
theorem readRange_sameOutside {ctx : κ}
    (h : fatReadRange bk vol batch file offset length dst none ctx m = some r) :
    SameOutside dst.toNat length.toNat m.ram r.2.2.m.ram := by
  refine readRange_sat (fun _ st hram => ?_) (fun _ _ _ st hram => ⟨Nat.le_refl _, ?_, ?_⟩)
    (fun _ => framed_body) h
  · exact hram ▸ .refl _ _ _
  · rw [Nat.sub_self, Nat.add_zero]
    exact (u32_of_lt dst.toNat_lt).symm
  · exact hram ▸ .refl _ _ _

/-! ### The callback's context -/

theorem rangeBody_ctx {f : Progress δ κ} {J : κ → Prop}
    (hf : ∀ n c m, J c → J (f n c m).1) {s : RangeLoop δ κ} (hs : J s.ctx) :
    (rangeBody bk vol batch (some f) s).Sat (fun s => J s.ctx) (fun r => J r.2.1) := by
  rw [rangeBody]
  split
  · exact hs
  · dsimp only
    generalize bytesThisRun vol (runSectors bk vol batch s).1 s = bytes
    generalize sectorsNeeded vol bytes s = needed
    rw [rangeRequest]
    dsimp only
    split
    · exact hs
    · generalize FatRun.stage _ _ = staged
      have hctx : J (deliver (some f) bytes s staged).1 := hf _ _ _ hs
      rcases fatChainAdvanceN bk vol _ s.w (deliver (some f) bytes s staged).2 with ⟨_ | _, w', st'⟩
      · exact hctx
      · exact hctx

/-- What the callback keeps of its context, the read keeps. -/
theorem readRange_ctx {f : Progress δ κ} {ctx : κ} {J : κ → Prop}
    (hf : ∀ n c m, J c → J (f n c m).1) (hctx : J ctx)
    (h : fatReadRange bk vol batch file offset length dst (some f) ctx m = some r) : J r.2.1 :=
  readRange_sat (fun _ _ _ => hctx) (fun _ _ _ _ _ => hctx) (fun _ => rangeBody_ctx hf) h

/-! ### Calls that end -/

/-- The volume is one that `fat_mount` has accepted. -/
def GoodVolume (vol : FatVolume) : Prop := ∃ ps, Mounted vol ps

theorem GoodVolume.readRange_ends (hv : GoodVolume vol) (bk : Backend δ) (h1 : 1 ≤ batch)
    (hbatch : batch * 512 < 2 ^ 32) (file : FatFile) (offset length dst : UInt32)
    (progress : Option (Progress δ κ)) (ctx : κ) (m : Machine δ) :
    ∃ r, fatReadRange bk vol batch file offset length dst progress ctx m = some r := by
  obtain ⟨ps, hm⟩ := hv
  -- nothing is known of the disk, so the callback has nothing to keep
  have hk : Keeps (Image.ofBytes fun _ => 0) (fun _ => False) progress :=
    fun _ _ _ _ _ h => h.disk.elim
  obtain ⟨r, hr, -⟩ := readRange_safe (faithful_false bk _) hm h1 hbatch file offset length dst hk
    ctx m
  exact ⟨r, hr⟩

theorem GoodVolume.open_ends (hv : GoodVolume vol) (bk : Backend δ) (path : List UInt8) (m : Machine δ) :
    ∃ r, fatOpen bk vol path m = some r := by
  obtain ⟨ps, hm⟩ := hv
  obtain ⟨r, hr, -⟩ := open_safe (faithful_false bk (Image.ofBytes fun _ => 0)) hm path m
  exact ⟨r, hr⟩

theorem goodVolume_of_mount {pl sectors : UInt64} (h : (fatMount bk pl sectors m).1 = some vol) :
    GoodVolume vol :=
  ⟨_, (mounted_of_fatMount (show fatMount bk pl sectors m = (some vol, _) from
    Prod.ext h rfl)).1⟩

end ZfsBoot.Proofs.Fat
