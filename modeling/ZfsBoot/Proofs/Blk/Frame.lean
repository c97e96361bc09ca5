import ZfsBoot.Bios.BlkVerify

/-!
# `ZfsBoot.Proofs.Blk.Frame`: the engine touches the world through its hooks

A check reaches its end by the hooks alone, and asks the second source at most once
(`checkBlock_reaches`, for any relation that the other hooks keep). A landing ends, and keeps what
its checks keep (`blkvLanded_rule`), in particular whatever every hook keeps (`blkvLanded_keeps`).
Unlike `ZfsBoot.Proofs.Blk.Run`, nothing is assumed about the table or about RAM: this is what holds
of a load whose table cannot be read, or whose file lengths do not fit the table.
-/

set_option autoImplicit false

namespace ZfsBoot.Proofs.Blk

open Lib Bios

variable {c : BlockCheck} {ω : Type} {h : BlkvHooks ω} {Q : ω → Prop}

/-- Every hook keeps `Q`. -/
structure HooksKeep (h : BlkvHooks ω) (Q : ω → Prop) : Prop where
  reread : ∀ base off len w, Q w → Q (h.reread base off len w).2
  second : ∀ f, h.second = some f → ∀ base off len w, Q w → Q (f base off len w).2
  entry : ∀ i w, Q w → Q (h.entry i w).2
  peek : ∀ phys len w, Q w → Q (h.peek phys len w).2
  setCap : ∀ n w, Q w → Q (h.setCap n w)
  reset : ∀ w, Q w → Q (h.reset w)
  report : ∀ k want got t w, Q w → Q (h.report k want got t w)

/-- From `s` to `s'` the engine kept `Q`, and stayed at its block of its range. -/
structure Stays (Q : ω → Prop) (s s' : BlkvRun ω) : Prop where
  world : Q s.w → Q s'.w
  nblocks : s'.b.nblocks = s.b.nblocks
  next : s'.b.next = s.b.next

/-! ### One check -/

/-- The hooks other than the second source relate the world before to the world after, for a load
to `base`. -/
structure HooksRel (h : BlkvHooks ω) (base : Nat) (R : ω → ω → Prop) : Prop where
  refl : ∀ w, R w w
  trans : ∀ {a b c}, R a b → R b c → R a c
  reread : ∀ off len w, R w (h.reread base off len w).2
  entry : ∀ i w, R w (h.entry i w).2
  peek : ∀ phys len w, R w (h.peek phys len w).2
  setCap : ∀ n w, R w (h.setCap n w)
  reset : ∀ w, R w (h.reset w)
  report : ∀ k want got t w, R w (h.report k want got t w)

/-- The same load, as far with its landings and its checks. -/
structure SameLoad (b b' : Blkv) : Prop where
  base : b'.base = b.base
  length : b'.length = b.length
  nblocks : b'.nblocks = b.nblocks
  landed : b'.landed = b.landed
  next : b'.next = b.next

theorem SameLoad.refl (b : Blkv) : SameLoad b b := ⟨rfl, rfl, rfl, rfl, rfl⟩

theorem SameLoad.trans {b b' b'' : Blkv} (h₁ : SameLoad b b') (h₂ : SameLoad b' b'') :
    SameLoad b b'' :=
  ⟨h₂.base.trans h₁.base, h₂.length.trans h₁.length, h₂.nblocks.trans h₁.nblocks,
    h₂.landed.trans h₁.landed, h₂.next.trans h₁.next⟩

theorem sameLoad_resume (c : BlockCheck) (b : Blkv) : SameLoad b (resume c b) := by
  unfold resume
  split
  · exact .refl b
  · exact ⟨rfl, rfl, rfl, rfl, rfl⟩

/-- A part of a check: the worlds are related, and the load is as far as it was. -/
structure Steps (R : ω → ω → Prop) (s s' : BlkvRun ω) : Prop where
  world : R s.w s'.w
  load : SameLoad s.b s'.b
  log : s'.log = s.log

variable {R : ω → ω → Prop} {base : Nat}

theorem Steps.trans (hR : HooksRel h base R) {s s' s'' : BlkvRun ω} (h₁ : Steps R s s')
    (h₂ : Steps R s' s'') : Steps R s s'' :=
  ⟨hR.trans h₁.world h₂.world, h₁.load.trans h₂.load, h₂.log.trans h₁.log⟩

theorem hashRange_rel (hR : HooksRel h base R) (base' scratch : Nat) (hs : 0 < scratch)
    (off len : Nat) (sha : Sha256Ctx) (w : ω) :
    R w (hashRange h base' scratch hs off len sha w).2 := by
  induction len using Nat.strong_induction_on generalizing off sha w with
  | _ len ih =>
    rw [hashRange]
    split
    · exact hR.refl w
    · exact hR.trans (hR.peek _ _ w) (ih _ (by omega) _ _ _)

theorem rehash_steps (hR : HooksRel h base R) (c : BlockCheck) (s : BlkvRun ω) :
    Steps R s (rehash h c s).2.2 :=
  ⟨hashRange_rel hR _ _ _ _ _ _ _, ⟨rfl, rfl, rfl, rfl, rfl⟩, rfl⟩

theorem rereads_steps (hR : HooksRel h base R) (c : BlockCheck) (cap0 : Nat) (ts : List Nat) :
    ∀ (got : Vector UInt8 32) (s : BlkvRun ω), s.b.base = base →
      Steps R s (rereads h c cap0 ts got s).2.2 := by
  induction ts with
  | nil => exact fun _ s _ => ⟨hR.refl _, .refl _, rfl⟩
  | cons t ts ih =>
    intro got s hbase
    rw [rereads]
    dsimp only
    generalize hsize : (if u16 (cap0 / 2 ^ (t - 1)) < 1 then 1 else u16 (cap0 / 2 ^ (t - 1))) = size
    generalize hr : h.reread s.b.base c.start c.len (h.setCap size (h.reset s.w)) = r
    have hstep : Steps R s
        { s with b := { s.b with retries := u16 (s.b.retries + 1) }, w := r.2 } := by
      refine ⟨?_, ⟨rfl, rfl, rfl, rfl, rfl⟩, rfl⟩
      show R s.w r.2
      rw [← hr, hbase]
      exact hR.trans (hR.trans (hR.reset _) (hR.setCap _ _)) (hR.reread _ _ _)
    split
    · have hre := hstep.trans hR (rehash_steps hR c
        { s with b := { s.b with retries := u16 (s.b.retries + 1) }, w := r.2 })
      split
      · rename_i heq
        rw [heq] at hre
        exact hre
      · rename_i heq
        rw [heq] at hre
        exact hre.trans hR (ih _ _ (hre.load.base.trans hbase))
    · exact hstep.trans hR (ih _ _ hbase)

/-- The world in which `check_block` asks the second source, once the first comparison failed. -/
def healCall (h : BlkvHooks ω) (c : BlockCheck) (got : Vector UInt8 32) (s : BlkvRun ω) :
    Option ω :=
  if s.b.bad ≥ blkvBadLimit then none
  else
    match rereads h c (h.getCap s.w) (List.range' 1 blkvTries) got
        { s with b := { s.b with mismatches := u16 (s.b.mismatches + 1) } } with
    | (some _, _, _) => none
    | (none, _, s') => some (h.setCap (h.getCap s.w) s'.w)

/-- The block that `check_block(b, k)` asks the second source for, and the world in which it asks;
nothing if it does not ask. -/
def secondCall (h : BlkvHooks ω) (k : Nat) (s : BlkvRun ω) : Option (BlockCheck × ω) :=
  if s.b.off then none
  else
    match h.entry k s.w with
    | (none, _) => none
    | (some want, w) =>
      match rehash h (blockCheck s.b k want) { s with w := w } with
      | (true, _, _) => none
      | (false, got, s') =>
        (healCall h (blockCheck s.b k want) got s').map fun w => (blockCheck s.b k want, w)

/-- From `w` to `w'`, by hooks other than the second source alone, or by one call of the second
source, made in `call`, with other hooks before and after it. -/
inductive Reaches (h : BlkvHooks ω) (base : Nat) (R : ω → ω → Prop) (c : BlockCheck)
    (call : Option ω) (w w' : ω) : Prop where
  | kept (world : R w w')
  | second (w₁ : ω) (f : (base off len : Nat) → ω → Bool × ω) (asked : call = some w₁)
      (second : h.second = some f) (before : R w w₁) (after : R (f base c.start c.len w₁).2 w')

theorem Reaches.before (hR : HooksRel h base R) {call : Option ω} {w₀ w w' : ω}
    (h₀ : R w₀ w) (hw : Reaches h base R c call w w') : Reaches h base R c call w₀ w' := by
  cases hw with
  | kept world => exact .kept (hR.trans h₀ world)
  | second w₁ f asked second before after =>
    exact .second w₁ f asked second (hR.trans h₀ before) after

theorem Reaches.after (hR : HooksRel h base R) {call : Option ω} {w w' w'' : ω}
    (hw : Reaches h base R c call w w') (h₂ : R w' w'') : Reaches h base R c call w w'' := by
  cases hw with
  | kept world => exact .kept (hR.trans world h₂)
  | second w₁ f asked second before after =>
    exact .second w₁ f asked second before (hR.trans after h₂)

theorem secondSource_reaches (hR : HooksRel h base R) (c : BlockCheck) (got : Vector UInt8 32)
    (s : BlkvRun ω) (hbase : s.b.base = base) :
    Reaches h base R c (some s.w) s.w (secondSource h c got s).2.2.w ∧
      SameLoad s.b (secondSource h c got s).2.2.b := by
  rw [secondSource]
  cases hsecond : h.second with
  | none => exact ⟨.kept (hR.refl _), .refl _⟩
  | some f =>
    dsimp only
    rw [hbase]
    have hasked : Reaches h base R c (some s.w) s.w (f base c.start c.len s.w).2 :=
      .second s.w f rfl hsecond (hR.refl _) (hR.refl _)
    split
    · have hre := rehash_steps hR c { s with w := (f base c.start c.len s.w).2 }
      exact ⟨hasked.after hR hre.world, hre.load⟩
    · exact ⟨hasked, .refl _⟩

theorem healBlock_reaches (hR : HooksRel h base R) (c : BlockCheck) (got : Vector UInt8 32)
    (s : BlkvRun ω) (hbase : s.b.base = base) :
    Reaches h base R c (healCall h c got s) s.w (healBlock h c got s).2.w ∧
      SameLoad s.b (healBlock h c got s).2.b := by
  have hmis : SameLoad s.b { s.b with mismatches := u16 (s.b.mismatches + 1) } :=
    ⟨rfl, rfl, rfl, rfl, rfl⟩
  have hre := rereads_steps hR c (h.getCap s.w) (List.range' 1 blkvTries) got
    { s with b := { s.b with mismatches := u16 (s.b.mismatches + 1) } } hbase
  rw [healBlock, healCall]
  dsimp only
  by_cases hbad : s.b.bad ≥ blkvBadLimit
  · rw [if_pos hbad, if_pos hbad]
    refine ⟨.kept (hR.refl _), SameLoad.trans ?_ (sameLoad_resume c _)⟩
    exact ⟨rfl, rfl, rfl, rfl, rfl⟩
  rw [if_neg hbad, if_neg hbad]
  revert hre
  rcases rereads h c (h.getCap s.w) (List.range' 1 blkvTries) got
    { s with b := { s.b with mismatches := u16 (s.b.mismatches + 1) } } with ⟨_ | t, got', s₁⟩
  · -- no re-read helped: the second source is asked, whatever comes of it
    intro hre
    have hcap : R s.w (h.setCap (h.getCap s.w) s₁.w) := hR.trans hre.world (hR.setCap _ _)
    have hbase₁ : s₁.b.base = base := hre.load.base.trans hbase
    have hsec := secondSource_reaches hR c got' { s₁ with w := h.setCap (h.getCap s.w) s₁.w } hbase₁
    have hload := (hmis.trans hre.load).trans hsec.2
    have hworld := hsec.1.before hR hcap
    dsimp only
    revert hload hworld
    rcases secondSource h c got' { s₁ with w := h.setCap (h.getCap s.w) s₁.w } with
      ⟨_ | _, got₂, s₂⟩
    · intro hload hworld
      refine ⟨hworld.after hR (hR.report _ _ _ _ _), hload.trans (SameLoad.trans ?_
        (sameLoad_resume c { s₂.b with bad := u16 (s₂.b.bad + 1) }))⟩
      exact ⟨rfl, rfl, rfl, rfl, rfl⟩
    · intro hload hworld
      exact ⟨hworld, hload.trans ⟨rfl, rfl, rfl, rfl, rfl⟩⟩
  · intro hre
    exact ⟨.kept hre.world, (hmis.trans hre.load).trans ⟨rfl, rfl, rfl, rfl, rfl⟩⟩

/-- What a check did to its world: the hooks other than the second source, and the second source
at most once, for the block of the check. -/
structure CheckReaches (h : BlkvHooks ω) (base : Nat) (R : ω → ω → Prop) (k : Nat)
    (s s' : BlkvRun ω) : Prop where
  world : R s.w s'.w ∨ ∃ c w f, secondCall h k s = some (c, w) ∧ h.second = some f ∧ R s.w w ∧
    R (f base c.start c.len w).2 s'.w
  load : SameLoad s.b s'.b

theorem checkBody_reaches (hR : HooksRel h base R) (k : Nat) (s : BlkvRun ω)
    (hbase : s.b.base = base) : CheckReaches h base R k s (checkBody h k s).2 := by
  have hentry := hR.entry k s.w
  rw [checkBody]
  by_cases hoff : s.b.off = true
  · rw [if_pos hoff]
    exact ⟨.inl (hR.refl _), .refl _⟩
  rw [if_neg hoff]
  rcases hent : h.entry k s.w with ⟨_ | want, w⟩
  · rw [hent] at hentry
    exact ⟨.inl hentry, ⟨rfl, rfl, rfl, rfl, rfl⟩⟩
  rw [hent] at hentry
  have hre := rehash_steps hR (blockCheck s.b k want) { s with w := w }
  dsimp only
  rcases hhash : rehash h (blockCheck s.b k want) { s with w := w } with ⟨_ | _, got, s₁⟩
  · rw [hhash] at hre
    obtain ⟨hworld, hload⟩ := healBlock_reaches hR (blockCheck s.b k want) got s₁
      (hre.load.base.trans hbase)
    have hbefore : R s.w s₁.w := hR.trans hentry hre.world
    refine ⟨?_, SameLoad.trans hre.load hload⟩
    cases hworld.before hR hbefore with
    | kept world => exact .inl world
    | second w₁ f asked second before after =>
      refine .inr ⟨_, w₁, f, ?_, second, before, after⟩
      rw [secondCall, if_neg hoff, hent]
      dsimp only
      rw [hhash]
      dsimp only
      rw [asked, Option.map_some]
  · rw [hhash] at hre
    exact ⟨.inl (hR.trans hentry hre.world), hre.load⟩

theorem checkBlock_reaches (hR : HooksRel h base R) (k : Nat) (s : BlkvRun ω)
    (hbase : s.b.base = base) :
    CheckReaches h base R k { s with compares := [] } (checkBlock h k s) := by
  have hcheck := checkBody_reaches hR k { s with compares := [] } hbase
  exact ⟨hcheck.world, hcheck.load⟩

/-- The block that the second source is asked for is the block of the check. -/
theorem secondCall_block {k : Nat} {s : BlkvRun ω} {w : ω}
    (h₁ : secondCall h k s = some (c, w)) : ∃ want, c = blockCheck s.b k want := by
  unfold secondCall at h₁
  split at h₁
  · cases h₁
  split at h₁
  · cases h₁
  rename_i want _ _
  split at h₁
  · cases h₁
  · obtain ⟨_, _, heq⟩ := Option.map_eq_some_iff.mp h₁
    exact ⟨want, (Prod.mk.inj heq).1.symm⟩

theorem checkBlock_stays (hk : HooksKeep h Q) (k : Nat) (s : BlkvRun ω) :
    Stays Q s (checkBlock h k s) := by
  have hR : HooksRel h s.b.base (fun w w' => Q w → Q w') :=
    { refl := fun _ hw => hw
      trans := fun h₁ h₂ hw => h₂ (h₁ hw)
      reread := fun off len w => hk.reread s.b.base off len w
      entry := hk.entry
      peek := hk.peek
      setCap := hk.setCap
      reset := hk.reset
      report := hk.report }
  have hcheck := checkBlock_reaches hR k s rfl
  refine ⟨?_, hcheck.load.nblocks, hcheck.load.next⟩
  rcases hcheck.world with hworld | ⟨c, w, f, -, hsecond, hbefore, hafter⟩
  · exact hworld
  · exact fun hw => hafter (hk.second f hsecond _ _ _ _ (hbefore hw))

/-! ### A landing -/

/-- A landing ends, and keeps what every check of it keeps. -/
theorem blkvLanded_rule (Inv : BlkvRun ω → Prop) (n : Nat) {s : BlkvRun ω}
    (hn : s.b.nblocks < 2 ^ 32)
    (hstart : Inv { s with b := { s.b with landed := u32 (s.b.landed + n) } })
    (hcheck : ∀ t, Inv t → t.b.next < t.b.nblocks → blockStop t.b ≤ t.b.landed →
      Inv (checkBlock h t.b.next { t with b := { t.b with next := u32 (t.b.next + 1) } })) :
    ∃ s', blkvLanded h n s = some s' ∧ Inv s' ∧ s'.b.nblocks = s.b.nblocks := by
  have hany : ∀ b, HooksRel h b (fun _ _ => True) := fun _ =>
    ⟨fun _ => trivial, fun _ _ => trivial, fun _ _ _ => trivial, fun _ _ => trivial,
      fun _ _ _ => trivial, fun _ _ => trivial, fun _ => trivial, fun _ _ _ _ _ => trivial⟩
  refine Loop.run_spec (fun t : BlkvRun ω => Inv t ∧ t.b.nblocks = s.b.nblocks) _
    (fun t => s.b.nblocks - t.b.next) ?_ ?_ _ _ ⟨hstart, rfl⟩ ?_
  · rintro t t' ⟨ht, hnb⟩ hbody
    rw [landedBody] at hbody
    split at hbody
    · rename_i hlt
      split at hbody
      · cases hbody
      · -- one check, and `next` is one higher
        rename_i hstop
        cases hbody
        have hload := (checkBlock_reaches (hany _) t.b.next
          { t with b := { t.b with next := u32 (t.b.next + 1) } } rfl).load
        have hwrap : u32 (t.b.next + 1) = t.b.next + 1 := u32_of_lt (by omega)
        refine ⟨⟨hcheck t ht hlt (Nat.le_of_not_lt hstop), hload.nblocks.trans hnb⟩, ?_⟩
        rw [hload.next]
        show s.b.nblocks - u32 (t.b.next + 1) < s.b.nblocks - t.b.next
        omega
    · cases hbody
  · rintro t t' ht hbody
    rw [landedBody] at hbody
    split at hbody
    · split at hbody
      · cases hbody
        exact ht
      · cases hbody
    · cases hbody
      exact ht
  · show s.b.nblocks - s.b.next < s.b.nblocks + 1
    omega

/-- A landing keeps what the hooks keep. -/
theorem blkvLanded_keeps (hk : HooksKeep h Q) (n : Nat) {s : BlkvRun ω} (hw : Q s.w)
    (hn : s.b.nblocks < 2 ^ 32) :
    ∃ s', blkvLanded h n s = some s' ∧ Q s'.w ∧ s'.b.nblocks = s.b.nblocks :=
  blkvLanded_rule (fun t => Q t.w) n hn hw fun t ht _ _ => (checkBlock_stays hk _ _).world ht

end ZfsBoot.Proofs.Blk
