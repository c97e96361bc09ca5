import ZfsBoot.Proofs.Blk.Chain

/-!
# `ZfsBoot.Proofs.Blk.Check`: one `check_block`

`checkBlock_spec` says once what a check of block `k` can do, for any hooks: the first
comparison decides whether the block's RAM bytes match (`Payload.Matches`), a check that ends
well ends with a match, and the running hash is ready for the next block however the check
ended. The running hash comes back to the table after a match by computation and after a bad
block because `resume` loads it from the table.

What the hooks leave alone is needed only for RAM and the transfer cap. Those parts of the
specification are conditional on `HookLaws`.
-/

set_option autoImplicit false

namespace ZfsBoot.Proofs.Blk

open Lib Lib.Sha256 Bios Sha256

variable {cap0 : Nat} {p : Payload} {k : Nat} {c : BlockCheck} {ω : Type} {h : BlkvHooks ω}
  {ram : ω → Nat → UInt8}

/-! ### The hooks -/

/-- The `peek` hook returns the bytes of RAM, and leaves RAM as it is. -/
structure Peeks (h : BlkvHooks ω) (ram : ω → Nat → UInt8) : Prop where
  data : ∀ phys n w, (h.peek phys n w).1 = ramBytes (ram w) phys n
  ram_eq : ∀ phys n w, ram (h.peek phys n w).2 = ram w

/-- What the hooks leave alone: a read of a block writes only that block's RAM, the other hooks
write none of it, and the transfer cap is what `set_cap` was last given. -/
structure HookLaws (h : BlkvHooks ω) (ram : ω → Nat → UInt8) : Prop where
  cap_lt : ∀ w, h.getCap w < 2 ^ 16
  cap_setCap : ∀ n w, n < 2 ^ 16 → h.getCap (h.setCap n w) = n
  ram_setCap : ∀ n w, ram (h.setCap n w) = ram w
  cap_peek : ∀ phys n w, h.getCap (h.peek phys n w).2 = h.getCap w
  cap_entry : ∀ i w, h.getCap (h.entry i w).2 = h.getCap w
  ram_entry : ∀ i w, ram (h.entry i w).2 = ram w
  cap_reset : ∀ w, h.getCap (h.reset w) = h.getCap w
  ram_reset : ∀ w, ram (h.reset w) = ram w
  cap_reread : ∀ base off len w, h.getCap (h.reread base off len w).2 = h.getCap w
  ram_reread : ∀ base off len w,
    SameOutside (base + off) len (ram w) (ram (h.reread base off len w).2)
  cap_second : ∀ f, h.second = some f → ∀ base off len w, h.getCap (f base off len w).2 = h.getCap w
  ram_second : ∀ f, h.second = some f → ∀ base off len w,
    SameOutside (base + off) len (ram w) (ram (f base off len w).2)
  cap_report : ∀ k want got t w, h.getCap (h.report k want got t w) = h.getCap w
  ram_report : ∀ k want got t w, ram (h.report k want got t w) = ram w

/-! ### Hashing a block -/

/-- What `hash_range` has done after `len` bytes from `phys` on. -/
structure Hashed (h : BlkvHooks ω) (ram : ω → Nat → UInt8) (s₀ : State) (msg : List UInt8)
    (phys len : Nat) (sha : Sha256Ctx) (w : ω) (r : Sha256Ctx × ω) : Prop where
  holds : Holds s₀ (msg ++ ramBytes (ram w) phys len) r.1
  total : r.1.total = sha.total + len
  ram_eq : ram r.2 = ram w
  cap : HookLaws h ram → h.getCap r.2 = h.getCap w

theorem hashRange_spec (hp : Peeks h ram) (base scratch : Nat) (hs : 0 < scratch)
    (off len : Nat) (sha : Sha256Ctx) (w : ω) {s₀ : State} {msg : List UInt8}
    (hh : Holds s₀ msg sha) (ht : sha.total + len < 2 ^ 32) :
    Hashed h ram s₀ msg (base + off) len sha w (hashRange h base scratch hs off len sha w) := by
  -- along the loop: the message grows by what the scratch buffer holds
  induction len using Nat.strong_induction_on generalizing off sha w msg with
  | _ len ih =>
    rw [hashRange]
    split_ifs with hlen
    · subst hlen
      exact ⟨by simpa [ramBytes] using hh, rfl, rfl, fun _ => rfl⟩
    · have hdata : (h.peek (u32 (base + off)) (min len scratch) w).1
          = ramBytes (ram w) (base + off) (min len scratch) := by
        rw [hp.data, ← Nat.zero_add (u32 (base + off)), ramBytes_u32, Nat.zero_add]
      dsimp only
      rw [hdata]
      obtain ⟨hupdate, htotal⟩ := update_holds hh (ramBytes (ram w) (base + off) (min len scratch))
      rw [length_ramBytes, u32_of_lt (by omega)] at htotal
      obtain ⟨hholds, htot, hram, hcap⟩ := ih (len - min len scratch) (by omega)
        (u32 (off + min len scratch)) _ (h.peek (u32 (base + off)) (min len scratch) w).2 hupdate
        (by omega)
      refine ⟨?_, by omega, hram.trans (hp.ram_eq _ _ _), fun hl => ?_⟩
      · rw [hp.ram_eq, ramBytes_u32, List.append_assoc, ← Nat.add_assoc, ← ramBytes_add,
          Nat.add_sub_cancel' (Nat.min_le_left _ _)] at hholds
        exact hholds
      · rw [hcap hl, hl.cap_peek]

/-! ### Comparisons -/

/-- The locals of a check of block `k` of the payload. -/
structure OnBlock (p : Payload) (k : Nat) (c : BlockCheck) : Prop where
  lt : k < p.nblocks
  k_eq : c.k = k
  start : c.start = k * blksumBlock
  len : c.len = p.blockLen k
  last : c.last = decide (k + 1 = p.nblocks)
  want : c.want = p.table k
  before : Chained p k c.before

/-- The engine checks this payload. -/
structure OnRange (p : Payload) (b : Blkv) : Prop where
  base : b.base = p.base
  length : b.length = p.length
  nblocks : b.nblocks = p.nblocks

theorem onBlock_blockCheck {b : Blkv} (hb : OnRange p b)
    (hk : k < p.nblocks) (hc : Chained p k b.sha) : OnBlock p k (blockCheck b k (p.table k)) := by
  have hstart := Payload.start_lt hk
  have hle := p.length_le
  have hn := p.nblocks_le
  have hu : u32 (k * blksumBlock) = k * blksumBlock := u32_of_lt (by omega)
  refine ⟨hk, rfl, hu, ?_, ?_, rfl, hc⟩
  · have hrest : u32 (b.length + 2 ^ 32 - u32 (k * blksumBlock)) = p.length - k * blksumBlock := by
      rw [hu, hb.length]
      unfold u32
      omega
    simp only [blockCheck, hrest, Payload.blockLen]
    split_ifs <;> omega
  · simp only [blockCheck, hb.nblocks, u32_of_lt (show k + 1 < 2 ^ 32 by omega)]

/-- The steps of a check between two of its points: comparisons, and nothing in the engine but
the running hash and the number of re-reads. -/
structure Tried (h : BlkvHooks ω) (ram : ω → Nat → UInt8) (p : Payload) (k : Nat)
    (s s' : BlkvRun ω) : Prop where
  compares : ∃ cs, s'.compares = s.compares ++ cs
  log : s'.log = s.log
  b : s'.b = { s.b with sha := s'.b.sha, retries := s'.b.retries }
  outside : HookLaws h ram →
    SameOutside (p.base + k * blksumBlock) (p.blockLen k) (ram s.w) (ram s'.w)

theorem Tried.refl (p : Payload) (k : Nat) (s : BlkvRun ω) : Tried h ram p k s s :=
  ⟨⟨[], (List.append_nil _).symm⟩, rfl, rfl, fun _ => .refl _ _ _⟩

theorem Tried.trans {s s' s'' : BlkvRun ω} (h₁ : Tried h ram p k s s')
    (h₂ : Tried h ram p k s' s'') : Tried h ram p k s s'' := by
  obtain ⟨cs, hcs⟩ := h₁.compares
  obtain ⟨cs', hcs'⟩ := h₂.compares
  refine ⟨⟨cs ++ cs', by rw [hcs', hcs, List.append_assoc]⟩, h₂.log.trans h₁.log, ?_,
    fun hl => (h₁.outside hl).trans (h₂.outside hl)⟩
  rw [h₂.b, h₁.b]

theorem Tried.onRange {s s' : BlkvRun ω} (h₁ : Tried h ram p k s s')
    (hb : OnRange p s.b) : OnRange p s'.b := by
  rw [h₁.b]
  exact ⟨hb.base, hb.length, hb.nblocks⟩

/-- A comparison of block `k`: it says whether the block matches, and when it does the running
hash is ready for the next block. -/
structure Compared (h : BlkvHooks ω) (ram : ω → Nat → UInt8) (p : Payload) (k : Nat)
    (s : BlkvRun ω) (ok : Bool) (s' : BlkvRun ω) : Prop where
  tried : Tried h ram p k s s'
  compares : s'.compares = s.compares ++ [(s.w, ok)]
  ok_iff : ok = true ↔ p.Matches k (ram s.w)
  ram_eq : ram s'.w = ram s.w
  cap : HookLaws h ram → h.getCap s'.w = h.getCap s.w
  chained : ok = true → k + 1 < p.nblocks → Chained p (k + 1) s'.b.sha

theorem rehash_spec (hp : Peeks h ram) (hc : OnBlock p k c) (s : BlkvRun ω) (hb : OnRange p s.b) :
    Compared h ram p k s (rehash h c s).1 (rehash h c s).2.2 := by
  have hend := Payload.start_add_blockLen_le hc.lt
  have hle := p.length_le
  have hhash := hashRange_spec hp s.b.base s.b.scratchLen s.b.scratchLen_pos c.start c.len c.before
    s.w (holds_nil hc.before.fill) (by rw [hc.before.total, hc.len]; omega)
  have hblock : [] ++ ramBytes (ram s.w) (s.b.base + c.start) c.len = p.block k (ram s.w) := by
    rw [List.nil_append, hb.base, hc.start, hc.len, Payload.block]
  have hholds := hhash.holds
  have htotal := hhash.total.trans (congrArg (c.before.total + ·) hc.len)
  rw [hblock] at hholds
  have hentry := chainEntry_eq hc.before hholds htotal
  have hok : (rehash h c s).1 = true ↔ p.Matches k (ram s.w) := by
    simp only [rehash, hc.last, hentry, hc.want, beq_iff_eq, Payload.Matches]
  refine ⟨⟨⟨_, rfl⟩, rfl, rfl, fun _ => ?_⟩, rfl, hok, hhash.ram_eq, hhash.cap, fun h₁ hk => ?_⟩
  · rw [show ram (rehash h c s).2.2.w = ram s.w from hhash.ram_eq]
    exact .refl _ _ _
  · exact chained_of_matches hk hc.before hholds htotal (hok.mp h₁)

/-! ### Re-reads and the second source -/

/-- An attempt at block `k` that ended with a match. -/
structure Settled (h : BlkvHooks ω) (ram : ω → Nat → UInt8) (p : Payload) (k : Nat)
    (s : BlkvRun ω) : Prop where
  agrees : p.Matches k (ram s.w)
  chained : k + 1 < p.nblocks → Chained p (k + 1) s.b.sha

theorem Compared.settled {s s' : BlkvRun ω} {ok : Bool}
    (hc : Compared h ram p k s ok s') (hok : ok = true) : Settled h ram p k s' := by
  refine ⟨?_, hc.chained hok⟩
  rw [hc.ram_eq]
  exact hc.ok_iff.mp hok

/-- The transfer cap of re-read number `t`. -/
theorem size_eq (hcap : cap0 < 2 ^ 16) (t : Nat) :
    (if u16 (cap0 / 2 ^ (t - 1)) < 1 then 1 else u16 (cap0 / 2 ^ (t - 1)))
      = max 1 (cap0 / 2 ^ (t - 1)) := by
  have hle : cap0 / 2 ^ (t - 1) ≤ cap0 := Nat.div_le_self _ _
  rw [u16_of_lt (by omega)]
  split_ifs <;> omega

/-- One re-read: reset, transfer cap, read. -/
theorem tried_reread (hc : OnBlock p k c) (s : BlkvRun ω) (hb : OnRange p s.b) (size : Nat) :
    Tried h ram p k s
      { s with
        b := { s.b with retries := u16 (s.b.retries + 1) }
        w := (h.reread s.b.base c.start c.len (h.setCap size (h.reset s.w))).2 } := by
  refine ⟨⟨[], (List.append_nil _).symm⟩, rfl, rfl, fun hl => ?_⟩
  have hread := hl.ram_reread s.b.base c.start c.len (h.setCap size (h.reset s.w))
  rw [hl.ram_setCap, hl.ram_reset, hb.base, hc.start, hc.len] at hread
  rw [hb.base, hc.start, hc.len]
  exact hread

/-- The re-reads of a block: the one that healed it, if any, left its own transfer cap. -/
theorem rereads_spec (hp : Peeks h ram)
    (hc : OnBlock p k c) (hcap : HookLaws h ram → cap0 < 2 ^ 16) (ts : List Nat) :
    ∀ (got : Digest) (s : BlkvRun ω), OnRange p s.b →
      Tried h ram p k s (rereads h c cap0 ts got s).2.2 ∧
      ∀ t, (rereads h c cap0 ts got s).1 = some t →
        Settled h ram p k (rereads h c cap0 ts got s).2.2 ∧
        (HookLaws h ram →
          h.getCap (rereads h c cap0 ts got s).2.2.w = max 1 (cap0 / 2 ^ (t - 1))) := by
  induction ts with
  | nil => exact fun got s _ => ⟨.refl _ _ _, fun t ht => by simp [rereads] at ht⟩
  | cons t ts ih =>
    intro got s hb
    rw [rereads]
    dsimp only
    generalize hsize : (if u16 (cap0 / 2 ^ (t - 1)) < 1 then 1 else u16 (cap0 / 2 ^ (t - 1)))
      = size
    have htry : Tried h ram p k s _ := tried_reread hc s hb size
    split_ifs with hok
    · -- the read succeeded: a comparison decides
      have hcmp := rehash_spec hp hc _ (htry.onRange hb)
      cases hre : rehash h c { s with
          b := { s.b with retries := u16 (s.b.retries + 1) }
          w := (h.reread s.b.base c.start c.len (h.setCap size (h.reset s.w))).2 } with
      | mk ok r =>
        rw [hre] at hcmp
        cases ok with
        | true =>
          refine ⟨htry.trans hcmp.tried, fun t' ht' => ⟨hcmp.settled rfl, fun hl => ?_⟩⟩
          cases ht'
          have hlt := size_eq (hcap hl) t
          rw [hcmp.cap hl, hl.cap_reread, hl.cap_setCap, ← hsize, hlt]
          rw [← hsize, hlt]
          have : cap0 / 2 ^ (t - 1) ≤ cap0 := Nat.div_le_self _ _
          have := hcap hl
          omega
        | false =>
          obtain ⟨htried, hhealed⟩ := ih r.1 r.2 (hcmp.tried.onRange (htry.onRange hb))
          exact ⟨(htry.trans hcmp.tried).trans htried, hhealed⟩
    · obtain ⟨htried, hhealed⟩ := ih got _ (htry.onRange hb)
      exact ⟨htry.trans htried, hhealed⟩

/-- The second source: the transfer cap stays, and success is a match. -/
theorem secondSource_spec (hp : Peeks h ram)
    (hc : OnBlock p k c) (got : Digest) (s : BlkvRun ω) (hb : OnRange p s.b) :
    Tried h ram p k s (secondSource h c got s).2.2 ∧
      ((secondSource h c got s).1 = true → Settled h ram p k (secondSource h c got s).2.2) ∧
      (HookLaws h ram → h.getCap (secondSource h c got s).2.2.w = h.getCap s.w) := by
  rw [secondSource]
  split
  · exact ⟨.refl _ _ _, Bool.false_ne_true.elim, fun _ => rfl⟩
  · next f hf =>
      have htry : Tried h ram p k s { s with w := (f s.b.base c.start c.len s.w).2 } := by
        refine ⟨⟨[], (List.append_nil _).symm⟩, rfl, rfl, fun hl => ?_⟩
        have hread := hl.ram_second f hf s.b.base c.start c.len s.w
        rw [hb.base, hc.start, hc.len] at hread ⊢
        exact hread
      dsimp only
      split_ifs with hok
      · have hcmp := rehash_spec hp hc _ (htry.onRange hb)
        exact ⟨htry.trans hcmp.tried, hcmp.settled,
          fun hl => (hcmp.cap hl).trans (hl.cap_second f hf _ _ _ _)⟩
      · exact ⟨htry, False.elim, fun hl => hl.cap_second f hf _ _ _ _⟩

/-! ### The whole check -/

/-- The block did not match at first. -/
def wrong : CheckEnd → Nat
  | .matched | .unchecked => 0
  | _ => 1

/-- A re-read healed the block. -/
def nHealed : CheckEnd → Nat
  | .healed _ => 1
  | _ => 0

/-- The second source healed the block. -/
def nSecond : CheckEnd → Nat
  | .second => 1
  | _ => 0

/-- The block stayed wrong. -/
def nBad : CheckEnd → Nat
  | .bad | .counted => 1
  | _ => 0

/-- The transfer cap after a check. -/
def capAfter (cap : Nat) : CheckEnd → Nat
  | .healed t => max 1 (cap / 2 ^ (t - 1))
  | _ => cap

/-- The counters have room for one more block. -/
structure Room (b : Blkv) : Prop where
  mismatches : b.mismatches + 1 < 2 ^ 16
  healed : b.healed + 1 < 2 ^ 16
  second : b.second + 1 < 2 ^ 16
  bad : b.bad + 1 < 2 ^ 16

/-- The counters moved as the check's end says, and the rest of the engine did not. -/
structure Counted (how : CheckEnd) (b b' : Blkv) : Prop where
  mismatches : b'.mismatches = b.mismatches + wrong how
  healed : b'.healed = b.healed + nHealed how
  second : b'.second = b.second + nSecond how
  bad : b'.bad = b.bad + nBad how
  base : b'.base = b.base
  length : b'.length = b.length
  nblocks : b'.nblocks = b.nblocks
  landed : b'.landed = b.landed
  next : b'.next = b.next
  off : b'.off = b.off

/-- What a check of block `k` does, from any point of it to its end. -/
structure EndPost (h : BlkvHooks ω) (ram : ω → Nat → UInt8) (p : Payload) (k : Nat)
    (s : BlkvRun ω) (how : CheckEnd) (s' : BlkvRun ω) : Prop where
  checked : how ≠ .unchecked
  compares : ∃ cs, s'.compares = s.compares ++ cs
  log : s'.log = s.log
  counted : Counted how s.b s'.b
  settled : nBad how = 0 → p.Matches k (ram s'.w)
  chained : k + 1 < p.nblocks → Chained p (k + 1) s'.b.sha
  outside : HookLaws h ram →
    SameOutside (p.base + k * blksumBlock) (p.blockLen k) (ram s.w) (ram s'.w)
  cap : HookLaws h ram → h.getCap s'.w = capAfter (h.getCap s.w) how

/-- `resume` loads the running hash from the table. -/
theorem chained_resume (hc : OnBlock p k c) (b : Blkv)
    (hk : k + 1 < p.nblocks) : Chained p (k + 1) (resume c b).sha := by
  have hlast : c.last = false := by rw [hc.last, decide_eq_false (by omega)]
  have hend := Payload.start_lt hk
  have hle := p.length_le
  rw [resume, hlast, if_neg Bool.false_ne_true]
  refine ⟨?_, rfl, ?_⟩
  · rw [Payload.chainState_succ, ← hc.want]
    rfl
  · show u32 (c.start + c.len) = _
    rw [hc.start, hc.len, Payload.blockLen_of_lt hk, ← Nat.add_one_mul, u32_of_lt (by omega)]

theorem resume_eq (c : BlockCheck) (b : Blkv) : resume c b = { b with sha := (resume c b).sha } := by
  rw [resume]
  split_ifs <;> rfl

theorem healBlock_spec (hp : Peeks h ram)
    (hc : OnBlock p k c) (got : Digest) (s : BlkvRun ω) (hb : OnRange p s.b) (hroom : Room s.b) :
    EndPost h ram p k s (healBlock h c got s).1 (healBlock h c got s).2 := by
  have hmism := u16_of_lt hroom.mismatches
  rw [healBlock]
  dsimp only
  split_ifs with hlimit
  · -- past the limit: counted only
    refine ⟨by simp, ⟨[], (List.append_nil _).symm⟩, rfl, ?_, by simp [nBad], chained_resume hc _,
      fun _ => .refl _ _ _, fun _ => rfl⟩
    rw [resume_eq]
    exact ⟨hmism, rfl, rfl, u16_of_lt hroom.bad, rfl, rfl, rfl, rfl, rfl, rfl⟩
  · have hcap : HookLaws h ram → h.getCap s.w < 2 ^ 16 := fun hl => hl.cap_lt _
    have hb' : OnRange p { s.b with mismatches := u16 (s.b.mismatches + 1) } :=
      ⟨hb.base, hb.length, hb.nblocks⟩
    obtain ⟨htried, hhealed⟩ := rereads_spec hp hc hcap (List.range' 1 blkvTries) got
      { s with b := { s.b with mismatches := u16 (s.b.mismatches + 1) } } hb'
    generalize rereads h c (h.getCap s.w) (List.range' 1 blkvTries) got
      { s with b := { s.b with mismatches := u16 (s.b.mismatches + 1) } } = r at htried hhealed
    obtain ⟨ot, got', s₁⟩ := r
    cases ot with
    | some t =>
      -- a re-read healed the block
      obtain ⟨hset, hcapt⟩ := hhealed t rfl
      refine ⟨by simp, htried.compares, htried.log, ?_, fun _ => hset.agrees, hset.chained,
        htried.outside, hcapt⟩
      dsimp only
      rw [htried.b]
      exact ⟨hmism, u16_of_lt hroom.healed, rfl, rfl, rfl, rfl, rfl, rfl, rfl, rfl⟩
    | none =>
      -- the cap as it was before, then the second source
      have hset : Tried h ram p k s₁ { s₁ with w := h.setCap (h.getCap s.w) s₁.w } := by
        refine ⟨⟨[], (List.append_nil _).symm⟩, rfl, rfl, fun hl => ?_⟩
        rw [hl.ram_setCap]
        exact .refl _ _ _
      have hcap0 : HookLaws h ram →
          h.getCap (h.setCap (h.getCap s.w) s₁.w) = h.getCap s.w :=
        fun hl => hl.cap_setCap _ _ (hl.cap_lt _)
      obtain ⟨hsecond, hok, hcap₂⟩ := secondSource_spec hp hc got' _
        ((htried.trans hset).onRange hb')
      have hall := (htried.trans hset).trans hsecond
      dsimp only at *
      generalize secondSource h c got' { s₁ with w := h.setCap (h.getCap s.w) s₁.w } = r
        at hsecond hok hcap₂ hall
      obtain ⟨ok, got₂, s₂⟩ := r
      cases ok with
      | true =>
        have hsettled := hok rfl
        refine ⟨by simp, hall.compares, hall.log, ?_, fun _ => hsettled.agrees,
          hsettled.chained, hall.outside, fun hl => (hcap₂ hl).trans (hcap0 hl)⟩
        dsimp only
        rw [hall.b]
        exact ⟨hmism, rfl, u16_of_lt hroom.second, rfl, rfl, rfl, rfl, rfl, rfl, rfl⟩
      | false =>
        refine ⟨by simp, hall.compares, hall.log, ?_, by simp [nBad], chained_resume hc _,
          fun hl => ?_, fun hl => ?_⟩
        · dsimp only
          rw [resume_eq, hall.b]
          exact ⟨hmism, rfl, rfl, u16_of_lt hroom.bad, rfl, rfl, rfl, rfl, rfl, rfl⟩
        · rw [hl.ram_report]
          exact hall.outside hl
        · rw [hl.cap_report]
          exact (hcap₂ hl).trans (hcap0 hl)

/-- What a whole check of block `k` does. -/
structure CheckPost (h : BlkvHooks ω) (ram : ω → Nat → UInt8) (p : Payload) (k : Nat)
    (s : BlkvRun ω) (how : CheckEnd) (s' : BlkvRun ω) : Prop
    extends EndPost h ram p k s how s' where
  first : ∃ w ok cs, s'.compares = (w, ok) :: cs ∧ (ok = true ↔ p.Matches k (ram w))

/-- The table can be read, whatever happened before. -/
def Readable (h : BlkvHooks ω) (p : Payload) : Prop :=
  ∀ i w, i < p.nblocks → (h.entry i w).1 = some (p.table i)

theorem checkBody_spec (hp : Peeks h ram) (hread : Readable h p)
    (hk : k < p.nblocks) (s : BlkvRun ω) (hb : OnRange p s.b) (hoff : s.b.off = false)
    (hc : Chained p k s.b.sha) (hroom : Room s.b) (hnew : s.compares = []) :
    CheckPost h ram p k s (checkBody h k s).1 (checkBody h k s).2 := by
  have hentry := hread k s.w hk
  have hblock := onBlock_blockCheck hb hk hc
  have hcap : HookLaws h ram → h.getCap (h.entry k s.w).2 = h.getCap s.w :=
    fun hl => hl.cap_entry _ _
  have hram : HookLaws h ram → ram (h.entry k s.w).2 = ram s.w := fun hl => hl.ram_entry _ _
  rw [checkBody, hoff, if_neg Bool.false_ne_true]
  generalize h.entry k s.w = e at hentry hcap hram
  obtain ⟨want, w⟩ := e
  subst hentry
  dsimp only at *
  have hcmp := rehash_spec hp hblock { s with w := w } hb
  generalize rehash h (blockCheck s.b k (p.table k)) { s with w := w } = r at hcmp
  obtain ⟨ok, got, s₁⟩ := r
  have hfirst : s₁.compares = [(w, ok)] := by
    rw [hcmp.compares]
    simp [hnew]
  cases ok with
  | true =>
    have hsettled := hcmp.settled rfl
    refine ⟨⟨by simp, hcmp.tried.compares, hcmp.tried.log, ?_, fun _ => hsettled.agrees,
      hsettled.chained, fun hl => ?_, fun hl => ?_⟩, w, true, [], hfirst, hcmp.ok_iff⟩
    · dsimp only
      rw [hcmp.tried.b]
      exact ⟨rfl, rfl, rfl, rfl, rfl, rfl, rfl, rfl, rfl, rfl⟩
    · rw [← hram hl]
      exact hcmp.tried.outside hl
    · exact (hcmp.cap hl).trans (hcap hl)
  | false =>
    have hroom₁ : Room s₁.b := by
      rw [hcmp.tried.b]
      exact ⟨hroom.mismatches, hroom.healed, hroom.second, hroom.bad⟩
    have hheal := healBlock_spec hp hblock got s₁ (hcmp.tried.onRange hb) hroom₁
    dsimp only at *
    obtain ⟨cs, hcs⟩ := hheal.compares
    have hcs' : (healBlock h (blockCheck s.b k (p.table k)) got s₁).2.compares
        = (w, false) :: cs := by
      rw [hcs, hfirst]
      rfl
    refine ⟨⟨hheal.checked, ⟨_, by rw [hcs', hnew]; rfl⟩, hheal.log.trans hcmp.tried.log, ?_,
      hheal.settled, hheal.chained, fun hl => ?_, fun hl => ?_⟩, w, false, cs, hcs', hcmp.ok_iff⟩
    · have hcount := hheal.counted
      rw [hcmp.tried.b] at hcount
      exact ⟨hcount.mismatches, hcount.healed, hcount.second, hcount.bad, hcount.base,
        hcount.length, hcount.nblocks, hcount.landed, hcount.next, hcount.off⟩
    · rw [← hram hl]
      exact (hcmp.tried.outside hl).trans (hheal.outside hl)
    · rw [hheal.cap hl, hcmp.cap hl, hcap hl]

end ZfsBoot.Proofs.Blk
