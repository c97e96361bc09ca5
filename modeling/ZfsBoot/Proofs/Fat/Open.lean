import Mathlib.Data.List.TakeWhile
import ZfsBoot.Proofs.Fat.Walk

/-!
# `ZfsBoot.Proofs.Fat.Open`: what `fat_open` finds

The specification of a directory is the list of its entries: those of its clusters, in the order of
the chain (`dirents`). A name stands for the first entry that carries it, is in use and is neither a
part of a long name nor a volume label, up to the first entry that starts with a zero byte
(`FirstMatch`). A path is followed from the root, one component after the other (`Resolves`).

`fat_open` searches sector by sector and stops early, and it ends on every path, whatever is on the
disk. On chains without a cycle and with a disk that never fails, it finds what the path stands for,
and nothing else.
-/

set_option autoImplicit false

namespace ZfsBoot.Proofs.Fat

open List
open Lib Bios

variable {e : FatDirent} {entries : List FatDirent} {cluster size : Nat} {c n i : Nat}
  {name : List UInt8} {wantDir : Bool} {δ : Type} {bk : Backend δ} {img : Image} {I : δ → Prop}
  {vol : FatVolume} {ps : Nat}

/-! ### The specification -/

/-- A component as a directory entry stores it: padded with blanks. -/
def paddedName (component : List UInt8) : List UInt8 :=
  component ++ List.replicate (11 - component.length) 0x20

/-- The entry is in use, neither a part of a long name nor a volume label, and has the name. -/
def Named (name : List UInt8) (e : FatDirent) : Prop :=
  byteAt e.name 0 ≠ 0xE5 ∧ e.attr ≠ 0x0F ∧ e.attr &&& 0x08 = 0 ∧ e.name = name

/-- `e` is the first entry with the name, and no entry up to it starts with a zero byte. -/
def FirstMatch (entries : List FatDirent) (name : List UInt8) (e : FatDirent) : Prop :=
  ∃ before after, entries = before ++ e :: after ∧
    (∀ x ∈ before, byteAt x.name 0 ≠ 0 ∧ ¬ Named name x) ∧ byteAt e.name 0 ≠ 0 ∧ Named name e

/-- The entries of one cluster. -/
def clusterDirents (img : Image) (vol : FatVolume) (c : Nat) : List FatDirent :=
  blocks (fun s => fatDirents (img.sector (u64 (clusterToLba vol c + s)))) vol.sectorsPerCluster

/-- The entries of the first `n` clusters of a directory. -/
def dirents (img : Image) (vol : FatVolume) (c n : Nat) : List FatDirent :=
  blocks (fun i => clusterDirents img vol (chainAt img vol c i)) n

/-- The chain from `c` has `n` clusters in range, and then leaves the range. -/
def ChainLength (img : Image) (vol : FatVolume) (c n : Nat) : Prop :=
  (∀ i < n, fatClusterInRange vol (chainAt img vol c i)) ∧
    ¬ fatClusterInRange vol (chainAt img vol c n)

/-- As long as the chain from `c` stays in range, it does not repeat a cluster. -/
def Acyclic (img : Image) (vol : FatVolume) (c : Nat) : Prop :=
  ∀ i j, i < j → (∀ k ≤ j, fatClusterInRange vol (chainAt img vol c k)) →
    chainAt img vol c i ≠ chainAt img vol c j

/-- The entry that a component stands for in the directory at `dir`. -/
def EntryOf (img : Image) (vol : FatVolume) (dir : Nat) (component : List UInt8) (e : FatDirent) :
    Prop :=
  ∃ n, ChainLength img vol dir n ∧ FirstMatch (dirents img vol dir n) (paddedName component) e

/-- The components lead from the directory at a cluster to a file. -/
inductive Resolves (img : Image) (vol : FatVolume) : Nat → List (List UInt8) → FatFile → Prop where
  | file {dir : Nat} {component : List UInt8} {e : FatDirent} {f : FatFile}
      (entry : EntryOf img vol dir component e) (notDirectory : e.isDirectory = false)
      (firstCluster : f.firstCluster.toNat = e.firstCluster) (size : f.size.toNat = e.fileSize) :
      Resolves img vol dir [component] f
  | directory {dir : Nat} {component next : List UInt8} {rest : List (List UInt8)} {e : FatDirent}
      {f : FatFile} (entry : EntryOf img vol dir component e) (isDirectory : e.isDirectory = true)
      (inRange : fatClusterInRange vol e.firstCluster)
      (onward : Resolves img vol e.firstCluster (next :: rest) f) :
      Resolves img vol dir (component :: next :: rest) f

/-- The directories that are searched for the components. -/
inductive Through (img : Image) (vol : FatVolume) : Nat → List (List UInt8) → Nat → Prop where
  | here {dir : Nat} {components : List (List UInt8)} : Through img vol dir components dir
  | down {dir : Nat} {component next : List UInt8} {rest : List (List UInt8)} {e : FatDirent}
      {d : Nat} (entry : EntryOf img vol dir component e) (isDirectory : e.isDirectory = true)
      (inRange : fatClusterInRange vol e.firstCluster)
      (onward : Through img vol e.firstCluster (next :: rest) d) :
      Through img vol dir (component :: next :: rest) d

/-- A path of components. -/
def pathOf (components : List (List UInt8)) : List UInt8 :=
  components.flatMap fun c => 0x2F :: c

/-- A component that `fat_open` takes: one to eight characters, other than the separator. -/
structure Component (c : List UInt8) : Prop where
  ne_nil : c ≠ []
  length_le : c.length ≤ fatMaxComponentLen
  noSlash : 0x2F ∉ c
  noNul : 0 ∉ c

/-! ### The entries -/

theorem fatPackName_eq {c : List UInt8} (hc : Component c) : fatPackName c = paddedName c := by
  rw [fatPackName, take_of_length_le hc.length_le, paddedName]

theorem firstMatch_cons {x : FatDirent} :
    FirstMatch (x :: entries) name e ↔ byteAt x.name 0 ≠ 0 ∧
      (Named name x ∧ e = x ∨ ¬ Named name x ∧ FirstMatch entries name e) := by
  constructor
  · rintro ⟨_ | ⟨y, before⟩, after, heq, hbefore, hfirst, hnamed⟩
    · obtain ⟨rfl, rfl⟩ := List.cons.inj heq
      exact ⟨hfirst, .inl ⟨hnamed, rfl⟩⟩
    · obtain ⟨rfl, rfl⟩ := List.cons.inj heq
      obtain ⟨hx, hnot⟩ := hbefore x mem_cons_self
      exact ⟨hx, .inr ⟨hnot, before, after, rfl,
        fun y hy => hbefore y (mem_cons_of_mem _ hy), hfirst, hnamed⟩⟩
  · rintro ⟨hx, ⟨hnamed, rfl⟩ | ⟨hnot, before, after, rfl, hbefore, hfirst, hnamed⟩⟩
    · exact ⟨[], entries, rfl, by simp, hx, hnamed⟩
    · refine ⟨x :: before, after, rfl, fun y hy => ?_, hfirst, hnamed⟩
      rcases mem_cons.mp hy with rfl | hy
      · exact ⟨hx, hnot⟩
      · exact hbefore y hy

/-- What one entry says, in the words of the specification. -/
theorem scanEntry_cases (name : List UInt8) (wantDir : Bool) (x : FatDirent) :
    (byteAt x.name 0 = 0 ∧ scanEntry x name wantDir = .missing) ∨
    (byteAt x.name 0 ≠ 0 ∧ ¬ Named name x ∧ scanEntry x name wantDir = .more) ∨
    (byteAt x.name 0 ≠ 0 ∧ Named name x ∧ wantDir ≠ x.isDirectory ∧
      scanEntry x name wantDir = .missing) ∨
    (byteAt x.name 0 ≠ 0 ∧ Named name x ∧ wantDir = x.isDirectory ∧
      scanEntry x name wantDir = .found x.firstCluster x.fileSize) := by
  unfold scanEntry Named
  split_ifs <;> simp_all

/-- A scan finds the first match, if it is of the kind that is wanted. -/
theorem scanEntries_found_iff : scanEntries name wantDir entries = .found cluster size ↔
      ∃ e, FirstMatch entries name e ∧ e.isDirectory = wantDir ∧ cluster = e.firstCluster ∧
        size = e.fileSize := by
  induction entries with
  | nil => simp [scanEntries, FirstMatch]
  | cons x entries ih =>
    rw [scanEntries]
    simp only [firstMatch_cons]
    rcases scanEntry_cases name wantDir x with ⟨h0, hscan⟩ | ⟨h0, hnot, hscan⟩ |
      ⟨h0, hnamed, hkind, hscan⟩ | ⟨h0, hnamed, hkind, hscan⟩
    · simp [hscan, h0]
    · simp [hscan, h0, hnot, ih]
    · simp [hscan, h0, hnamed, Ne.symm hkind]
    · rw [hscan, hkind]
      simp [h0, hnamed, eq_comm]

theorem scanEntries_append (name : List UInt8) (wantDir : Bool) (first second : List FatDirent) :
    scanEntries name wantDir (first ++ second) =
      match scanEntries name wantDir first with
      | .more => scanEntries name wantDir second
      | d => d := by
  induction first with
  | nil => rfl
  | cons x first ih =>
    rw [cons_append, scanEntries, scanEntries, ih]
    cases scanEntry x name wantDir <;> rfl

/-! ### One directory -/

/-- The sectors of a cluster from the `k`-th on are scanned as one list of entries. -/
theorem scanSectors_eq (hf : bk.Faithful img I) (hnever : bk.NeverFails I) (name : List UInt8)
    (wantDir : Bool) (lba count : Nat) : ∀ {k : Nat} {st : FatRun δ}, Ready img I st.m →
      (scanSectors bk name wantDir (u64 (lba + k)) count st).1
          = scanEntries name wantDir
            (blocks (fun s => fatDirents (img.sector (u64 (lba + (k + s))))) count) ∧
        Ready img I (scanSectors bk name wantDir (u64 (lba + k)) count st).2.m := by
  induction count with
  | zero => exact fun hr => ⟨rfl, hr⟩
  | succ count ih =>
    intro k st hr
    have hok : (st.read bk (u64 (lba + k)) 1).1.ok = true := hnever _ _ _ hr.disk
    have hdata : (st.read bk (u64 (lba + k)) 1).1.data = img.sector (u64 (lba + k)) := by
      rw [show (st.read bk (u64 (lba + k)) 1).1.data = _ from
        hf.truthful _ _ _ (by decide) hr.disk hok, Image.read_one, u64_of_lt (u64_lt _)]
    have hrest := ih (k := k + 1) (hr.read hf (u64 (lba + k)) 1)
    rw [scanSectors, if_pos hok, hdata, blocks_succ_left, scanEntries_append, Nat.add_zero, u64_add_u64,
      Nat.add_assoc]
    cases hscan : scanEntries name wantDir (fatDirents (img.sector (u64 (lba + k)))) with
    | more => simpa only [Nat.add_assoc, Nat.add_comm 1] using hrest
    | missing => exact ⟨rfl, hr.read hf _ _⟩
    | found cluster size => exact ⟨rfl, hr.read hf _ _⟩

/-- What a search returns. -/
def scanResult : DirScan → Option (Nat × Nat)
  | .found cluster size => some (cluster, size)
  | _ => none

theorem Acyclic.chainLength (hm : Mounted vol ps) (hacyclic : Acyclic img vol c) :
    ∃ n, ChainLength img vol c n := by
  classical
  have hex : ∃ n, ¬ fatClusterInRange vol (chainAt img vol c n) := by
    by_contra hall
    have hin : ∀ n, fatClusterInRange vol (chainAt img vol c n) := by simpa using hall
    have hle := distinct_le_clusters hm (n := vol.totalClusters + 1) (fun i _ => hin i)
      fun i j hij _ => hacyclic i j hij fun k _ => hin k
    omega
  exact ⟨Nat.find hex, fun i hi => not_not.mp (Nat.find_min hex hi), Nat.find_spec hex⟩

/-- What the clusters before the `i`-th leave open, the `i`-th decides. -/
theorem scanEntries_dirents (hi : i < n)
    (hmore : scanEntries name wantDir (dirents img vol c i) = .more)
    (hdecided : scanEntries name wantDir (clusterDirents img vol (chainAt img vol c i)) ≠ .more) :
    scanEntries name wantDir (dirents img vol c n)
      = scanEntries name wantDir (clusterDirents img vol (chainAt img vol c i)) := by
  obtain ⟨m, rfl⟩ := Nat.exists_eq_add_of_le (Nat.succ_le_of_lt hi)
  rw [dirents, blocks_add, scanEntries_append, blocks_succ, scanEntries_append]
  rw [dirents] at hmore
  rw [hmore]
  dsimp only
  cases hscan : scanEntries name wantDir (clusterDirents img vol (chainAt img vol c i)) with
  | more => exact absurd hscan hdecided
  | missing => rfl
  | found cluster size => rfl

/-- The search has come to the `i`-th of `n` clusters, and nothing before decided it. -/
structure SearchAt (img : Image) (I : δ → Prop) (vol : FatVolume) (c n : Nat) (name : List UInt8)
    (wantDir : Bool) (i : Nat) (s : FatChainWalk × FatRun δ) : Prop where
  lt : i < n
  walk : s.1 = walkAt img vol c i
  ready : Ready img I s.2.m
  more : scanEntries name wantDir (dirents img vol c i) = .more

/-- The search has found what the whole list of entries says. -/
structure SearchDone (img : Image) (I : δ → Prop) (vol : FatVolume) (c n : Nat) (name : List UInt8)
    (wantDir : Bool) (r : Option (Nat × Nat) × FatRun δ) : Prop where
  result : r.1 = scanResult (scanEntries name wantDir (dirents img vol c n))
  ready : Ready img I r.2.m

/-- The hops along a chain of `n` clusters: all but the last are allowed. -/
theorem Acyclic.hopOk_iff (hm : Mounted vol ps) (hacyclic : Acyclic img vol c)
    (hlen : ChainLength img vol c n) (hi : i < n) :
    HopOk img vol (walkAt img vol c i) ↔ i + 1 < n := by
  constructor
  · intro hop
    by_contra hlast
    obtain rfl : n = i + 1 := by omega
    exact hlen.2 ((hopOk_walkAt c i).mp hop).2.1
  · intro hlt
    exact hopOk_of_distinct hm (n := i + 1) (fun k hk => hlen.1 k (by omega))
      (fun k l hkl hl => hacyclic k l hkl fun j hj => hlen.1 j (by omega)) i (by omega)

/-- One cluster of the directory. -/
theorem search_body (hf : bk.Faithful img I) (hm : Mounted vol ps) (hnever : bk.NeverFails I)
    (hacyclic : Acyclic img vol c) (hlen : ChainLength img vol c n) {s : FatChainWalk × FatRun δ}
    (hs : SearchAt img I vol c n name wantDir i s) :
    (findBody bk vol name wantDir s).Sat (SearchAt img I vol c n name wantDir (i + 1))
      (SearchDone img I vol c n name wantDir) := by
  obtain ⟨w, st⟩ := s
  obtain ⟨hi, rfl, hr, hmore⟩ := hs
  obtain ⟨hscan, hready⟩ := scanSectors_eq hf hnever name wantDir
    (clusterToLba vol (chainAt img vol c i)) vol.sectorsPerCluster (k := 0) hr
  have hlba : u64 (clusterToLba vol (chainAt img vol c i) + 0)
      = clusterToLba vol (chainAt img vol c i) := by
    rw [Nat.add_zero]
    exact u64_of_lt (u64_lt _)
  simp only [hlba, Nat.zero_add] at hscan hready
  change _ = scanEntries name wantDir (clusterDirents img vol (chainAt img vol c i)) at hscan
  unfold findBody
  dsimp only [walkAt]
  rcases hres : scanSectors bk name wantDir (clusterToLba vol (chainAt img vol c i))
    vol.sectorsPerCluster st with ⟨d, st1⟩
  rw [hres] at hscan hready
  have hdecided := scanEntries_dirents hi hmore
  rw [← hscan] at hdecided
  cases d with
  | missing => exact ⟨by rw [hdecided (by simp)]; rfl, hready⟩
  | found cluster size => exact ⟨by rw [hdecided (by simp)]; rfl, hready⟩
  | more =>
    have hnext : scanEntries name wantDir (dirents img vol c (i + 1)) = .more := by
      rw [dirents, blocks_succ, scanEntries_append, ← dirents, hmore]
      exact hscan.symm
    have hw : WalkIn vol (walkAt img vol c i) := ⟨hlen.1 i hi, hlen.1 _ (by omega)⟩
    have hstep := advance_spec hf hm hw st1
    have hhop := hacyclic.hopOk_iff hm hlen hi
    dsimp only
    rcases hadv : fatChainAdvance bk vol (walkAt img vol c i) st1 with ⟨_ | _, w1, st2⟩
    all_goals
      rw [hadv] at hstep
      rw [walkAt] at hadv
      rw [hadv]
      dsimp only
    · -- the chain has come to its end
      rcases hstep.stopped hready rfl with hfail | ⟨k, hk, hbad⟩
      · exact absurd hnever hfail.fallible
      · obtain rfl : k = 0 := by omega
        have hlast : n = i + 1 := by
          have := mt hhop.mpr hbad
          omega
        exact ⟨by rw [hlast, hnext]; rfl, hstep.ready hready⟩
    · obtain ⟨hwalk, hop⟩ := hstep.passed hready rfl
      exact ⟨hhop.mp (hop 0 (by omega)), hwalk.trans (walkNext_walkAt c i), hstep.ready hready,
        hnext⟩

/-- A directory without a cycle is searched as one list of entries. -/
theorem findInDir_eq (hf : bk.Faithful img I) (hm : Mounted vol ps) (hnever : bk.NeverFails I)
    (hc : fatClusterInRange vol c) (hacyclic : Acyclic img vol c) (hlen : ChainLength img vol c n)
    (name : List UInt8) (wantDir : Bool) {st : FatRun δ} (hr : Ready img I st.m) :
    ∃ r, fatFindInDir bk vol c name wantDir st = some r ∧
      SearchDone img I vol c n name wantDir r := by
  have hpos : 0 < n := Nat.pos_of_ne_zero fun h0 => hlen.2 (by rw [h0]; exact hc)
  have hle : n ≤ vol.totalClusters := distinct_le_clusters hm hlen.1 fun i j hij hj =>
    hacyclic i j hij fun k hk => hlen.1 k (by omega)
  rw [fatFindInDir, if_neg (not_not.mpr hc)]
  refine Loop.run_spec (fun s => ∃ i, SearchAt img I vol c n name wantDir i s)
    (SearchDone img I vol c n name wantDir) (fun s => n - s.1.hops) ?_ ?_ _ _
    ⟨0, hpos, rfl, hr, rfl⟩ ?_
  · rintro s s' ⟨i, hs⟩ hbody
    have hpass := search_body hf hm hnever hacyclic hlen hs
    rw [hbody] at hpass
    refine ⟨⟨i + 1, hpass⟩, ?_⟩
    have hlt := hpass.lt
    rw [hpass.walk, hs.walk]
    simp only [walkAt]
    omega
  · rintro s r ⟨i, hs⟩ hbody
    have hpass := search_body hf hm hnever hacyclic hlen hs
    rwa [hbody] at hpass
  · show n - 0 < _
    omega

theorem ChainLength.unique {n' : Nat} (h : ChainLength img vol c n)
    (h' : ChainLength img vol c n') : n = n' := by
  rcases Nat.lt_trichotomy n n' with hlt | heq | hlt
  · exact absurd (h'.1 n hlt) h.2
  · exact heq
  · exact absurd (h.1 n' hlt) h'.2

/-- A search returns the entry that the component stands for. -/
theorem find_component (hf : bk.Faithful img I) (hm : Mounted vol ps) (hnever : bk.NeverFails I)
    {dir : Nat} (hdir : fatClusterInRange vol dir) (hacyclic : Acyclic img vol dir)
    (component : List UInt8) (wantDir : Bool) {st : FatRun δ} (hr : Ready img I st.m) :
    ∃ found st', fatFindInDir bk vol dir (paddedName component) wantDir st = some (found, st') ∧
      Ready img I st'.m ∧ ∀ cluster size, found = some (cluster, size) ↔
        ∃ e, EntryOf img vol dir component e ∧ e.isDirectory = wantDir ∧
          cluster = e.firstCluster ∧ size = e.fileSize := by
  obtain ⟨n, hlen⟩ := hacyclic.chainLength hm
  obtain ⟨⟨found, st'⟩, hfind, hdone⟩ := findInDir_eq hf hm hnever hdir hacyclic hlen
    (paddedName component) wantDir hr
  refine ⟨found, st', hfind, hdone.ready, fun cluster size => ?_⟩
  have hfound : found = some (cluster, size) ↔
      scanEntries (paddedName component) wantDir (dirents img vol dir n) = .found cluster size := by
    rw [show found = _ from hdone.result]
    cases scanEntries (paddedName component) wantDir (dirents img vol dir n) <;> simp [scanResult]
  rw [hfound, scanEntries_found_iff]
  refine exists_congr fun e => and_congr_left fun _ => ⟨fun hmatch => ⟨n, hlen, hmatch⟩, ?_⟩
  rintro ⟨n', hlen', hmatch⟩
  rwa [hlen.unique hlen']

/-- The fields of an entry have 32 bits. -/
theorem EntryOf.lt {component : List UInt8}
    (h : EntryOf img vol c component e) : e.firstCluster < 2 ^ 32 ∧ e.fileSize < 2 ^ 32 := by
  obtain ⟨n, -, before, after, heq, -⟩ := h
  have hmem : e ∈ dirents img vol c n := by simp [heq]
  simp only [dirents, clusterDirents, blocks, fatDirents, mem_flatMap, mem_map] at hmem
  obtain ⟨i, -, s, -, k, -, rfl⟩ := hmem
  have hhi := le16_lt (img.sector (u64 (clusterToLba vol (chainAt img vol c i) + s))) (32 * k + 20)
  have hlo := le16_lt (img.sector (u64 (clusterToLba vol (chainAt img vol c i) + s))) (32 * k + 26)
  exact ⟨by simp only [fatDirent]; omega, le32_lt _ _⟩

/-! ### Paths -/

theorem takeWhile_component {c : List UInt8} (hc : Component c) (rest : List (List UInt8)) :
    (c ++ pathOf rest).takeWhile (· ≠ 0x2F) = c ∧
    (c ++ pathOf rest).dropWhile (· ≠ 0x2F) = pathOf rest := by
  have hall : ∀ x ∈ c, decide (x ≠ 0x2F) = true := by
    intro x hx
    exact decide_eq_true fun heq => hc.noSlash (heq ▸ hx)
  rw [takeWhile_append_of_pos hall, dropWhile_append_of_pos hall]
  cases rest with
  | nil => simp [pathOf]
  | cons next rest => simp [pathOf]

/-- One component: the search for it, and what follows. -/
theorem openFrom_succ (bk : Backend δ) (vol : FatVolume) {c : List UInt8} (hc : Component c)
    (rest : List (List UInt8)) (fuel dir : Nat) (st : FatRun δ) :
    fatOpenFrom bk vol (fuel + 1) dir (c ++ pathOf rest) st =
      match fatFindInDir bk vol dir (paddedName c) (!(pathOf rest).isEmpty) st with
      | none => none
      | some (none, st) => some (none, st)
      | some (some (cluster, size), st) =>
        if (pathOf rest).isEmpty then some (some ⟨UInt32.ofNat cluster, UInt32.ofNat size⟩, st)
        else if ¬ fatClusterInRange vol cluster then some (none, st)
        else fatOpenFrom bk vol fuel cluster (pathOf rest).tail st := by
  obtain ⟨htake, hdrop⟩ := takeWhile_component hc rest
  rw [fatOpenFrom, htake, hdrop, fatPackName_eq hc, if_neg (Nat.not_lt.mpr hc.length_le)]
  exact if_neg hc.ne_nil

/-- The file of an entry. -/
theorem file_eq_iff (hcluster : cluster < 2 ^ 32) (hsize : size < 2 ^ 32)
    (f : FatFile) : (⟨UInt32.ofNat cluster, UInt32.ofNat size⟩ : FatFile) = f ↔
      f.firstCluster.toNat = cluster ∧ f.size.toNat = size := by
  obtain ⟨firstCluster, size'⟩ := f
  have hc : (UInt32.ofNat cluster).toNat = cluster := UInt32.toNat_ofNat_of_lt hcluster
  have hs : (UInt32.ofNat size).toNat = size := UInt32.toNat_ofNat_of_lt hsize
  rw [FatFile.mk.injEq, ← UInt32.toNat_inj, ← UInt32.toNat_inj, hc, hs]
  exact and_congr eq_comm eq_comm

/-- The components from a directory on. -/
theorem openFrom_spec (hf : bk.Faithful img I) (hm : Mounted vol ps) (hnever : bk.NeverFails I)
    (rest : List (List UInt8)) : ∀ (fuel dir : Nat) (c : List UInt8) (st : FatRun δ),
      (∀ x ∈ c :: rest, Component x) → fatClusterInRange vol dir →
      (∀ d, Through img vol dir (c :: rest) d → Acyclic img vol d) → Ready img I st.m →
      (c ++ pathOf rest).length < fuel →
      ∃ r, fatOpenFrom bk vol fuel dir (c ++ pathOf rest) st = some r ∧
        ∀ f, r.1 = some f ↔ Resolves img vol dir (c :: rest) f := by
  induction rest with
  | nil =>
    intro fuel dir c st hcomp hdir hacyclic hr hfuel
    obtain ⟨fuel, rfl⟩ := Nat.exists_eq_succ_of_ne_zero (Nat.ne_of_gt (Nat.zero_lt_of_lt hfuel))
    obtain ⟨found, st1, hfind, -, hfound⟩ := find_component hf hm hnever hdir
      (hacyclic dir .here) c (!(pathOf []).isEmpty) hr
    rw [Nat.succ_eq_add_one, openFrom_succ bk vol (hcomp c mem_cons_self), hfind]
    rcases found with _ | ⟨cluster, size⟩
    · refine ⟨_, rfl, fun f => iff_of_false (by simp) fun hres => ?_⟩
      cases hres with
      | @file _ _ e _ hentry hkind _ _ => cases (hfound _ _).mpr ⟨e, hentry, hkind, rfl, rfl⟩
    · refine ⟨_, rfl, fun f => ?_⟩
      obtain ⟨e, hentry, hkind, rfl, rfl⟩ := (hfound cluster size).mp rfl
      rw [Option.some.injEq, file_eq_iff hentry.lt.1 hentry.lt.2]
      constructor
      · rintro ⟨hcluster, hsize⟩
        exact .file hentry hkind hcluster hsize
      · intro hres
        cases hres with
        | @file _ _ e' _ hentry' hkind' hcluster hsize =>
          obtain ⟨hc, hs⟩ := Prod.mk.inj
            (Option.some.inj ((hfound _ _).mpr ⟨e', hentry', hkind', rfl, rfl⟩))
          exact ⟨hcluster.trans hc.symm, hsize.trans hs.symm⟩
  | cons next rest ih =>
    intro fuel dir c st hcomp hdir hacyclic hr hfuel
    obtain ⟨fuel, rfl⟩ := Nat.exists_eq_succ_of_ne_zero (Nat.ne_of_gt (Nat.zero_lt_of_lt hfuel))
    obtain ⟨found, st1, hfind, hr1, hfound⟩ := find_component hf hm hnever hdir
      (hacyclic dir .here) c (!(pathOf (next :: rest)).isEmpty) hr
    rw [Nat.succ_eq_add_one, openFrom_succ bk vol (hcomp c mem_cons_self), hfind]
    rcases found with _ | ⟨cluster, size⟩
    · refine ⟨_, rfl, fun f => iff_of_false (by simp) fun hres => ?_⟩
      cases hres with
      | @directory _ _ _ _ e _ hentry hkind _ _ =>
        cases (hfound _ _).mpr ⟨e, hentry, hkind, rfl, rfl⟩
    · obtain ⟨e, hentry, hkind, rfl, rfl⟩ := (hfound cluster size).mp rfl
      -- any other entry that the component stands for has the same first cluster
      have hcluster : ∀ e', EntryOf img vol dir c e' → e'.isDirectory = true →
          e'.firstCluster = e.firstCluster := fun e' hentry' hkind' =>
        (Prod.mk.inj (Option.some.inj ((hfound _ _).mpr ⟨e', hentry', hkind', rfl, rfl⟩))).1.symm
      dsimp only
      rw [if_neg (by simp [pathOf])]
      split
      · rename_i hout
        refine ⟨_, rfl, fun f => iff_of_false (by simp) fun hres => ?_⟩
        cases hres with
        | @directory _ _ _ _ e' _ hentry' hkind' hin _ =>
          exact hout (hcluster e' hentry' hkind' ▸ hin)
      · rename_i hin
        rw [not_not] at hin
        obtain ⟨r, hrun, hiff⟩ := ih fuel e.firstCluster next st1
          (fun x hx => hcomp x (mem_cons_of_mem _ hx)) hin
          (fun d hd => hacyclic d (.down hentry hkind hin hd)) hr1 (by
            simp only [pathOf, flatMap_cons, length_append, length_cons] at hfuel ⊢
            omega)
        refine ⟨r, hrun, fun f => (hiff f).trans ⟨fun hres => ?_, fun hres => ?_⟩⟩
        · exact .directory hentry hkind hin hres
        · cases hres with
          | @directory _ _ _ _ e' _ hentry' hkind' _ honward =>
            rwa [hcluster e' hentry' hkind'] at honward

end ZfsBoot.Proofs.Fat
