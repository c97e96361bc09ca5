import Mathlib.Data.List.Nodup
import Mathlib.Data.List.Perm.Subperm
import ZfsBoot.Lib.Fields
import ZfsBoot.Lib.Outcome
import ZfsBoot.Tool.Metadata

/-!
# `ZfsBoot.Proofs.Tool.Metadata`: what METADATA gives back

`checkMetadataEncodable` encodes a manifest and decodes it again, and looks whether that succeeds.
It does not compare. `Decode` trims every line, so a field that ends in white space comes back
without it (`trailing_blank_lost`).

Nothing else is lost. `Decode` accepts only keys that it knows, each of them once, and `Encode` has
written all of them already: text behind a newline in a field cannot pass (`fields_of_encode`). So a
manifest that is accepted comes back with each field up to its first newline, and trimmed there
(`decode_encode`).
-/

set_option autoImplicit false

namespace ZfsBoot.Proofs.Tool.Metadata

open List
open Lib ZfsBoot.Tool.Metadata
open Bios (ascii)

variable {fields' : Fields} {text : List UInt8} {fields : Fields} {m : Manifest} {k : List UInt8}

/-! ### Lines -/

/-- Newlines at the end are empty lines, which count for nothing. -/
theorem foldlM_trimNewlines (text : List UInt8) :
    ((trimNewlines text).splitOn 0x0A).foldlM decodeLine []
      = (text.splitOn 0x0A).foldlM decodeLine [] := by
  have hempty : ∀ r : Except MetadataError Fields, r = r >>= ([[]].foldlM decodeLine ·) := by
    intro r
    cases r with
    | error err => rfl
    | ok fields => rfl
  induction text using List.reverseRecOn with
  | nil => rfl
  | append_singleton text c ih =>
    by_cases hc : c = 0x0A
    · subst hc
      rw [trimNewlines, rdropWhile_concat_pos _ _ _ (by simp), splitOn_append_cons,
        splitOn_nil, foldlM_append, ← ih]
      exact hempty _
    · rw [trimNewlines, rdropWhile_concat_neg _ _ _ (by simpa using hc)]

/-- The entry of a line, if it is not empty. -/
def entryOf (line : List UInt8) : Option (List UInt8 × List UInt8) :=
  if trimSpace line = [] then none else cut 0x3D (trimSpace line)

/-- The keys are known ones, each there once. -/
structure Keyed (fields : Fields) : Prop where
  nodup : (fields.map Prod.fst).Nodup
  known : ∀ k ∈ fields.map Prod.fst, k ∈ knownFields

theorem lookup_isSome_iff :
    (fields.lookup k).isSome = true ↔ k ∈ fields.map Prod.fst := by
  induction fields with
  | nil => simp
  | cons e fields ih =>
    obtain ⟨k', v⟩ := e
    by_cases hk : k = k'
    · subst hk
      simp
    · have hne : (k == k') = false := by simpa using hk
      rw [lookup_cons, hne, map_cons, mem_cons]
      simp only [hk, false_or]
      exact ih

/-- One line that is accepted. -/
theorem decodeLine_eq_ok {line : List UInt8} (hkeyed : Keyed fields)
    (hok : decodeLine fields line = .ok fields') :
    fields' = fields ++ (entryOf line).toList ∧ Keyed fields' := by
  unfold decodeLine at hok
  dsimp only at hok
  unfold entryOf
  split_ifs at hok ⊢ with hempty
  · cases hok
    rw [Option.toList_none, append_nil]
    exact ⟨rfl, hkeyed⟩
  · rcases hcut : cut 0x3D (trimSpace line) with _ | ⟨k, v⟩
    · rw [hcut] at hok
      cases hok
    · rw [hcut] at hok
      dsimp only at hok
      split_ifs at hok with hknown hdup
      cases hok
      refine ⟨rfl, ?_, ?_⟩
      · rw [map_append, map_singleton, nodup_append]
        refine ⟨hkeyed.nodup, nodup_singleton _, ?_⟩
        intro a ha b hb
        rw [mem_singleton.1 hb]
        rintro rfl
        exact hdup (lookup_isSome_iff.2 ha)
      · intro a ha
        rw [map_append, map_singleton, mem_append, mem_singleton] at ha
        rcases ha with ha | rfl
        · exact hkeyed.known a ha
        · exact hknown

/-- All lines of a text that is accepted. -/
theorem foldlM_decodeLine_eq_ok {lines : List (List UInt8)}
    (hkeyed : Keyed fields) (hok : lines.foldlM decodeLine fields = .ok fields') :
    fields' = fields ++ lines.filterMap entryOf ∧ Keyed fields' := by
  induction lines generalizing fields with
  | nil =>
    cases hok
    rw [filterMap_nil, append_nil]
    exact ⟨rfl, hkeyed⟩
  | cons line lines ih =>
    rw [foldlM_cons] at hok
    obtain ⟨fields₁, hline, hrest⟩ := bind_eq_ok.1 hok
    obtain ⟨rfl, hkeyed₁⟩ := decodeLine_eq_ok hkeyed hline
    obtain ⟨rfl, hkeyed'⟩ := ih hkeyed₁ hrest
    refine ⟨?_, hkeyed'⟩
    rw [filterMap_cons, append_assoc]
    rcases entryOf line with _ | e
    · rfl
    · rfl

/-! ### The text of a manifest -/

/-- What comes back of a field: its first line, trimmed. -/
def kept (v : List UInt8) : List UInt8 := trimSpaceRight (v.takeWhile (· ≠ 0x0A))

/-- All entries of a manifest, its format first. -/
def allEntries (m : Manifest) : List (List UInt8 × List UInt8) :=
  (ascii "format", decimal format) :: m.entries

theorem keys_allEntries (m : Manifest) : (allEntries m).map Prod.fst = knownFields := rfl

/-- A known key starts with a visible character, and ends before the `=`. -/
theorem knownFields_visible : ∀ k ∈ knownFields,
    (∃ d a, k = d :: a ∧ 0x21 ≤ d ∧ d ≤ 0x7E) ∧ 0x3D ∉ k ∧ 0x0A ∉ k := by
  have hall : ∀ k ∈ knownFields,
      k.head?.any (fun d => decide (0x21 ≤ d ∧ d ≤ 0x7E)) = true ∧ 0x3D ∉ k ∧ 0x0A ∉ k := by
    decide +kernel
  intro k hk
  obtain ⟨hhead, hrest⟩ := hall k hk
  refine ⟨?_, hrest⟩
  cases k with
  | nil => cases hhead
  | cons d a => exact ⟨d, a, rfl, of_decide_eq_true hhead⟩

/-- The first line of an entry is read as its key with what is kept of its value. -/
theorem entryOf_firstLine (hk : k ∈ knownFields) (v : List UInt8) :
    entryOf (k ++ 0x3D :: v.takeWhile (· ≠ 0x0A)) = some (k, kept v) := by
  obtain ⟨⟨d, a, rfl, hd⟩, heq, -⟩ := knownFields_visible k hk
  have htrim : trimSpace (d :: a ++ 0x3D :: v.takeWhile (· ≠ 0x0A)) = d :: a ++ 0x3D :: kept v :=
    trimSpace_append_cons hd (by decide)
  rw [entryOf, htrim, if_neg (by simp)]
  exact cut_eq_some.2 ⟨rfl, heq⟩

/-- The first line of a text. -/
theorem head?_splitOn (s : List UInt8) : (s.splitOn 0x0A).head? = some (s.takeWhile (· ≠ 0x0A)) := by
  have hpred : (fun c : UInt8 => decide (c ≠ 0x0A)) = (· != 0x0A) := by
    funext c
    rw [Bool.eq_iff_iff, decide_eq_true_iff, bne_iff_ne]
  rw [hpred]
  rcases hrest : s.dropWhile (· != 0x0A) with _ | ⟨c, rest⟩
  · rw [splitOn_of_dropWhile_nil hrest]
    rfl
  · rw [splitOn_of_dropWhile_cons hrest]
    rfl

/-- The lines of one entry: its key with the first line of its value, and the rest of the value. -/
theorem splitOn_entryLine (hk : k ∈ knownFields) (v : List UInt8) :
    (entryLine (k, v)).splitOn 0x0A
      = (k ++ 0x3D :: v.takeWhile (· ≠ 0x0A)) :: ((entryLine (k, v)).splitOn 0x0A).tail := by
  have hkey : ∀ c ∈ k ++ [0x3D], decide (c ≠ 0x0A) = true := by
    intro c hc
    refine decide_eq_true ?_
    rintro rfl
    rcases mem_append.1 hc with hc | hc
    · exact (knownFields_visible k hk).2.2 hc
    · exact absurd hc (by decide)
  have htake : (entryLine (k, v)).takeWhile (· ≠ 0x0A) = k ++ 0x3D :: v.takeWhile (· ≠ 0x0A) := by
    rw [show entryLine (k, v) = k ++ [0x3D] ++ v by simp [entryLine],
      takeWhile_append_of_pos hkey, append_assoc, singleton_append]
  have hfirst := head?_splitOn (entryLine (k, v))
  rw [htake] at hfirst
  exact (cons_head?_tail hfirst).symm

theorem splitOn_encode (m : Manifest) :
    (encode m).splitOn 0x0A = (allEntries m).flatMap (fun e => (entryLine e).splitOn 0x0A) ++ [[]] := by
  have hlines : ∀ es : List (List UInt8 × List UInt8),
      (es.flatMap (entryLine · ++ [0x0A])).splitOn 0x0A
        = es.flatMap (fun e => (entryLine e).splitOn 0x0A) ++ [[]] := by
    intro es
    induction es with
    | nil => rfl
    | cons e es ih =>
      rw [flatMap_cons, append_assoc, singleton_append, splitOn_append_cons, ih,
        flatMap_cons, append_assoc]
  exact hlines _

/-- Entries that have no room for more. -/
theorem flatMap_eq_map {α β : Type} {f : α → β} {g : α → List β} {es : List α}
    (h : (es.flatMap fun e => f e :: g e).length ≤ es.length) :
    (es.flatMap fun e => f e :: g e) = es.map f := by
  have hle : ∀ es : List α, es.length ≤ (es.flatMap fun e => f e :: g e).length := by
    intro es
    induction es with
    | nil => exact le_rfl
    | cons e es ih =>
      rw [flatMap_cons, length_append, length_cons, length_cons]
      omega
  induction es with
  | nil => rfl
  | cons e es ih =>
    have hrest := hle es
    simp only [flatMap_cons, length_append, length_cons] at h
    have hnil : g e = [] := eq_nil_of_length_eq_zero (by omega)
    rw [flatMap_cons, hnil, ih (by omega)]
    rfl

/-- `Decode` accepts what `Encode` wrote only if it reads exactly the entries of the manifest. -/
theorem fields_of_encode (hok : ((encode m).splitOn 0x0A).foldlM decodeLine [] = .ok fields) :
    fields = (allEntries m).map fun e => (e.1, kept e.2) := by
  have hstart : Keyed [] := ⟨nodup_nil, fun _ hk => nomatch hk⟩
  obtain ⟨hfields, hkeyed⟩ := foldlM_decodeLine_eq_ok hstart hok
  -- each entry gives its own field first, then what is behind a newline in it
  have hentry : ∀ e ∈ allEntries m, ((entryLine e).splitOn 0x0A).filterMap entryOf
      = (e.1, kept e.2) :: ((entryLine e).splitOn 0x0A).tail.filterMap entryOf := by
    rintro ⟨k, v⟩ he
    have hk : k ∈ knownFields := by
      rw [← keys_allEntries m]
      exact mem_map_of_mem he
    rw [splitOn_entryLine hk, filterMap_cons, entryOf_firstLine hk]
    rfl
  have hall : fields = (allEntries m).flatMap fun e =>
      (e.1, kept e.2) :: ((entryLine e).splitOn 0x0A).tail.filterMap entryOf := by
    rw [hfields, nil_append, splitOn_encode, filterMap_append, filterMap_flatMap,
      show [[]].filterMap entryOf = [] from rfl, append_nil]
    exact flatMap_congr hentry
  -- there are no more known keys than entries
  have hlen : fields.length ≤ (allEntries m).length := by
    have hsub := (hkeyed.nodup.subperm hkeyed.known).length_le
    rwa [length_map, ← keys_allEntries m, length_map] at hsub
  rw [hall] at hlen ⊢
  exact flatMap_eq_map hlen

/-! ### The round trip -/

/-- A NUL in a text that ends in something else is no padding. -/
theorem unpadded_concat {s : List UInt8} {c : UInt8} (hc : c ≠ 0)
    (hok : unpadded (s ++ [c]) = .ok text) : text = s ++ [c] := by
  have hparts := takeWhile_append_dropWhile (p := (· ≠ 0)) (l := s ++ [c])
  rw [unpadded] at hok
  split_ifs at hok with hrest
  cases hok
  rcases hdrop : (s ++ [c]).dropWhile (· ≠ 0) with _ | ⟨d, rest⟩
  · rwa [hdrop, append_nil] at hparts
  · -- the last character of what follows the NUL is `c`
    have hlast : ((s ++ [c]).dropWhile (· ≠ 0)).getLast? = some c := by
      have hwhole : (s ++ [c]).getLast? = some c := List.getLast?_concat
      rw [← hparts, hdrop, List.getLast?_append_cons] at hwhole
      rwa [hdrop]
    exact absurd (any_eq_true.2 ⟨c, mem_of_getLast? hlast, decide_eq_true hc⟩) hrest

theorem unpadded_encode (hok : unpadded (encode m) = .ok text) :
    text = encode m := by
  have hends : ∃ s, encode m = s ++ [0x0A] := by
    have hlast : allEntries m
        = (allEntries m).dropLast ++ [(ascii "initrd_sha256", m.initrdSha256)] := rfl
    rw [encode, ← allEntries, hlast, flatMap_append, flatMap_singleton, ← append_assoc]
    exact ⟨_, rfl⟩
  obtain ⟨s, hs⟩ := hends
  rw [hs] at hok ⊢
  exact unpadded_concat (by decide) hok

/-- A manifest that is accepted comes back with what is kept of each field. -/
theorem decode_encode {m' : Manifest} (hok : decode (encode m) = .ok m') :
    m' = ⟨kept m.version, kept m.buildStamp, kept m.arch, kept m.kernel, kept m.openZfs,
      kept m.kernelSha256, kept m.initrdSha256⟩ := by
  obtain ⟨text, htext, hok⟩ := bind_eq_ok.1 hok
  obtain rfl := unpadded_encode htext
  obtain ⟨fields, hfields, hok⟩ := bind_eq_ok.1 hok
  rw [foldlM_trimNewlines] at hfields
  obtain rfl := fields_of_encode hfields
  unfold ofFields at hok
  split at hok
  · cases hok
  · split at hok
    · cases hok
    · split_ifs at hok
      cases hok
      rfl

/-- What is kept of a field is all of it if it has one line and does not end in white space. -/
theorem kept_eq_iff {v : List UInt8} : kept v = v ↔ 0x0A ∉ v ∧ trimSpaceRight v = v := by
  have hline : 0x0A ∉ v → v.takeWhile (· ≠ 0x0A) = v := by
    intro hnone
    refine takeWhile_eq_self_iff.2 ?_
    intro c hc
    exact decide_eq_true (ne_of_mem_of_not_mem hc hnone)
  constructor
  · intro hkept
    have hnone : 0x0A ∉ v := by
      intro hmem
      rw [← hkept] at hmem
      have hfirst := mem_takeWhile_imp ((trimSpaceRight_isPrefix _).subset hmem)
      exact of_decide_eq_true hfirst rfl
    refine ⟨hnone, ?_⟩
    rwa [kept, hline hnone] at hkept
  · rintro ⟨hnone, htrim⟩
    rw [kept, hline hnone, htrim]

theorem checkMetadataEncodable_eq_ok {enc : List UInt8} :
    checkMetadataEncodable m = .ok enc ↔ enc = encode m ∧ ∃ m', decode (encode m) = .ok m' := by
  unfold checkMetadataEncodable
  rcases decode (encode m) with err | m'
  · simp
  · simp [eq_comm]

/-- A manifest that `checkMetadataEncodable` accepts is given back exactly if each of its fields has
one line and does not end in white space. -/
theorem accepted_round_trip_iff (m : Manifest) {enc : List UInt8}
    (h : checkMetadataEncodable m = .ok enc) :
    decode enc = .ok m ↔ ∀ e ∈ m.entries, 0x0A ∉ e.2 ∧ trimSpaceRight e.2 = e.2 := by
  obtain ⟨rfl, m', hm'⟩ := checkMetadataEncodable_eq_ok.1 h
  rw [hm', decode_encode hm', Except.ok.injEq]
  simp only [Manifest.entries, forall_mem_cons, not_mem_nil, false_implies, implies_true,
    and_true, ← kept_eq_iff]
  obtain ⟨version, buildStamp, arch, kernel, openZfs, kernelSha256, initrdSha256⟩ := m
  rw [Manifest.mk.injEq]

/-- A manifest whose version ends in a blank. -/
def blankVersion : Manifest where
  version := ascii "1 "
  buildStamp := ascii "2"
  arch := ascii "x"
  kernel := ascii "6"
  openZfs := ascii "2"
  kernelSha256 := List.replicate 64 0x61
  initrdSha256 := List.replicate 64 0x61

/-- It is accepted, and comes back without the blank. -/
theorem trailing_blank_lost :
    checkMetadataEncodable blankVersion = .ok (encode blankVersion)
      ∧ decode (encode blankVersion) = .ok { blankVersion with version := ascii "1" } := by
  decide +kernel

theorem trailing_blank_lost_iff :
    decode (encode blankVersion) = .ok blankVersion
      ↔ ∀ e ∈ blankVersion.entries, 0x0A ∉ e.2 ∧ trimSpaceRight e.2 = e.2 :=
  accepted_round_trip_iff blankVersion (by decide +kernel)

end ZfsBoot.Proofs.Tool.Metadata
