import Mathlib.Data.List.DropRight
import Mathlib.Data.List.Infix
import ZfsBoot.Tool.DeviceName

/-!
# `ZfsBoot.Proofs.Tool.DeviceName`: the disk of a partition, by its name

A name that ends in a number splits in one way into a head and that number (`number_unique`). All
three patterns end in a number, so what they make of such a name is said by its head alone: which
byte it ends in, and whether it ends in one of the names of `pSuffixWholeDisk`.

That pattern is not anchored. A SCSI or virtio disk whose letters end in one of the names, such as
`/dev/sdmd`, has partitions that look like whole disks: `partition_base_iff` says that these are the
only names that go wrong, and `sdmd_partition` that they do.
-/

set_option autoImplicit false

namespace ZfsBoot.Proofs.Tool.DeviceName

open List
open Lib ZfsBoot.Tool
open Bios (ascii)

variable {c : UInt8} {g : List UInt8} {group rest : List UInt8 → Bool} {s t : List UInt8}

/-! ### Numbers at the end -/

theorem isNumber_iff : isNumber s = true ↔ s ≠ [] ∧ ∀ c ∈ s, isDigit c = true := by
  rw [isNumber, decide_eq_true_eq, all_eq_true]

theorem isNumber_decimal (n : Nat) : isNumber (decimal n) = true :=
  isNumber_iff.2 ⟨decimal_ne_nil n, fun _ => isDigit_of_mem_decimal⟩

/-- Text that does not end in a digit. -/
def Undigited (h : List UInt8) : Prop := h.getLast?.all (fun c => !isDigit c) = true

instance (h : List UInt8) : Decidable (Undigited h) := inferInstanceAs (Decidable (_ = true))

theorem Undigited.last {h : List UInt8} (hh : Undigited h) (hc : h.getLast? = some c) :
    isDigit c = false := by
  rw [Undigited, hc, Option.all_some, Bool.not_eq_true'] at hh
  exact hh

theorem undigited_of_last {h : List UInt8} (hc : h.getLast? = some c)
    (hdigit : isDigit c = false) : Undigited h := by
  rw [Undigited, hc, Option.all_some, hdigit]
  rfl

theorem rdropWhile_number {h ds : List UInt8} (hh : Undigited h) (hds : ∀ c ∈ ds, isDigit c = true) :
    (h ++ ds).rdropWhile isDigit = h := by
  induction ds using List.reverseRecOn with
  | nil =>
    rw [append_nil, rdropWhile_eq_self_iff]
    intro hne
    rw [hh.last (List.getLast?_eq_some_getLast hne)]
    decide
  | append_singleton ds c ih =>
    rw [← append_assoc, rdropWhile_concat_pos _ _ _ (hds c (by simp))]
    exact ih fun d hd => hds d (mem_append_left _ hd)

/-- The head and the number at the end are unique. -/
theorem number_unique {h h' ds ds' : List UInt8} (hh : Undigited h) (hh' : Undigited h')
    (hds : ∀ c ∈ ds, isDigit c = true) (hds' : ∀ c ∈ ds', isDigit c = true)
    (heq : h ++ ds = h' ++ ds') : h = h' := by
  rw [← rdropWhile_number hh hds, heq, rdropWhile_number hh' hds']

theorem undigited_append (hne : g ≠ []) (hg : Undigited g) (a : List UInt8) :
    Undigited (a ++ g) := by
  rwa [Undigited, List.getLast?_append_of_ne_nil _ hne]

theorem not_undigited_append {ds : List UInt8} (hds : isNumber ds = true) (h : List UInt8) :
    ¬ Undigited (h ++ ds) := by
  obtain ⟨hne, hdigits⟩ := isNumber_iff.1 hds
  intro hh
  have hlast : (h ++ ds).getLast? = some (ds.getLast hne) := by
    rw [List.getLast?_append_of_ne_nil _ hne, List.getLast?_eq_some_getLast hne]
  have hdigit := hdigits _ (getLast_mem hne)
  rw [hh.last hlast] at hdigit
  cases hdigit

/-! ### The patterns -/

theorem mem_inits_iff {h : List UInt8} : h ∈ s.inits.reverse ↔ h <+: s := by
  rw [mem_reverse, mem_inits]

theorem firstGroup_eq_none (h : ∀ head t, s = head ++ t → group head = true → rest t = false) :
    firstGroup group rest s = none := by
  rw [firstGroup, List.find?_eq_none]
  intro head hmem
  obtain ⟨t, rfl⟩ := mem_inits_iff.1 hmem
  rw [drop_left, Bool.and_eq_true, not_and, Bool.not_eq_true]
  exact h head t rfl

/-- The group of a name that splits in one way only. -/
theorem firstGroup_eq_some {head : List UInt8}
    (hgroup : group head = true) (hrest : rest t = true)
    (hunique : ∀ head' t', head ++ t = head' ++ t' → group head' = true → rest t' = true →
      head' = head) :
    firstGroup group rest (head ++ t) = some head := by
  have hhere : head ∈ (head ++ t).inits.reverse := mem_inits_iff.2 (prefix_append _ _)
  rcases hfind : firstGroup group rest (head ++ t) with _ | found
  · rw [firstGroup, List.find?_eq_none] at hfind
    have hno := hfind head hhere
    rw [drop_left, hgroup, hrest] at hno
    exact absurd rfl hno
  · have hmatch := List.find?_some hfind
    obtain ⟨t', ht'⟩ := mem_inits_iff.1 (mem_of_find?_eq_some hfind)
    rw [Bool.and_eq_true] at hmatch
    rw [hunique found t' ht'.symm hmatch.1 (by rw [← ht', drop_left] at hmatch; exact hmatch.2)]

theorem endsIn_iff {cls : UInt8 → Bool} :
    endsIn cls s = true ↔ 0x0A ∉ s ∧ ∃ c, s.getLast? = some c ∧ cls c = true := by
  rw [endsIn, decide_eq_true_eq, Option.any_eq_true]

theorem undigited_concat (hc : isDigit c = false) (h : List UInt8) :
    Undigited (h ++ [c]) :=
  undigited_of_last List.getLast?_concat hc

theorem undigited_of_endsIn_isLetter {h : List UInt8} (hh : endsIn isLetter h = true) :
    Undigited h := by
  have hcls : ∀ c : UInt8, isLetter c = true → isDigit c = false :=
    forall_uint8 (by decide +kernel)
  obtain ⟨-, c, hlast, hc⟩ := endsIn_iff.1 hh
  exact undigited_of_last hlast (hcls c hc)

/-- The rest of `partitionSuffixP`. -/
theorem rest_p_iff :
    decide (t.head? = some 0x70 ∧ isNumber t.tail = true) = true
      ↔ ∃ ds, t = 0x70 :: ds ∧ isNumber ds = true := by
  rw [decide_eq_true_eq]
  cases t with
  | nil => simp
  | cons c t => simp [and_assoc]

section
variable {h ds : List UInt8}

theorem partitionSuffixP_eq_some (hh : endsIn isDigit h = true) (hds : isNumber ds = true) :
    partitionSuffixP (h ++ 0x70 :: ds) = some h := by
  refine firstGroup_eq_some hh (rest_p_iff.2 ⟨ds, rfl, hds⟩) fun h' t' heq _ hrest => ?_
  obtain ⟨ds', rfl, hds'⟩ := rest_p_iff.1 hrest
  have hp := undigited_concat (c := 0x70) (by decide)
  have hsame : h ++ [0x70] = h' ++ [0x70] :=
    number_unique (hp h) (hp h') (isNumber_iff.1 hds).2 (isNumber_iff.1 hds').2 (by simpa using heq)
  exact (append_cancel_right hsame).symm

/-- No digit and `p` before the number. -/
theorem partitionSuffixP_eq_none (hh : Undigited h) (hds : ∀ c ∈ ds, isDigit c = true)
    (hnot : ∀ g, h = g ++ [0x70] → endsIn isDigit g = false) : partitionSuffixP (h ++ ds) = none := by
  refine firstGroup_eq_none fun g t heq hg => ?_
  rw [Bool.eq_false_iff]
  intro hrest
  obtain ⟨ds', rfl, hds'⟩ := rest_p_iff.1 hrest
  have hsame : h = g ++ [0x70] :=
    number_unique hh (undigited_concat (by decide) g) hds (isNumber_iff.1 hds').2 (by simpa using heq)
  rw [hnot g hsame] at hg
  cases hg

theorem partitionSuffixPlain_eq_some (hh : endsIn isLetter h = true) (hds : isNumber ds = true) :
    partitionSuffixPlain (h ++ ds) = some h :=
  firstGroup_eq_some hh hds fun _ _ heq hh' hds' =>
    (number_unique (undigited_of_endsIn_isLetter hh) (undigited_of_endsIn_isLetter hh')
      (isNumber_iff.1 hds).2 (isNumber_iff.1 hds').2 heq).symm

theorem partitionSuffixPlain_eq_none (hh : Undigited h) : partitionSuffixPlain h = none := by
  refine firstGroup_eq_none fun g t heq hg => ?_
  rw [Bool.eq_false_iff]
  intro ht
  obtain ⟨hne, hdigits⟩ := isNumber_iff.1 ht
  have hnil : ∀ c ∈ ([] : List UInt8), isDigit c = true := fun _ hc => nomatch hc
  have hsame : h = g :=
    number_unique hh (undigited_of_endsIn_isLetter hg) hnil hdigits (by simpa using heq)
  rw [hsame] at heq
  exact hne (by simpa using heq)

end

/-! ### Whole disks -/

theorem isNumbered_iff {name : List UInt8} :
    isNumbered name t = true ↔ ∃ ds, t = name ++ ds ∧ isNumber ds = true := by
  rw [isNumbered, Bool.and_eq_true, List.isPrefixOf_iff_prefix]
  constructor
  · rintro ⟨⟨ds, rfl⟩, hds⟩
    rw [drop_left] at hds
    exact ⟨ds, rfl, hds⟩
  · rintro ⟨ds, rfl, hds⟩
    rw [drop_left]
    exact ⟨prefix_append _ _, hds⟩

theorem isNvme_iff :
    isNvme t = true ↔ ∃ x y, t = ascii "nvme" ++ x ++ ascii "n" ++ y ∧ isNumber x = true
      ∧ isNumber y = true := by
  rw [isNvme, Bool.and_eq_true, Bool.and_eq_true, List.isPrefixOf_iff_prefix]
  constructor
  · rintro ⟨⟨⟨r, rfl⟩, hx⟩, hy⟩
    rw [drop_left' (by decide)] at hx hy
    obtain ⟨y, hrest, hy⟩ := isNumbered_iff.1 hy
    refine ⟨r.takeWhile isDigit, y, ?_, hx, hy⟩
    rw [append_assoc, append_assoc, ← hrest, takeWhile_append_dropWhile]
  · rintro ⟨x, y, rfl, hx, hy⟩
    have hsplit : x ++ (ascii "n" ++ y) = x ++ 0x6E :: y := rfl
    have htake : (x ++ 0x6E :: y).takeWhile isDigit = x := by
      rw [takeWhile_append_of_pos (isNumber_iff.1 hx).2, takeWhile_cons_of_neg (by decide),
        append_nil]
    have hdrop : (x ++ 0x6E :: y).dropWhile isDigit = 0x6E :: y := by
      rw [dropWhile_append_of_pos (isNumber_iff.1 hx).2, dropWhile_cons_of_neg (by decide)]
    rw [append_assoc, append_assoc, drop_left' (by decide), hsplit, htake, hdrop]
    exact ⟨⟨prefix_append _ _, hx⟩, isNumbered_iff.2 ⟨y, rfl, hy⟩⟩

theorem pSuffixWholeDisk_eq_true :
    pSuffixWholeDisk s = true ↔ (∃ name ∈ numberedNames, ∃ ds, isNumber ds = true ∧ name ++ ds <:+ s)
      ∨ ∃ x ds, isNumber x = true ∧ isNumber ds = true
        ∧ ascii "nvme" ++ x ++ ascii "n" ++ ds <:+ s := by
  rw [pSuffixWholeDisk, any_eq_true]
  constructor
  · rintro ⟨t, ht, hmatch⟩
    rw [mem_tails] at ht
    rw [Bool.or_eq_true, any_eq_true] at hmatch
    rcases hmatch with hmatch | ⟨name, hname, hmatch⟩
    · obtain ⟨x, ds, rfl, hx, hds⟩ := isNvme_iff.1 hmatch
      exact .inr ⟨x, ds, hx, hds, ht⟩
    · obtain ⟨ds, rfl, hds⟩ := isNumbered_iff.1 hmatch
      exact .inl ⟨name, hname, ds, hds, ht⟩
  · rintro (⟨name, hname, ds, hds, ht⟩ | ⟨x, ds, hx, hds, ht⟩)
    all_goals
      refine ⟨_, (mem_tails _ _).2 ht, ?_⟩
      rw [Bool.or_eq_true, any_eq_true]
    · exact .inr ⟨name, hname, isNumbered_iff.2 ⟨ds, rfl, hds⟩⟩
    · exact .inl (isNvme_iff.2 ⟨x, ds, rfl, hx, hds⟩)

/-- What stands before a number at the end stands at the end of the head. -/
theorem suffix_number_iff {h ds : List UInt8} (hne : g ≠ []) (hg : Undigited g) (hh : Undigited h)
    (hds : isNumber ds = true) :
    (∃ ds', isNumber ds' = true ∧ g ++ ds' <:+ h ++ ds) ↔ g <:+ h := by
  constructor
  · rintro ⟨ds', hds', a, ha⟩
    refine ⟨a, number_unique (undigited_append hne hg a) hh (isNumber_iff.1 hds').2
      (isNumber_iff.1 hds).2 ?_⟩
    rw [append_assoc, ha]
  · rintro ⟨a, rfl⟩
    exact ⟨ds, hds, a, by rw [append_assoc]⟩

theorem undigited_numberedNames : ∀ name ∈ numberedNames, name ≠ [] ∧ Undigited name := by
  decide +kernel

/-- A name that ends in a number, by its head. -/
theorem pSuffixWholeDisk_iff {h ds : List UInt8} (hh : Undigited h) (hds : isNumber ds = true) :
    pSuffixWholeDisk (h ++ ds) = true ↔ (∃ name ∈ numberedNames, name <:+ h)
      ∨ ∃ x, isNumber x = true ∧ ascii "nvme" ++ x ++ ascii "n" <:+ h := by
  have hn : ∀ x, ascii "nvme" ++ x ++ ascii "n" ≠ [] ∧ Undigited (ascii "nvme" ++ x ++ ascii "n") :=
    fun x => ⟨by simp [ascii], undigited_concat (by decide) _⟩
  rw [pSuffixWholeDisk_eq_true]
  refine or_congr (exists_congr fun name => and_congr_right fun hname => ?_)
    (exists_congr fun x => ?_)
  · obtain ⟨hne, hname⟩ := undigited_numberedNames name hname
    exact suffix_number_iff hne hname hh hds
  · rw [← suffix_number_iff (hn x).1 (hn x).2 hh hds, ← exists_and_left]

/-! ### The disks -/

/-- The names before letters. -/
inductive Bus where
  | sd | vd | xvd
  deriving DecidableEq, Repr

/-- The names before a number. -/
inductive NumberedClass where
  | mmcblk | loop | nbd | md
  deriving DecidableEq, Repr

def Bus.text : Bus → List UInt8
  | .sd => ascii "/dev/sd"
  | .vd => ascii "/dev/vd"
  | .xvd => ascii "/dev/xvd"

def NumberedClass.text : NumberedClass → List UInt8
  | .mmcblk => ascii "/dev/mmcblk"
  | .loop => ascii "/dev/loop"
  | .nbd => ascii "/dev/nbd"
  | .md => ascii "/dev/md"

/-- The whole disks, by their names. -/
inductive Disk where
  | lettered (bus : Bus) (letters : List UInt8) (ne_nil : letters ≠ [])
      (lower : ∀ c ∈ letters, 0x61 ≤ c ∧ c ≤ 0x7A)
  | nvme (x y : List UInt8) (hx : isNumber x = true) (hy : isNumber y = true)
  | numbered (cls : NumberedClass) (n : List UInt8) (hn : isNumber n = true)

def Disk.name : Disk → List UInt8
  | .lettered bus letters _ _ => bus.text ++ letters
  | .nvme x y _ _ => ascii "/dev/nvme" ++ x ++ ascii "n" ++ y
  | .numbered cls n _ => cls.text ++ n

/-- A partition: behind a number, `p` goes before its own. -/
def Disk.partition (d : Disk) (n : Nat) : List UInt8 :=
  match d with
  | .lettered .. => d.name ++ decimal n
  | _ => d.name ++ 0x70 :: decimal n

/-- A whole disk or a partition of one that ends in a number. -/
theorem endsIn_isDigit_append {h ds : List UInt8} (hh : 0x0A ∉ h) (hds : isNumber ds = true) :
    endsIn isDigit (h ++ ds) = true := by
  obtain ⟨hne, hdigits⟩ := isNumber_iff.1 hds
  refine endsIn_iff.2 ⟨fun hmem => ?_, ds.getLast hne, ?_, hdigits _ (getLast_mem hne)⟩
  · rcases mem_append.1 hmem with hmem | hmem
    · exact hh hmem
    · exact absurd (hdigits _ hmem) (by decide)
  · rw [List.getLast?_append_of_ne_nil _ hne, List.getLast?_eq_some_getLast hne]

theorem base_of_partition {h ds : List UInt8} (hh : endsIn isDigit h = true) (hds : isNumber ds = true) :
    devicePartitionBase (h ++ 0x70 :: ds) = h := by
  rw [devicePartitionBase, partitionSuffixP_eq_some hh hds]

theorem base_of_wholeDisk {h ds : List UInt8} (hh : Undigited h) (hds : isNumber ds = true)
    (hnot : ∀ g, h = g ++ [0x70] → endsIn isDigit g = false)
    (hwhole : pSuffixWholeDisk (h ++ ds) = true) : devicePartitionBase (h ++ ds) = h ++ ds := by
  rw [devicePartitionBase, partitionSuffixP_eq_none hh (isNumber_iff.1 hds).2 hnot]
  exact if_pos hwhole

/-! ### Disks with a number -/

theorem numberedClass_text (cls : NumberedClass) :
    Undigited cls.text ∧ 0x0A ∉ cls.text ∧ endsIn isDigit cls.text.dropLast = false
      ∧ ∃ name ∈ numberedNames, name <:+ cls.text := by
  cases cls <;> decide +kernel

theorem numbered_base (cls : NumberedClass) {ds : List UInt8} (hds : isNumber ds = true) (n : Nat) :
    devicePartitionBase (cls.text ++ ds ++ 0x70 :: decimal n) = cls.text ++ ds
      ∧ devicePartitionBase (cls.text ++ ds) = cls.text ++ ds := by
  obtain ⟨hh, hnl, hbefore, hname⟩ := numberedClass_text cls
  refine ⟨base_of_partition (endsIn_isDigit_append hnl hds) (isNumber_decimal n),
    base_of_wholeDisk hh hds (fun g hg => ?_) ((pSuffixWholeDisk_iff hh hds).2 (.inl hname))⟩
  rw [hg, dropLast_concat] at hbefore
  exact hbefore

theorem nvme_base {x y : List UInt8} (hx : isNumber x = true) (hy : isNumber y = true) (n : Nat) :
    devicePartitionBase (ascii "/dev/nvme" ++ x ++ ascii "n" ++ y ++ 0x70 :: decimal n)
        = ascii "/dev/nvme" ++ x ++ ascii "n" ++ y
      ∧ devicePartitionBase (ascii "/dev/nvme" ++ x ++ ascii "n" ++ y)
        = ascii "/dev/nvme" ++ x ++ ascii "n" ++ y := by
  have hh : Undigited (ascii "/dev/nvme" ++ x ++ ascii "n") := undigited_concat (by decide) _
  have hnl : 0x0A ∉ ascii "/dev/nvme" ++ x ++ ascii "n" := by
    intro hmem
    rcases mem_append.1 hmem with hmem | hmem
    · rcases mem_append.1 hmem with hmem | hmem
      · exact absurd hmem (by decide)
      · exact absurd ((isNumber_iff.1 hx).2 _ hmem) (by decide)
    · exact absurd hmem (by decide)
  refine ⟨base_of_partition (endsIn_isDigit_append hnl hy) (isNumber_decimal n),
    base_of_wholeDisk hh hy (fun g hg => ?_) ((pSuffixWholeDisk_iff hh hy).2 (.inr ⟨x, hx, ?_⟩))⟩
  · -- the head ends in `n`
    have hlast := congrArg List.getLast? hg
    rw [show ascii "n" = [0x6E] from rfl, List.getLast?_concat, List.getLast?_concat] at hlast
    exact absurd hlast (by decide)
  · exact ⟨ascii "/dev/", by simp [ascii]⟩

/-! ### Disks with letters -/

section
variable {bus : Bus} {letters : List UInt8}

theorem not_isDigit_of_mem_lettered (hlower : ∀ c ∈ letters, 0x61 ≤ c ∧ c ≤ 0x7A) :
    ∀ c ∈ bus.text ++ letters, isDigit c = false ∧ c ≠ 0x0A := by
  have hbyte : ∀ c : UInt8, 0x61 ≤ c ∧ c ≤ 0x7A → isDigit c = false ∧ c ≠ 0x0A :=
    forall_uint8 (by decide +kernel)
  have hbus : ∀ c ∈ bus.text, isDigit c = false ∧ c ≠ 0x0A := by cases bus <;> decide +kernel
  intro c hc
  rcases mem_append.1 hc with hc | hc
  · exact hbus c hc
  · exact hbyte c (hlower c hc)

theorem endsIn_isLetter_lettered (bus : Bus) (hne : letters ≠ [])
    (hlower : ∀ c ∈ letters, 0x61 ≤ c ∧ c ≤ 0x7A) :
    endsIn isLetter (bus.text ++ letters) = true := by
  have hbyte : ∀ c : UInt8, 0x61 ≤ c ∧ c ≤ 0x7A → isLetter c = true := forall_uint8 (by decide +kernel)
  refine endsIn_iff.2 ⟨fun hmem => (not_isDigit_of_mem_lettered hlower _ hmem).2 rfl,
    letters.getLast hne, ?_, hbyte _ (hlower _ (getLast_mem hne))⟩
  rw [List.getLast?_append_of_ne_nil _ hne, List.getLast?_eq_some_getLast hne]

/-- A partition of a disk with letters looks like a whole disk if the letters end in a name. -/
theorem lettered_wholeDisk_iff (hne : letters ≠ []) (hlower : ∀ c ∈ letters, 0x61 ≤ c ∧ c ≤ 0x7A)
    (n : Nat) : pSuffixWholeDisk (bus.text ++ letters ++ decimal n) = true
      ↔ ∃ name ∈ numberedNames, name <:+ bus.text ++ letters := by
  have hh := undigited_of_endsIn_isLetter (endsIn_isLetter_lettered bus hne hlower)
  rw [pSuffixWholeDisk_iff hh (isNumber_decimal n), or_iff_left]
  rintro ⟨x, hx, hsuffix⟩
  obtain ⟨hxne, hdigits⟩ := isNumber_iff.1 hx
  have hmem : x.getLast hxne ∈ bus.text ++ letters := hsuffix.subset (by simp)
  have hdigit := hdigits _ (getLast_mem hxne)
  rw [(not_isDigit_of_mem_lettered hlower _ hmem).1] at hdigit
  cases hdigit

theorem lettered_base (bus : Bus) (hne : letters ≠ [])
    (hlower : ∀ c ∈ letters, 0x61 ≤ c ∧ c ≤ 0x7A) (n : Nat) :
    (devicePartitionBase (bus.text ++ letters ++ decimal n) = bus.text ++ letters
        ↔ ∀ name ∈ numberedNames, ¬ name <:+ bus.text ++ letters)
      ∧ devicePartitionBase (bus.text ++ letters) = bus.text ++ letters := by
  have hletter := endsIn_isLetter_lettered bus hne hlower
  have hh := undigited_of_endsIn_isLetter hletter
  have hnot : ∀ g, bus.text ++ letters = g ++ [0x70] → endsIn isDigit g = false := by
    intro g hg
    rw [Bool.eq_false_iff]
    intro hends
    obtain ⟨-, c, hlast, hc⟩ := endsIn_iff.1 hends
    have hmem : c ∈ bus.text ++ letters := by
      rw [hg]
      exact mem_append_left _ (mem_of_getLast? hlast)
    rw [(not_isDigit_of_mem_lettered hlower c hmem).1] at hc
    cases hc
  constructor
  · rw [devicePartitionBase, partitionSuffixP_eq_none hh (isNumber_iff.1 (isNumber_decimal n)).2 hnot,
      partitionSuffixPlain_eq_some hletter (isNumber_decimal n)]
    dsimp only
    by_cases hname : ∃ name ∈ numberedNames, name <:+ bus.text ++ letters
    · rw [if_pos ((lettered_wholeDisk_iff hne hlower n).2 hname)]
      refine iff_of_false (fun h => ?_) (fun h => ?_)
      · exact decimal_ne_nil n (by simpa using h)
      · obtain ⟨name, hmem, hs⟩ := hname
        exact h name hmem hs
    · rw [if_neg fun h => hname ((lettered_wholeDisk_iff hne hlower n).1 h)]
      exact iff_of_true rfl fun name hmem hs => hname ⟨name, hmem, hs⟩
  · have hnone : partitionSuffixP (bus.text ++ letters) = none := by
      have hnil : ∀ c ∈ ([] : List UInt8), isDigit c = true := fun _ hc => nomatch hc
      have hempty := partitionSuffixP_eq_none hh hnil hnot
      rwa [append_nil] at hempty
    rw [devicePartitionBase, hnone, partitionSuffixPlain_eq_none hh]
    simp

end

/-! ### All disks -/

/-- A name that ends in a number does not end in one of the names. -/
theorem not_suffix_of_number {h ds : List UInt8} (hds : isNumber ds = true) :
    ∀ name ∈ numberedNames, ¬ name <:+ h ++ ds := by
  rintro name hname ⟨a, ha⟩
  obtain ⟨hne, hundigited⟩ := undigited_numberedNames name hname
  refine not_undigited_append hds h ?_
  rw [← ha]
  exact undigited_append hne hundigited a

/-- `DevicePartitionBase` takes every partition of a disk, and the disk itself, to the disk, exactly
if the disk's name does not end in one of the names that a number follows. -/
theorem partition_base_iff (d : Disk) (n : Nat) :
    devicePartitionBase (d.partition n) = d.name ∧ devicePartitionBase d.name = d.name
      ↔ ∀ name ∈ numberedNames, ¬ name <:+ d.name := by
  cases d with
  | lettered bus letters hne hlower =>
    obtain ⟨hpart, hdisk⟩ := lettered_base bus hne hlower n
    exact (and_iff_left hdisk).trans hpart
  | nvme x y hx hy => exact iff_of_true (nvme_base hx hy n) (not_suffix_of_number hy)
  | numbered cls m hm => exact iff_of_true (numbered_base cls hm n) (not_suffix_of_number hm)

/-- The 342nd SCSI disk. -/
def sdmd : Disk := .lettered .sd (ascii "md") (by decide) (by decide +kernel)

/-- Its first partition is taken for a whole disk. -/
theorem sdmd_partition : sdmd.name = ascii "/dev/sdmd" ∧ sdmd.partition 1 = ascii "/dev/sdmd1"
    ∧ devicePartitionBase (sdmd.partition 1) = ascii "/dev/sdmd1" := by
  decide +kernel

end ZfsBoot.Proofs.Tool.DeviceName
