import ZfsBoot.Tool.Release

/-!
# `ZfsBoot.Proofs.Tool.Release`: what comes out of a release

`resolveBios_spec` is about every server, every mix of sources and every failure. It follows the
functions one by one with one kind of assertion, `At keep L`: the temporary files are exactly `keep`,
and the log of requests has the property `L`. A property of the log that matters here is that some
answer is in it, so it survives every further request (`Grows`).

On success each of the five files is as its source demands (`Proper`), and all the ones from the
release are under one tag. On a failure no temporary file is left.
-/

set_option autoImplicit false

namespace ZfsBoot.Proofs.Tool.Release

open List hiding removeAll
open Lib Lib.Halting ZfsBoot.Tool.Release
open Bios (ascii)

variable {data : Bytes} {path : Nat} {w : World}

/-- The answers so far. -/
abbrev Log := List (Bytes × Response)

/-- A property of the log that a further request does not end. -/
def Grows (L : Log → Prop) : Prop := ∀ r log, L log → L (r :: log)

/-- The temporary files are `keep`, and the log has the property `L`. -/
structure At (keep : Nat → Option Bytes) (L : Log → Prop) (w : World) : Prop where
  temps : w.temps = keep
  fresh : ∀ tmp, w.created ≤ tmp → keep tmp = none
  log : L w.requests

/-- The URL was answered with these bytes. -/
def Fetched (log : Log) (url bytes : Bytes) : Prop := (url, Response.body bytes true) ∈ log

/-- The data passed the signature check for a URL, an asset and a tag. -/
def Signed (env : Outside) (log : Log) (url assetFile tag data : Bytes) : Prop :=
  ∃ sig comment, Fetched log (env.minisigUrl url) sig ∧ env.verify data sig = some comment
    ∧ CommentFor tag assetFile comment

theorem Grows.and_fetched {L : Log → Prop} (h : Grows L) (url bytes : Bytes) :
    Grows fun log => L log ∧ Fetched log url bytes :=
  fun r log hlog => ⟨h r log hlog.1, mem_cons_of_mem _ hlog.2⟩

theorem Grows.and_signed {L : Log → Prop} (h : Grows L) (env : Outside)
    (url assetFile tag data : Bytes) :
    Grows fun log => L log ∧ Signed env log url assetFile tag data := by
  rintro r log ⟨hlog, sig, comment, hsig, hverify⟩
  exact ⟨h r log hlog, sig, comment, mem_cons_of_mem _ hsig, hverify⟩

theorem At.mono {keep : Nat → Option Bytes} {L L' : Log → Prop} (h : At keep L w)
    (hL : ∀ log, L log → L' log) : At keep L' w := ⟨h.temps, h.fresh, hL _ h.log⟩

/-- A temporary file is written. -/
theorem At.write {keep : Nat → Option Bytes} {L : Log → Prop} (h : At keep L w)
    {tmp : Nat} (htmp : tmp < w.created) (content : Option Bytes) :
    At (Function.update keep tmp content) L (w.setTemp tmp content) := by
  refine ⟨by rw [World.setTemp, h.temps], fun x hx => ?_, h.log⟩
  have hx : w.created ≤ x := hx
  rw [Function.update_of_ne (by omega)]
  exact h.fresh x hx

/-- A temporary file is removed. -/
theorem At.remove {keep : Nat → Option Bytes} {L : Log → Prop} (h : At keep L w)
    (tmp : Nat) : At (Function.update keep tmp none) L (w.setTemp tmp none) := by
  refine ⟨by rw [World.setTemp, h.temps], fun x hx => ?_, h.log⟩
  by_cases hxt : x = tmp
  · rw [hxt, Function.update_self]
  · rw [Function.update_of_ne hxt]
    exact h.fresh x hx

/-- A new temporary file that goes again leaves the others. -/
theorem update_none {keep : Nat → Option Bytes} {tmp : Nat} (h : keep tmp = none)
    (content : Option Bytes) : Function.update (Function.update keep tmp content) tmp none = keep := by
  rw [Function.update_idem, Function.update_eq_self_iff, h]

/-! ### Requests and temporary files -/

section
variable (env : Outside) {keep : Nat → Option Bytes} {L : Log → Prop} {E : ReleaseError → World → Prop}

theorem request_spec (hL : Grows L) (url : Bytes) :
    Triple (At keep L) (request env url) (fun r => At keep fun log => L log ∧ (url, r) ∈ log) E :=
  ⟨fun _ h => ⟨h.temps, h.fresh, hL _ _ h.log, mem_cons_self⟩⟩

theorem fileOp_spec : Triple (At keep L) (fileOp env) (fun _ => At keep L) E :=
  ⟨fun _ h => ⟨h.temps, h.fresh, h.log⟩⟩

/-- A temporary file was added to `keep`. -/
structure Added (keep : Nat → Option Bytes) (L : Log → Prop) (content : Bytes) (tmp : Nat) (w : World) :
    Prop where
  new : keep tmp = none
  state : At (Function.update keep tmp (some content)) L w

theorem createTemp_spec (e : ReleaseError) :
    Triple (At keep L) (createTemp env e) (fun tmp w => Added keep L [] tmp w ∧ tmp < w.created)
      fun _ => At keep L := by
  refine triple_bind _ (fileOp_spec env) fun ok => triple_ite (fun _ => ⟨fun w h => ?_⟩) fun _ =>
    triple_stop fun _ h => h
  refine ⟨⟨h.fresh _ le_rfl, ?_, fun x hx => ?_, h.log⟩, Nat.lt_succ_self _⟩
  · show Function.update w.temps w.created (some []) = _
    rw [h.temps]
  · have hx : w.created + 1 ≤ x := hx
    rw [Function.update_of_ne (by omega)]
    exact h.fresh x (by omega)

/-- What was added goes again. -/
theorem remove_spec {content : Bytes} (tmp : Nat) :
    Triple (Added keep L content tmp) (remove tmp) (fun _ => At keep L) E := by
  refine triple_modify fun w h => ?_
  have := h.state.remove tmp
  rwa [update_none h.new] at this

theorem copyInto_spec (tmp : Nat) (bytes : Bytes) (complete : Bool) (e : ReleaseError) :
    Triple (fun w => Added keep L [] tmp w ∧ tmp < w.created) (copyInto env tmp bytes complete e)
      (fun t => Added keep (fun log => L log ∧ complete = true) bytes t) fun _ => At keep L := by
  refine triple_bind (fun _ w => Added keep L [] tmp w ∧ tmp < w.created) ⟨fun w h =>
    ⟨⟨h.1.new, h.1.state.temps, h.1.state.fresh, h.1.state.log⟩, h.2⟩⟩ fun ok => ?_
  refine triple_ite (fun hok => ?_) fun _ => ?_
  · refine triple_bind (fun _ => Added keep L bytes tmp) (triple_modify fun w h => ⟨h.1.new, ?_⟩)
      fun _ => triple_pure fun w h => ⟨h.new, h.state.mono fun log hlog => ⟨hlog, hok.2⟩⟩
    have := h.1.state.write h.2 (some bytes)
    rwa [Function.update_idem] at this
  · exact triple_bind (fun _ => At keep L) ((remove_spec tmp).pre fun w h => h.1) fun _ =>
      triple_stop fun _ h => h

/-- A new temporary file with some bytes in it, or none at all. -/
theorem fillTemp_spec (bytes : Bytes) (complete : Bool) (e e' : ReleaseError) :
    Triple (At keep L) (createTemp env e >>= fun tmp => copyInto env tmp bytes complete e')
      (fun t => Added keep (fun log => L log ∧ complete = true) bytes t) fun _ => At keep L :=
  triple_bind _ (createTemp_spec env e) fun tmp => copyInto_spec env tmp bytes complete e'

theorem readTemp_spec (tmp : Nat) (e : ReleaseError) :
    Triple (At keep L) (readTemp env tmp e) (fun data w => At keep L w ∧ keep tmp = some data)
      fun _ => At keep L := by
  refine triple_bind _ (fileOp_spec env) fun ok => triple_look fun now hnow => ?_
  cases hcontent : now.temps tmp with
  | none => exact triple_stop fun w hw => hw ▸ hnow
  | some content =>
    refine triple_ite (fun _ => triple_pure fun w hw => ?_) fun _ => triple_stop fun w hw => hw ▸ hnow
    exact ⟨hw ▸ hnow, by rw [← hnow.temps, hcontent]⟩

theorem downloadAsset_spec (hL : Grows L) (url : Bytes) :
    Triple (At keep L) (downloadAsset env url)
      (fun tmp w => ∃ bytes, Added keep (fun log => L log ∧ Fetched log url bytes) bytes tmp w)
      fun _ => At keep L := by
  refine triple_bind _ (request_spec env hL url) fun r => ?_
  have hstop : ∀ e, Triple (At keep fun log => L log ∧ (url, r) ∈ log)
      (stop e : Halting ReleaseError World Nat)
      (fun tmp w => ∃ bytes, Added keep (fun log => L log ∧ Fetched log url bytes) bytes tmp w)
      fun _ => At keep L := fun e => triple_stop fun w h => h.mono fun _ hlog => hlog.1
  cases r with
  | unreachable => exact hstop _
  | status code => exact hstop _
  | body bytes complete =>
    refine ((fillTemp_spec env bytes complete _ _).post fun tmp w h =>
      ⟨bytes, h.new, h.state.mono fun log hlog => ?_⟩).post_error
      fun e w h => h.mono fun _ hlog => hlog.1
    obtain ⟨⟨hlog, hmem⟩, rfl⟩ := hlog
    exact ⟨hlog, hmem⟩

theorem copyToTemp_spec (src : Bytes) :
    Triple (At keep L) (copyToTemp env src)
      (fun tmp w => ∃ bytes, env.localFile src = some (bytes, true) ∧ Added keep L bytes tmp w)
      fun _ => At keep L := by
  unfold copyToTemp
  cases hfile : env.localFile src with
  | none => exact triple_stop fun w h => h
  | some file =>
    obtain ⟨bytes, complete⟩ := file
    refine (fillTemp_spec env bytes complete _ _).post fun tmp w h =>
      ⟨bytes, ?_, h.new, h.state.mono fun log hlog => hlog.1⟩
    rw [h.state.log.2]

/-! ### Checks -/

theorem verifyChecksum_spec (hpath : keep path = some data) (name : Bytes)
    (sums : List (Bytes × Bytes)) :
    Triple (At keep L) (verifyChecksum env name path sums)
      (fun _ w => At keep L w ∧ sums.lookup name = some (hexEncode (Sha256.digest data).toList))
      fun _ => At keep L := by
  unfold verifyChecksum
  cases hwant : sums.lookup name with
  | none => exact triple_stop fun w h => h
  | some want =>
    refine triple_bind _ (readTemp_spec env path _) fun read => triple_of_and fun hread => ?_
    obtain rfl : data = read := Option.some.inj (hpath.symm.trans hread)
    refine Triple.post (triple_require fun w h _ => h) fun _ w h => ⟨h.1, ?_⟩
    rw [h.2]

/-- The signature's own temporary file is gone afterwards, however the check goes. -/
theorem verifySignatureAtUrl_spec (hL : Grows L)
    (hpath : keep path = some data) (url assetFile tag : Bytes) :
    Triple (At keep L) (verifySignatureAtUrl env url path assetFile tag)
      (fun _ => At keep fun log => L log ∧ Signed env log url assetFile tag data)
      fun _ => At keep L := by
  refine triple_bind _ (triple_relabel (downloadAsset_spec env hL _)) fun sigPath =>
    triple_exists fun sig => triple_ensure ?_
  let keep' := Function.update keep sigPath (some sig)
  let L' : Log → Prop := fun log => L log ∧ Fetched log (env.minisigUrl url) sig
  refine Triple.pre (P := fun w => At keep' L' w ∧ keep sigPath = none) ?_
    fun w h => ⟨h.state, h.new⟩
  refine triple_of_and fun hnew => ?_
  have hgone : ∀ w (M : Log → Prop), At keep' M w → At keep M (w.setTemp sigPath none) := by
    intro w M h
    have := h.remove sigPath
    rwa [update_none hnew] at this
  have hpath' : keep' path = some data := by
    have hne : path ≠ sigPath := by
      rintro rfl
      rw [hnew] at hpath
      cases hpath
    exact (Function.update_of_ne hne ..).trans hpath
  refine Triple.post_error (E := fun _ => At keep' L') ?_
    fun _ w h => hgone w L (h.mono fun _ hlog => hlog.1)
  refine triple_bind _ (readTemp_spec env sigPath _) fun sigData => triple_of_and fun hsig => ?_
  obtain rfl : sig = sigData := Option.some.inj ((Function.update_self sigPath (some sig) keep).symm.trans hsig)
  refine triple_bind _ (readTemp_spec env path _) fun read => triple_of_and fun hread => ?_
  obtain rfl : data = read := Option.some.inj (hpath'.symm.trans hread)
  cases hverify : env.verify data sig with
  | none => exact triple_stop fun w h => h
  | some comment =>
    refine Triple.post (triple_require fun w h _ => h) fun _ w h => hgone w _ ?_
    exact h.1.mono fun log hlog => ⟨hlog.1, sig, comment, hlog.2, hverify, h.2⟩

/-- A check of a new file that removes it if it fails. -/
theorem checked_spec {x : Halting ReleaseError World Unit} {L' L'' : Log → Prop}
    (hx : Triple (At (Function.update keep path (some data)) L') x
      (fun _ => At (Function.update keep path (some data)) L'')
      fun _ => At (Function.update keep path (some data)) L) :
    Triple (Added keep L' data path)
      (do
        x.rescue fun e => do
          remove path
          stop e
        return path)
      (fun p => Added keep L'' data p) fun _ => At keep L := by
  refine Triple.pre (P := fun w => At (Function.update keep path (some data)) L' w ∧ keep path = none)
    ?_ fun w h => ⟨h.state, h.new⟩
  refine triple_of_and fun hnew => triple_bind _ (triple_rescue _ hx fun e => ?_) fun _ =>
    triple_pure fun w h => ⟨hnew, h⟩
  refine triple_bind (fun _ => At keep L) ((remove_spec path).pre fun w h => ⟨hnew, h⟩) fun _ => ?_
  exact triple_stop fun w h => h

/-! ### One file -/

/-- A file is what its source demands, for a tag and its checksums. -/
def Proper (src : Slot → Source) (arch tag : Bytes) (sums : List (Bytes × Bytes)) (slot : Slot)
    (log : Log) (data : Bytes) : Prop :=
  if (src slot).file ≠ [] then env.localFile (src slot).file = some (data, true)
  else if (src slot).url ≠ [] then
    Fetched log (src slot).url data
      ∧ Signed env log (src slot).url (biosAssetName arch slot) [] data
  else
    Fetched log (tagBase tag ++ biosAssetName arch slot) data
      ∧ sums.lookup (biosAssetName arch slot) = some (hexEncode (Sha256.digest data).toList)
      ∧ Signed env log (tagBase tag ++ biosAssetName arch slot) (biosAssetName arch slot) tag data

section
variable (src : Slot → Source) (arch tag : Bytes) (sums : List (Bytes × Bytes))

theorem resolveSlot_spec (hL : Grows L) (slot : Slot) :
    Triple (At keep L) (resolveSlot env src arch tag sums slot)
      (fun path w => ∃ data,
        Added keep (fun log => L log ∧ Proper env src arch tag sums slot log data) data path w)
      fun _ => At keep L := by
  unfold resolveSlot Source.resolve Proper
  by_cases hfile : (src slot).file ≠ []
  · rw [if_neg fun h => hfile h.1]
    simp only [if_pos hfile]
    refine (copyToTemp_spec env (src slot).file).post fun path w ⟨data, hdata, h⟩ => ?_
    exact ⟨data, h.new, h.state.mono fun log hlog => ⟨hlog, hdata⟩⟩
  by_cases hurl : (src slot).url ≠ []
  · rw [if_neg fun h => hurl h.2]
    simp only [if_neg hfile, if_pos hurl]
    refine triple_bind _ (downloadAsset_spec env hL (src slot).url) fun path =>
      triple_exists fun data => ?_
    have hverify := verifySignatureAtUrl_spec env
      (hL.and_fetched (src slot).url data) (Function.update_self path (some data) keep)
      (src slot).url (biosAssetName arch slot) []
    refine (checked_spec (hverify.post_error fun _ w h => h.mono fun _ hlog => hlog.1)).post
      fun p w h => ⟨data, h.new, h.state.mono fun log hlog => ?_⟩
    exact ⟨hlog.1.1, hlog.1.2, hlog.2⟩
  · rw [if_pos ⟨not_not.1 hfile, not_not.1 hurl⟩]
    simp only [if_neg hfile, if_neg hurl]
    refine triple_bind _ (downloadAsset_spec env hL _) fun path => triple_exists fun data => ?_
    have hkept := Function.update_self path (some data) keep
    refine Triple.post (checked_spec (triple_bind _ ((verifyChecksum_spec env hkept _ sums).post_error
      fun _ w h => h.mono fun _ hlog => hlog.1) fun _ => triple_of_and fun hsum => ?_))
      fun p w h => ⟨data, h⟩
    have hgrows := hL.and_fetched (tagBase tag ++ biosAssetName arch slot) data
    have hverify := verifySignatureAtUrl_spec env hgrows hkept
      (tagBase tag ++ biosAssetName arch slot) (biosAssetName arch slot) tag
    refine (hverify.post fun _ w h => h.mono fun log hlog => ?_).post_error
      fun _ w h => h.mono fun _ hlog => hlog.1
    exact ⟨hlog.1.1, hlog.1.2, hsum, hlog.2⟩

theorem Proper.grows {slot : Slot} (r : Bytes × Response) {log : Log}
    (h : Proper env src arch tag sums slot log data) :
    Proper env src arch tag sums slot (r :: log) data := by
  have hsigned := fun url assetFile tag => Grows.and_signed (L := fun _ => True) (fun _ _ _ => trivial)
    env url assetFile tag data r log
  revert h
  unfold Proper
  split_ifs with hfile hurl
  · exact id
  · exact fun h => ⟨mem_cons_of_mem _ h.1, (hsigned _ _ _ ⟨trivial, h.2⟩).2⟩
  · exact fun h => ⟨mem_cons_of_mem _ h.1, h.2.1, (hsigned _ _ _ ⟨trivial, h.2.2⟩).2⟩

/-! ### All files -/

/-- The files so far: each is as it should be, and there is no other temporary file. -/
structure Collected (keep : Nat → Option Bytes) (assets : Assets) (done : List Slot) (log : Log) :
    Prop where
  proper : ∀ slot ∈ done, ∃ path data, assets slot = some path ∧ keep path = some data
    ∧ Proper env src arch tag sums slot log data
  only : ∀ tmp, keep tmp ≠ none → ∃ slot ∈ done, assets slot = some tmp

theorem Collected.grows {assets : Assets} {done : List Slot} :
    Grows (Collected env src arch tag sums keep assets done) := by
  refine fun r log h => ⟨fun slot hslot => ?_, h.only⟩
  obtain ⟨path, data, hpath, hdata, hproper⟩ := h.proper slot hslot
  exact ⟨path, data, hpath, hdata, hproper.grows env src arch tag sums r⟩

/-- One more file. -/
theorem Collected.add {assets : Assets} {done : List Slot} {log : Log} {slot : Slot}
    (h : Collected env src arch tag sums keep assets done log) (hslot : slot ∉ done)
    (hnew : keep path = none) (hdata : Proper env src arch tag sums slot log data) :
    Collected env src arch tag sums (Function.update keep path (some data))
      (Function.update assets slot (some path)) (done ++ [slot]) log := by
  constructor
  · intro s hs
    rcases mem_append.1 hs with hs | hs
    · obtain ⟨p, d, hp, hd, hproper⟩ := h.proper s hs
      have hs : s ≠ slot := fun heq => hslot (heq ▸ hs)
      have hp' : p ≠ path := by
        rintro rfl
        rw [hnew] at hd
        cases hd
      exact ⟨p, d, by rw [Function.update_of_ne hs, hp], by rw [Function.update_of_ne hp', hd], hproper⟩
    · obtain rfl := mem_singleton.1 hs
      exact ⟨path, data, Function.update_self .., Function.update_self .., hdata⟩
  · intro tmp htmp
    by_cases heq : tmp = path
    · exact ⟨slot, by simp, by rw [heq, Function.update_self]⟩
    · rw [Function.update_of_ne heq] at htmp
      obtain ⟨s, hs, hs'⟩ := h.only tmp htmp
      have hne : s ≠ slot := fun heq => hslot (heq ▸ hs)
      exact ⟨s, mem_append_left _ hs, by rw [Function.update_of_ne hne, hs']⟩

theorem mem_slots (slot : Slot) : slot ∈ slots := by
  cases slot <;> decide

/-- Every temporary file that is left is one of the assets that are still to be removed. -/
theorem removeAll_spec (assets : Assets) (l : List Slot) :
    Triple (fun w : World => ∀ tmp, w.temps tmp ≠ none → ∃ slot ∈ l, assets slot = some tmp)
      (removeAll assets l) (fun _ w => ∀ tmp, w.temps tmp = none) E := by
  induction l with
  | nil =>
    refine triple_pure fun w h tmp => by_contra fun hne => ?_
    obtain ⟨slot, hslot, -⟩ := h tmp hne
    cases hslot
  | cons slot l ih =>
    unfold removeAll
    cases hslot : assets slot with
    | none =>
      refine ih.pre fun w h tmp hne => ?_
      obtain ⟨s, hs, htmp⟩ := h tmp hne
      rcases mem_cons.1 hs with rfl | hs
      · rw [hslot] at htmp
        cases htmp
      · exact ⟨s, hs, htmp⟩
    | some path =>
      refine triple_bind _ (triple_modify fun w h tmp hne => ?_) fun _ => ih
      have hpath : tmp ≠ path := fun heq => hne (heq ▸ Function.update_self ..)
      rw [show (w.setTemp path none).temps tmp = w.temps tmp from Function.update_of_ne hpath ..]
        at hne
      obtain ⟨s, hs, htmp⟩ := h tmp hne
      rcases mem_cons.1 hs with rfl | hs
      · exact absurd (Option.some.inj (htmp.symm.trans hslot)) hpath
      · exact ⟨s, hs, htmp⟩

theorem resolveSlots_spec (hL : Grows L) (done rest : List Slot) (hnodup : (done ++ rest).Nodup)
    (assets : Assets) :
    Triple
      (fun w => ∃ keep, At keep
        (fun log => L log ∧ Collected env src arch tag sums keep assets done log) w)
      (resolveSlots env src arch tag sums rest assets)
      (fun assets w => ∃ keep, At keep
        (fun log => L log ∧ Collected env src arch tag sums keep assets (done ++ rest) log) w)
      fun _ w => ∀ tmp, w.temps tmp = none := by
  induction rest generalizing done assets with
  | nil => exact triple_pure fun w h => by rwa [append_nil]
  | cons slot rest ih =>
    refine triple_exists fun keep => ?_
    have hgrows : Grows fun log => L log ∧ Collected env src arch tag sums keep assets done log :=
      fun r log h => ⟨hL r log h.1, Collected.grows env src arch tag sums r log h.2⟩
    refine triple_bind _ (triple_rescue _ (resolveSlot_spec env src arch tag sums hgrows slot)
      fun e => ?_) fun path => ?_
    · refine triple_bind _ ((removeAll_spec assets slots).pre fun w h tmp hne => ?_) fun _ =>
        triple_stop fun w h => h
      rw [h.temps] at hne
      obtain ⟨s, -, hs⟩ := h.log.2.only tmp hne
      exact ⟨s, mem_slots s, hs⟩
    · have hslot : slot ∉ done := fun h =>
        (nodup_append.1 hnodup).2.2 slot h slot mem_cons_self rfl
      rw [append_cons] at hnodup ⊢
      refine (ih (done ++ [slot]) hnodup (Function.update assets slot (some path))).pre ?_
      rintro w ⟨data, h⟩
      refine ⟨_, h.state.mono fun log hlog => ⟨hlog.1.1, ?_⟩⟩
      exact hlog.1.2.add env src arch tag sums hslot h.new hlog.2

/-- The whole loop, from no temporary files. -/
theorem resolveSlots_slots_spec (hL : Grows L) :
    Triple (At (fun _ => none) L) (resolveSlots env src arch tag sums slots fun _ => none)
      (fun assets w => L w.requests ∧ ∀ slot, ∃ path data, assets slot = some path
        ∧ w.temps path = some data ∧ Proper env src arch tag sums slot w.requests data)
      fun _ w => ∀ tmp, w.temps tmp = none := by
  have hloop := resolveSlots_spec env src arch tag sums hL [] slots (by decide) fun _ => none
  refine (hloop.post ?_).pre ?_
  · rintro assets w ⟨keep, h⟩
    refine ⟨h.log.1, fun slot => ?_⟩
    rw [h.temps]
    exact h.log.2.proper slot (mem_slots slot)
  · intro w h
    exact ⟨fun _ => none, h.mono fun log hlog => ⟨hlog, by simp, fun tmp hne => absurd rfl hne⟩⟩

end

/-! ### The release -/

/-- The tag is the answer to a question for the latest release. -/
def Latest (log : Log) (tag : Bytes) : Prop :=
  tag ≠ [] ∧ ∃ bytes complete, (apiLatestReleaseUrl, Response.body bytes complete) ∈ log
    ∧ env.decodeTag bytes complete = some tag

/-- The checksums are those of the release with this tag. -/
def SumsOf (log : Log) (tag : Bytes) (sums : List (Bytes × Bytes)) : Prop :=
  ∃ bytes, Fetched log (tagBase tag ++ ascii "SHA256SUMS") bytes ∧ parseSums bytes = .ok sums

theorem Latest.grows (tag : Bytes) : Grows fun log => Latest env log tag := by
  rintro r log ⟨htag, bytes, complete, hmem, hdecode⟩
  exact ⟨htag, bytes, complete, mem_cons_of_mem _ hmem, hdecode⟩

theorem SumsOf.grows (tag : Bytes) (sums : List (Bytes × Bytes)) :
    Grows fun log => SumsOf log tag sums := by
  rintro r log ⟨bytes, hmem, hparse⟩
  exact ⟨bytes, mem_cons_of_mem _ hmem, hparse⟩

theorem resolveTag_spec (hL : Grows L) :
    Triple (At keep L) (resolveTag env) (fun tag => At keep fun log => Latest env log tag)
      fun _ => At keep L := by
  refine triple_bind _ (request_spec env hL _) fun r => ?_
  cases r with
  | unreachable => exact triple_stop fun w h => h.mono fun _ hlog => hlog.1
  | status code => exact triple_stop fun w h => h.mono fun _ hlog => hlog.1
  | body bytes complete =>
    dsimp only
    cases hdecode : env.decodeTag bytes complete with
    | none => exact triple_stop fun w h => h.mono fun _ hlog => hlog.1
    | some tag =>
      refine triple_ite (fun _ => triple_stop fun w h => h.mono fun _ hlog => hlog.1) fun htag =>
        triple_pure fun w h => h.mono fun log hlog => ?_
      exact ⟨htag, bytes, complete, hlog.2, hdecode⟩

theorem fetchChecksums_spec (hL : Grows L) (tag : Bytes) :
    Triple (At keep L) (fetchChecksums env tag)
      (fun sums => At keep fun log => L log ∧ SumsOf log tag sums) fun _ => At keep L := by
  refine triple_bind _ (request_spec env hL _) fun r => ?_
  cases r with
  | unreachable => exact triple_stop fun w h => h.mono fun _ hlog => hlog.1
  | status code => exact triple_stop fun w h => h.mono fun _ hlog => hlog.1
  | body bytes complete =>
    refine triple_ite (fun hcomplete => ?_) fun _ => triple_stop fun w h => h.mono fun _ hlog => hlog.1
    subst hcomplete
    refine triple_ofExcept (fun sums hsums w h => h.mono fun log hlog => ?_)
      fun e _ w h => h.mono fun _ hlog => hlog.1
    exact ⟨hlog.1, bytes, hlog.2, hsums⟩

/-- `resolveBios`, for every server, every choice of sources and every set of failing operations.
When it succeeds there are five files, each one a copy of the file it was asked to copy, or a download
that passed its signature check, or an asset of one release that also has that release's checksum. When
it fails there is no temporary file. -/
theorem resolveBios_spec (src : Slot → Source) (arch : Bytes) :
    Triple (fun w => w = World.start) (resolveBios env src arch)
      (fun assets w => ∃ tag sums,
        ((∃ slot, (src slot).isDefault) → Latest env w.requests tag ∧ SumsOf w.requests tag sums)
          ∧ ∀ slot, ∃ path data, assets slot = some path ∧ w.temps path = some data
            ∧ Proper env src arch tag sums slot w.requests data)
      fun _ w => ∀ tmp, w.temps tmp = none := by
  have hnone : ∀ (L : Log → Prop) (w : World), At (fun _ => none) L w → ∀ tmp, w.temps tmp = none :=
    fun L w h tmp => by rw [h.temps]
  refine Triple.pre (P := At (fun _ => none) fun _ => True) ?_ ?_
  · refine triple_ite (fun _ => ?_) fun hdefault => ?_
    · have htag : Triple (At (fun _ => none) fun _ => True) (resolveTag env) _ _ :=
        resolveTag_spec env fun _ _ h => h
      refine triple_bind _ (triple_relabel (htag.post_error fun _ => hnone _)) fun tag => ?_
      have hsums : Triple (At (fun _ => none) _) (fetchChecksums env tag) _ _ :=
        fetchChecksums_spec env (Latest.grows env tag) tag
      refine triple_bind _ (triple_relabel (hsums.post_error fun _ => hnone _)) fun sums => ?_
      have hgrows : Grows fun log => Latest env log tag ∧ SumsOf log tag sums := fun r log h =>
        ⟨Latest.grows env tag r log h.1, SumsOf.grows tag sums r log h.2⟩
      refine (resolveSlots_slots_spec env src arch tag sums hgrows).post fun assets w h => ?_
      exact ⟨tag, sums, fun _ => h.1, h.2⟩
    · refine (resolveSlots_slots_spec env src arch [] [] fun _ _ h => h).post fun assets w h => ?_
      exact ⟨[], [], fun ⟨slot, hslot⟩ => absurd ⟨slot, mem_slots slot, hslot⟩ hdefault, h.2⟩
  · rintro w rfl
    exact ⟨rfl, fun _ _ => rfl, trivial⟩

end

end ZfsBoot.Proofs.Tool.Release
