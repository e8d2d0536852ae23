import BlockchainTask.SchedulerJob.PairTemplate
import Mathlib.Data.List.Nodup

/-! # Pairs in the position of single tokens

The new single tokens of a chunk are asked what pairs they are, all of them in one
batch and, where that fails, each one alone. Those whose pair info has both tokens
zero are single tokens; the other ones are invalid, and so should be those whose own
call fails. But the fallback returns the promise of that call from its `try` block
without awaiting it: a rejection is not caught there and ends the task. So the
addresses are split exactly when the batch answers or no call of its own rejects. -/
namespace BlockchainTask.SchedulerJob.SinglePositions
open BlockchainTask.Helper BlockchainTask.Common.Exception
open BlockchainTask.Library.Effect BlockchainTask.Library.Transaction
open BlockchainTask.Repository.Token BlockchainTask.SchedulerJob.Base
open BlockchainTask.SchedulerJob.PairTemplate

variable {context : Context} {single invalid : List String}
  {s t : Session (Db Tokens) LoggerData}

/-- What is relied on: a checksum form is its own, and what the contract answers
for addresses in this form is told by them, in their order. -/
structure Node (context : Context) : Prop where
  checkSum : ∀ text address, context.getAddress text = some address →
    context.getAddress address = some address
  batch : ∀ addresses infos, (∀ address ∈ addresses, context.getAddress address = some address) →
    context.getBatchPairInfos addresses = .ok infos →
      infos.map PairInfo.pair = addresses ∧ ∀ info ∈ infos, info.weird = false
  single : ∀ address info, context.getAddress address = some address →
    context.getSafePairInfos address = .answers info → info.pair = address ∧ info.weird = false

/-! ## What should become of an address -/

/-- What the own call of an address answers, if it does. -/
def ownInfo (context : Context) (address : String) : Option PairInfo :=
  match context.getSafePairInfos address with
  | .answers info => some info
  | _ => none

/-- The pair info of an address: its entry in the batch, or its own. -/
def pairInfoOf (context : Context) (single : List String) (address : String) : Option PairInfo :=
  match context.getBatchPairInfos single with
  | .ok infos => infos.find? fun info => info.pair = address
  | .error _ => ownInfo context address

/-- A single token: both tokens of its pair info are zero. -/
def isSingle (context : Context) (single : List String) (address : String) : Bool :=
  (pairInfoOf context single address).any fun info =>
    isZeroAddress info.token0 && isZeroAddress info.token1

/-- The function returns: each address is put into one of the two lists, by its own
pair info, behind what was invalid before. -/
def Splits (context : Context) (single invalid : List String)
    (s : Session (Db Tokens) LoggerData) : Prop :=
  checkMultiTokenInSinglePosition context single invalid s =
    (.ok (single.filter fun address => isSingle context single address,
      invalid ++ single.filter fun address => !isSingle context single address), s)

/-- The batch answers, or no call of an address rejects. -/
def Settles (context : Context) (single : List String) : Prop :=
  (∃ infos, context.getBatchPairInfos single = .ok infos) ∨
    ∀ address ∈ single, ∀ e, context.getSafePairInfos address ≠ .rejects e

/-! ## The two ways -/

theorem filter_pairs {infos : List PairInfo} {f : PairInfo → Bool} {q : String → Bool}
    (h : ∀ info ∈ infos, f info = q info.pair) :
    (infos.filter f).map PairInfo.pair = (infos.map PairInfo.pair).filter q := by
  rw [List.filter_map, List.filter_congr h]
  rfl

/-- Infos that tell of every address what it is. -/
structure Tells (context : Context) (single : List String) (infos : List PairInfo) : Prop where
  pairs : infos.map PairInfo.pair = single
  pure : ∀ info ∈ infos, isPureSingle info = isSingle context single info.pair

/-- What is checked, with the batch or without. -/
def checked (context : Context) (single : List String) : JobEff Tokens (List PairInfo) :=
  .tryCatch (.await (context.getBatchPairInfos single)) fun _ =>
    .mapEach single (safePairInfos context)

theorem splits_of_tells {infos : List PairInfo} (h : Tells context single infos)
    (hchecked : checked context single s = (.ok infos, s)) : Splits context single invalid s := by
  have hpure := filter_pairs h.pure
  have hinvalid := filter_pairs (q := fun address => !isSingle context single address)
    fun info hinfo => congrArg (!·) (h.pure info hinfo)
  rw [h.pairs] at hpure hinvalid
  unfold Splits checkMultiTokenInSinglePosition
  rw [← hpure, ← hinvalid]
  exact Eff.bind_of_ok hchecked

theorem find?_pair {infos : List PairInfo} (hnodup : (infos.map PairInfo.pair).Nodup)
    {info : PairInfo} (h : info ∈ infos) :
    infos.find? (fun other => other.pair = info.pair) = some info := by
  cases hfind : infos.find? fun other => other.pair = info.pair with
  | none => simpa using List.find?_eq_none.mp hfind info h
  | some other =>
    have hpair : other.pair = info.pair := by simpa using List.find?_some hfind
    rw [List.inj_on_of_nodup_map hnodup (List.mem_of_find?_eq_some hfind) h hpair]

/-- The batch tells of each address what its entry says. -/
theorem tells_of_batch (h : Node context) (hsums : ∀ a ∈ single, context.getAddress a = some a)
    (hnodup : single.Nodup) {infos : List PairInfo}
    (hbatch : context.getBatchPairInfos single = .ok infos) : Tells context single infos := by
  obtain ⟨hpairs, hweird⟩ := h.batch single infos hsums hbatch
  refine ⟨hpairs, fun info hinfo => ?_⟩
  have hown : pairInfoOf context single info.pair = some info := by
    rw [pairInfoOf, hbatch]
    exact find?_pair (hpairs ▸ hnodup) hinfo
  rw [isSingle, hown, isPureSingle, hweird info hinfo]
  rfl

/-- What the fallback gives for an address whose call does not reject. -/
def fallbackInfo (context : Context) (address : String) : PairInfo :=
  (ownInfo context address).getD ⟨address, some ZERO_ADDRESS, some ZERO_ADDRESS, true⟩

theorem safePairInfos_run {address : String}
    (h : ∀ e, context.getSafePairInfos address ≠ .rejects e)
    (s : Session (Db Tokens) LoggerData) :
    safePairInfos context address s = (.ok (fallbackInfo context address), s) := by
  unfold safePairInfos fallbackInfo ownInfo
  cases hcall : context.getSafePairInfos address with
  | throws e => rfl
  | rejects e => exact absurd hcall (h e)
  | answers info => rfl

theorem tells_of_fallback (h : Node context) (hsums : ∀ a ∈ single, context.getAddress a = some a)
    {e : Thrown} (hbatch : context.getBatchPairInfos single = .error e) :
    Tells context single (single.map (fallbackInfo context)) := by
  have hinfo : ∀ address ∈ single, (fallbackInfo context address).pair = address ∧
      isPureSingle (fallbackInfo context address) = isSingle context single address := by
    intro address haddress
    rw [isSingle, pairInfoOf, hbatch]
    show _ ∧ _ = (ownInfo context address).any _
    unfold fallbackInfo ownInfo
    cases hcall : context.getSafePairInfos address with
    | throws e => exact ⟨rfl, rfl⟩
    | rejects e => exact ⟨rfl, rfl⟩
    | answers info =>
      obtain ⟨hpair, hweird⟩ := h.single address info (hsums address haddress) hcall
      refine ⟨hpair, ?_⟩
      show isPureSingle info = _
      rw [isPureSingle, hweird]
      rfl
  constructor
  · rw [List.map_map]
    exact (List.map_congr_left fun address haddress => (hinfo address haddress).1).trans
      (List.map_id single)
  · intro info hmem
    obtain ⟨address, haddress, rfl⟩ := List.mem_map.mp hmem
    rw [(hinfo address haddress).1, (hinfo address haddress).2]

/-- How the promise of an address settles. -/
def settled (context : Context) (address : String) : Except Thrown PairInfo :=
  match context.getSafePairInfos address with
  | .rejects e => .error e
  | _ => .ok (fallbackInfo context address)

/-- A rejection that is not caught. -/
theorem checked_throws (h : ¬ Settles context single) (s : Session (Db Tokens) LoggerData) :
    ∃ e, checked context single s = (.error e, s) := by
  rw [Settles, not_or] at h
  obtain ⟨hbatch, hreject⟩ := h
  push Not at hreject
  obtain ⟨address, haddress, e, hcall⟩ := hreject
  cases hinfos : context.getBatchPairInfos single with
  | ok infos => exact absurd ⟨infos, hinfos⟩ hbatch
  | error e' =>
    have heach : ∀ a ∈ single, safePairInfos context a s = (settled context a, s) := by
      intro a _
      unfold safePairInfos settled fallbackInfo ownInfo
      cases context.getSafePairInfos a <;> rfl
    have hrejects : settled context address = .error e := by
      rw [settled, hcall]
    obtain ⟨thrown, hthrown⟩ := Eff.mapEach_of_error heach haddress hrejects
    refine ⟨thrown, ?_⟩
    rw [checked, hinfos]
    exact hthrown

theorem splits_iff (h : Node context) (hsums : ∀ a ∈ single, context.getAddress a = some a)
    (hnodup : single.Nodup) (s : Session (Db Tokens) LoggerData) :
    Splits context single invalid s ↔ Settles context single := by
  constructor
  · intro hsplits
    by_contra hsettles
    obtain ⟨e, hthrows⟩ := checked_throws hsettles s
    have herror : checkMultiTokenInSinglePosition context single invalid s = (.error e, s) :=
      Eff.bind_of_error hthrows
    rw [Splits, herror] at hsplits
    cases hsplits
  · intro hsettles
    cases hbatch : context.getBatchPairInfos single with
    | ok infos =>
      refine splits_of_tells (tells_of_batch h hsums hnodup hbatch) ?_
      rw [checked, hbatch]
      rfl
    | error e =>
      have hreject := hsettles.resolve_left fun ⟨infos, hinfos⟩ => by
        rw [hbatch] at hinfos
        cases hinfos
      refine splits_of_tells (tells_of_fallback h hsums hbatch) ?_
      rw [checked, hbatch]
      exact Eff.mapEach_of_ok fun address haddress => safePairInfos_run (hreject address haddress) s

/-! ## With the removal of invalid tokens -/

section
variable {multi : List (Option String)} {newSingle : List (Option String)}
  {valid : List String}

/-- The checksum form of an address in any letter case. -/
def sumOf (context : Context) (address : Option String) : Option String :=
  (address.map toLowerCase).bind context.getAddress

/-- Every new single address that is no new pair is in exactly one of the lists. -/
def Classified (context : Context) (multi newSingle : List (Option String))
    (valid invalid : List String) (s : Session (Db Tokens) LoggerData) : Prop :=
  ∃ pure pureInvalid,
    checkMultiTokenInSinglePosition context valid invalid s = (.ok (pure, pureInvalid), s) ∧
      ∀ address ∈ newSingle, address.map toLowerCase ∉ multi.map (fun a => a.map toLowerCase) →
        ∃ sum, sumOf context address = some sum ∧
          (sum ∈ pure ∧ sum ∉ pureInvalid ∨ sum ∉ pure ∧ sum ∈ pureInvalid)

/-- The values that are not removed, in lower case and in their order. -/
theorem removeStringValues_eq (array removeArray : List (Option String)) :
    removeStringValues array removeArray = (array.map fun v => v.map toLowerCase).filter
      fun v => !(removeArray.map fun v => v.map toLowerCase).contains v := by
  simp only [removeStringValues]
  by_cases hempty : (removeArray.map fun v => v.map toLowerCase).length = 0
  · rw [if_pos hempty, List.length_eq_zero_iff.mp hempty]
    simp
  · rw [if_neg hempty]

/-- What the removal returns: the checksum forms of what is left, each in one of the
two lists. -/
structure Removed (context : Context) (multi newSingle : List (Option String))
    (valid invalid sums : List String) : Prop where
  forms : List.Forall₂ (fun address sum => address.bind context.getAddress = some sum)
    (removeStringValues newSingle multi) sums
  perm : (valid ++ invalid).Perm sums

theorem removeInvalidTokens_removed (s : Session (Db Tokens) LoggerData) :
    Eff.wp (removeInvalidTokens context multi newSingle)
      (fun lists t => t = s ∧ ∃ sums, Removed context multi newSingle lists.1 lists.2 sums)
      (fun _ _ => True) s := by
  unfold removeInvalidTokens
  rw [Eff.wp_bind]
  have hforms : Eff.wp (Eff.mapEach (removeStringValues newSingle multi) (toCheckSumAddress context))
      (fun sums t => t = s ∧ List.Forall₂
        (fun address sum => address.bind context.getAddress = some sum)
        (removeStringValues newSingle multi) sums) (fun _ _ => True) s := by
    refine Eff.wp_mapEach _ _ (fun address _ u hu => ?_) rfl
    unfold toCheckSumAddress
    cases hsum : address.bind context.getAddress with
    | none => trivial
    | some sum => exact ⟨hu, rfl⟩
  refine Eff.wp_mono hforms ?_ fun _ _ _ => trivial
  rintro sums u ⟨rfl, hsums⟩
  rw [Eff.wp_bind, Eff.wp_await]
  refine ⟨fun flags _ => ⟨rfl, sums, hsums, ?_⟩, fun _ _ => trivial⟩
  -- the lists are the two halves of the sums with their flags
  have hhalves := (List.filter_append_perm Prod.snd
    (sums.zipIdx.map fun p => (p.1, flags.getD p.2 false))).map Prod.fst
  rw [List.map_append, List.map_map] at hhalves
  have hsame : sums.zipIdx.map (Prod.fst ∘ fun p => (p.1, flags.getD p.2 false)) = sums :=
    List.zipIdx_map_fst 0 sums
  rw [hsame] at hhalves
  exact hhalves

theorem filterMap_of_forms {f : Option String → Option String} {addresses : List (Option String)}
    {sums : List String}
    (h : List.Forall₂ (fun address sum => f address = some sum) addresses sums) :
    addresses.filterMap f = sums := by
  induction h with
  | nil => rfl
  | cons hsum _ ih => rw [List.filterMap_cons, hsum, ih]

theorem Removed.nodup {sums : List String} (h : Removed context multi newSingle valid invalid sums)
    (hnodup : (newSingle.filterMap (sumOf context)).Nodup) : (valid ++ invalid).Nodup := by
  have hsums := filterMap_of_forms h.forms
  refine h.perm.nodup_iff.mpr (hsums ▸ List.Nodup.sublist ?_ hnodup)
  have hsublist : (removeStringValues newSingle multi).Sublist
      (newSingle.map fun v => v.map toLowerCase) := by
    rw [removeStringValues_eq]
    exact List.filter_sublist
  have hmapped := hsublist.filterMap fun address : Option String => address.bind context.getAddress
  rwa [List.filterMap_map] at hmapped

/-- A new single address that is no new pair is left, in its checksum form. -/
theorem Removed.mem {sums : List String} (h : Removed context multi newSingle valid invalid sums)
    {address : Option String} (haddress : address ∈ newSingle)
    (hpair : address.map toLowerCase ∉ multi.map fun a => a.map toLowerCase) :
    ∃ sum, sumOf context address = some sum ∧ sum ∈ valid ++ invalid := by
  have hleft : address.map toLowerCase ∈ removeStringValues newSingle multi := by
    rw [removeStringValues_eq]
    exact List.mem_filter.mpr ⟨List.mem_map_of_mem haddress, by simpa using hpair⟩
  obtain ⟨sum, hsum, hmem⟩ := Eff.exists_result h.forms hleft
  exact ⟨sum, hmem, h.perm.mem_iff.mpr hsum⟩

theorem Removed.checkSum {sums : List String}
    (h : Removed context multi newSingle valid invalid sums) (hnode : Node context) :
    ∀ sum ∈ valid, context.getAddress sum = some sum := by
  intro sum hsum
  have hmem : sum ∈ sums := h.perm.mem_iff.mp (List.mem_append_left _ hsum)
  obtain ⟨i, hi, rfl⟩ := List.getElem_of_mem hmem
  have hbound : i < (removeStringValues newSingle multi).length := h.forms.length_eq ▸ hi
  obtain ⟨text, _, htext⟩ := Option.bind_eq_some_iff.mp (h.forms.get hbound hi)
  exact hnode.checkSum text _ htext

theorem classified_iff {sums : List String} (hnode : Node context)
    (h : Removed context multi newSingle valid invalid sums)
    (hnodup : (newSingle.filterMap (sumOf context)).Nodup) (s : Session (Db Tokens) LoggerData) :
    Classified context multi newSingle valid invalid s ↔ Settles context valid := by
  have hlists := h.nodup hnodup
  have hdisjoint := List.nodup_append.mp hlists
  constructor
  · rintro ⟨pure, pureInvalid, hrun, _⟩
    by_contra hsettles
    obtain ⟨e, hthrows⟩ := checked_throws hsettles s
    have herror : checkMultiTokenInSinglePosition context valid invalid s = (.error e, s) :=
      Eff.bind_of_error hthrows
    rw [herror] at hrun
    cases hrun
  · intro hsettles
    refine ⟨_, _, (splits_iff hnode (h.checkSum hnode) hdisjoint.1 s).mpr hsettles, ?_⟩
    intro address haddress hpair
    obtain ⟨sum, hsum, hmem⟩ := h.mem haddress hpair
    refine ⟨sum, hsum, ?_⟩
    simp only [List.mem_append, List.mem_filter]
    rcases List.mem_append.mp hmem with hvalid | hinvalid
    · have hnot : sum ∉ invalid := fun hin => hdisjoint.2.2 sum hvalid sum hin rfl
      cases isSingle context valid sum with
      | true => simp [hvalid, hnot]
      | false => simp [hvalid, hnot]
    · have hnot : sum ∉ valid := fun hin => hdisjoint.2.2 sum hin sum hinvalid rfl
      simp [hinvalid, hnot]

end

/-- For every set of addresses and all that the calls do: the function returns and
puts each address into the list of its own pair info exactly when the batch answers
or no call of an address rejects. Behind the removal of invalid tokens this is when
every new single address that is no new pair is in exactly one of the lists. -/
theorem positions_split_iff (h : Node context) :
    (∀ (single invalid : List String) (s : Session (Db Tokens) LoggerData),
      (∀ address ∈ single, context.getAddress address = some address) → single.Nodup →
        (Splits context single invalid s ↔ Settles context single)) ∧
    (∀ (multi newSingle : List (Option String)) (valid invalid : List String)
      (s t : Session (Db Tokens) LoggerData), (newSingle.filterMap (sumOf context)).Nodup →
        removeInvalidTokens context multi newSingle s = (.ok (valid, invalid), t) →
          (Classified context multi newSingle valid invalid t ↔ Settles context valid)) := by
  constructor
  · intro single invalid s hsums hnodup
    exact splits_iff h hsums hnodup s
  · intro multi newSingle valid invalid s t hnodup hrun
    obtain ⟨_, sums, hremoved⟩ := (Eff.wp_iff.mp (removeInvalidTokens_removed s)).1 _ _ hrun
    exact classified_iff h hremoved hnodup t

/-! ## A token that answers no call -/

def plain : String := "0x0000000000000000000000000000000000001004"

/-- A contract that does not come to an end when it is called. -/
def endless : String := "0x0000000000000000000000000000000000001005"

/-- A batch with the second address in it fails, and so does its own call. -/
def endlessContext : Context :=
  { Context.steady [] with
    getBatchPairInfos := fun addresses =>
      if endless ∈ addresses then .error (rawError "missing revert data in call exception")
      else .ok (addresses.map fun address =>
        ⟨address, some ZERO_ADDRESS, some ZERO_ADDRESS, false⟩)
    getSafePairInfos := fun address =>
      if address = endless then .rejects (rawError "missing revert data in call exception")
      else .answers ⟨address, some ZERO_ADDRESS, some ZERO_ADDRESS, false⟩ }

def exampleSession : Session (Db Tokens) LoggerData :=
  ⟨⟨none, Library.Store.Table.empty⟩, none, 0, .empty⟩

theorem endlessContext_node : Node endlessContext := by
  refine ⟨fun _ _ _ => rfl, fun addresses infos _ hbatch => ?_, fun address info _ hcall => ?_⟩
  · change (if endless ∈ addresses then _ else _) = _ at hbatch
    split at hbatch
    · cases hbatch
    · rw [← Except.ok.inj hbatch]
      exact ⟨by simp [Function.comp_def], fun info hinfo => by
        obtain ⟨_, _, rfl⟩ := List.mem_map.mp hinfo
        rfl⟩
  · change (if address = endless then _ else _) = _ at hcall
    split at hcall
    · cases hcall
    · rw [← Call.answers.inj hcall]
      exact ⟨rfl, rfl⟩

/-- A pair that was found as the token of another pair. -/
def nested : String := "0x0000000000000000000000000000000000001006"

def nestedInfo (address : String) : PairInfo :=
  if address = nested then ⟨nested, some plain, some endless, false⟩
  else ⟨address, some ZERO_ADDRESS, some ZERO_ADDRESS, false⟩

/-- A node that has no gas for two addresses at once, and answers for each alone. -/
def frugalContext : Context :=
  { Context.steady [] with
    getBatchPairInfos := fun addresses =>
      if addresses.length ≤ 1 then .ok (addresses.map nestedInfo)
      else .error (rawError "out of gas")
    getSafePairInfos := fun address => .answers (nestedInfo address) }

theorem nestedInfo_pair (address : String) :
    (nestedInfo address).pair = address ∧ (nestedInfo address).weird = false := by
  unfold nestedInfo
  split
  case isTrue h => exact ⟨h.symm, rfl⟩
  case isFalse => exact ⟨rfl, rfl⟩

theorem frugalContext_node : Node frugalContext := by
  refine ⟨fun _ _ _ => rfl, fun addresses infos _ hbatch => ?_, fun address info _ hcall => ?_⟩
  · change (if addresses.length ≤ 1 then _ else _) = _ at hbatch
    split at hbatch
    · rw [← Except.ok.inj hbatch, List.map_map]
      refine ⟨(List.map_congr_left fun a _ => (nestedInfo_pair a).1).trans (List.map_id _), ?_⟩
      intro info hinfo
      obtain ⟨address, _, rfl⟩ := List.mem_map.mp hinfo
      exact (nestedInfo_pair address).2
    · cases hbatch
  · rw [← Call.answers.inj hcall]
    exact nestedInfo_pair address

/-- The batch of the two addresses fails and each is asked alone: the token is a single
one, the pair is none. A third address is a new pair and no longer looked at. -/
theorem fallback_split :
    Splits frugalContext [plain, nested] [] exampleSession ∧
      Classified frugalContext [some endless] [some plain, some endless, some nested]
        [plain, nested] [] exampleSession := by
  have hsettles : Settles frugalContext [plain, nested] := by
    refine Or.inr fun address _ e hcall => ?_
    cases hcall
  have hpositions := positions_split_iff frugalContext_node
  refine ⟨(hpositions.1 _ _ _ (fun _ _ => rfl) (by decide)).mpr hsettles, ?_⟩
  exact (hpositions.2 [some endless] [some plain, some endless, some nested] [plain, nested] []
    exampleSession _ (by decide) rfl).mpr hsettles

/-- The rejection of the second address ends the task, and the first one is lost
with it. -/
theorem endless_not_split :
    Node endlessContext ∧
      removeInvalidTokens endlessContext [] [some plain, some endless] exampleSession =
        (.ok ([plain, endless], []), exampleSession) ∧
      ¬ Splits endlessContext [plain, endless] [] exampleSession ∧
      ¬ Classified endlessContext [] [some plain, some endless] [plain, endless] []
        exampleSession := by
  have hrejects : ¬ Settles endlessContext [plain, endless] := by
    rintro (⟨infos, hinfos⟩ | hall)
    · have hfails : endlessContext.getBatchPairInfos [plain, endless] =
          .error (rawError "missing revert data in call exception") := rfl
      rw [hfails] at hinfos
      cases hinfos
    · exact hall endless (by simp) (rawError "missing revert data in call exception") rfl
  refine ⟨endlessContext_node, rfl, fun h => ?_, fun h => ?_⟩
  · exact hrejects ((splits_iff endlessContext_node (fun _ _ => rfl) (by decide) _).mp h)
  · obtain ⟨_, _, hrun, _⟩ := h
    obtain ⟨e, hthrows⟩ := checked_throws hrejects exampleSession
    have herror : checkMultiTokenInSinglePosition endlessContext [plain, endless] []
        exampleSession = (.error e, exampleSession) := Eff.bind_of_error hthrows
    rw [herror] at hrun
    cases hrun

end BlockchainTask.SchedulerJob.SinglePositions
