import BlockchainTask.SchedulerJob.InteractionTemplate

/-! # Adding an interaction

The request handler that records one interaction. It asks whether the address
that was interacted with is a contract, and tests the promise it gets. -/
namespace BlockchainTask.Interaction.InteractionController
open BlockchainTask.Common.Exception BlockchainTask.Library.Effect BlockchainTask.Library.Store
open BlockchainTask.SchedulerJob.InteractionTemplate

/-- `InteractionBody`, after its validation. -/
structure InteractionBody where
  chainId : String
  address : String
  interactedAddress : String

/-- A promise, by how it settles. -/
structure Promise (α : Type) where
  settled : Except Thrown α

/-- A promise in a condition: like any object it counts as true. -/
def Promise.isTruthy {α : Type} (_ : Promise α) : Bool := true

/-- The surroundings of one request: the network's row for a chain id, whether
the network was there when its providers were set up, and the contract check,
whose call may throw before there is a promise. -/
structure RequestEnv where
  findNetwork : String → Except Thrown (Option Nat)
  hasProvider : String → Bool
  getSafeCheckCA : String → String → Except Thrown (Promise Bool)
  createInteractions : Option RawError

/-- `createInteractionsIfNotExist` without a manager. -/
def createInteractionsIfNotExist (fault : Option Thrown) (params : List Interaction) :
    Eff Interactions Thrown Unit := do
  .mayFail fault
  .mayFail (params.findSome? Interaction.toCheckSum)
  .update fun t => t.insertAll params

def notFoundNetwork : Thrown := .exception ExceptionCode.ERR100 .Fatal none

def notContract : Thrown := .exception ExceptionCode.ERR700 .Fatal none

/-- The row of a request. -/
def InteractionBody.params (body : InteractionBody) (network : Nat) : Interaction :=
  ⟨network, body.address, some body.interactedAddress⟩

def addInteraction (env : RequestEnv) (body : InteractionBody) : Eff Interactions Thrown Unit := do
  match ← .await (env.findNetwork body.chainId) with
  | none => .throw notFoundNetwork
  | some network =>
    -- `provider` and `multiCallAddress` read a property of the network's entry
    .when (env.hasProvider body.chainId = false) (.throw typeError)
    -- the check is called, and not awaited
    let checkCA ← .await (env.getSafeCheckCA body.chainId body.interactedAddress)
    .when (checkCA.isTruthy = false) (.throw notContract)
    createInteractionsIfNotExist (env.createInteractions.map RawError.thrown) [body.params network]

/-! ## What a request does -/

/-- The request gets to its check, with a network and a promise. -/
structure Asks (env : RequestEnv) (body : InteractionBody) (network : Nat) (checkCA : Promise Bool) :
    Prop where
  found : env.findNetwork body.chainId = .ok (some network)
  provided : env.hasProvider body.chainId = true
  asked : env.getSafeCheckCA body.chainId body.interactedAddress = .ok checkCA

/-- The database takes the row of a request. -/
def Accepts (env : RequestEnv) (body : InteractionBody) (network : Nat) : Prop :=
  env.createInteractions = none ∧ (body.params network).toCheckSum = none

/-- Two requests in the same place have the same network and promise. -/
theorem Asks.unique {env : RequestEnv} {body : InteractionBody} {network network' : Nat}
    {checkCA checkCA' : Promise Bool} (h : Asks env body network checkCA)
    (h' : Asks env body network' checkCA') : network = network' ∧ checkCA = checkCA' := by
  have hfound := h.found.symm.trans h'.found
  have hasked := h.asked.symm.trans h'.asked
  exact ⟨Option.some.inj (Except.ok.inj hfound), Except.ok.inj hasked⟩

theorem toCheckSum_ne_notContract {r : Interaction} {e : Thrown} (h : r.toCheckSum = some e) :
    e ≠ notContract := by
  unfold Interaction.toCheckSum at h
  split at h
  · cases h
    exact fun he => by cases he
  · cases h

/-- The insert of one row. -/
theorem wp_createInteraction (fault : Option RawError) (r : Interaction) (t : Interactions) :
    Eff.wp (createInteractionsIfNotExist (fault.map RawError.thrown) [r])
      (fun _ u => fault = none ∧ r.toCheckSum = none ∧ u = t.insertIgnore r)
      (fun e u => u = t ∧ ¬ (fault = none ∧ r.toCheckSum = none) ∧ e ≠ notContract) t := by
  simp only [createInteractionsIfNotExist, Eff.wp_bind, Eff.wp_mayFail, Eff.wp_update,
    List.findSome?_singleton]
  cases fault with
  | some e =>
    refine ⟨fun h => (by cases h), fun e' he => ⟨trivial, fun h => (by cases h.1), ?_⟩⟩
    cases he
    exact fun h => by cases h
  | none =>
    refine ⟨fun _ => ⟨fun hrow => ⟨rfl, hrow, rfl⟩, fun e he => ⟨trivial, fun h => ?_, ?_⟩⟩,
      fun e he => (by cases he)⟩
    · rw [he] at h
      cases h.2
    · exact toCheckSum_ne_notContract he

/-- Whatever the promise settles to, a request that gets to its check goes on to the
insert. -/
theorem wp_addInteraction (env : RequestEnv) (body : InteractionBody) (t : Interactions) :
    Eff.wp (addInteraction env body)
      (fun _ u => ∃ network checkCA, Asks env body network checkCA ∧ Accepts env body network ∧
        u = t.insertIgnore (body.params network))
      (fun e u => u = t ∧ ∀ network checkCA, Asks env body network checkCA →
        ¬ Accepts env body network ∧ e ≠ notContract) t := by
  simp only [addInteraction]
  rw [Eff.wp_bind, Eff.wp_await]
  refine ⟨fun found hfound => ?_, fun e herror => ⟨rfl, fun network checkCA h => ?_⟩⟩
  rotate_left
  · have hother := h.found
    rw [herror] at hother
    cases hother
  cases found with
  | none =>
    refine ⟨rfl, fun network checkCA h => ?_⟩
    have hother := h.found
    rw [hfound] at hother
    cases hother
  | some network =>
    simp only [Eff.wp_bind, Eff.wp_when, Eff.wp_throw]
    refine ⟨fun hmissing => ⟨trivial, fun _ _ h => ?_⟩, fun hprovided => ?_⟩
    · rw [h.provided] at hmissing
      cases hmissing
    rw [Eff.wp_await]
    refine ⟨fun checkCA hasked => ?_, fun e hthrown => ⟨rfl, fun _ _ h => ?_⟩⟩
    rotate_left
    · have hother := h.asked
      rw [hthrown] at hother
      cases hother
    -- a promise is never false
    refine ⟨fun hfalse => (by cases hfalse), fun _ => ?_⟩
    have hasks : Asks env body network checkCA :=
      ⟨hfound, Bool.not_eq_false _ ▸ hprovided, hasked⟩
    refine Eff.wp_mono (wp_createInteraction env.createInteractions (body.params network) t)
      (fun _ u hu => ⟨network, checkCA, hasks, ⟨hu.1, hu.2.1⟩, hu.2.2⟩)
      fun e u hu => ⟨hu.1, fun network' checkCA' h => ?_⟩
    obtain ⟨rfl, rfl⟩ := hasks.unique h
    exact hu.2

end BlockchainTask.Interaction.InteractionController
