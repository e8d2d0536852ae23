import BlockchainTask.App.AllExceptionFilter
import BlockchainTask.Interaction.ContractRows
import BlockchainTask.Interaction.InteractionService
import BlockchainTask.SchedulerJob.InteractionCoverage

/-! # Requests and jobs on the interaction table

Requests to add and to delete interactions are served while the jobs of the networks
run. Each request goes from await to await, and others come in between. A delete first
looks for the row and then deletes it, in two calls. -/
namespace BlockchainTask.Interaction.Requests
open BlockchainTask.App.AllExceptionFilter
open BlockchainTask.Common.Exception BlockchainTask.Helper
open BlockchainTask.Library.Effect BlockchainTask.Library.Runs BlockchainTask.Library.Store
open BlockchainTask.SchedulerJob.Base BlockchainTask.SchedulerJob.InteractionTemplate
open BlockchainTask.Interaction.InteractionController
open BlockchainTask.Interaction.InteractionService (found)
open BlockchainTask.SchedulerJob.InteractionCoverage (cursor ErrorsAreIdle)

/-! ## The handlers -/

/-- The surroundings of one request to delete. -/
structure DeleteEnv where
  findNetwork : String → Except RawError (Option Nat)
  findInteraction : Option RawError
  deleteInteraction : Option RawError

def notFoundInteraction : Thrown := .exception ExceptionCode.ERR701 .Fatal none

/-- The key of the row that a request is about. -/
def keyOf (network : Nat) (body : InteractionBody) : Nat × String × String :=
  (network, toLowerCase body.address, toLowerCase body.interactedAddress)

/-- Whether the `where` of a request finds a row. -/
def wanted (network : Nat) (body : InteractionBody) (row : Interaction) : Bool :=
  found (some network) body.address body.interactedAddress row

def findInteraction (network : Nat) (body : InteractionBody) (t : Interactions) :
    Option Interaction :=
  t.contents.find? (wanted network body)

def deleteInteraction (network : Nat) (body : InteractionBody) (t : Interactions) : Interactions :=
  t.deleteWhere (wanted network body)

def delInteraction (env : DeleteEnv) (body : InteractionBody) : Eff Interactions Thrown Unit := do
  match ← .await ((env.findNetwork body.chainId).mapError RawError.thrown) with
  | none => .throw notFoundNetwork
  | some network =>
    .mayFail (env.findInteraction.map RawError.thrown)
    let existInteraction ← .read (findInteraction network body)
    .when (existInteraction = none) (.throw notFoundInteraction)
    .mayFail (env.deleteInteraction.map RawError.thrown)
    .update (deleteInteraction network body)

theorem wanted_iff (network : Nat) (body : InteractionBody) (row : Interaction) :
    wanted network body row = true ↔ row.key = some (keyOf network body) := by
  obtain ⟨n, from_address, to_address⟩ := row
  cases to_address with
  | none => simp [wanted, found, Interaction.key]
  | some address =>
    simp only [wanted, found, keyOf, Interaction.key, Option.all_some, Option.any_some,
      Option.map_some, Bool.and_eq_true, beq_iff_eq, decide_eq_true_eq, Option.some.injEq,
      Prod.mk.injEq]
    constructor
    · intro h
      exact ⟨h.1.1.symm, h.1.2, h.2⟩
    · intro h
      exact ⟨⟨h.1.symm, h.2.1⟩, h.2.2⟩

/-- At most one row is wanted, that of the key. -/
theorem findInteraction_eq (network : Nat) (body : InteractionBody) (t : Interactions) :
    findInteraction network body t = t.content (keyOf network body) := by
  rw [findInteraction, Table.contents, List.find?_map, Table.content, Table.lookup]
  refine congrArg (fun p => (t.rows.find? p).map Stored.row) (funext fun s => ?_)
  rw [Bool.eq_iff_iff, decide_eq_true_iff]
  exact wanted_iff network body s.row

theorem content_deleteInteraction (network : Nat) (body : InteractionBody) (t : Interactions)
    (k : Nat × String × String) :
    (deleteInteraction network body t).content k =
      if k = keyOf network body then none else t.content k :=
  Table.content_deleteKey t (wanted_iff network body) k

/-! ## Requests that are under way -/

/-- A request, with what its calls will answer. -/
inductive Call where
  | add (env : RequestEnv) (body : InteractionBody)
  | delete (env : DeleteEnv) (body : InteractionBody)

/-- The await that a request has come to. -/
inductive Stage where
  | finding
  | inserting (network : Nat)
  | searching (network : Nat)
  | deleting (network : Nat)
  | answered (result : Except Thrown Unit)

def Call.handle : Call → Eff Interactions Thrown Unit
  | .add env body => addInteraction env body
  | .delete env body => delInteraction env body

/-- A part of a handler, to the end of its next await. -/
def Call.segment : Call → Stage → Eff Interactions Thrown Stage
  | .add env body, .finding => do
    match ← .await (env.findNetwork body.chainId) with
    | none => .throw notFoundNetwork
    | some network =>
      .when (env.hasProvider body.chainId = false) (.throw typeError)
      let checkCA ← .await (env.getSafeCheckCA body.chainId body.interactedAddress)
      .when (checkCA.isTruthy = false) (.throw notContract)
      pure (.inserting network)
  | .add env body, .inserting network => do
    createInteractionsIfNotExist (env.createInteractions.map RawError.thrown) [body.params network]
    pure (.answered (.ok ()))
  | .delete env body, .finding => do
    match ← .await ((env.findNetwork body.chainId).mapError RawError.thrown) with
    | none => .throw notFoundNetwork
    | some network => pure (.searching network)
  | .delete env body, .searching network => do
    .mayFail (env.findInteraction.map RawError.thrown)
    let existInteraction ← .read (findInteraction network body)
    .when (existInteraction = none) (.throw notFoundInteraction)
    pure (.deleting network)
  | .delete env body, .deleting network => do
    .mayFail (env.deleteInteraction.map RawError.thrown)
    .update (deleteInteraction network body)
    pure (.answered (.ok ()))
  | _, stage => pure stage

/-- What is thrown ends the request. -/
def landing : Except Thrown Stage → Stage
  | .ok stage => stage
  | .error e => .answered (.error e)

def Call.proceed (call : Call) (p : Stage × Interactions) : Stage × Interactions :=
  let (r, t) := call.segment p.1 p.2
  (landing r, t)

/-- What is left of the handler. -/
def Call.rest : Call → Stage → Eff Interactions Thrown Unit
  | call, .finding => call.handle
  | .add env body, .inserting network =>
    createInteractionsIfNotExist (env.createInteractions.map RawError.thrown) [body.params network]
  | .delete env body, .searching network => do
    .mayFail (env.findInteraction.map RawError.thrown)
    let existInteraction ← .read (findInteraction network body)
    .when (existInteraction = none) (.throw notFoundInteraction)
    .mayFail (env.deleteInteraction.map RawError.thrown)
    .update (deleteInteraction network body)
  | .delete env body, .deleting network => do
    .mayFail (env.deleteInteraction.map RawError.thrown)
    .update (deleteInteraction network body)
  | _, .answered result => .await result
  | _, _ => pure ()

theorem rest_finding (call : Call) (t : Interactions) :
    call.rest .finding t = (call.segment .finding >>= call.rest) t := by
  cases call with
  | add env body =>
    refine Eff.bind_cut (fun found t => ?_) t
    cases found with
    | none => rfl
    | some network =>
      refine Eff.bind_cut (fun _ t => ?_) t
      refine Eff.bind_cut (fun _ t => ?_) t
      exact Eff.bind_cut (fun _ _ => rfl) t
  | delete env body =>
    refine Eff.bind_cut (fun found t => ?_) t
    cases found <;> rfl

/-- **One part, then the rest, is the rest.** -/
theorem rest_segment (call : Call) (stage : Stage) (t : Interactions) :
    call.rest stage t = (call.segment stage >>= call.rest) t := by
  cases stage with
  | finding => exact rest_finding call t
  | inserting network =>
    cases call with
    | add env body =>
      simp only [Call.rest, Call.segment, Eff.bind_eq]
      cases createInteractionsIfNotExist (env.createInteractions.map RawError.thrown)
        [body.params network] t with
      | mk result u => cases result <;> rfl
    | delete env body => rfl
  | searching network =>
    cases call with
    | add env body => rfl
    | delete env body =>
      refine Eff.bind_cut (fun _ t => ?_) t
      refine Eff.bind_cut (fun _ t => ?_) t
      refine Eff.bind_cut (fun _ _ => ?_) t
      rfl
  | deleting network =>
    cases call with
    | add env body => rfl
    | delete env body =>
      refine Eff.bind_cut (fun _ _ => ?_) t
      rfl
  | answered result => cases call <;> rfl

/-- What is left of a request leads where all of it leads. -/
theorem rest_proceed (call : Call) (p : Stage × Interactions) :
    call.rest (call.proceed p).1 (call.proceed p).2 = call.rest p.1 p.2 := by
  rw [rest_segment call p.1 p.2, Eff.bind_eq, Call.proceed]
  simp only
  cases call.segment p.1 p.2 with
  | mk result u =>
    cases result with
    | ok stage => rfl
    | error e => cases call <;> rfl

/-- What one part of a request does to its stage and to the table. -/
inductive Moves : Call → Stage → Stage → Interactions → Interactions → Prop where
  | checked {env : RequestEnv} {body : InteractionBody} {network : Nat} (t : Interactions)
      (found : env.findNetwork body.chainId = .ok (some network)) :
      Moves (.add env body) .finding (.inserting network) t t
  | inserted (env : RequestEnv) (body : InteractionBody) (network : Nat) (t : Interactions) :
      Moves (.add env body) (.inserting network) (.answered (.ok ())) t
        (t.insertIgnore (body.params network))
  | located {env : DeleteEnv} {body : InteractionBody} {network : Nat} (t : Interactions)
      (found : env.findNetwork body.chainId = .ok (some network)) :
      Moves (.delete env body) .finding (.searching network) t t
  | present {env : DeleteEnv} {body : InteractionBody} {network : Nat} {t : Interactions}
      (row : (t.content (keyOf network body)).isSome = true) :
      Moves (.delete env body) (.searching network) (.deleting network) t t
  | missing {env : DeleteEnv} {body : InteractionBody} {network : Nat} {t : Interactions}
      (row : t.content (keyOf network body) = none) :
      Moves (.delete env body) (.searching network) (.answered (.error notFoundInteraction)) t t
  | deleted (env : DeleteEnv) (body : InteractionBody) (network : Nat) (t : Interactions) :
      Moves (.delete env body) (.deleting network) (.answered (.ok ())) t
        (deleteInteraction network body t)
  | failedAdd (env : RequestEnv) (body : InteractionBody) (stage : Stage) (e : Thrown)
      (t : Interactions) : Moves (.add env body) stage (.answered (.error e)) t t
  | noNetwork {env : DeleteEnv} {body : InteractionBody} (t : Interactions)
      (found : env.findNetwork body.chainId = .ok none) :
      Moves (.delete env body) .finding (.answered (.error notFoundNetwork)) t t
  | failedDelete (env : DeleteEnv) (body : InteractionBody) (stage : Stage) (e : RawError)
      (t : Interactions) : Moves (.delete env body) stage (.answered (.error e.thrown)) t t
  /-- No request gets to a stage of the other kind. -/
  | other {call : Call} {stage : Stage} (t : Interactions) : Moves call stage stage t t

theorem add_moves (env : RequestEnv) (body : InteractionBody) (stage : Stage) (t : Interactions) :
    Eff.wp ((Call.add env body).segment stage)
      (fun stage' u => Moves (.add env body) stage stage' t u)
      (fun e u => Moves (.add env body) stage (.answered (.error e)) t u) t := by
  cases stage with
  | finding =>
    simp only [Call.segment]
    rw [Eff.wp_bind, Eff.wp_await]
    refine ⟨fun found hfound => ?_, fun e _ => .failedAdd env body _ e t⟩
    cases found with
    | none => exact .failedAdd env body _ _ t
    | some network =>
      simp only [Eff.wp_bind, Eff.wp_when, Eff.wp_throw, Eff.wp_await, Eff.wp_pure]
      refine ⟨fun _ => .failedAdd env body _ _ t, fun _ => ⟨fun _ _ => ?_, fun e _ => ?_⟩⟩
      · exact ⟨fun _ => .failedAdd env body _ _ t, fun _ => .checked t hfound⟩
      · exact .failedAdd env body _ e t
  | inserting network =>
    simp only [Call.segment]
    rw [Eff.wp_bind]
    refine Eff.wp_mono (wp_createInteraction env.createInteractions (body.params network) t)
      (fun _ u hu => ?_) fun e u hu => ?_
    · rw [hu.2.2]
      exact .inserted env body network t
    · rw [hu.1]
      exact .failedAdd env body _ e t
  | searching network => exact .other t
  | deleting network => exact .other t
  | answered result => exact .other t

theorem delete_moves (env : DeleteEnv) (body : InteractionBody) (stage : Stage)
    (t : Interactions) :
    Eff.wp ((Call.delete env body).segment stage)
      (fun stage' u => Moves (.delete env body) stage stage' t u)
      (fun e u => Moves (.delete env body) stage (.answered (.error e)) t u) t := by
  have hraw : ∀ (stage : Stage) (fault : Option RawError) (e : Thrown),
      fault.map RawError.thrown = some e →
        Moves (.delete env body) stage (.answered (.error e)) t t := by
    intro stage fault e he
    obtain ⟨raw, _, rfl⟩ := Option.map_eq_some_iff.mp he
    exact .failedDelete env body stage raw t
  cases stage with
  | finding =>
    simp only [Call.segment]
    rw [Eff.wp_bind]
    cases hfound : env.findNetwork body.chainId with
    | error e => exact .failedDelete env body _ e t
    | ok found =>
      cases found with
      | none => exact .noNetwork t hfound
      | some network => exact .located t hfound
  | inserting network => exact .other t
  | searching network =>
    simp only [Call.segment, Eff.wp_bind, Eff.wp_mayFail, Eff.wp_read, Eff.wp_when, Eff.wp_throw,
      Eff.wp_pure, findInteraction_eq]
    refine ⟨fun _ => ⟨fun hnone => .missing hnone, fun hsome => ?_⟩, fun e he => hraw _ _ e he⟩
    exact .present (Option.isSome_iff_ne_none.mpr hsome)
  | deleting network =>
    simp only [Call.segment, Eff.wp_bind, Eff.wp_mayFail, Eff.wp_update, Eff.wp_pure]
    exact ⟨fun _ => .deleted env body network t, fun e he => hraw _ _ e he⟩
  | answered result => exact .other t

theorem proceed_moves (call : Call) (stage : Stage) (t : Interactions) :
    Moves call stage (call.proceed (stage, t)).1 t (call.proceed (stage, t)).2 := by
  have hwp : Eff.wp (call.segment stage) (fun stage' u => Moves call stage stage' t u)
      (fun e u => Moves call stage (.answered (.error e)) t u) t := by
    cases call with
    | add env body => exact add_moves env body stage t
    | delete env body => exact delete_moves env body stage t
  obtain ⟨hok, herror⟩ := Eff.wp_iff.mp hwp
  rw [Call.proceed]
  simp only
  cases h : call.segment stage t with
  | mk result u =>
    cases result with
    | ok stage' => exact hok stage' u h
    | error e => exact herror e u h

/-! ## The server -/

structure Request where
  call : Call
  stage : Stage

/-- The table, the scheduler's row of the job of each network, and the requests in the
order they came. -/
structure Server where
  interactions : Interactions
  schedulers : Nat → Option Scheduler
  requests : List Request

inductive Action where
  | receive (call : Call)
  /-- A request goes on to the end of its next await. -/
  | proceed (i : Nat)
  /-- A run of the job of a network. It only writes to the table when it commits. -/
  | job (network : Nat) (env : Env)

def Server.db (s : Server) (network : Nat) : Db Interactions :=
  ⟨s.schedulers network, s.interactions⟩

def Server.went (s : Server) (i : Nat) (r : Request) : Server :=
  let p := r.call.proceed (r.stage, s.interactions)
  { s with interactions := p.2, requests := s.requests.set i ⟨r.call, p.1⟩ }

def proceedStep (s : Server) (i : Nat) : Option Server :=
  match s.requests[i]? with
  | some r =>
    match r.stage with
    | .answered _ => none
    | _ => some (s.went i r)
  | none => none

def Server.ran (s : Server) (network : Nat) (db : Db Interactions) : Server :=
  { s with
    interactions := db.tables
    schedulers := Function.update s.schedulers network db.scheduler }

def step (chain : Nat → Nat → List Transaction) (s : Server) : Action → Option Server
  | .receive call => some { s with requests := s.requests ++ [⟨call, .finding⟩] }
  | .proceed i => proceedStep s i
  | .job network env =>
    some (s.ran network
      (SchedulerJob.InteractionCoverage.step network (chain network) env (s.db network)))

variable {chain : Nat → Nat → List Transaction}

theorem proceed_cases {s u : Server} {i : Nat} (h : step chain s (.proceed i) = some u) :
    ∃ r stage, s.requests[i]? = some r ∧ (∀ result, r.stage ≠ .answered result) ∧
      u.requests = s.requests.set i ⟨r.call, stage⟩ ∧ u.schedulers = s.schedulers ∧
      Moves r.call r.stage stage s.interactions u.interactions := by
  simp only [step, proceedStep] at h
  split at h
  · rename_i r hr
    split at h
    · cases h
    · rename_i hstage
      cases h
      exact ⟨r, _, hr, hstage, rfl, rfl, proceed_moves r.call r.stage s.interactions⟩
  · cases h

theorem moves_table {call : Call} {stage stage' : Stage} {t u : Interactions}
    (h : Moves call stage stage' t u) :
    u = t ∨ (∃ env body network, call = .add env body ∧ stage' = .answered (.ok ()) ∧
        u = t.insertIgnore (body.params network)) ∨
      ∃ env body network, call = .delete env body ∧ stage' = .answered (.ok ()) ∧
        u = deleteInteraction network body t := by
  cases h with
  | inserted env body network => exact Or.inr (Or.inl ⟨env, body, network, rfl, rfl, rfl⟩)
  | deleted env body network => exact Or.inr (Or.inr ⟨env, body, network, rfl, rfl, rfl⟩)
  | checked | located | present | missing | failedAdd | noNetwork | failedDelete | other =>
    exact Or.inl rfl

/-! ## What an answer says

The parts of a request lie apart in the run, and what an answer says is about the
table at one of them. -/

def Always (_ : Server) (_ : Action) : Prop := True

/-- In a run from `s` to `t`, request `i` went on from `u` to `v`. -/
structure Went (chain : Nat → Nat → List Transaction) (s t : Server) (i : Nat) (u v : Server) :
    Prop where
  before : Reaches (step chain) Always s u
  taken : step chain u (.proceed i) = some v
  after : Reaches (step chain) Always v t

theorem Went.next {s t t' u v : Server} {i : Nat} {act : Action} (h : Went chain s t i u v)
    (hstep : step chain t act = some t') : Went chain s t' i u v :=
  ⟨h.before, h.taken, .next h.after trivial hstep⟩

/-- What has happened to a request that has come to a stage. -/
def Story (chain : Nat → Nat → List Transaction) (s t : Server) (i : Nat) : Call → Stage → Prop
  | _, .finding => True
  | .add env body, .inserting network => env.findNetwork body.chainId = .ok (some network)
  | .add env body, .answered (.ok _) => ∃ network u v,
      env.findNetwork body.chainId = .ok (some network) ∧ Went chain s t i u v ∧
        v.interactions = u.interactions.insertIgnore (body.params network)
  | .delete env body, .searching network => env.findNetwork body.chainId = .ok (some network)
  | .delete env body, .deleting network =>
      env.findNetwork body.chainId = .ok (some network) ∧ ∃ u v, Went chain s t i u v ∧
        (u.interactions.content (keyOf network body)).isSome = true
  | .delete env body, .answered (.ok _) => ∃ network u v u' v',
      env.findNetwork body.chainId = .ok (some network) ∧ Went chain s u' i u v ∧
        (u.interactions.content (keyOf network body)).isSome = true ∧ Went chain s t i u' v' ∧
          v'.interactions = deleteInteraction network body u'.interactions
  | .delete env body, .answered (.error e) =>
      (∃ raw : RawError, e = raw.thrown) ∨
      (e = notFoundNetwork ∧ env.findNetwork body.chainId = .ok none) ∨
      (e = notFoundInteraction ∧ ∃ network u v,
        env.findNetwork body.chainId = .ok (some network) ∧ Went chain s t i u v ∧
          u.interactions.content (keyOf network body) = none)
  | .add _ _, .answered (.error _) => True
  | _, _ => False

theorem Story.next {s t t' : Server} {i : Nat} {call : Call} {stage : Stage} {act : Action}
    (hstep : step chain t act = some t') (h : Story chain s t i call stage) :
    Story chain s t' i call stage := by
  cases call with
  | add env body =>
    cases stage with
    | finding => exact trivial
    | inserting network => exact h
    | searching network => exact h
    | deleting network => exact h
    | answered result =>
      cases result with
      | error e => exact trivial
      | ok _ =>
        obtain ⟨network, u, v, hfound, hwent, hinsert⟩ := h
        exact ⟨network, u, v, hfound, hwent.next hstep, hinsert⟩
  | delete env body =>
    cases stage with
    | finding => exact trivial
    | inserting network => exact h
    | searching network => exact h
    | deleting network =>
      obtain ⟨hfound, u, v, hwent, hrow⟩ := h
      exact ⟨hfound, u, v, hwent.next hstep, hrow⟩
    | answered result =>
      cases result with
      | error e =>
        rcases h with hraw | hnetwork | ⟨he, network, u, v, hfound, hwent, hrow⟩
        · exact Or.inl hraw
        · exact Or.inr (Or.inl hnetwork)
        · exact Or.inr (Or.inr ⟨he, network, u, v, hfound, hwent.next hstep, hrow⟩)
      | ok _ =>
        obtain ⟨network, u, v, u', v', hfound, hfirst, hrow, hwent, hdelete⟩ := h
        exact ⟨network, u, v, u', v', hfound, hfirst, hrow, hwent.next hstep, hdelete⟩

/-- The request that goes on. -/
theorem Story.moves {s t t' : Server} {i : Nat} {call : Call} {stage stage' : Stage}
    (hreach : Reaches (step chain) Always s t) (hstep : step chain t (.proceed i) = some t')
    (hmoves : Moves call stage stage' t.interactions t'.interactions)
    (h : Story chain s t i call stage) : Story chain s t' i call stage' := by
  have hwent : Went chain s t' i t t' := ⟨hreach, hstep, .start⟩
  generalize hbefore : t.interactions = before at hmoves
  generalize hafter : t'.interactions = after at hmoves
  cases hmoves with
  | checked _ hfound => exact hfound
  | inserted env body network =>
    exact ⟨network, t, t', h, hwent, by rw [hbefore, hafter]⟩
  | located _ hfound => exact hfound
  | present hrow => exact ⟨h, t, t', hwent, by rw [hbefore]; exact hrow⟩
  | missing hrow =>
    exact Or.inr (Or.inr ⟨rfl, _, t, t', h, hwent, by rw [hbefore]; exact hrow⟩)
  | deleted env body network =>
    obtain ⟨hfound, u, v, hfirst, hrow⟩ := h
    exact ⟨network, u, v, t, t', hfound, hfirst, hrow, hwent, by rw [hbefore, hafter]⟩
  | failedAdd env body stage e => trivial
  | noNetwork _ hfound => exact Or.inr (Or.inl ⟨rfl, hfound⟩)
  | failedDelete env body stage e => exact Or.inl ⟨e, rfl⟩
  | other => exact h.next hstep

/-- In every state reached each request has its story. -/
def Told (chain : Nat → Nat → List Transaction) (s t : Server) : Prop :=
  ∀ i r, t.requests[i]? = some r → Story chain s t i r.call r.stage

theorem Told.step {s t t' : Server} {act : Action} (hreach : Reaches (step chain) Always s t)
    (hstep : step chain t act = some t') (h : Told chain s t) : Told chain s t' := by
  intro i r hr
  cases act with
  | receive call =>
    have hrequests : t'.requests = t.requests ++ [⟨call, .finding⟩] := by cases hstep; rfl
    rw [hrequests] at hr
    by_cases hi : i < t.requests.length
    · rw [List.getElem?_append_left hi] at hr
      exact (h i r hr).next hstep
    · rw [List.getElem?_append_right (Nat.le_of_not_lt hi)] at hr
      rw [List.mem_singleton.mp (List.mem_of_getElem? hr)]
      cases call <;> trivial
  | proceed j =>
    obtain ⟨r₀, stage, hr₀, _, hrequests, _, hmoves⟩ := proceed_cases hstep
    rw [hrequests] at hr
    by_cases hj : j = i
    · subst hj
      have hlt := (List.getElem?_eq_some_iff.mp hr₀).1
      rw [List.getElem?_set_self hlt] at hr
      cases hr
      exact Story.moves hreach hstep hmoves (h j r₀ hr₀)
    · rw [List.getElem?_set_ne hj] at hr
      exact (h i r hr).next hstep
  | job network env =>
    have hsame : t'.requests = t.requests := by cases hstep; rfl
    exact (h i r (hsame ▸ hr)).next hstep

theorem told_of_reaches {s t : Server} (hnew : s.requests = [])
    (h : Reaches (step chain) Always s t) : Told chain s t := by
  induction h with
  | start =>
    intro i r hr
    rw [hnew] at hr
    cases hr
  | next before _ taken ih => exact ih.step before taken

/-- An answer is given once. -/
theorem answered_stays {s t : Server} {i : Nat} {r : Request} {result : Except Thrown Unit}
    (h : Reaches (step chain) Always s t) (hr : s.requests[i]? = some r)
    (hanswered : r.stage = .answered result) : t.requests[i]? = some r := by
  refine h.invariant (fun t => t.requests[i]? = some r) (fun t act t' _ hstep hI => ?_) hr
  cases act with
  | receive call =>
    cases hstep
    rw [List.getElem?_append_left (List.getElem?_eq_some_iff.mp hI).1]
    exact hI
  | proceed j =>
    obtain ⟨r₀, stage, hr₀, hstage, hrequests, _⟩ := proceed_cases hstep
    rw [hrequests]
    by_cases hj : j = i
    · subst hj
      rw [hI] at hr₀
      cases hr₀
      exact absurd hanswered (hstage result)
    · rw [List.getElem?_set_ne hj]
      exact hI
  | job network env =>
    cases hstep
    exact hI

/-- A request that is answered with an error has left the table alone. -/
theorem untouched_of_error {s t u v : Server} {i : Nat} {r : Request} {e : Thrown}
    (hr : t.requests[i]? = some r) (herror : r.stage = .answered (.error e))
    (h : Went chain s t i u v) : v.interactions = u.interactions := by
  obtain ⟨r₀, stage, hr₀, _, hrequests, _, hmoves⟩ := proceed_cases h.taken
  have hafter : v.requests[i]? = some ⟨r₀.call, stage⟩ := by
    rw [hrequests, List.getElem?_set_self (List.getElem?_eq_some_iff.mp hr₀).1]
  -- it would have been answered without an error
  have hnot : stage ≠ .answered (.ok ()) := by
    intro hok
    have hstays := answered_stays h.after hafter hok
    rw [hr] at hstays
    cases hstays
    cases hok.symm.trans herror
  rcases moves_table hmoves with hsame | ⟨_, _, _, _, hok, _⟩ | ⟨_, _, _, _, hok, _⟩
  · exact hsame
  · exact absurd hok hnot
  · exact absurd hok hnot

/-! ## What the client sees -/

/-- The status of the method. -/
def Call.status : Call → Nat
  | .add _ _ => HttpStatus.CREATED
  | .delete _ _ => HttpStatus.OK

/-- All exceptions of the handlers are made with `BAD_REQUEST`. -/
def Request.response (r : Request) : Option (Response Unit (List String)) :=
  match r.stage with
  | .answered result =>
    some (answer r.call.status (result.mapError (Raised.of HttpStatus.BAD_REQUEST))).1
  | _ => none

def success (call : Call) : Response Unit (List String) := ⟨call.status, .payload ()⟩

def badRequest (message code : String) : Response Unit (List String) :=
  ⟨HttpStatus.BAD_REQUEST, .failure message (some code) none⟩

def internalError : Response Unit (List String) :=
  ⟨HttpStatus.INTERNAL_SERVER_ERROR, .failure ExceptionCode.ERR000 (some "ERR000") none⟩

/-- An answer is the one of success, or tells of an error. -/
theorem response_cases {r : Request} {response : Response Unit (List String)}
    (h : r.response = some response) :
    (r.stage = .answered (.ok ()) ∧ response = success r.call) ∨
      ∃ e, r.stage = .answered (.error e) ∧
        response = (catchException (catchError (Raised.of HttpStatus.BAD_REQUEST e))).1 := by
  unfold Request.response at h
  split at h
  · rename_i result hstage
    cases result with
    | ok _ => exact Or.inl ⟨hstage, (Option.some.inj h).symm⟩
    | error e => exact Or.inr ⟨e, hstage, (Option.some.inj h).symm⟩
  · cases h

theorem status_of_error (e : Thrown) :
    ((catchException (catchError (Raised.of HttpStatus.BAD_REQUEST e)) :
      Response Unit (List String) × LogEntry (List String)).1).status ≥ HttpStatus.BAD_REQUEST := by
  cases e with
  | error m => exact Nat.le_of_ble_eq_true rfl
  | exception m level data => exact Nat.le_refl _

/-- What the answer to request `i` tells its client about a run from `s` to `t`. -/
def Tells (chain : Nat → Nat → List Transaction) (s t : Server) (i : Nat)
    (response : Response Unit (List String)) : Call → Prop
  | .add env body =>
    (response = success (.add env body) ∧ ∃ network u v,
      env.findNetwork body.chainId = .ok (some network) ∧ Went chain s t i u v ∧
        v.interactions = u.interactions.insertIgnore (body.params network)) ∨
    (response.status ≥ HttpStatus.BAD_REQUEST ∧
      ∀ u v, Went chain s t i u v → v.interactions = u.interactions)
  | .delete env body =>
    (response = success (.delete env body) ∧ ∃ network u v u' v',
      env.findNetwork body.chainId = .ok (some network) ∧ Went chain s u' i u v ∧
        (u.interactions.content (keyOf network body)).isSome = true ∧ Went chain s t i u' v' ∧
          v'.interactions = deleteInteraction network body u'.interactions) ∨
    (response = badRequest ExceptionCode.ERR701 "ERR701" ∧ (∃ network u v,
      env.findNetwork body.chainId = .ok (some network) ∧ Went chain s t i u v ∧
        u.interactions.content (keyOf network body) = none) ∧
      ∀ u v, Went chain s t i u v → v.interactions = u.interactions) ∨
    ((response = badRequest ExceptionCode.ERR100 "ERR100" ∧
        env.findNetwork body.chainId = .ok none ∨ response = internalError) ∧
      ∀ u v, Went chain s t i u v → v.interactions = u.interactions)

/-- **What an answer tells.** However the awaits of all requests and the runs of all
jobs interleave: an addition that succeeds has made one insert of its row, which keeps
a row that is there. A deletion that succeeds found its row, and later deleted the row
with the same key, whoever had written it meanwhile. One that is told that there is no
row looked when there was none. Every other answer is for a request that has left the
table alone. -/
theorem answers_tell {s t : Server} (hnew : s.requests = [])
    (h : Reaches (step chain) Always s t) {i : Nat} {r : Request}
    (hr : t.requests[i]? = some r) {response : Response Unit (List String)}
    (hresponse : r.response = some response) : Tells chain s t i response r.call := by
  have hstory : Story chain s t i r.call r.stage := told_of_reaches hnew h i r hr
  rcases response_cases hresponse with ⟨hok, rfl⟩ | ⟨e, herror, rfl⟩
  · rw [hok] at hstory
    cases hcall : r.call with
    | add env body =>
      rw [hcall] at hstory
      exact Or.inl ⟨rfl, hstory⟩
    | delete env body =>
      rw [hcall] at hstory
      exact Or.inl ⟨rfl, hstory⟩
  · have huntouched : ∀ u v, Went chain s t i u v → v.interactions = u.interactions :=
      fun _ _ hwent => untouched_of_error hr herror hwent
    rw [herror] at hstory
    cases hcall : r.call with
    | add env body => exact Or.inr ⟨status_of_error e, huntouched⟩
    | delete env body =>
      rw [hcall] at hstory
      rcases hstory with ⟨raw, rfl⟩ | ⟨rfl, hnone⟩ | ⟨rfl, hmissing⟩
      · exact Or.inr (Or.inr ⟨Or.inr rfl, huntouched⟩)
      · exact Or.inr (Or.inr ⟨Or.inl ⟨rfl, hnone⟩, huntouched⟩)
      · exact Or.inr (Or.inl ⟨rfl, hmissing, huntouched⟩)

/-- Block `0` of network `1` has a transaction to a contract, which its job will read. -/
def exampleServer : Server where
  interactions := Table.empty
  schedulers := fun _ => some ⟨"EVERY_SECOND", some 0, none, false, true, true⟩
  requests := []

def exampleChains (_ : Nat) : Nat → List Transaction :=
  SchedulerJob.InteractionCoverage.exampleChain

def exampleEnv : Env := SchedulerJob.InteractionCoverage.exampleEnv fun _ => .result

def exampleDelete : Call := .delete ⟨fun _ => .ok (some 1), none, none⟩ ⟨"56", "0xA1", "0xc1"⟩

/-- Two requests for the row, each part of the one before the same part of the other. -/
def overlappingDeletes : List Action :=
  [.job 1 exampleEnv, .receive exampleDelete, .receive exampleDelete, .proceed 0, .proceed 1,
    .proceed 0, .proceed 1, .proceed 0, .proceed 1]

/-- Both are told that they have deleted it. -/
theorem both_deletes_succeed :
    ∃ t, Reaches (step exampleChains) Always exampleServer t ∧ t.interactions.rows = [] ∧
      Tells exampleChains exampleServer t 0 (success exampleDelete) exampleDelete ∧
      Tells exampleChains exampleServer t 1 (success exampleDelete) exampleDelete := by
  have hrun : Reaches (step exampleChains) Always exampleServer _ :=
    reaches_of_foldlM (show overlappingDeletes.foldlM (step exampleChains) exampleServer = some _
      from rfl)
  exact ⟨_, hrun, rfl, answers_tell rfl hrun (i := 0) rfl rfl,
    answers_tell rfl hrun (i := 1) rfl rfl⟩

/-! ## What the jobs have recorded

A block that a job's cursor has passed stays recorded but for what requests delete. -/

/-- Each block that the node answers with an error has no transaction to a contract. -/
def IdleErrors (chain : Nat → Nat → List Transaction) (s : Server) : Action → Prop
  | .job network env => ErrorsAreIdle (chain network) env (s.db network)
  | _ => True

/-- Between `v` and `t` a request to delete the transaction's row has come to its delete. -/
def DeletedBetween (chain : Nat → Nat → List Transaction) (v t : Server) (network : Nat)
    (tx : Transaction) : Prop :=
  ∃ i u w env body, Went chain v t i u w ∧
    u.requests[i]? = some ⟨.delete env body, .deleting network⟩ ∧
      (tx.row network).key = some (keyOf network body)

/-- The transaction is in the table, or was deleted since. -/
def Kept (chain : Nat → Nat → List Transaction) (v t : Server) (network : Nat)
    (tx : Transaction) : Prop :=
  Recorded network t.interactions tx ∨ DeletedBetween chain v t network tx

/-- The cursor of the network's job went over the block in this run. -/
structure Passed (chain : Nat → Nat → List Transaction) (s t : Server) (network b : Nat)
    (u : Server) (env : Env) (v : Server) : Prop where
  before : Reaches (step chain) Always s u
  taken : step chain u (.job network env) = some v
  after : Reaches (step chain) Always v t
  start : cursor (u.db network) ≤ b
  stop : b < cursor (v.db network)

theorem recorded_iff {network : Nat} {t : Interactions} {tx : Transaction} :
    Recorded network t tx ↔ ∃ k, (tx.row network).key = some k ∧ (t.content k).isSome = true := by
  simp only [Recorded, Table.content, Option.isSome_map]

/-- The wallet has an interaction with the address, on whatever network. -/
def Interacted (interactions : Interactions) (walletAddress address : String) : Prop :=
  ∃ interaction ∈ interactions.contents, sameText interaction.from_address walletAddress ∧
    ∃ own, interaction.to_address = some own ∧ sameText address own

/-- A transaction that is recorded is an interaction of its sender, in whatever case the
addresses are written. -/
theorem interacted_of_recorded {network : Nat} {interactions : Interactions} {tx : Transaction}
    {walletAddress address : String} (h : Recorded network interactions tx)
    (hfrom : sameText tx.from_ walletAddress) (hto : tx.to_ = some address) :
    Interacted interactions walletAddress address := by
  obtain ⟨k, hkey, hsome⟩ := h
  obtain ⟨stored, hstored⟩ := Option.isSome_iff_exists.mp hsome
  obtain ⟨hmem, hown⟩ := Table.lookup_some hstored
  rw [Interaction.key, Transaction.row, hto, Option.map_some, Option.some.injEq] at hkey
  rw [Interaction.key, ← hkey] at hown
  obtain ⟨shown, hshown, hparts⟩ := Option.map_eq_some_iff.mp hown
  obtain ⟨_, hsender, hreceiver⟩ := (Prod.mk.injEq ..).mp hparts |>.imp_right (Prod.mk.injEq ..).mp
  exact ⟨stored.row, List.mem_map_of_mem hmem, hsender.trans hfrom, shown, hshown,
    hreceiver.symm⟩

theorem recorded_job {network other : Nat} {env : Env} {d : Db Interactions} {tx : Transaction}
    (h : Recorded network d.tables tx) : Recorded network
      (SchedulerJob.InteractionCoverage.step other (chain other) env d).tables tx := by
  have heffect : RunEffect other (chain other) env d _ := runEffect_afterRun d
  rcases heffect with he | ⟨_, _, _, _, rows, _, he⟩
  · rw [SchedulerJob.InteractionCoverage.step, he]
    exact h
  · rw [SchedulerJob.InteractionCoverage.step, he]
    exact SchedulerJob.InteractionCoverage.recorded_insertAll rows h

/-- One step keeps a row, or deletes it for a request. -/
theorem Kept.next {v t t' : Server} {network : Nat} {tx : Transaction} {act : Action}
    (hreach : Reaches (step chain) Always v t) (hstep : step chain t act = some t')
    (h : Kept chain v t network tx) : Kept chain v t' network tx := by
  rcases h with h | ⟨i, u, w, env, body, hwent, hrequest, hkey⟩
  rotate_left
  · exact Or.inr ⟨i, u, w, env, body, hwent.next hstep, hrequest, hkey⟩
  cases act with
  | receive call =>
    cases hstep
    exact Or.inl h
  | job other env =>
    cases hstep
    exact Or.inl (recorded_job h)
  | proceed i =>
    obtain ⟨r, stage, hr, _, _, _, hmoves⟩ := proceed_cases hstep
    have hwent : Went chain v t' i t t' := ⟨hreach, hstep, .start⟩
    obtain ⟨call, before⟩ := r
    generalize hrows : t.interactions = rows at hmoves h
    generalize hrows' : t'.interactions = rows' at hmoves
    cases hmoves with
    | inserted env body n =>
      refine Or.inl ?_
      rw [hrows']
      exact SchedulerJob.InteractionCoverage.recorded_insertAll [body.params n] h
    | deleted env body n =>
      obtain ⟨k, hk, hsome⟩ := recorded_iff.mp h
      by_cases hkey : k = keyOf n body
      · -- the key names the network
        have hsame : network = n := by
          have hrow := hk.trans (congrArg some hkey)
          obtain ⟨_, _, hparts⟩ := Option.map_eq_some_iff.mp hrow
          exact congrArg Prod.fst hparts
        subst hsame
        exact Or.inr ⟨i, t, t', env, body, hwent, hr, hkey ▸ hk⟩
      · refine Or.inl (recorded_iff.mpr ⟨k, hk, ?_⟩)
        rw [hrows', content_deleteInteraction, if_neg hkey]
        exact hsome
    | checked | located | present | missing | failedAdd | noNetwork | failedDelete | other =>
      refine Or.inl ?_
      rw [hrows']
      exact h

theorem cursor_of_scheduler {t t' : Server} {network : Nat}
    (h : t'.schedulers network = t.schedulers network) :
    cursor (t'.db network) = cursor (t.db network) := by
  rw [cursor, cursor, Db.cursor, Db.cursor, Server.db, Server.db, h]

/-- Only its own job moves a cursor. -/
theorem job_of_cursor {t t' : Server} {act : Action} (hstep : step chain t act = some t')
    {network : Nat} (h : cursor (t'.db network) ≠ cursor (t.db network)) :
    ∃ env, act = .job network env := by
  cases act with
  | receive call =>
    cases hstep
    exact absurd rfl h
  | proceed i =>
    obtain ⟨_, _, _, _, _, hschedulers, _⟩ := proceed_cases hstep
    exact absurd (cursor_of_scheduler (congrFun hschedulers network)) h
  | job other env =>
    by_cases hother : network = other
    · exact ⟨env, by rw [hother]⟩
    · cases hstep
      exact absurd (cursor_of_scheduler (Function.update_of_ne hother _ _)) h

/-- What the network's job leaves in its own row and in the table. -/
theorem db_job {t t' : Server} {network : Nat} {env : Env}
    (hstep : step chain t (.job network env) = some t') :
    t'.db network =
      SchedulerJob.InteractionCoverage.step network (chain network) env (t.db network) := by
  cases hstep
  rw [Server.db, Server.ran]
  simp only [Function.update_self]

/-- Each block that the cursor of a network's job has passed was passed in one run, and
what this run found to be sent to a contract is kept. -/
def PassedKept (chain : Nat → Nat → List Transaction) (s t : Server) : Prop :=
  ∀ network b, cursor (s.db network) ≤ b → b < cursor (t.db network) →
    ∃ u env v, Passed chain s t network b u env v ∧
      ∀ tx ∈ chain network b, SentToContract env tx → Kept chain v t network tx

theorem PassedKept.start (s : Server) : PassedKept chain s s := fun _ _ hstart hstop =>
  absurd hstop (Nat.not_lt.mpr hstart)

theorem PassedKept.next {s t t' : Server} {act : Action}
    (hbefore : Reaches (step chain) Always s t) (hmeets : IdleErrors chain t act)
    (hstep : step chain t act = some t') (h : PassedKept chain s t) : PassedKept chain s t' := by
  intro network b hstart hstop
  by_cases hpassed : b < cursor (t.db network)
  · obtain ⟨u, env, v, hrun, hkept⟩ := h network b hstart hpassed
    refine ⟨u, env, v, ⟨hrun.before, hrun.taken, .next hrun.after trivial hstep, hrun.start,
      hrun.stop⟩, fun tx htx hsent => ?_⟩
    exact (hkept tx htx hsent).next hrun.after hstep
  · -- the step is the run that passes the block
    have hmoved : cursor (t'.db network) ≠ cursor (t.db network) := fun hsame =>
      hpassed (hsame ▸ hstop)
    obtain ⟨env, rfl⟩ := job_of_cursor hstep hmoved
    refine ⟨t, env, t', ⟨hbefore, hstep, .start, Nat.le_of_not_lt hpassed, hstop⟩,
      fun tx htx hsent => Or.inl ?_⟩
    have hdb := db_job hstep
    have htables := congrArg Db.tables hdb
    rw [show t'.interactions = _ from htables]
    refine SchedulerJob.InteractionCoverage.recorded_window hmeets b ?_ tx htx hsent
    refine Crossing.mem_window.mpr ⟨Nat.le_of_not_lt hpassed, ?_⟩
    rw [hdb] at hstop
    exact hstop

theorem passedKept_of_idleErrors {s t : Server}
    (h : Reaches (step chain) (IdleErrors chain) s t) : PassedKept chain s t := by
  induction h with
  | start => exact .start s
  | next before meets taken ih => exact ih.next (before.mono fun _ _ _ => trivial) meets taken

/-- **Recorded, or deleted since.** However the requests and the runs of all jobs
interleave, when the node's error entries only concern blocks without a transaction to a
contract: each block that the cursor of a network's job has passed was passed in one run,
and each transaction of it that this run found to be sent to a contract is in the table,
unless a request to delete its row came to its delete after that run. -/
theorem kept_of_idleErrors {s t : Server} (h : Reaches (step chain) (IdleErrors chain) s t)
    {network b : Nat} (hstart : cursor (s.db network) ≤ b) (hstop : b < cursor (t.db network)) :
    ∃ u env v, Passed chain s t network b u env v ∧
      ∀ tx ∈ chain network b, SentToContract env tx → Kept chain v t network tx :=
  passedKept_of_idleErrors h network b hstart hstop

/-- The job records the transaction of block `0`, and a request deletes it. -/
theorem block_zero_kept :
    ∃ t, Reaches (step exampleChains) (IdleErrors exampleChains) exampleServer t ∧
      t.interactions.rows = [] ∧ ∃ u env v, Passed exampleChains exampleServer t 1 0 u env v ∧
        ∀ tx ∈ exampleChains 1 0, SentToContract env tx → Kept exampleChains v t 1 tx := by
  have hidle : IdleErrors exampleChains exampleServer (.job 1 exampleEnv) :=
    fun _ _ _ _ _ herror => nomatch herror
  have hrun : Reaches (step exampleChains) (IdleErrors exampleChains) exampleServer _ :=
    .next (.next (.next (.next (.next .start hidle rfl) (a := .receive exampleDelete) trivial rfl)
      (a := .proceed 0) trivial rfl) (a := .proceed 0) trivial rfl) (a := .proceed 0) trivial rfl
  exact ⟨_, hrun, rfl, kept_of_idleErrors hrun (by decide) (by decide)⟩

end BlockchainTask.Interaction.Requests
