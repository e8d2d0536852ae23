import BlockchainTask.Interaction.Requests
import BlockchainTask.Library.Relational

/-! # Networks side by side

The networks share the table of interactions. Their jobs and the requests about them run
side by side: a network's rows, the cursor of its job and the answers to the requests
about it are as if the other networks were not there. -/
namespace BlockchainTask.Interaction.Networks
open BlockchainTask.App.AllExceptionFilter BlockchainTask.Common.Exception
open BlockchainTask.Helper BlockchainTask.Library.Effect BlockchainTask.Library.Relational
open BlockchainTask.Library.Runs BlockchainTask.Library.Store BlockchainTask.Library.Transaction
open BlockchainTask.SchedulerJob.Base BlockchainTask.SchedulerJob.InteractionTemplate
open BlockchainTask.Interaction.InteractionController BlockchainTask.Interaction.Requests

/-! ## The rows of a network -/

def ofNetwork (n : Nat) (row : Interaction) : Bool := row.network == n

theorem network_of_key {row : Interaction} {k : Nat × String × String} (h : row.key = some k) :
    row.network = k.1 := by
  obtain ⟨address, _, rfl⟩ := Option.map_eq_some_iff.mp h
  rfl

/-- Rows with the same key are of the same network. -/
theorem ofNetwork_congr (n : Nat) (row row' : Interaction) (k : Nat × String × String)
    (h : row.key = some k) (h' : row'.key = some k) : ofNetwork n row = ofNetwork n row' := by
  rw [ofNetwork, network_of_key h, ofNetwork, network_of_key h']

/-- The same rows of a network, in the same order; their ids may differ. -/
def SameRows (n : Nat) (t u : Interactions) : Prop := t.part (ofNetwork n) = u.part (ofNetwork n)

theorem findInteraction_sameRows {n : Nat} {t u : Interactions} (h : SameRows n t u)
    (body : InteractionBody) : findInteraction n body t = findInteraction n body u := by
  have hwanted : ∀ row, wanted n body row = true → ofNetwork n row = true := by
    intro row hrow
    have hkey := network_of_key ((wanted_iff n body row).mp hrow)
    rw [ofNetwork, hkey]
    exact beq_self_eq_true n
  rw [findInteraction, findInteraction, Table.find?_contents t hwanted,
    Table.find?_contents u hwanted, h]

theorem deleteInteraction_sameRows {n : Nat} {t u : Interactions} (h : SameRows n t u)
    (body : InteractionBody) :
    SameRows n (deleteInteraction n body t) (deleteInteraction n body u) := by
  rw [SameRows, deleteInteraction, Table.part_deleteWhere, deleteInteraction,
    Table.part_deleteWhere, h]

/-- A delete in another network. -/
theorem deleteInteraction_other {n m : Nat} (hne : m ≠ n) (body : InteractionBody)
    (t : Interactions) : SameRows n (deleteInteraction m body t) t := by
  rw [SameRows, deleteInteraction, Table.part_deleteWhere, List.filter_eq_self]
  intro row hrow
  have hn : row.network = n := beq_iff_eq.mp (List.mem_filter.mp hrow).2
  rw [Bool.not_eq_true', ← Bool.not_eq_true, wanted_iff]
  exact fun hkey => hne ((network_of_key hkey).symm.trans hn)

/-! ## The job of a network -/

/-- The scheduler's row, and the rows of the network. -/
structure OnNetwork (n : Nat) (d e : Db Interactions) : Prop where
  scheduler : d.scheduler = e.scheduler
  rows : SameRows n d.tables e.tables

/-- A relation of the data that the job of a network reads through and writes in. -/
structure KeptByJob (network : Nat) (r : Db Interactions → Db Interactions → Prop) : Prop where
  read : ∀ d e, r d e → d.scheduler = e.scheduler
  update : ∀ set, Lifts r (Db.setScheduler set) (Db.setScheduler set)
  insert : ∀ rows : List Interaction, (∀ row ∈ rows, row.network = network) →
    Lifts r (Db.setTables fun t => t.insertAll rows) (Db.setTables fun t => t.insertAll rows)

theorem keptByJob_own (n : Nat) : KeptByJob n (OnNetwork n) where
  read _ _ h := h.scheduler
  update set _ _ h := ⟨congrArg (Option.map set) h.scheduler, h.rows⟩
  insert rows _ _ _ h :=
    ⟨h.scheduler, Table.part_insertAll_congr (ofNetwork_congr n) h.rows rows⟩

/-- The job of another network leaves the rows of this one alone. -/
theorem keptByJob_other {n m : Nat} (hne : m ≠ n) (t : Interactions) :
    KeptByJob m fun d e => d = e ∧ SameRows n d.tables t where
  read _ _ h := congrArg Db.scheduler h.1
  update set d e h := ⟨congrArg (Db.setScheduler set) h.1, h.2⟩
  insert rows hrows d e h := by
    refine ⟨congrArg (Db.setTables fun t => t.insertAll rows) h.1, ?_⟩
    have hothers : ∀ row ∈ rows, ofNetwork n row = false := by
      intro row hrow
      rw [ofNetwork, hrows row hrow]
      exact beq_false_of_ne hne
    exact (Table.part_insertAll_of_not d.tables hothers).trans h.2

section
variable {network : Nat} {chain : Nat → List Transaction} {env : Env}
variable {r : Db Interactions → Db Interactions → Prop}

theorem parseContractInteractionTransaction_alike (transactions : List Transaction) :
    SessionsAlike r (fun rows : List Interaction => ∀ row ∈ rows, row.network = network)
      (parseContractInteractionTransaction network env transactions)
      (parseContractInteractionTransaction network env transactions) := by
  refine Alike.ite (fun _ => Alike.pure fun row hrow => absurd hrow List.not_mem_nil) fun _ => ?_
  refine Alike.bind (P := Any) (Alike.await fun _ _ => trivial) fun checkCA _ => ?_
  refine Alike.pure fun row hrow => ?_
  obtain ⟨p, _, rfl⟩ := List.mem_map.mp hrow
  rfl

/-- What the callback hands on is of the job's network. -/
theorem parseResponse_alike (response : Response) :
    SessionsAlike r
      (fun params : Option (List Interaction) =>
        ∀ rows, params = some rows → ∀ row ∈ rows, row.network = network)
      (parseResponse network env response) (parseResponse network env response) := by
  cases response with
  | error => exact Alike.pure fun rows hrows => nomatch hrows
  | result block =>
    cases block with
    | none => exact Alike.throw typeError
    | some transactions =>
      refine Alike.bind (parseContractInteractionTransaction_alike transactions)
        fun rows hrows => ?_
      refine Alike.pure fun rows' hrows' => ?_
      split at hrows'
      · cases hrows'
        exact hrows
      · cases hrows'

theorem getSchedulerBlockNumber_alike (h : KeptByJob network r) :
    SessionsAlike r Any (getSchedulerBlockNumber env) (getSchedulerBlockNumber env) := by
  refine Alike.bind (SessionsAlike.connectionRead env.findScheduler h.read) fun found _ => ?_
  cases found with
  | none => exact Alike.throw _
  | some scheduler => exact Alike.pure trivial

theorem store_alike (h : KeptByJob network r) {bulkParams : List Interaction}
    (hrows : ∀ row ∈ bulkParams, row.network = network) (eBlock : Nat) :
    SessionsAlike r Any (store env bulkParams eBlock) (store env bulkParams eBlock) :=
  Alike.bind (SessionsAlike.managerWrite env.bulkCreate (fun _ _ _ => rfl) (h.insert _ hrows))
    fun _ _ => SessionsAlike.managerWrite env.updateScheduler (fun _ _ _ => rfl) (h.update _)

theorem crawl_alike (h : KeptByJob network r) (sBlock eBlock : Nat) :
    SessionsAlike r Any (crawl network chain env sBlock eBlock)
      (crawl network chain env sBlock eBlock) := by
  refine Alike.bind (P := Any) (Alike.await fun _ _ => trivial) fun data _ => ?_
  refine Alike.bind (Alike.mapEach fun response _ => parseResponse_alike response)
    fun params hparams => ?_
  have hrows : ∀ row ∈ (env.settle (params.filterMap id)).flatten, row.network = network := by
    intro row hrow
    obtain ⟨rows, hmem, hin⟩ := List.mem_flatten.mp hrow
    obtain ⟨p, hp, rfl⟩ := List.mem_filterMap.mp ((env.settle_perm _).mem_iff.mp hmem)
    exact hparams _ hp rows rfl row hin
  refine Alike.bind (Alike.mayFail _) fun _ _ => ?_
  refine Alike.bind SessionsAlike.createQueryRunner fun _ _ => ?_
  refine Alike.bind (SessionsAlike.connect _) fun _ _ => ?_
  refine Alike.bind (SessionsAlike.startTransaction _) fun _ _ => ?_
  exact Alike.bind (store_alike h hrows eBlock) fun _ _ => SessionsAlike.commitTransaction _

variable (chain env) in
theorem run_alike (h : KeptByJob network r) :
    SessionsAlike r Any (run network chain env) (run network chain env) := by
  refine Alike.bind (SessionsAlike.writeLog _) fun _ _ => ?_
  refine Alike.bind (getSchedulerBlockNumber_alike h) fun sBlock _ => ?_
  refine Alike.bind (P := Any) (Alike.await fun _ _ => trivial) fun total _ => ?_
  refine Alike.ite (fun _ => Alike.pure trivial) fun _ => ?_
  refine Alike.bind (SessionsAlike.writeLog _) fun _ _ => ?_
  refine Alike.bind SessionsAlike.noQueryRunner fun _ _ => ?_
  refine Alike.tryFinally (Alike.tryCatch (crawl_alike h _ _) fun e => ?_)
    SessionsAlike.releaseIfHeld
  exact Alike.bind (SessionsAlike.rollbackIfCreated _) fun _ _ => Alike.throw _

variable (chain env) in
/-- One run on related data. -/
theorem step_related (h : KeptByJob network r) {d e : Db Interactions} (hde : r d e) :
    r (SchedulerJob.InteractionCoverage.step network chain env d)
      (SchedulerJob.InteractionCoverage.step network chain env e) := by
  obtain ⟨_, s', t', hs, ht, hst, _⟩ :=
    run_alike chain env h (startSession d) (startSession e)
      ⟨hde, .none, rfl, rfl⟩
  rw [SchedulerJob.InteractionCoverage.step, afterRun, hs, SchedulerJob.InteractionCoverage.step,
    afterRun, ht]
  exact hst.db

end

/-! ## A request about a network -/

/-- The network that a request finds. -/
def networkOf : Call → Option Nat
  | .add env body => (env.findNetwork body.chainId).toOption.join
  | .delete env body => (env.findNetwork body.chainId).toOption.join

/-- A request has come to its stage with the network it found. -/
def Located (call : Call) : Stage → Prop
  | .inserting network => networkOf call = some network
  | .searching network => networkOf call = some network
  | .deleting network => networkOf call = some network
  | _ => True

theorem located_moves {call : Call} {stage stage' : Stage} {t u : Interactions}
    (h : Located call stage) (hmoves : Moves call stage stage' t u) : Located call stage' := by
  cases hmoves with
  | checked _ hfound =>
    rw [Located, networkOf, hfound]
    rfl
  | located _ hfound =>
    rw [Located, networkOf, hfound]
    rfl
  | present _ => exact h
  | other _ => exact h
  | inserted | missing | deleted | failedAdd | noNetwork | failedDelete => exact trivial

theorem moves_other {n : Nat} {call : Call} {stage stage' : Stage} {t u : Interactions}
    (hne : networkOf call ≠ some n) (h : Located call stage)
    (hmoves : Moves call stage stage' t u) : SameRows n u t := by
  cases hmoves with
  | inserted env body m =>
    refine Table.part_insertIgnore_of_not t (beq_false_of_ne fun hm => hne ?_)
    exact hm ▸ h
  | deleted env body m =>
    have hm : networkOf (.delete env body) = some m := h
    exact deleteInteraction_other (fun hmn => hne (hm.trans (congrArg some hmn))) body t
  | checked | located | present | missing | failedAdd | noNetwork | failedDelete | other => rfl

/-- A part of a request reads and writes only the rows of its network. -/
theorem segment_alike {n : Nat} {call : Call} {stage : Stage} (hn : networkOf call = some n)
    (h : Located call stage) :
    Alike (SameRows n) Any (call.segment stage) (call.segment stage) := by
  have hfault : ∀ fault : Option Thrown,
      Alike (SameRows n) Any (.mayFail fault : Eff Interactions Thrown Unit) (.mayFail fault) :=
    fun fault => Alike.mayFail fault
  cases call with
  | add env body =>
    cases stage with
    | finding =>
      refine Alike.bind (P := Any) (Alike.await fun _ _ => trivial) fun found _ => ?_
      cases found with
      | none => exact Alike.throw notFoundNetwork
      | some network =>
        refine Alike.bind (Alike.when fun _ => Alike.throw typeError) fun _ _ => ?_
        refine Alike.bind (P := Any) (Alike.await fun _ _ => trivial) fun checkCA _ => ?_
        exact Alike.bind (Alike.when fun _ => Alike.throw notContract) fun _ _ => Alike.pure trivial
    | inserting network =>
      refine Alike.bind (P := Any) ?_ fun _ _ => Alike.pure trivial
      refine Alike.bind (hfault _) fun _ _ => Alike.bind (hfault _) fun _ _ => ?_
      exact Alike.update fun t u htu => Table.part_insertAll_congr (ofNetwork_congr n) htu _
    | searching network => exact Alike.pure trivial
    | deleting network => exact Alike.pure trivial
    | answered result => exact Alike.pure trivial
  | delete env body =>
    cases stage with
    | finding =>
      refine Alike.bind (P := Any) (Alike.await fun _ _ => trivial) fun found _ => ?_
      cases found with
      | none => exact Alike.throw notFoundNetwork
      | some network => exact Alike.pure trivial
    | inserting network => exact Alike.pure trivial
    | searching network =>
      cases Option.some.inj (hn.symm.trans h)
      refine Alike.bind (hfault _) fun _ _ => ?_
      refine Alike.bind (Alike.read fun t u htu => findInteraction_sameRows htu body)
        fun existInteraction _ => ?_
      exact Alike.bind (Alike.when fun _ => Alike.throw notFoundInteraction)
        fun _ _ => Alike.pure trivial
    | deleting network =>
      cases Option.some.inj (hn.symm.trans h)
      refine Alike.bind (hfault _) fun _ _ => ?_
      refine Alike.bind (Alike.update fun t u htu => deleteInteraction_sameRows htu body)
        fun _ _ => Alike.pure trivial
    | answered result => exact Alike.pure trivial

/-- So it comes to the same stage, and leaves the same rows. -/
theorem proceed_alike {n : Nat} {call : Call} {stage : Stage} {t u : Interactions}
    (hn : networkOf call = some n) (h : Located call stage) (htu : SameRows n t u) :
    (call.proceed (stage, t)).1 = (call.proceed (stage, u)).1 ∧
      SameRows n (call.proceed (stage, t)).2 (call.proceed (stage, u)).2 := by
  obtain ⟨result, t', u', ht, hu, hsame, _⟩ := segment_alike hn h t u htu
  rw [Call.proceed, Call.proceed]
  simp only [ht, hu]
  exact ⟨trivial, hsame⟩

/-! ## The server, as a network sees it -/

theorem set_same {α : Type} {xs : List α} {i : Nat} {a : α} (h : xs[i]? = some a) :
    xs.set i a = xs := by
  obtain ⟨hi, rfl⟩ := List.getElem?_eq_some_iff.mp h
  exact List.set_getElem_self hi

/-- A request that is not about the network shows only that it came. -/
def shown (n : Nat) (r : Request) : Call × Option Stage :=
  (r.call, if networkOf r.call = some n then some r.stage else none)

structure View where
  scheduler : Option Scheduler
  interactions : List Interaction
  requests : List (Call × Option Stage)

def view (n : Nat) (s : Server) : View :=
  ⟨s.schedulers n, s.interactions.part (ofNetwork n), s.requests.map (shown n)⟩

def received (acts : List Action) : List Call :=
  acts.filterMap fun
    | .receive call => some call
    | _ => none

/-- Whether an action concerns a network, when these calls are received in a run. -/
def concerns (n : Nat) (calls : List Call) : Action → Bool
  | .receive _ => true
  | .proceed i => calls[i]?.bind networkOf == some n
  | .job network _ => network == n

/-- A state of the run, and of the run without what concerns other networks. -/
structure Matches (n : Nat) (calls : List Call) (acts : List Action) (s t : Server) : Prop where
  same : view n s = view n t
  calls : s.requests.map Request.call ++ received acts = calls
  located : ∀ r ∈ s.requests, Located r.call r.stage

namespace Matches
variable {n : Nat} {calls : List Call} {acts : List Action} {s t u : Server}
variable {chain : Nat → Nat → List Transaction}

theorem receive {call : Call} (h : Matches n calls (.receive call :: acts) s t)
    (hstep : step chain s (.receive call) = some u) :
    ∃ v, step chain t (.receive call) = some v ∧ Matches n calls acts u v := by
  cases hstep
  refine ⟨_, rfl, ⟨?_, ?_, ?_⟩⟩
  · have hsame := h.same
    simp only [view, View.mk.injEq] at hsame ⊢
    refine ⟨hsame.1, hsame.2.1, ?_⟩
    rw [List.map_append, hsame.2.2, List.map_append]
  · rw [← h.calls, List.map_append, List.append_assoc]
    rfl
  · intro r hr
    rcases List.mem_append.mp hr with hr | hr
    · exact h.located r hr
    · rw [List.mem_singleton.mp hr]
      cases call <;> exact trivial

/-- A request that goes on, in the run that has all of them. -/
theorem of_proceed {i : Nat} {v : Server} (h : Matches n calls (.proceed i :: acts) s t)
    (hstep : step chain s (.proceed i) = some u) (hsame : view n u = view n v) :
    Matches n calls acts u v := by
  obtain ⟨r, stage, hr, _, hrequests, _, hmoves⟩ := proceed_cases hstep
  refine ⟨hsame, ?_, ?_⟩
  · have hcall : s.requests.map Request.call = u.requests.map Request.call := by
      rw [hrequests, List.map_set]
      refine (set_same ?_).symm
      rw [List.getElem?_map, hr]
      rfl
    rw [← hcall]
    exact h.calls
  · intro q hq
    rw [hrequests] at hq
    rcases List.mem_or_eq_of_mem_set hq with hq | rfl
    · exact h.located q hq
    · exact located_moves (h.located r (List.mem_of_getElem? hr)) hmoves

/-- The call of a request that goes on is one that was received. -/
theorem concerns_proceed {i : Nat} {r : Request} (h : Matches n calls acts s t)
    (hr : s.requests[i]? = some r) :
    concerns n calls (.proceed i) = true ↔ networkOf r.call = some n := by
  have hcall : calls[i]? = some r.call := by
    rw [← h.calls, List.getElem?_append_left, List.getElem?_map, hr]
    · rfl
    · rw [List.length_map]
      exact (List.getElem?_eq_some_iff.mp hr).1
  rw [concerns, hcall, Option.bind_some, beq_iff_eq]

theorem proceed_own {i : Nat} (h : Matches n calls (.proceed i :: acts) s t)
    (hkeep : concerns n calls (.proceed i) = true) (hstep : step chain s (.proceed i) = some u) :
    ∃ v, step chain t (.proceed i) = some v ∧ Matches n calls acts u v := by
  have hstep' := hstep
  simp only [step, proceedStep] at hstep'
  split at hstep'
  rotate_left
  · cases hstep'
  rename_i r hr
  have hn : networkOf r.call = some n := (h.concerns_proceed hr).mp hkeep
  have hsame := h.same
  simp only [view, View.mk.injEq] at hsame
  -- a request about the network is the same one in both
  have ht : t.requests[i]? = some r := by
    have hshown := congrArg (·[i]?) hsame.2.2
    simp only [List.getElem?_map, hr, Option.map_some] at hshown
    obtain ⟨q, hq, hqr⟩ := Option.map_eq_some_iff.mp hshown.symm
    obtain ⟨call, stage⟩ := q
    simp only [shown, Prod.mk.injEq] at hqr
    obtain ⟨rfl, hstage⟩ := hqr
    rw [if_pos hn, if_pos hn] at hstage
    rw [hq, Option.some.inj hstage]
  obtain ⟨hstage, hrows⟩ := proceed_alike hn (h.located r (List.mem_of_getElem? hr)) hsame.2.1
  split at hstep'
  · cases hstep'
  rename_i hopen
  cases hstep'
  refine ⟨t.went i r, ?_, h.of_proceed hstep ?_⟩
  · simp only [step, proceedStep, ht]
  · simp only [view, Server.went, View.mk.injEq, List.map_set, hsame.1, hsame.2.2, hstage]
    exact ⟨trivial, hrows, trivial⟩

theorem proceed_other {i : Nat} (h : Matches n calls (.proceed i :: acts) s t)
    (hdrop : concerns n calls (.proceed i) = false) (hstep : step chain s (.proceed i) = some u) :
    Matches n calls acts u t := by
  refine h.of_proceed hstep ?_
  obtain ⟨r, stage, hr, _, hrequests, hschedulers, hmoves⟩ := proceed_cases hstep
  have hne : networkOf r.call ≠ some n := by
    rw [Ne, ← h.concerns_proceed hr, hdrop]
    exact Bool.noConfusion
  have hrows : SameRows n u.interactions s.interactions :=
    moves_other hne (h.located r (List.mem_of_getElem? hr)) hmoves
  rw [← h.same]
  simp only [view, View.mk.injEq, hschedulers]
  refine ⟨trivial, hrows, ?_⟩
  rw [hrequests, List.map_set]
  refine set_same ?_
  rw [List.getElem?_map, hr]
  simp only [Option.map_some, shown, if_neg hne]

theorem job_own {env : Env} (h : Matches n calls (.job n env :: acts) s t)
    (hstep : step chain s (.job n env) = some u) :
    ∃ v, step chain t (.job n env) = some v ∧ Matches n calls acts u v := by
  cases hstep
  have hsame := h.same
  simp only [view, View.mk.injEq] at hsame
  have hdata : OnNetwork n (s.db n) (t.db n) := ⟨hsame.1, hsame.2.1⟩
  have hran := step_related (chain n) env (keptByJob_own n) hdata
  refine ⟨_, rfl, ⟨?_, h.calls, h.located⟩⟩
  simp only [view, Server.ran, View.mk.injEq, Function.update_self]
  exact ⟨hran.scheduler, hran.rows, hsame.2.2⟩

theorem job_other {m : Nat} {env : Env} (hne : m ≠ n)
    (h : Matches n calls (.job m env :: acts) s t)
    (hstep : step chain s (.job m env) = some u) : Matches n calls acts u t := by
  cases hstep
  have hran := step_related (chain m) env (keptByJob_other hne s.interactions) (d := s.db m)
    (e := s.db m) ⟨rfl, rfl⟩
  refine ⟨?_, h.calls, h.located⟩
  rw [← h.same]
  simp only [view, Server.ran, View.mk.injEq, Function.update_of_ne hne.symm]
  exact ⟨trivial, hran.2, trivial⟩

end Matches

/-- **Networks do not interfere.** Take any run of the server, and leave out the runs of
the jobs of the other networks and all parts of the requests that are not about the
network. What is left is a run, and it ends with the same rows of the network in the same
order, the same cursor of its job, and the same answers to the requests about it. It may
start from any other rows of the other networks. -/
theorem others_make_no_difference {chain : Nat → Nat → List Transaction} (n : Nat)
    {s t u : Server} (hnew : s.requests = []) (hsame : view n s = view n t) {acts : List Action}
    (hrun : acts.foldlM (step chain) s = some u) :
    ∃ v, (acts.filter (concerns n (received acts))).foldlM (step chain) t = some v ∧
      view n u = view n v := by
  have hstart : Matches n (received acts) acts s t := by
    refine ⟨hsame, ?_, ?_⟩
    · rw [hnew]
      rfl
    · rw [hnew]
      exact fun r hr => absurd hr List.not_mem_nil
  have hkept : ∀ a as s t u, concerns n (received acts) a = true →
      Matches n (received acts) (a :: as) s t → step chain s a = some u →
        ∃ v, step chain t a = some v ∧ Matches n (received acts) as u v := by
    intro a as s t u hkeep h hstep
    cases a with
    | receive call => exact h.receive hstep
    | proceed i => exact h.proceed_own hkeep hstep
    | job m env =>
      cases (beq_iff_eq.mp hkeep : m = n)
      exact h.job_own hstep
  have hdropped : ∀ a as s t u, concerns n (received acts) a = false →
      Matches n (received acts) (a :: as) s t → step chain s a = some u →
        Matches n (received acts) as u t := by
    intro a as s t u hdrop h hstep
    cases a with
    | receive call => cases hdrop
    | proceed i => exact h.proceed_other hdrop hstep
    | job m env => exact h.job_other (beq_eq_false_iff_ne.mp hdrop) hstep
  obtain ⟨v, hv, hend⟩ := foldlM_filter hkept hdropped hstart hrun
  exact ⟨v, hv, hend.same⟩

def deleteOn (network : Nat) : Call :=
  .delete ⟨fun _ => .ok (some network), none, none⟩ ⟨"56", "0xA1", "0xc1"⟩

/-- The first request deletes the row of network `2`, the second is about network `1`. -/
def twoNetworks : List Action :=
  [.job 2 exampleEnv, .receive (deleteOn 2), .receive (deleteOn 1), .proceed 0, .job 1 exampleEnv,
    .proceed 1, .proceed 0, .proceed 1, .proceed 0]

def networkOne : List Action :=
  [.receive (deleteOn 2), .receive (deleteOn 1), .job 1 exampleEnv, .proceed 1, .proceed 1]

/-- The row of network `1` is recorded with and without network `2`. -/
theorem one_beside_two : ∃ u v,
    twoNetworks.foldlM (step exampleChains) exampleServer = some u ∧
      networkOne.foldlM (step exampleChains) exampleServer = some v ∧ view 1 u = view 1 v ∧
        u.interactions.contents = [⟨1, "0xa1", some "0xc1"⟩] := by
  have hrun : twoNetworks.foldlM (step exampleChains) exampleServer = some _ := rfl
  obtain ⟨v, hv, hsame⟩ := others_make_no_difference 1 (t := exampleServer) rfl rfl hrun
  exact ⟨_, v, hrun, hv, hsame, rfl⟩

end BlockchainTask.Interaction.Networks
