import VaultWatch.Agents.Demo
import VaultWatch.Agents.Reports
import VaultWatch.Lib.Obligations

/-! The request handlers of the service (`agents-python/app/main.py`), and what becomes of
the cases they save. -/
namespace VaultWatch.Agents

open VaultWatch.Lib.Exact (Trig)
open VaultWatch.Lib.Effects VaultWatch.Lib.Interleave

/-- An `HTTPException`, whose text is the status and the detail. -/
def httpException (status : ℕ) (detail : String) : Raised :=
  .exception "HTTPException" (toString status ++ ": " ++ detail)

/-- `{**d, **e}`. -/
def Dict.merge (d e : Dict) : Dict :=
  d.map (fun field => (field.1, (e.lookup field.1).getD field.2)) ++
    e.filter fun field => (d.lookup field.1).isNone

/-- `except Exception`. -/
def onException {σ α : Type} (handler : Endpoint σ α) : Raised → Endpoint σ α
  | .exception .. => handler
  | .cancelled => throw .cancelled

/-- The state of the process, its settings and what `isinstance` says of exceptions. -/
structure Service where
  host : Host
  random : Random
  math : Trig ℚ
  orchestrator : Orchestrator
  demoControls : Bool
  isValueError : String → Bool
  isHttpError : String → Bool
  isRuntimeError : String → Bool

/-- Ten requests of fixed coverage, before they are shuffled. -/
def balancedRequests : List DemoRequest :=
  [⟨.normal, some 45, .dublin, .dublin, by simp; norm_num⟩,
    ⟨.normal, some 50, .london, .london, by simp; norm_num⟩,
    ⟨.normal, some 55, .newYork, .newYork, by simp; norm_num⟩,
    ⟨.normal, some 60, .sydney, .sydney, by simp; norm_num⟩,
    ⟨.normal, some 65, .dublin, .dublin, by simp; norm_num⟩,
    ⟨.review, some 60, .dublin, .dublin, by simp; norm_num⟩,
    ⟨.review, some 65, .london, .london, by simp; norm_num⟩,
    ⟨.unusual, some 4200, .dublin, .sydney, by simp; norm_num⟩,
    ⟨.sanctions, some 4200, .dublin, .london, by simp; norm_num⟩,
    ⟨.takeover, some 4200, .dublin, .sydney, by simp; norm_num⟩]

/-- The local lists of `demo_batch`. -/
structure Batch where
  results : List Dict := []
  failures : List Dict := []

namespace Service

variable (service : Service) {σ : Type}

/-- `await orchestrator.process_transaction(...)`. -/
def process (tx : Transaction) (context : Option ScoringContext) (review : Option Dict) :
    Endpoint σ PipelineResult :=
  ExceptT.mk <| StateT.lift <|
    (service.orchestrator.processTransaction service.host tx context review).translate
      ServiceOp.pipeline fun _ answer => answer

/-- What is saved of a result. -/
def record (tx : Transaction) (result : PipelineResult) : CaseRecord :=
  ⟨tx.id, tx.accountId, result.asDict service.host⟩

/-- Save, broadcast and respond. -/
def keep (tx : Transaction) (result : PipelineResult) : Endpoint σ Dict := do
  raising (← ask (.save (service.record tx result)))
  raising (← ask (.broadcast [("type", .str "case_saved"), ("transaction_id", .str tx.id)]))
  return Dict.merge [("transaction", .dict (tx.modelDump service.host))]
    (result.asDict service.host)

def runPipeline (forceRisky : Bool) : Endpoint σ Dict := do
  let tx ← ask (ServiceOp.generateDemoTransaction forceRisky)
  let result ← service.process tx none none
  service.keep tx result

/-- The loop, with what it draws for each round. -/
def syntheticTransactionLoop : List (Time × Bool) → Endpoint σ Unit
  | [] => return
  | (pause, forceRisky) :: rounds => do
    raising (← ask (.sleep pause))
    let tx ← ask (ServiceOp.generateDemoTransaction forceRisky)
    attempt
      (do
        let result ← service.process tx none none
        raising (← ask (.save (service.record tx result))))
      (onException (return))
    syntheticTransactionLoop rounds

/-- What an exception of a scenario becomes. -/
def demoError : Raised → Raised
  | .exception type message =>
    if service.isValueError type then httpException 422 message
    else if service.isHttpError type ∨ service.isRuntimeError type then
      httpException 503 ("Scenario could not finish. Check the service indicators and retry; " ++
        "no case was reported as complete.")
    else .exception type message
  | .cancelled => .cancelled

/-- The scenario of a request, from its creation to its response. -/
def scenario (request : DemoRequest) : Endpoint σ Dict := do
  let (tx, ctx, review) ← createScenario service.random service.math service.host request
  let result ← service.process tx (some ctx) (some review)
  service.keep tx result

def demoRun (request : DemoRequest) : Endpoint σ Dict :=
  if ¬ service.demoControls then throw (httpException 404 "Local demo controls are disabled")
  else attempt (service.scenario request) fun error => throw (service.demoError error)

def failure (index : ℕ) (request : DemoRequest) : Dict :=
  [("index", .int index), ("scenario", .str request.scenario.value),
    ("message", .str ("Not confirmed complete. Check recent cases and service status before " ++
      "rerunning."))]

def progress (batchId : String) (completed : ℕ) : Dict :=
  [("type", .str "batch_progress"), ("batch_id", .str batchId), ("completed", .int completed),
    ("total", .int 10)]

/-- One item of the batch. -/
def batchItem (batchId : String) (index : ℕ) (request : DemoRequest) : Endpoint Batch Unit := do
  attempt
    (do
      let (response, _) ← withLocal () (service.demoRun request)
      modify fun batch => { batch with results := batch.results ++ [response] })
    (onException (modify fun batch =>
      { batch with failures := batch.failures ++ [failure index request] }))
  raising (← ask (.broadcast (progress batchId index)))

/-- The items from the one numbered `index` on. -/
def batchItems (batchId : String) : ℕ → List DemoRequest → Endpoint Batch Unit
  | _, [] => return
  | index, request :: requests => do
    service.batchItem batchId index request
    batchItems batchId (index + 1) requests

def demoBatch : Endpoint σ Dict :=
  if ¬ service.demoControls then throw (httpException 404 "Local demo controls are disabled")
  else if service.orchestrator.isLive then
    throw (httpException 409 "Balanced batches require replay mode")
  else do
    let hex ← ask ServiceOp.uuidHex
    let batchId := "batch_" ++ shortHex hex
    let shuffled ← ask (ServiceOp.shuffle balancedRequests)
    let (_, batch) ← withLocal {} (service.batchItems batchId 1 shuffled.1)
    return [("batch_id", .str batchId), ("requested", .int 10),
      ("mix", .dict [("normal", .int 5), ("review", .int 2), ("unusual", .int 1),
        ("sanctions", .int 1), ("takeover", .int 1)]),
      ("results", .list (batch.results.map .dict)), ("failures", .list (batch.failures.map .dict))]

def loadCase (transactionId : String) : Endpoint σ CaseRecord := do
  let found ← raising (← ask (.get transactionId))
  raising (found.elim (.error (httpException 404 "Case not found")) .ok)

def auditStatus : Endpoint σ Dict :=
  attempt
    (do
      let verification ← raising (← ask (ServiceOp.pipeline .verify))
      let checkedAt ← ask (ServiceOp.pipeline .now)
      return [("verify", verification), ("checked_at", .str (service.host.isoformat checkedAt))])
    (onException (throw (httpException 503 "Audit service unavailable")))

def printableReport (transactionId : String) : Endpoint σ String := do
  let record ← loadCase transactionId
  let verification ← attempt service.auditStatus fun
    | .exception "HTTPException" _ =>
      return [("status", .str "unavailable"), ("verify", .none)]
    | error => throw error
  raising (Reports.renderReport service.host record.asDict verification)

end Service

/-! ## A scenario from its request to its response -/

section
variable {service : Service} {σ : Type} {s t : σ} {h : ServiceHistory}

/-- A run of the pipeline within a run of the service. -/
def inService (h : History) : ServiceHistory := h.map fun d => ⟨.pipeline d.1, d.2⟩

theorem translate_runs {α : Type} {p : Prog Op Op.Res α} {a : α}
    (run : (p.translate ServiceOp.pipeline fun _ answer => answer).Runs h a) :
    ∃ own : History, h = inService own ∧ p.Runs own a := by
  induction p generalizing h with
  | ret b =>
    obtain ⟨rfl, rfl⟩ := run
    exact ⟨[], rfl, rfl, rfl⟩
  | call o k ih =>
    obtain ⟨answer, rest, rfl, ran⟩ := run
    obtain ⟨own, rfl, run⟩ := ih answer ran
    exact ⟨⟨o, answer⟩ :: own, rfl, answer, own, rfl, run⟩

theorem Service.process_ends {tx : Transaction} {context : Option ScoringContext}
    {review : Option Dict} {r : Except Raised PipelineResult}
    (ends : Ends (service.process tx context review) s h r t) :
    ∃ own : History, h = inService own ∧ t = s ∧
      (service.orchestrator.processTransaction service.host tx context review).Runs own r := by
  obtain ⟨out, first, last, rfl, run, rfl, same⟩ := Prog.Runs.bind ends
  obtain ⟨own, rfl, ran⟩ := translate_runs run
  cases same
  exact ⟨own, List.append_nil _, rfl, ran⟩

/-- How a scenario can end: before it has a result, when its case is saved, when the save is
announced, or with a response. -/
inductive ScenarioRun (service : Service) (request : DemoRequest) :
    ServiceHistory → Except Raised Dict → Prop
  | uncreated {h : ServiceHistory} {e : Raised}
      (raised : Ends (createScenario service.random service.math service.host request) () h
        (.error e) ()) : ScenarioRun service request h (.error e)
  | unfinished {h : ServiceHistory} {own : History} {tx : Transaction} {ctx : ScoringContext}
      {review : Dict} {e : Raised}
      (created : Returns (createScenario service.random service.math service.host request) () h
        (tx, ctx, review) ())
      (raised : (service.orchestrator.processTransaction service.host tx (some ctx)
        (some review)).Runs own (.error e)) :
      ScenarioRun service request (h ++ inService own) (.error e)
  | unsaved {h : ServiceHistory} {own : History} {tx : Transaction} {ctx : ScoringContext}
      {review : Dict} {result : PipelineResult} {e : Raised}
      (created : Returns (createScenario service.random service.math service.host request) () h
        (tx, ctx, review) ())
      (finished : (service.orchestrator.processTransaction service.host tx (some ctx)
        (some review)).Runs own (.ok result)) :
      ScenarioRun service request
        (h ++ (inService own ++ [⟨.save (service.record tx result), .error e⟩])) (.error e)
  | unannounced {h : ServiceHistory} {own : History} {tx : Transaction} {ctx : ScoringContext}
      {review : Dict} {result : PipelineResult} {e : Raised}
      (created : Returns (createScenario service.random service.math service.host request) () h
        (tx, ctx, review) ())
      (finished : (service.orchestrator.processTransaction service.host tx (some ctx)
        (some review)).Runs own (.ok result)) :
      ScenarioRun service request
        (h ++ (inService own ++ [⟨.save (service.record tx result), .ok ()⟩,
          ⟨.broadcast [("type", .str "case_saved"), ("transaction_id", .str tx.id)], .error e⟩]))
        (.error e)
  | responded {h : ServiceHistory} {own : History} {tx : Transaction} {ctx : ScoringContext}
      {review : Dict} {result : PipelineResult}
      (created : Returns (createScenario service.random service.math service.host request) () h
        (tx, ctx, review) ())
      (finished : (service.orchestrator.processTransaction service.host tx (some ctx)
        (some review)).Runs own (.ok result)) :
      ScenarioRun service request
        (h ++ (inService own ++ [⟨.save (service.record tx result), .ok ()⟩,
          ⟨.broadcast [("type", .str "case_saved"), ("transaction_id", .str tx.id)], .ok ()⟩]))
        (.ok (result.asDict service.host))

theorem merge_response (host : Host) (tx : Transaction) (result : PipelineResult) :
    Dict.merge [("transaction", .dict (tx.modelDump host))] (result.asDict host) =
      result.asDict host := by
  simp [Dict.merge, PipelineResult.asDict, List.lookup_cons]

theorem Service.keep_ends {tx : Transaction} {result : PipelineResult} {r : Except Raised Dict}
    (ends : Ends (service.keep tx result) s h r t) :
    t = s ∧ ((∃ e, r = .error e ∧ h = [⟨.save (service.record tx result), .error e⟩]) ∨
      (∃ e, r = .error e ∧ h = [⟨.save (service.record tx result), .ok ()⟩,
        ⟨.broadcast [("type", .str "case_saved"), ("transaction_id", .str tx.id)], .error e⟩]) ∨
      r = .ok (result.asDict service.host) ∧ h = [⟨.save (service.record tx result), .ok ()⟩,
        ⟨.broadcast [("type", .str "case_saved"), ("transaction_id", .str tx.id)], .ok ()⟩]) := by
  obtain ⟨answer, _, rfl, answered⟩ := Ends.askThen ends
  rcases answered.raisingThen with ⟨e, rfl, rfl, rfl, rfl⟩ | ⟨_, rfl, stored⟩
  · exact ⟨rfl, .inl ⟨e, rfl, rfl⟩⟩
  · obtain ⟨told, _, rfl, announced⟩ := stored.askThen
    rcases announced.raisingThen with ⟨e, rfl, rfl, rfl, rfl⟩ | ⟨_, rfl, ended⟩
    · exact ⟨rfl, .inr (.inl ⟨e, rfl, rfl⟩)⟩
    · obtain ⟨rfl, rfl, rfl⟩ := ended.pure
      rw [merge_response]
      exact ⟨rfl, .inr (.inr ⟨rfl, rfl⟩)⟩

theorem Service.scenario_ends {request : DemoRequest} {r : Except Raised Dict}
    (ends : Ends (service.scenario request) () h r ()) : ScenarioRun service request h r := by
  rcases Ends.bind ends with ⟨e, rfl, raised⟩ | ⟨⟨tx, ctx, review⟩, _, h₁, h₂, rfl, created, rest⟩
  · exact .uncreated raised
  · rcases rest.bind with ⟨e, rfl, raised⟩ | ⟨result, _, h₃, h₄, rfl, finished, kept⟩
    · obtain ⟨own, rfl, _, run⟩ := Service.process_ends raised
      exact .unfinished created run
    · obtain ⟨own, rfl, _, run⟩ := Service.process_ends finished
      obtain ⟨_, ⟨e, rfl, rfl⟩ | ⟨e, rfl, rfl⟩ | ⟨rfl, rfl⟩⟩ := Service.keep_ends kept
      · exact .unsaved created run
      · exact .unannounced created run
      · exact .responded created run

theorem Service.demoRun_ends (enabled : service.demoControls = true) {request : DemoRequest}
    {r : Except Raised Dict} (ends : Ends (service.demoRun request) () h r ()) :
    ∃ r', ScenarioRun service request h r' ∧ r = r'.mapError service.demoError := by
  unfold Service.demoRun at ends
  rw [if_neg (not_not.mpr enabled)] at ends
  rcases ends.attempt with ⟨response, rfl, returned⟩ | ⟨e, _, h₁, h₂, rfl, raised, handled⟩
  · exact ⟨_, Service.scenario_ends returned, rfl⟩
  · obtain ⟨rfl, rfl, _⟩ := handled.throw
    rw [List.append_nil]
    exact ⟨_, Service.scenario_ends raised, rfl⟩

end

/-! ## The batch -/

/-- An item of the batch: its request, its part of the run, and how its scenario ended. -/
structure BatchItem where
  request : DemoRequest
  history : ServiceHistory
  outcome : Except Raised Dict

def BatchItem.response (item : BatchItem) : Option Dict := item.outcome.toOption

/-- The responses of the items, in their order. -/
def batchResults (items : List BatchItem) : List Dict := items.filterMap BatchItem.response

/-- The failures of the items, numbered from `index` on. -/
def batchFailures (index : ℕ) (items : List BatchItem) : List Dict :=
  (items.zipIdx index).filterMap fun item =>
    if item.1.response.isNone then some (Service.failure item.2 item.1.request) else none

/-- What the items do, each followed by the news of it. -/
def batchHistory (batchId : String) (index : ℕ) (items : List BatchItem) : ServiceHistory :=
  (items.zipIdx index).flatMap fun item =>
    item.1.history ++ [⟨.broadcast (Service.progress batchId item.2), .ok ()⟩]

theorem batchResults_cons (item : BatchItem) (items : List BatchItem) :
    batchResults (item :: items) = item.response.toList ++ batchResults items := by
  unfold batchResults
  rw [List.filterMap_cons]
  cases item.response <;> rfl

theorem batchFailures_cons (index : ℕ) (item : BatchItem) (items : List BatchItem) :
    batchFailures index (item :: items) =
      (if item.response.isNone then [Service.failure index item.request] else []) ++
        batchFailures (index + 1) items := by
  unfold batchFailures
  rw [List.zipIdx_cons, List.filterMap_cons]
  cases item.response <;> rfl

theorem batchHistory_cons (batchId : String) (index : ℕ) (item : BatchItem)
    (items : List BatchItem) : batchHistory batchId index (item :: items) = item.history ++
      ⟨.broadcast (Service.progress batchId index), .ok ()⟩ ::
        batchHistory batchId (index + 1) items := by
  simp [batchHistory]

section
variable {service : Service} {batchId : String} {s t : Batch} {h : ServiceHistory}
  (enabled : service.demoControls = true)
include enabled

theorem Service.batchItem_returns {index : ℕ} {request : DemoRequest}
    (returns : Returns (service.batchItem batchId index request) s h () t) :
    ∃ own outcome, ScenarioRun service request own outcome ∧
      h = own ++ [⟨.broadcast (Service.progress batchId index), .ok ()⟩] ∧
      t = match outcome with
        | .ok response => { s with results := s.results ++ [response] }
        | .error _ => { s with failures := s.failures ++ [Service.failure index request] } := by
  obtain ⟨_, u, h₁, h₂, rfl, tried, rest⟩ := returns.bind
  obtain ⟨answer, _, rfl, told⟩ := rest.askThen
  obtain ⟨rfl, rfl, rfl⟩ := told.raising
  rcases tried.attempt with returned | ⟨e, v, h₃, h₄, rfl, raised, handled⟩
  · obtain ⟨⟨response, _⟩, _, h₃, h₄, rfl, ran, kept⟩ := returned.bind
    obtain ⟨own, rfl⟩ := ran.withLocal
    obtain ⟨rfl, rfl⟩ := kept.modify
    obtain ⟨r, scenario, same⟩ := Service.demoRun_ends enabled own
    cases r with
    | error e => cases same
    | ok response' =>
      cases same
      rw [List.append_nil]
      exact ⟨h₃, .ok response, scenario, rfl, rfl⟩
  · rcases raised.bind with ⟨e', same, failed⟩ | ⟨_, _, _, _, rfl, _, kept⟩
    · cases same
      obtain ⟨out, _, own, failed, rfl⟩ := failed.withLocal
      obtain ⟨r, scenario, rfl⟩ := Service.demoRun_ends enabled own
      cases r with
      | ok response => cases failed
      | error e' =>
        cases e with
        | cancelled => exact absurd handled Returns.throw
        | exception type message =>
          obtain ⟨rfl, rfl⟩ := Returns.modify handled
          rw [List.append_nil]
          exact ⟨h₃, .error e', scenario, rfl, rfl⟩
    · obtain ⟨_, same, _⟩ := kept.modify
      cases same

theorem Service.batchItems_returns {index : ℕ} {requests : List DemoRequest}
    (returns : Returns (service.batchItems batchId index requests) s h () t) :
    ∃ items : List BatchItem, items.map (·.request) = requests ∧
      (∀ item ∈ items, ScenarioRun service item.request item.history item.outcome) ∧
      h = batchHistory batchId index items ∧
      t = ⟨s.results ++ batchResults items, s.failures ++ batchFailures index items⟩ := by
  induction requests generalizing index s h with
  | nil =>
    obtain ⟨rfl, _, rfl⟩ := returns.pure
    exact ⟨[], rfl, nofun, rfl, by simp [batchResults, batchFailures]⟩
  | cons request requests ih =>
    obtain ⟨_, u, h₁, h₂, rfl, first, rest⟩ := returns.bind
    obtain ⟨own, outcome, scenario, rfl, added⟩ := Service.batchItem_returns enabled first
    obtain ⟨items, same, each, rfl, total⟩ := ih rest
    refine ⟨⟨request, own, outcome⟩ :: items, congrArg (request :: ·) same,
      List.forall_mem_cons.mpr ⟨scenario, each⟩, ?_, ?_⟩
    · rw [batchHistory_cons, List.append_assoc]
      rfl
    · rw [total, added, batchResults_cons, batchFailures_cons]
      cases outcome with
      | ok response => simp [BatchItem.response, Except.toOption]
      | error e => simp [BatchItem.response, Except.toOption]

end

/-- The cases that a run has saved. -/
def savedCases (h : ServiceHistory) : List CaseRecord :=
  h.filterMap fun
    | ⟨.save record, .ok ()⟩ => some record
    | _ => none

@[simp] theorem savedCases_append (h₁ h₂ : ServiceHistory) :
    savedCases (h₁ ++ h₂) = savedCases h₁ ++ savedCases h₂ :=
  List.filterMap_append ..

def ServiceOp.isSave : ServiceOp → Bool
  | .save _ => true
  | _ => false

theorem savedCases_none {h : ServiceHistory} (none : ∀ d ∈ h, d.1.isSave = false) :
    savedCases h = [] := by
  refine List.filterMap_eq_nil_iff.mpr fun d mem => ?_
  have other := none d mem
  obtain ⟨o, answer⟩ := d
  cases o <;> first | rfl | cases other

@[simp] theorem savedCases_inService (h : History) : savedCases (inService h) = [] := by
  refine savedCases_none fun d mem => ?_
  obtain ⟨_, _, rfl⟩ := List.mem_map.mp mem
  rfl

section
variable {σ : Type} {random : Random} {trig : Trig ℚ} {host : Host}

theorem signIn_saveless (email password : String) (city : City) :
    Only (fun o => o.isSave = false) (signIn host email password city : Endpoint σ Value) :=
  .bind (.ask rfl) fun _ => .bind (.raising _) fun _ => .bind (.ask rfl) fun _ => .pure _

theorem awaitSecurityEvent_saveless (accountId : String) (n : ℕ) :
    Only (fun o => o.isSave = false) (awaitSecurityEvent accountId n : Endpoint σ Unit) := by
  induction n with
  | zero => exact .throw _
  | succ n ih =>
    exact .bind (.ask rfl) fun _ => .ite (.pure _) (.bind (.ask rfl) fun _ =>
      .bind (.raising _) fun _ => ih)

theorem createScenario_saveless (request : DemoRequest) : Only (fun o => o.isSave = false)
    (createScenario random trig host request :
      Endpoint σ (Transaction × ScoringContext × Dict)) := by
  refine .bind (.raising _) fun representative => .bind ?_ fun _ =>
    .bind (.ask rfl) fun _ => .bind (.ask rfl) fun _ => .pure _
  unfold scenarioAccount takeOver
  refine .ite (.ite (.throw _) ?_) (.pure _)
  exact .bind (.ask rfl) fun _ => .bind (.ask rfl) fun _ => .bind (.ask rfl) fun _ =>
    .bind (.raising _) fun _ => .bind (signIn_saveless _ _ _) fun _ =>
    .bind (signIn_saveless _ _ _) fun _ => .bind (awaitSecurityEvent_saveless _ _) fun _ => .pure _

end

/-- A scenario saves one case at most, and whatever it responds is the result it has saved. -/
theorem ScenarioRun.saved {service : Service} {request : DemoRequest} {h : ServiceHistory}
    {r : Except Raised Dict} (run : ScenarioRun service request h r) :
    (savedCases h).length ≤ 1 ∧ ∀ response, r = .ok response →
      (savedCases h).map (·.result) = [response] := by
  cases run with
  | uncreated raised =>
    rw [savedCases_none (createScenario_saveless request raised)]
    exact ⟨Nat.zero_le _, nofun⟩
  | unfinished created raised =>
    rw [savedCases_append, savedCases_none (createScenario_saveless request created),
      savedCases_inService]
    exact ⟨Nat.zero_le _, nofun⟩
  | unsaved created finished =>
    rw [savedCases_append, savedCases_none (createScenario_saveless request created),
      savedCases_append, savedCases_inService]
    exact ⟨Nat.zero_le _, nofun⟩
  | unannounced created finished =>
    rw [savedCases_append, savedCases_none (createScenario_saveless request created),
      savedCases_append, savedCases_inService]
    exact ⟨le_rfl, nofun⟩
  | responded created finished =>
    rw [savedCases_append, savedCases_none (createScenario_saveless request created),
      savedCases_append, savedCases_inService]
    refine ⟨le_rfl, fun response same => ?_⟩
    cases same
    rfl

/-! What a batch reports of its items. -/

theorem batch_counts (index : ℕ) (items : List BatchItem) :
    (batchResults items).length + (batchFailures index items).length = items.length := by
  induction items generalizing index with
  | nil => rfl
  | cons item items ih =>
    have rest := ih (index + 1)
    rw [batchResults_cons, batchFailures_cons, List.length_append, List.length_append,
      List.length_cons]
    cases item.response with
    | none =>
      show 0 + _ + (1 + _) = _
      omega
    | some response =>
      show 1 + _ + (0 + _) = _
      omega

theorem batch_saved {service : Service} (batchId : String) (index : ℕ) {items : List BatchItem}
    (each : ∀ item ∈ items, ScenarioRun service item.request item.history item.outcome) :
    (batchResults items).Sublist ((savedCases (batchHistory batchId index items)).map (·.result)) ∧
      (savedCases (batchHistory batchId index items)).length ≤ items.length := by
  induction items generalizing index with
  | nil => exact ⟨.slnil, le_rfl⟩
  | cons item items ih =>
    obtain ⟨own, others⟩ := List.forall_mem_cons.mp each
    obtain ⟨results, count⟩ := ih (index + 1) others
    obtain ⟨single, responded⟩ := own.saved
    have saved : savedCases (batchHistory batchId index (item :: items)) =
        savedCases item.history ++ savedCases (batchHistory batchId (index + 1) items) := by
      rw [batchHistory_cons, savedCases_append]
      rfl
    rw [saved, List.map_append, List.length_append, List.length_cons]
    refine ⟨?_, by omega⟩
    rw [batchResults_cons]
    unfold BatchItem.response
    cases outcome : item.outcome with
    | error e => exact results.trans (List.sublist_append_right _ _)
    | ok response =>
      rw [responded response outcome]
      exact results.cons_cons response

/-- **What a batch accounts for**: it is let through only with the controls on and in replay
mode, and runs ten requests of the fixed coverage one after the other, each followed by the
news that it is done. Every request is in the answer either as a response or as a failure
with its number, and every response is a result that was saved. -/
theorem demo_batch_accounts {service : Service} {s t : Unit} {h : ServiceHistory} {report : Dict}
    (returns : Returns service.demoBatch s h report t) :
    service.demoControls = true ∧ service.orchestrator.isLive = false ∧
    ∃ (items : List BatchItem) (hex : String)
      (shuffled : (ServiceOp.shuffle balancedRequests).Res),
      (items.map (·.request)).Perm balancedRequests ∧
      (∀ item ∈ items, ScenarioRun service item.request item.history item.outcome) ∧
      h = ⟨.uuidHex, hex⟩ :: ⟨.shuffle balancedRequests, shuffled⟩ ::
        batchHistory ("batch_" ++ shortHex hex) 1 items ∧
      report.get "results" = .list ((batchResults items).map .dict) ∧
      report.get "failures" = .list ((batchFailures 1 items).map .dict) ∧
      (batchResults items).length + (batchFailures 1 items).length = 10 ∧
      (batchResults items).Sublist ((savedCases h).map (·.result)) ∧
      (savedCases h).length ≤ 10 := by
  unfold Service.demoBatch at returns
  split at returns
  · exact absurd returns Returns.throw
  rename_i enabled
  split at returns
  · exact absurd returns Returns.throw
  rename_i replay
  obtain ⟨hex, _, rfl, named⟩ := returns.askThen
  obtain ⟨shuffled, _, rfl, drawn⟩ := named.askThen
  obtain ⟨⟨_, batch⟩, _, h₁, h₂, rfl, ran, ended⟩ := drawn.bind
  obtain ⟨rfl, rfl, rfl⟩ := ended.pure
  obtain ⟨items, same, each, rfl, total⟩ :=
    Service.batchItems_returns (not_not.mp enabled) ran.withLocal.1
  have perm : (items.map (·.request)).Perm balancedRequests := by
    rw [same]
    exact shuffled.2
  have ten : items.length = 10 := by simpa [balancedRequests] using perm.length_eq
  rw [List.append_nil]
  refine ⟨not_not.mp enabled, eq_false_of_ne_true replay, items, hex, shuffled, perm, each, rfl, ?_,
    ?_, ?_, ?_⟩
  · rw [total]
    rfl
  · rw [total]
    rfl
  · rw [batch_counts, ten]
  · have saved := batch_saved ("batch_" ++ shortHex hex) 1 each
    rw [ten] at saved
    exact saved

/-! A service whose gateway does not answer. -/

def sampleService : Service where
  host := sampleHost
  random := steadyRandom
  math := flatMath
  orchestrator := replayOrchestrator
  demoControls := true
  isValueError type := type = "ValueError"
  isHttpError type := type = "ConnectError"
  isRuntimeError type := type = "RuntimeError"

def serviceAnswers (_ : ServiceHistory) : (o : ServiceOp) → o.Res
  | .pipeline o => clearAnswers [] o
  | .register .. => .error (.exception "ConnectError")
  | .login .. => .error (.exception "ConnectError")
  | .uuidHex => "00000000000000000000000000000000"
  | .tokenUrlsafe => "00000000000000000000000000000000"
  | .shuffle requests => ⟨requests, .refl _⟩
  | .sleep _ => .ok ()
  | .generateDemoTransaction _ => sampleTransaction
  | .save _ => .ok ()
  | .broadcast _ => .ok ()
  | .get _ => .ok none

def batchRun : ServiceHistory × Except Raised Dict × Unit :=
  ((sampleService.demoBatch : Endpoint Unit Dict).run.run ()).play serviceAnswers []

/-- All but the takeover are done. -/
theorem demo_batch_accounts_nine : ∃ report, batchRun.2.1 = .ok report ∧
    (savedCases batchRun.1).length = 9 ∧
    ∃ items : List BatchItem, (items.map (·.request)).Perm balancedRequests ∧
      (batchResults items).length + (batchFailures 1 items).length = 10 := by
  have finished : batchRun.2.1.isOk = true := by decide +kernel
  have saved : (savedCases batchRun.1).length = 9 := by decide +kernel
  have run := Prog.play_runs serviceAnswers []
    ((sampleService.demoBatch : Endpoint Unit Dict).run.run ())
  cases ended : batchRun.2.1 with
  | error e =>
    rw [ended] at finished
    cases finished
  | ok report =>
    have returns : Returns (sampleService.demoBatch : Endpoint Unit Dict) () batchRun.1
        report () := by
      unfold Returns Ends
      rw [← ended]
      exact run
    obtain ⟨_, _, items, _, _, perm, _, _, _, _, counts, _⟩ := demo_batch_accounts returns
    exact ⟨report, rfl, saved, items, perm, counts⟩

/-! ## Where the stored cases come from -/

/-- The record is of a run of the pipeline that has just finished. -/
def Finished (service : Service) (h : ServiceHistory) (record : CaseRecord) : Prop :=
  ∃ before own tx context review result, h = before ++ inService own ∧
    (service.orchestrator.processTransaction service.host tx context review).Runs own (.ok result) ∧
    record = service.record tx result

/-- Only cases of finished runs are saved. -/
def SavesFinished (service : Service) (h : ServiceHistory) (o : ServiceOp) : Prop :=
  ∀ record, o = .save record → Finished service h record

section
variable {service : Service} {σ : Type} {s : σ} {h : ServiceHistory}

theorem savesFinished_other {o : ServiceOp} (other : o.isSave = false) :
    SavesFinished service h o := by
  intro record same
  rw [same] at other
  cases other

theorem process_owes {tx : Transaction} {context : Option ScoringContext} {review : Option Dict} :
    Owes (SavesFinished service) h (service.process tx context review) s fun h' r _ =>
      ∀ result, r = .ok result → Finished service h' (service.record tx result) := by
  refine Prog.Meets.bind (Prog.Meets.translate (fun _ _ => savesFinished_other rfl) _) ?_
  intro h' out ended result same
  obtain ⟨own, rfl, run⟩ := ended
  obtain rfl : out = .ok result := same
  rw [show own.map (fun d => (⟨d.1, d.2⟩ : Prog.Done Op Op.Res)) = own from List.map_id _] at run
  exact ⟨h, own, tx, context, review, result, rfl, run, rfl⟩

theorem keep_owes {tx : Transaction} {result : PipelineResult}
    (finished : Finished service h (service.record tx result)) :
    Owes (SavesFinished service) h (service.keep tx result) s fun _ _ _ => True := by
  refine .askThen (fun record same => ?_) fun answer => ?_
  · obtain rfl := ServiceOp.save.inj same
    exact finished
  · refine .bind (R := fun _ _ _ => True) (.raising trivial) (fun _ _ _ _ => trivial)
      fun _ _ _ _ => ?_
    refine .askThen (savesFinished_other rfl) fun told => ?_
    exact .bind (R := fun _ _ _ => True) (.raising trivial) (fun _ _ _ _ => trivial)
      fun _ _ _ _ => .pure trivial

instance ServiceOp.nonemptyRes (o : ServiceOp) : Nonempty o.Res := ⟨serviceAnswers [] o⟩

theorem saveless_owes {α : Type} {m : Endpoint σ α} (own : Only (fun o => o.isSave = false) m) :
    Owes (SavesFinished service) h m s fun _ _ _ => True :=
  .only own fun _ _ other => savesFinished_other other

/-- A step whose exceptions nobody catches here. -/
theorem then_owes {α β : Type} {m : Endpoint σ α} {f : α → Endpoint σ β}
    {R : ServiceHistory → Except Raised α → σ → Prop}
    (first : Owes (SavesFinished service) h m s R)
    (rest : ∀ h' a t, R h' (.ok a) t →
      Owes (SavesFinished service) h' (f a) t fun _ _ _ => True) :
    Owes (SavesFinished service) h (m >>= f) s fun _ _ _ => True :=
  .bind first (fun _ _ _ _ => trivial) rest

theorem processed_owes {tx : Transaction} {context : Option ScoringContext} {review : Option Dict}
    {α : Type} {f : PipelineResult → Endpoint σ α}
    (rest : ∀ h' t result, Finished service h' (service.record tx result) →
      Owes (SavesFinished service) h' (f result) t fun _ _ _ => True) :
    Owes (SavesFinished service) h (service.process tx context review >>= f) s fun _ _ _ => True :=
  then_owes process_owes fun h' result t finished => rest h' t result (finished result rfl)

theorem runPipeline_owes (forceRisky : Bool) :
    Owes (SavesFinished service) h (service.runPipeline forceRisky) s fun _ _ _ => True :=
  .askThen (savesFinished_other rfl) fun _ => processed_owes fun _ _ _ finished =>
    keep_owes finished

theorem onException_owes {α : Type} {handler : Endpoint σ α} (e : Raised)
    (own : Owes (SavesFinished service) h handler s fun _ _ _ => True) :
    Owes (SavesFinished service) h (onException handler e) s fun _ _ _ => True := by
  cases e with
  | exception type message => exact own
  | cancelled => exact .throw trivial

theorem syntheticTransactionLoop_owes (rounds : List (Time × Bool)) :
    Owes (SavesFinished service) h (service.syntheticTransactionLoop rounds) s
      fun _ _ _ => True := by
  induction rounds generalizing h s with
  | nil => exact .pure trivial
  | cons round rounds ih =>
    refine .askThen (savesFinished_other rfl) fun pause => ?_
    refine then_owes (R := fun _ _ _ => True) (.raising trivial) fun _ _ _ _ => ?_
    refine .askThen (savesFinished_other rfl) fun tx => ?_
    refine then_owes (R := fun _ _ _ => True) (.attempt (R := fun _ _ _ => True)
      (processed_owes fun h' _ result finished => ?_) (fun _ _ _ _ => trivial)
      fun _ e _ _ => onException_owes e (.pure trivial)) fun _ _ _ _ => ih
    refine .askThen (fun record same => ?_) fun _ => .raising trivial
    obtain rfl := ServiceOp.save.inj same
    exact finished

theorem scenario_owes (request : DemoRequest) :
    Owes (SavesFinished service) h (service.scenario request) s fun _ _ _ => True :=
  then_owes (saveless_owes (createScenario_saveless request)) fun _ _ _ _ =>
    processed_owes fun _ _ _ finished => keep_owes finished

theorem demoRun_owes (request : DemoRequest) :
    Owes (SavesFinished service) h (service.demoRun request) s fun _ _ _ => True := by
  unfold Service.demoRun
  split
  · exact .throw trivial
  · exact .attempt (scenario_owes request) (fun _ _ _ _ => trivial) fun _ _ _ _ => .throw trivial

theorem batchItems_owes {h : ServiceHistory} {batch : Batch} (batchId : String) (index : ℕ)
    (requests : List DemoRequest) :
    Owes (SavesFinished service) h (service.batchItems batchId index requests) batch
      fun _ _ _ => True := by
  induction requests generalizing h batch index with
  | nil => exact .pure trivial
  | cons request requests ih =>
    refine then_owes (R := fun _ _ _ => True) ?_ fun _ _ _ _ => ih (index + 1)
    refine then_owes (R := fun _ _ _ => True) ?_ fun _ _ _ _ =>
      .askThen (savesFinished_other rfl) fun _ => .raising trivial
    refine .attempt (R := fun _ _ _ => True) ?_ (fun _ _ _ _ => trivial)
      fun _ e _ _ => onException_owes e (.modify trivial)
    exact then_owes (R := fun _ _ _ => True) (.withLocal (demoRun_owes request)) fun _ _ _ _ =>
      .modify trivial

theorem demoBatch_owes :
    Owes (SavesFinished service) h service.demoBatch s fun _ _ _ => True := by
  unfold Service.demoBatch
  split
  · exact .throw trivial
  · split
    · exact .throw trivial
    · exact .askThen (savesFinished_other rfl) fun _ => .askThen (savesFinished_other rfl) fun _ =>
        then_owes (R := fun _ _ _ => True) (.withLocal (batchItems_owes _ _ _)) fun _ _ _ _ =>
          .pure trivial

theorem printableReport_owes (transactionId : String) :
    Owes (SavesFinished service) h (service.printableReport transactionId) s fun _ _ _ => True := by
  refine saveless_owes (.bind (.bind (.ask rfl) fun _ => .bind (.raising _) fun _ => .raising _)
    fun record => .bind (.attempt (.attempt (.bind (.ask rfl) fun _ => .bind (.raising _) fun _ =>
      .bind (.ask rfl) fun _ => .pure _) fun e => ?_) fun e => ?_) fun _ => .raising _)
  · cases e <;> exact .throw _
  · split
    · exact .pure _
    · exact .throw _

end

/-- What the service runs: a request, or its own loop for a number of rounds. -/
inductive Job
  | runPipeline (forceRisky : Bool)
  | demoRun (request : DemoRequest)
  | demoBatch
  | printableReport (transactionId : String)
  | syntheticTransactionLoop (rounds : List (Time × Bool))

/-- A coroutine without what it returns. -/
def coroutine {α : Type} (m : Endpoint Unit α) : Prog ServiceOp ServiceOp.Res Unit :=
  (m.run.run ()).map fun _ => ()

def Service.job (service : Service) : Job → Prog ServiceOp ServiceOp.Res Unit
  | .runPipeline forceRisky => coroutine (service.runPipeline forceRisky)
  | .demoRun request => coroutine (service.demoRun request)
  | .demoBatch => coroutine service.demoBatch
  | .printableReport transactionId => coroutine (service.printableReport transactionId)
  | .syntheticTransactionLoop rounds => coroutine (service.syntheticTransactionLoop rounds)

theorem job_meets (service : Service) (job : Job) :
    (service.job job).Meets (SavesFinished service) (fun _ _ => True) [] := by
  cases job with
  | runPipeline forceRisky => exact .map (runPipeline_owes forceRisky)
  | demoRun request => exact .map (demoRun_owes request)
  | demoBatch => exact .map demoBatch_owes
  | printableReport transactionId => exact .map (printableReport_owes transactionId)
  | syntheticTransactionLoop rounds => exact .map (syntheticTransactionLoop_owes rounds)

section
variable {ι χ W : Type} [DecidableEq ι] {service : Service}

/-- The store that `stored` reads of the environment's state takes in only what is saved. -/
def TakesSaved (handle : χ → (o : ServiceOp) → W → o.Res × W) (stored : W → List CaseRecord) :
    Prop :=
  ∀ c o w, ∀ record ∈ stored (handle c o w).2, record ∈ stored w ∨ o = .save record

/-- **No case is stored that has not been run to its end**: whatever the service runs at a
time, in any interleaving and with any answers, each record of the store was saved by one of
its coroutines right after a run of the pipeline that finished with this result. -/
theorem stored_cases_finished {handle : χ → (o : ServiceOp) → W → o.Res × W}
    {stored : W → List CaseRecord} (takes : TakesSaved handle stored) {w : W}
    (fresh : stored w = []) (jobs : ι → Job) (schedule : List (ι × χ)) :
    let pool := (Pool.start w fun i => service.job (jobs i)).run handle schedule
    ∀ record ∈ stored pool.shared, ∃ i before answer after,
      (pool.threads i).done = before ++ ⟨.save record, answer⟩ :: after ∧
      Finished service before record := by
  intro pool record mem
  have reached : pool.Reached fun i => service.job (jobs i) :=
    (Pool.reached_start w _).run handle schedule
  have saved : ∀ record ∈ stored pool.shared, ∃ i answer,
      (⟨.save record, answer⟩ : Prog.Done ServiceOp ServiceOp.Res) ∈ (pool.threads i).done := by
    refine Lib.Run.invariant (I := fun p : Pool ι W ServiceOp ServiceOp.Res Unit =>
      ∀ record ∈ stored p.shared, ∃ i answer,
        (⟨.save record, answer⟩ : Prog.Done ServiceOp ServiceOp.Res) ∈ (p.threads i).done)
      (fun p l kept record mem => ?_) schedule fun record mem => ?_
    · rcases p.step_cases handle l.1 l.2 with same | ⟨o, k, _, shared, threads⟩
      · rw [same] at mem ⊢
        exact kept record mem
      · rw [shared] at mem
        rcases takes l.2 o p.shared record mem with old | rfl
        · obtain ⟨j, answer, done⟩ := kept record old
          refine ⟨j, answer, ?_⟩
          rw [threads]
          exact Pool.mem_done_update.mpr (.inl done)
        · refine ⟨l.1, (handle l.2 (.save record) p.shared).1, ?_⟩
          rw [threads]
          exact Pool.mem_done_update.mpr (.inr ⟨rfl, rfl⟩)
    · rw [show stored (Pool.start w fun i => service.job (jobs i)).shared = [] from fresh] at mem
      cases mem
  obtain ⟨i, answer, done⟩ := saved record mem
  obtain ⟨before, after, split⟩ := List.append_of_mem done
  exact ⟨i, before, answer, after, split,
    (job_meets service (jobs i)).asked (reached i) split record rfl⟩

end

/-! A request and a batch at a time, on the store in memory. -/

/-- The answers above, with a store. -/
def inMemory (_ : Unit) : (o : ServiceOp) → InMemoryCaseStore → o.Res × InMemoryCaseStore
  | .save record, store => (.ok (), store.save record)
  | .get transactionId, store => (.ok (store.get transactionId), store)
  | o, store => (serviceAnswers [] o, store)

theorem inMemory_takes : TakesSaved inMemory Lib.Recents.items := by
  intro c o store record mem
  cases o with
  | save saved =>
    rcases List.mem_cons.mp (List.mem_of_mem_take mem) with rfl | old
    · exact .inr rfl
    · exact .inl old
  | _ => exact .inl mem

def bothJobs (batch : Bool) : Job := if batch then .demoBatch else .runPipeline false

def bothTurns : List (Bool × Unit) := (List.range 60).map fun i => (i % 2 = 0, ())

def storedPool : Pool Bool InMemoryCaseStore ServiceOp ServiceOp.Res Unit :=
  (Pool.start (InMemoryCaseStore.init 500) fun batch => sampleService.job (bothJobs batch)).run
    inMemory bothTurns

theorem stored_cases_finished_both : storedPool.shared.items.length = 2 ∧
    ∀ record ∈ storedPool.shared.items, ∃ batch before answer after,
      (storedPool.threads batch).done = before ++ ⟨.save record, answer⟩ :: after ∧
      Finished sampleService before record :=
  ⟨by decide +kernel, by
    unfold storedPool
    exact @stored_cases_finished _ Unit InMemoryCaseStore _ sampleService inMemory
      Lib.Recents.items inMemory_takes (InMemoryCaseStore.init 500) rfl bothJobs bothTurns⟩

end VaultWatch.Agents
