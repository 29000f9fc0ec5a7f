import VaultWatch.Agents.PaymentGate
import VaultWatch.Agents.Replay
import VaultWatch.Engine.Rules
import VaultWatch.Lib.Environment

/-! # A run in replay mode

With the offline provider a run depends only on the verdicts, the tools' results
and the security events. An environment that answers so, and what each agent and
the end of the pipeline do in it. -/
namespace VaultWatch.Agents

open VaultWatch.Lib.Effects VaultWatch.Lib.Interleave

/-! ## The environment -/

/-- The answer of `/v1/score`, as `RuleEngineVerdict(**response.json())` takes it. -/
def RuleEngineVerdict.ofResponse (response : Engine.ScoreResponse) : RuleEngineVerdict where
  transactionId := response.transactionId
  riskScore := response.riskScore
  riskBand := response.riskBand.value
  triggeredRules := response.triggeredRules.map fun r =>
    [("rule", .str r.rule), ("weight", .int r.weight), ("detail", .str r.detail)]

/-- What a run in replay mode finds: the verdicts, what the tools return, and the
account's security events at the time they are read. `loads` is `json.loads`. -/
structure ReplayWorld where
  loads : String → Except Raised Value
  verdict : Engine.ScoreResponse
  prefilter : PreFilterVerdict
  history : List HistoryRow
  graph : EntityGraph
  read : Time × List (Time × SecurityEvent)

namespace ReplayWorld

variable (w : ReplayWorld)

def rules : RuleEngineVerdict := .ofResponse w.verdict

/-- Every call succeeds, the audit verifies valid, and the provider is the replay. -/
def Answers (host : Host) : (o : Op) → o.Res → Prop
  | .buildScoringContext .., answer => ∃ ctx, answer = .ok ctx
  | .append .., answer => ∃ receipt, answer = .ok receipt
  | .verify, answer => ReturnedValid answer
  | .score .., answer => answer = .ok w.rules
  | .prefilter .., answer => answer = .ok w.prefilter
  | .complete request, answer => ∃ hex, answer = ReplayProvider.complete w.loads host hex request
  | .send _, answer => answer = .ok ()
  | .recentSecurityEvents _, answer => answer = w.read
  | .generateTransactionHistory _, answer =>
    answer = .ok (.list (w.history.map (.dict ·.asDict)))
  | .generateEntityGraph _, answer => answer = .ok (.dict w.graph.asDict)
  | .now, _ | .checkSanctionsList _, _ | .simulateExecution _, _ => True

end ReplayWorld

/-- Pydantic takes an input of the field's own type as it is. -/
structure Host.Lax (host : Host) : Prop where
  str : ∀ s, host.asStr (.str s) = some s
  int : ∀ n, host.asInt (.int n) = some n
  float : ∀ x, host.asFloat (.float x) = some x
  bool : ∀ b, host.asBool (.bool b) = some b

theorem Host.Lax.strs {host : Host} (lax : host.Lax) (xs : List String) :
    host.asStrs (.strs xs) = some xs := by
  show (xs.map Value.str).mapM host.asStr = some xs
  induction xs with
  | nil => rfl
  | cons x xs ih =>
    rw [List.map_cons, List.mapM_cons, lax.str, ih]
    rfl

/-! ## What the agents build -/

section
variable {host : Host}

theorem TriageVerdict.ofInput_replay (lax : host.Lax) {likelihood : ℚ} (category : String)
    (escalate : Bool) (reasoning : String) (bounds : 0 ≤ likelihood ∧ likelihood ≤ 1) :
    TriageVerdict.ofInput host (triageInput likelihood category escalate reasoning) =
      .ok ⟨likelihood, category, escalate, reasoning, bounds⟩ := by
  simp [TriageVerdict.ofInput, triageInput, Dict.required, validated, lax.str, lax.float, lax.bool,
    List.lookup_cons, bind, Except.bind, bounds, pure, Except.pure]

theorem CaseFile.ofInput_replay (lax : host.Lax) (summary : String) (facts linked : List String)
    (hit : Bool) {score : Int} (bounds : 0 ≤ score ∧ score ≤ 100) :
    CaseFile.ofInput host (caseInput summary facts linked hit score) =
      .ok ⟨summary, score, facts, linked, hit, decide (70 ≤ score ∨ hit), bounds⟩ := by
  simp [CaseFile.ofInput, caseInput, Dict.required, Dict.optional, validated, lax.str, lax.int,
    lax.bool, lax.strs, List.lookup_cons, bind, Except.bind, bounds, pure, Except.pure]

theorem ComplianceReport.ofInput_replay (lax : host.Lax) (narrative : String)
    (obligations : List String) :
    ∃ report, ComplianceReport.ofInput host [("narrative", .str narrative),
      ("obligations_referenced", .strs obligations)] = .ok report := by
  simp [ComplianceReport.ofInput, Dict.required, Dict.optional, validated, lax.str, lax.strs,
    List.lookup_cons, bind, Except.bind, pure, Except.pure]

end

/-! ## Recording -/

/-- `t` is `s` with events and receipts added. -/
def Adds (s t : PipelineResult) : Prop :=
  ∃ events entries, t = { s with events, audit := { s.audit with entries } }

namespace ReplayWorld

variable {w : ReplayWorld} {host : Host} {o : Orchestrator} {tx : Transaction}

theorem record_assures (eventType : String) (payload : Dict) (s : PipelineResult) :
    Assures (w.Answers host) (Orchestrator.record o tx eventType payload) s
      fun _ t => Adds s t := by
  unfold Orchestrator.record
  split
  · refine .attempt (.askThen fun answer within => ?_)
    obtain ⟨receipt, rfl⟩ := within
    exact .raisingThen rfl (.modify ⟨_, _, rfl⟩)
  · exact .pure ⟨_, _, rfl⟩

theorem emit_assures (event : Event) (s : PipelineResult) :
    Assures (w.Answers host) (Orchestrator.emit host o tx event) s fun _ t => Adds s t := by
  refine .modifyThen (.bind (record_assures _ _ _) fun _ t added => ?_)
  obtain ⟨events, entries, rfl⟩ := added
  split
  · refine .askThen fun answer within => ?_
    obtain rfl : answer = .ok () := within
    exact .raising ⟨_, _, rfl⟩
  · exact .pure ⟨_, _, rfl⟩

theorem emitStage_assures (stage : PipelineStage) (label : String) (detail : Dict)
    (s : PipelineResult) :
    Assures (w.Answers host) (Orchestrator.emitStage host o tx stage label detail) s
      fun _ t => Adds s t :=
  .askThen fun _ _ => emit_assures _ s

/-! ## The investigation -/

section
variable {σ : Type}

/-- The name that is screened. -/
def screenedName (tx : Transaction) : String :=
  if tx.beneficiaryName.getD "" = "" then "Unspecified demo beneficiary"
  else tx.beneficiaryName.getD ""

theorem screenedName_or (tx : Transaction) :
    (Value.ofOption .str tx.beneficiaryName).or (.str "Unspecified demo beneficiary") =
      .str (screenedName tx) := by
  unfold screenedName
  cases tx.beneficiaryName with
  | none => rfl
  | some name =>
    by_cases empty : name = ""
    · simp [Value.or, Value.ofOption, Value.truthy, empty]
    · simp [Value.or, Value.ofOption, Value.truthy, empty]

def screening (name : String) : Dict :=
  [("query", .str name), ("hit", .bool (onSanctionsList name)),
    ("list", .str "vaultwatch-synthetic-watchlist-v1")]

theorem history_assures (accountId : String) (s : σ) :
    Assures (w.Answers host)
      (executeResearchTool "get_transaction_history" [("account_id", .str accountId)]) s
      fun result t => result = .dict [("history", .list (w.history.map (.dict ·.asDict)))] ∧
        t = s := by
  refine .raisingThen rfl (.askThen fun answer within => ?_)
  obtain rfl : answer = _ := within
  exact .raisingThen rfl (.pure ⟨rfl, rfl⟩)

theorem graph_assures (accountId : String) (s : σ) :
    Assures (w.Answers host)
      (executeResearchTool "get_entity_graph" [("account_id", .str accountId)]) s
      fun result t => result = .dict w.graph.asDict ∧ t = s := by
  refine .raisingThen rfl (.askThen fun answer within => ?_)
  obtain rfl : answer = _ := within
  exact .raising ⟨rfl, rfl⟩

theorem screen_assures (name : String) (s : σ) :
    Assures (w.Answers host) (executeResearchTool "check_sanctions_list" [("name", .str name)]) s
      fun result t => result = .dict (screening name) ∧ t = s :=
  .raisingThen rfl (.askThen fun _ _ => .raisingThen rfl (.pure ⟨rfl, rfl⟩))

/-- The provider answers as its script says. -/
theorem complete_assures {β : Type} {request : CompleteRequest} {script : ReplayStep}
    {k : ModelResponse → Py σ β} {s : σ} {Q : β → σ → Prop}
    (scripted : ReplayProvider.step w.loads host request = .ok script)
    (rest : ∀ hex,
      Assures (w.Answers host) (k (ReplayProvider.stepToResponse hex script)) s Q) :
    Assures (w.Answers host) (complete request >>= k) s Q := by
  refine .bind (R := fun response t => t = s ∧
    ∃ hex, response = ReplayProvider.stepToResponse hex script) ?_ ?_
  · refine .askThen fun answer within => ?_
    obtain ⟨hex, rfl⟩ := within
    rw [ReplayProvider.complete_ok scripted hex]
    exact .raising ⟨rfl, hex, rfl⟩
  · intro response t ends
    obtain ⟨rfl, hex, rfl⟩ := ends
    exact rest hex

variable {request : List Message → CompleteRequest} {left : Nat} {messages : List Message}
  {s : List ToolEvent} {Q : CaseFile → List ToolEvent → Prop}

/-- A turn that the script spends on research. -/
theorem research_turn {tool : String} {input : Dict} {result : Value}
    (scripted : ReplayProvider.step w.loads host (request messages) = .ok ⟨tool, input⟩)
    (other : tool ≠ "emit_case_file")
    (researched : Assures (w.Answers host) (executeResearchTool tool input) s fun r t =>
      r = result ∧ t = s)
    (rest : ∀ id, Assures (w.Answers host)
      (InvestigatorAgent.turns host request (some Orchestrator.captureToolCall) left
        (messages ++ [⟨.assistant, .blocks [.toolUse id tool input]⟩,
          ⟨.user, .blocks [.toolResult id (host.dumps result)]⟩]))
      (s ++ [⟨tool, input, result⟩]) Q) :
    Assures (w.Answers host)
      (InvestigatorAgent.turns host request (some Orchestrator.captureToolCall) (left + 1) messages)
      s Q := by
  refine complete_assures scripted fun hex => ?_
  have researching : (ReplayProvider.stepToResponse hex ⟨tool, input⟩).callTo "emit_case_file" =
      none := by
    simp [ModelResponse.callTo, ReplayProvider.stepToResponse, other]
  rw [researching]
  have called : Assures (w.Answers host)
      (InvestigatorAgent.executeCalls host (some Orchestrator.captureToolCall)
        (ReplayProvider.stepToResponse hex ⟨tool, input⟩).toolCalls) s
      fun results t => results = [.toolResult ("replay_" ++ hex) (host.dumps result)] ∧
        t = s ++ [⟨tool, input, result⟩] := by
    refine .bind researched fun r t returned => ?_
    obtain ⟨rfl, rfl⟩ := returned
    exact .modifyThen (.pure ⟨rfl, rfl⟩)
  refine .bind called fun results t found => ?_
  obtain ⟨rfl, rfl⟩ := found
  exact rest _

/-- The turn that ends the investigation. -/
theorem case_turn {input : Dict} {case : CaseFile}
    (scripted : ReplayProvider.step w.loads host (request messages) = .ok ⟨"emit_case_file", input⟩)
    (built : CaseFile.ofInput host input = .ok case) (holds : Q case s) :
    Assures (w.Answers host)
      (InvestigatorAgent.turns host request (some Orchestrator.captureToolCall) (left + 1) messages)
      s Q := by
  refine complete_assures scripted fun hex => ?_
  show Assures _ (raising (CaseFile.ofInput host input)) s Q
  rw [built]
  exact .raising holds

/-- What the provider reads out of the conversation after some turns. -/
structure Conversation (w : ReplayWorld) (messages : List Message)
    (gathered : ReplayProvider.Gathered) (turns : Nat) : Prop where
  read : ReplayProvider.gather w.loads messages = .ok gathered
  turns : ReplayProvider.turn messages = turns

theorem Conversation.opening (prompt : String) :
    Conversation w [⟨.user, .text prompt⟩] {} 0 := ⟨rfl, rfl⟩

theorem Conversation.research {gathered : ReplayProvider.Gathered} {turns : Nat}
    (conversation : Conversation w messages gathered turns) (tool id : String) (input : Dict)
    (named : tool ≠ "") {result : Value} (loaded : w.loads (host.dumps result) = .ok result) :
    Conversation w (messages ++ [⟨.assistant, .blocks [.toolUse id tool input]⟩,
      ⟨.user, .blocks [.toolResult id (host.dumps result)]⟩])
      ⟨assign id tool gathered.names, assign tool result gathered.evidence⟩ (turns + 1) where
  read := ReplayProvider.gather_turn conversation.read named loaded
  turns := by rw [ReplayProvider.turn_append, conversation.turns]

/-- The script of an investigation of a likely fraud, on what has been gathered. -/
theorem Conversation.script {gathered : ReplayProvider.Gathered} {turns : Nat}
    (conversation : Conversation w messages gathered turns) {triage : TriageVerdict}
    (likely : 1 / 2 ≤ triage.fraudLikelihood) {history : List HistoryRow} {linked : List String}
    {hit : Bool} (shows : Shows gathered.evidence history linked hit) (host : Host)
    (model : String) (tx : Transaction) (rulesScore : Int) :
    ∃ summary facts, ∀ script,
      ([⟨"get_transaction_history", [("account_id", .str tx.accountId)]⟩,
        ⟨"get_entity_graph", [("account_id", .str tx.accountId)]⟩,
        ⟨"check_sanctions_list", [("name", .str (screenedName tx))]⟩,
        ⟨"emit_case_file", caseInput summary facts linked hit (replayScore hit rulesScore tx.amount
          (history.map (·.amount)) linked.length)⟩] : List ReplayStep)[min turns 3]? =
        some script →
      ReplayProvider.step w.loads host
        (InvestigatorAgent.request model tx triage rulesScore messages) = .ok script := by
  have vars : InvestigationVars.ofDict
      (InvestigatorAgent.request model tx triage rulesScore messages).replayVars =
      ⟨.str tx.accountId, .str (screenedName tx), .float tx.amount, .str tx.currency,
        .int rulesScore⟩ := by
    rw [← screenedName_or]
    rfl
  obtain ⟨summary, facts, steps⟩ := investigationSteps_high host shows vars
  refine ⟨summary, facts, fun script picked => ?_⟩
  have scenario : (InvestigatorAgent.request model tx triage rulesScore messages).replayScenario =
      "high" := if_pos likely
  rw [← scenario] at steps
  refine ReplayProvider.step_investigation rfl conversation.read steps ?_
  rw [show ReplayProvider.turn (InvestigatorAgent.request model tx triage rulesScore
    messages).messages = turns from conversation.turns]
  exact picked

end

/-- What the tools return, in the order of the script. -/
def toolResults (w : ReplayWorld) (tx : Transaction) : List Value :=
  [.dict [("history", .list (w.history.map (.dict ·.asDict)))], .dict w.graph.asDict,
    .dict (screening (screenedName tx))]

/-- The watchlist hits. -/
def hit (tx : Transaction) : Bool := onSanctionsList (screenedName tx)

/-- The score of the case file. -/
def score (w : ReplayWorld) (tx : Transaction) : Int :=
  replayScore (hit tx) w.rules.riskScore tx.amount (w.history.map (·.amount))
    w.graph.linkedAccounts.length

/-- The case file as far as the outcome depends on it. -/
structure CaseOf (w : ReplayWorld) (tx : Transaction) (case : CaseFile) : Prop where
  score : case.riskScore = w.score tx
  hit : case.sanctionsHit = ReplayWorld.hit tx

/-- The research of the script, with what the tools return. -/
def observed (w : ReplayWorld) (tx : Transaction) : List ToolEvent :=
  [⟨"get_transaction_history", [("account_id", .str tx.accountId)],
      .dict [("history", .list (w.history.map (.dict ·.asDict)))]⟩,
    ⟨"get_entity_graph", [("account_id", .str tx.accountId)], .dict w.graph.asDict⟩,
    ⟨"check_sanctions_list", [("name", .str (screenedName tx))],
      .dict (screening (screenedName tx))⟩]

/-- The case file follows from the tools' results and the rules' score. -/
structure Supported (w : ReplayWorld) (tx : Transaction) (rulesScore : Int) (case : CaseFile) :
    Prop where
  score : case.riskScore = replayScore (hit tx) rulesScore tx.amount (w.history.map (·.amount))
    w.graph.linkedAccounts.length
  linked : case.linkedAccounts = w.graph.linkedAccounts
  hit : case.sanctionsHit = ReplayWorld.hit tx
  review : case.recommendComplianceReview = decide (70 ≤ case.riskScore ∨ ReplayWorld.hit tx)

theorem investigator_replays (lax : host.Lax)
    (roundTrip : ∀ v ∈ w.toolResults tx, w.loads (host.dumps v) = .ok v) {model : String}
    {triage : TriageVerdict} (likely : 1 / 2 ≤ triage.fraudLikelihood) (rulesScore : Int)
    (s : List ToolEvent) :
    Assures (w.Answers host) (InvestigatorAgent.run host model tx triage
      (some Orchestrator.captureToolCall) rulesScore) s fun case t =>
        w.Supported tx rulesScore case ∧ t = s ++ w.observed tx := by
  have history := roundTrip _ (.head _)
  have graph := roundTrip _ (.tail _ (.head _))
  have screen := roundTrip _ (.tail _ (.tail _ (.head _)))
  have start := Conversation.opening (w := w) (InvestigatorAgent.prompt host tx triage)
  obtain ⟨_, _, script₀⟩ := start.script likely
    (show Shows _ [] [] false from ⟨rfl, rfl, [], rfl, rfl⟩) host model tx rulesScore
  refine research_turn (script₀ _ rfl) (by simp) (history_assures _ _) fun id₁ => ?_
  have first := start.research "get_transaction_history" id₁ [("account_id", .str tx.accountId)]
    (by simp) history
  obtain ⟨_, _, script₁⟩ := first.script likely
    (show Shows _ w.history [] false from ⟨rfl, rfl, [], rfl, rfl⟩) host model tx rulesScore
  refine research_turn (script₁ _ rfl) (by simp) (graph_assures _ _) fun id₂ => ?_
  have second := first.research "get_entity_graph" id₂ [("account_id", .str tx.accountId)]
    (by simp) graph
  obtain ⟨_, _, script₂⟩ := second.script likely
    (show Shows _ w.history w.graph.linkedAccounts false from ⟨rfl, rfl, [], rfl, rfl⟩)
    host model tx rulesScore
  refine research_turn (script₂ _ rfl) (by simp) (screen_assures _ _) fun id₃ => ?_
  have third := second.research "check_sanctions_list" id₃ [("name", .str (screenedName tx))]
    (by simp) screen
  obtain ⟨_, _, script₃⟩ := third.script likely
    (show Shows _ w.history w.graph.linkedAccounts (hit tx) from ⟨rfl, rfl, _, rfl, rfl⟩)
    host model tx rulesScore
  exact case_turn (script₃ _ rfl) (CaseFile.ofInput_replay lax _ _ _ _ (replayScore_bounds ..))
    ⟨⟨rfl, rfl, rfl, rfl⟩, by simp [observed]⟩

theorem investigator_assures (lax : host.Lax)
    (roundTrip : ∀ v ∈ w.toolResults tx, w.loads (host.dumps v) = .ok v) {model : String}
    {triage : TriageVerdict} (likely : 1 / 2 ≤ triage.fraudLikelihood) (s : List ToolEvent) :
    Assures (w.Answers host) (InvestigatorAgent.run host model tx triage
      (some Orchestrator.captureToolCall) w.rules.riskScore) s fun case _ => w.CaseOf tx case :=
  (investigator_replays lax roundTrip likely _ s).mono fun _ _ ends =>
    ⟨ends.1.score, ends.1.hit⟩

/-! ## The verdicts -/

/-- Nothing stands out at stage 0. -/
def Closes (w : ReplayWorld) : Prop :=
  w.rules.riskScore < 25 ∧ ¬ w.prefilter.isAnomaly = true

/-- What the replay escalates at triage. -/
def Suspicious (w : ReplayWorld) : Prop :=
  50 ≤ w.rules.riskScore ∨ w.prefilter.isAnomaly = true

instance (w : ReplayWorld) : Decidable w.Closes := inferInstanceAs (Decidable (_ ∧ _))

instance (w : ReplayWorld) : Decidable w.Suspicious := inferInstanceAs (Decidable (_ ∨ _))

theorem rules_named (w : ReplayWorld) : Named w.rules := by
  intro r mem
  obtain ⟨triggered, _, rfl⟩ := List.mem_map.mp mem
  exact ⟨triggered.rule, rfl⟩

/-- What triage says of the run. -/
structure TriageOf (w : ReplayWorld) (triage : TriageVerdict) : Prop where
  escalate : triage.escalate = decide w.Suspicious
  likely : w.Suspicious → 1 / 2 ≤ triage.fraudLikelihood

/-- The agent returns the verdict that the script gives it. -/
theorem triage_scripted {σ : Type} (lax : host.Lax) (model : String) (ctx : ScoringContext) (s : σ)
    {scenario category reasoning : String} {likelihood : ℚ} {escalate : Bool}
    (bounds : 0 ≤ likelihood ∧ likelihood ≤ 1)
    (chosen : (if w.rules.riskScore ≥ 50 ∨ w.prefilter.isAnomaly = true then "high" else "low") =
      scenario)
    (step : triageStep host scenario (.dict w.rules.modelDump) (.dict w.prefilter.modelDump) =
      .ok ⟨"emit_triage_verdict", triageInput likelihood category escalate reasoning⟩) :
    Assures (w.Answers host) (TriageAgent.run host model tx ctx w.rules w.prefilter) s
      fun triage t => triage = ⟨likelihood, category, escalate, reasoning, bounds⟩ ∧ t = s := by
  subst chosen
  refine complete_assures (show ReplayProvider.step w.loads host _ = _ from step) fun hex => ?_
  show Assures _ (raising (TriageVerdict.ofInput host
    (triageInput likelihood category escalate reasoning))) s _
  rw [TriageVerdict.ofInput_replay lax category escalate reasoning bounds]
  exact .raising ⟨rfl, rfl⟩

theorem triage_assures {σ : Type} (lax : host.Lax) (model : String) (ctx : ScoringContext) (s : σ) :
    Assures (w.Answers host) (TriageAgent.run host model tx ctx w.rules w.prefilter) s
      fun triage t => w.TriageOf triage ∧ t = s := by
  by_cases suspicious : w.rules.riskScore ≥ 50 ∨ w.prefilter.isAnomaly = true
  · obtain ⟨category, reasoning, scripted⟩ := triageStep_high host w.rules_named w.prefilter
    have likelihood : (0 : ℚ) ≤ 82 / 100 ∧ (82 / 100 : ℚ) ≤ 1 := by constructor <;> decide +kernel
    have half : (1 / 2 : ℚ) ≤ 82 / 100 := by decide +kernel
    refine (triage_scripted lax model ctx s likelihood (if_pos suspicious) scripted).mono
      fun triage t ends => ?_
    obtain ⟨rfl, same⟩ := ends
    exact ⟨⟨(decide_eq_true suspicious).symm, fun _ => half⟩, same⟩
  · obtain ⟨category, reasoning, scripted⟩ :=
      triageStep_low host (.dict w.rules.modelDump) (.dict w.prefilter.modelDump)
    have likelihood : (0 : ℚ) ≤ 4 / 100 ∧ (4 / 100 : ℚ) ≤ 1 := by constructor <;> decide +kernel
    refine (triage_scripted lax model ctx s likelihood (if_neg suspicious) scripted).mono
      fun triage t ends => ?_
    obtain ⟨rfl, same⟩ := ends
    exact ⟨⟨(decide_eq_false suspicious).symm, fun s => absurd s suspicious⟩, same⟩

theorem compliance_assures {σ : Type} (lax : host.Lax) (model : String) (case : CaseFile) (s : σ) :
    Assures (w.Answers host) (ComplianceAgent.run host model tx case) s fun _ t => t = s := by
  obtain ⟨narrative, scripted⟩ := complianceStep_ok host case.summary case.evidence
  refine complete_assures (show ReplayProvider.step w.loads host _ = _ from scripted) fun hex => ?_
  obtain ⟨report, built⟩ := ComplianceReport.ofInput_replay lax narrative
    ["Internal review of suspicious activity (synthetic demonstration)"]
  show Assures _ (raising (ComplianceReport.ofInput host [("narrative", .str narrative),
    ("obligations_referenced",
      .strs ["Internal review of suspicious activity (synthetic demonstration)"])])) s _
  rw [built]
  exact .raising rfl

/-! ## Finishing -/

theorem verifyAudit_assures {s : PipelineResult} (clean : s.audit.errors = []) :
    Assures (w.Answers host) (verifyAudit host) s fun verified t =>
      verified = true ∧ ∃ audit, t = { s with audit } ∧ audit.status = .verified ∧
        audit.errors = [] := by
  refine .askThen fun answer within => ?_
  obtain ⟨verification, valid, rfl, found, truthy⟩ := within
  refine .raisingThen rfl (.modifyThen (.askThen fun now _ => .modifyThen ?_))
  refine .raisingThen found (.getThen (.modifyThen (.pure ?_)))
  have verified : (valid.truthy && s.audit.errors.isEmpty) = true := by
    rw [truthy, clean]
    rfl
  refine ⟨verified, _, rfl, if_pos verified, clean⟩

theorem execute_assures (action : PaymentAction) (s : PipelineResult) :
    Assures (w.Answers host) (execute host action (tx.modelDump host)) s fun _ t => t = s := by
  unfold execute
  split
  · exact .askThen fun _ _ => .raisingThen rfl (.pure rfl)
  · exact .pure rfl

theorem applyPaymentControl_assures {s : PipelineResult} (owner : s.transaction = tx.modelDump host)
    (clean : s.audit.errors = []) :
    Assures (w.Answers host) (applyPaymentControl host true) s fun _ t =>
      ∃ payment, t.payment = some payment ∧ payment.action = s.policy := by
  obtain ⟨reasons, decided⟩ := paymentPolicy_asDict host s
  refine .getThen (.raisingThen decided (.askThen fun now _ => ?_))
  rw [owner]
  refine .raisingThen rfl (.raisingThen rfl (.modifyThen ?_))
  have recorded : ∀ (event : Dict) (u : PipelineResult), u.audit.errors = [] →
      Assures (w.Answers host) (if true then recordPolicy host (.str tx.id) event else pure false) u
        fun verified _ => verified = true := by
    intro event u none
    refine .attempt (.askThen fun answer within => ?_)
    obtain ⟨receipt, rfl⟩ := within
    refine .raisingThen rfl (.modifyThen ?_)
    exact (verifyAudit_assures (s := u.addEntry receipt) none).mono fun _ _ ends => ends.1
  refine .bind (recorded _ _ clean) fun verified t ok => ?_
  refine .bind (execute_assures _ t) fun execution u same => .modify ⟨_, rfl, ?_⟩
  rw [ok]
  show (enforced (s.policy, reasons) true).1 = s.policy
  unfold enforced
  simp

end ReplayWorld

end VaultWatch.Agents
