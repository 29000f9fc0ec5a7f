import VaultWatch.Agents.Models
import VaultWatch.Lib.Effects

/-! What the pipeline shares with the rest of the service: the requests to a
model provider (`agents-python/app/llm/provider.py`), the operations a run
performs on its environment, and the result object every stage writes to
(`agents-python/app/orchestrator.py`, `PipelineResult`). -/
namespace VaultWatch.Agents

open VaultWatch.Lib.Effects VaultWatch.Lib.Interleave

structure ToolCall where
  id : String
  name : String
  input : Dict

structure ModelResponse where
  text : String
  toolCalls : List ToolCall := []
  stopReason : String := "end_turn"

inductive Block
  | toolUse (id name : String) (input : Dict)
  | toolResult (toolUseId : String) (content : String)

inductive Role
  | user | assistant
  deriving DecidableEq

inductive Content
  | text (s : String)
  | blocks (bs : List Block)

structure Message where
  role : Role
  content : Content

inductive ReplayFamily
  | triage | investigation | compliance
  deriving DecidableEq

/-- The arguments of `complete`. The system prompt, the tool schemas and the tool
choice are constants of the family. -/
structure CompleteRequest where
  model : String
  messages : List Message
  replayFamily : ReplayFamily
  replayScenario : String
  replayVars : Dict

inductive Event
  | agent (event : AgentEvent)
  | alert (alert : Alert)

/-- `checkSanctionsList` and `simulateExecution` ask nothing: they put a call of
the function in the history. -/
inductive Op
  | buildScoringContext (accountId : String) (amount : ℚ)
  | append (transactionId : Value) (eventType : String) (payload : Dict)
  | verify
  | score (tx : Transaction) (ctx : ScoringContext)
  | prefilter (tx : Transaction) (ctx : ScoringContext)
  | complete (request : CompleteRequest)
  | send (event : Event)
  | now
  | recentSecurityEvents (accountId : String)
  | generateTransactionHistory (accountId : Value)
  | generateEntityGraph (accountId : Value)
  | checkSanctionsList (name : Value)
  | simulateExecution (transaction : Dict)

/-- The answers. A read of the account's security events comes with the time of
the read. -/
abbrev Op.Res : Op → Type
  | buildScoringContext .. => Except Raised ScoringContext
  | append .. => Except Raised Value
  | verify => Except Raised Value
  | score .. => Except Raised RuleEngineVerdict
  | prefilter .. => Except Raised PreFilterVerdict
  | complete _ => Except Raised ModelResponse
  | send _ => Except Raised Unit
  | now => Time
  | recentSecurityEvents _ => Time × List (Time × SecurityEvent)
  | generateTransactionHistory _ => Except Raised Value
  | generateEntityGraph _ => Except Raised Value
  | checkSanctionsList _ => Unit
  | simulateExecution _ => Unit

abbrev History := List (Prog.Done Op Op.Res)

/-- Python code that changes an object of type `σ`. -/
abbrev Py (σ : Type) : Type → Type := Eff Op Op.Res σ Raised

/-! ## The result -/

inductive AuditStatus
  | notConfigured | verified | failed | unavailable
  deriving DecidableEq

def AuditStatus.value : AuditStatus → String
  | notConfigured => "not_configured"
  | verified => "verified"
  | failed => "failed"
  | unavailable => "unavailable"

structure AuditTrail where
  status : AuditStatus := .notConfigured
  entries : List Value := []
  errors : List String := []
  verification : Option Value := none
  checkedAt : Option String := none

inductive PaymentAction
  | allow | hold | block
  deriving DecidableEq

def PaymentAction.value : PaymentAction → String
  | allow => "allow"
  | hold => "hold"
  | block => "block"

inductive ExecutionStatus
  | simulatedComplete | notExecuted
  deriving DecidableEq

def ExecutionStatus.value : ExecutionStatus → String
  | simulatedComplete => "simulated_complete"
  | notExecuted => "not_executed"

structure SimulationReceipt where
  id : String
  status : String
  amount : Value
  currency : Value

structure Payment where
  action : PaymentAction
  policyAction : PaymentAction
  policyVersion : String
  reasons : List String
  decidedAt : String
  scope : String
  executionStatus : ExecutionStatus
  simulationReceipt : Option SimulationReceipt

structure PipelineResult where
  transaction : Dict := []
  context : Dict := []
  review : Dict := []
  events : List Dict := []
  modelMode : String := "unknown"
  audit : AuditTrail := {}
  stageReached : PipelineStage := .closed
  rules : Option RuleEngineVerdict := none
  prefilter : Option PreFilterVerdict := none
  triage : Option TriageVerdict := none
  case : Option CaseFile := none
  compliance : Option ComplianceReport := none
  alert : Option Alert := none
  payment : Option Payment := none

def AuditTrail.asDict (audit : AuditTrail) : Dict :=
  [("status", .str audit.status.value), ("entries", .list audit.entries),
    ("errors", .strs audit.errors)] ++
  (audit.verification.map fun v => ("verification", v)).toList ++
  (audit.checkedAt.map fun t => ("checked_at", .str t)).toList

def SimulationReceipt.asDict (receipt : SimulationReceipt) : Dict :=
  [("id", .str receipt.id), ("status", .str receipt.status), ("amount", receipt.amount),
    ("currency", receipt.currency)]

def Payment.asDict (payment : Payment) : Dict :=
  [("action", .str payment.action.value), ("policy_action", .str payment.policyAction.value),
    ("policy_version", .str payment.policyVersion), ("reasons", .strs payment.reasons),
    ("decided_at", .str payment.decidedAt), ("scope", .str payment.scope),
    ("execution_status", .str payment.executionStatus.value),
    ("simulation_receipt", .ofOption (.dict ·.asDict) payment.simulationReceipt)]

def PipelineResult.asDict (host : Host) (result : PipelineResult) : Dict :=
  [("transaction", .dict result.transaction), ("context", .dict result.context),
    ("review", .dict result.review), ("events", .list (result.events.map .dict)),
    ("model_mode", .str result.modelMode), ("audit", .dict result.audit.asDict),
    ("stage_reached", .str result.stageReached.value),
    ("rules", .ofOption (.dict ·.modelDump) result.rules),
    ("prefilter", .ofOption (.dict ·.modelDump) result.prefilter),
    ("triage", .ofOption (.dict ·.modelDump) result.triage),
    ("case", .ofOption (.dict ·.modelDump) result.case),
    ("compliance", .ofOption (.dict ·.modelDump) result.compliance),
    ("alert", .ofOption (.dict <| ·.modelDump host) result.alert),
    ("payment", .ofOption (.dict ·.asDict) result.payment)]

end VaultWatch.Agents
