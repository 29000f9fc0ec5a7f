import VaultWatch.Agents.Models

/-! The shapes of `dashboard-web/src/lib/types.ts` that the dashboard and the
showcase pipeline share. They mirror the Pydantic models, whose verdicts are used
here; a `detail` is of any type `V`, and a timestamp is its ISO text. -/
namespace VaultWatch.Showcase

open VaultWatch.Agents (PreFilterVerdict TriageVerdict CaseFile ComplianceReport Severity)

inductive PipelineStage
  | rules | prefilter | triage | investigation | compliance | fusion | payment | closed
  deriving DecidableEq

def PipelineStage.value : PipelineStage → String
  | rules => "rules"
  | prefilter => "prefilter"
  | triage => "triage"
  | investigation => "investigation"
  | compliance => "compliance"
  | fusion => "fusion"
  | payment => "payment"
  | closed => "closed"

structure AgentEvent (V : Type) where
  transactionId : String
  accountId : String
  stage : PipelineStage
  label : String
  detail : V
  timestamp : String

structure Alert (V : Type) where
  transactionId : String
  accountId : String
  severity : Severity
  title : String
  detail : V
  fusedWithSecurityEvent : Bool
  timestamp : String

/-- `AgentEvent | Alert`, told apart by `type`. -/
inductive StreamItem (V : Type)
  | event (event : AgentEvent V)
  | alert (alert : Alert V)

def StreamItem.transactionId {V : Type} : StreamItem V → String
  | event e => e.transactionId
  | alert a => a.transactionId

structure PipelineResult (V : Type) where
  stageReached : PipelineStage
  rules : Option Agents.RuleEngineVerdict
  prefilter : Option PreFilterVerdict
  triage : Option TriageVerdict
  case : Option CaseFile
  compliance : Option ComplianceReport
  alert : Option (Alert V)

end VaultWatch.Showcase
