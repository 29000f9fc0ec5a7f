import VaultWatch.Lib.Effects
import VaultWatch.Showcase.Types

/-! The showcase pipeline (`runPipeline` of `dashboard-web/src/lib/orchestrator.ts`). The
scores and the agents of a transaction are operations, answered by what they return or
throw; an investigation is answered with the calls of its observer as well. -/
namespace VaultWatch.Showcase

open VaultWatch.Lib.Effects VaultWatch.Lib.Interleave

open VaultWatch.Agents (Dict Raised Severity Transaction ScoringContext PreFilterVerdict
  TriageVerdict CaseFile ComplianceReport)

/-- A call of a research tool, as the observer gets it. -/
abbrev ToolUse := String × Dict

inductive PipelineOp
  | buildScoringContext (accountId : String) (amount : ℚ)
  | appendAuditEntry (eventType subjectId : String) (payload : Dict)
  | scoreTransaction (tx : Transaction) (ctx : ScoringContext)
  | scorePreFilter (tx : Transaction) (ctx : ScoringContext)
  | runTriageAgent (tx : Transaction) (rules : Agents.RuleEngineVerdict)
      (prefilter : PreFilterVerdict)
  | runInvestigatorAgent (tx : Transaction) (triage : TriageVerdict)
  | runComplianceAgent (tx : Transaction) (case : CaseFile)
  | utcNow

abbrev PipelineOp.Res : PipelineOp → Type
  | buildScoringContext .. => Except Raised ScoringContext
  | appendAuditEntry .. => Unit
  | scoreTransaction .. => Except Raised Agents.RuleEngineVerdict
  | scorePreFilter .. => Except Raised PreFilterVerdict
  | runTriageAgent .. => Except Raised TriageVerdict
  | runInvestigatorAgent .. => List ToolUse × Except Raised CaseFile
  | runComplianceAgent .. => Except Raised ComplianceReport
  | utcNow => String

/-- TypeScript code with the `events` of a run. -/
abbrev Ts : Type → Type := Eff PipelineOp PipelineOp.Res (List (StreamItem Dict)) Raised

/-- `toFixed(2)` and `JSON.stringify`. -/
structure Texts where
  toFixed2 : ℚ → String
  stringify : Dict → String

def RULES_ESCALATION_THRESHOLD : Int := 25

def severityFor (riskScore : Int) : Severity :=
  if riskScore ≥ 70 then .high
  else if riskScore ≥ 40 then .medium
  else .low

section
variable (texts : Texts) (tx : Transaction)

def push (stage : PipelineStage) (label : String) (detail : Dict) : Ts Unit := do
  let timestamp ← ask .utcNow
  modify (· ++ [.event ⟨tx.id, tx.accountId, stage, label, detail, timestamp⟩])

/-- The observer of the investigation. -/
def pushToolUse (call : ToolUse) : Ts Unit :=
  push tx .investigation
    ("Sonnet investigator called " ++ call.1 ++ "(" ++ texts.stringify call.2 ++ ")")
    [("tool", .str call.1), ("input", .dict call.2)]

def closeCase (label : String) (result : PipelineResult Dict) : Ts (PipelineResult Dict) := do
  push tx .closed label []
  ask (PipelineOp.appendAuditEntry "case.closed" tx.accountId
    [("transaction_id", .str tx.id), ("stage", .str "closed")])
  return result

/-- Whatever the investigator throws, its observer has been called before. -/
def investigateCase (triage : TriageVerdict) (result : PipelineResult Dict) :
    Ts (PipelineResult Dict × CaseFile) := do
  let (calls, outcome) ← ask (PipelineOp.runInvestigatorAgent tx triage)
  calls.forM (pushToolUse texts tx)
  let caseFile ← raising outcome
  push tx .investigation ("Investigation complete: risk_score=" ++ toString caseFile.riskScore)
    caseFile.modelDump
  return ({ result with case := some caseFile, stageReached := .investigation }, caseFile)

def complyCase (caseFile : CaseFile) (result : PipelineResult Dict) :
    Ts (PipelineResult Dict) := do
  if caseFile.recommendComplianceReview then
    let compliance ← raising (← ask (.runComplianceAgent tx caseFile))
    push tx .compliance "Compliance narrative drafted" compliance.modelDump
    return { result with compliance := some compliance, stageReached := .compliance }
  else return result

def alertCase (caseFile : CaseFile) (result : PipelineResult Dict) :
    Ts (PipelineResult Dict) := do
  let timestamp ← ask .utcNow
  let alert : Alert Dict := {
    transactionId := tx.id
    accountId := tx.accountId
    severity := severityFor caseFile.riskScore
    title := "Financial risk alert"
    detail := [("case", .dict caseFile.modelDump)]
    fusedWithSecurityEvent := false
    timestamp }
  modify (· ++ [.alert alert])
  ask (PipelineOp.appendAuditEntry "case.closed" tx.accountId
    [("transaction_id", .str tx.id), ("stage", .str result.stageReached.value),
      ("risk_score", .int caseFile.riskScore)])
  return { result with alert := some alert }

def runPipeline : Ts (PipelineResult Dict) := do
  let ctx ← raising (← ask (.buildScoringContext tx.accountId tx.amount))
  ask (PipelineOp.appendAuditEntry "case.opened" tx.accountId
    [("transaction_id", .str tx.id), ("amount", .float tx.amount)])
  let rules ← raising (← ask (.scoreTransaction tx ctx))
  push tx .rules
    ("Rules engine: " ++ toString rules.riskScore ++ "/100 (" ++ rules.riskBand ++ ")")
    rules.modelDump
  let prefilter ← raising (← ask (.scorePreFilter tx ctx))
  push tx .prefilter
    ("Heuristic pre-filter: anomaly_score=" ++ texts.toFixed2 prefilter.anomalyScore)
    prefilter.modelDump
  let result : PipelineResult Dict := {
    stageReached := .closed
    rules := some rules
    prefilter := some prefilter
    triage := none
    case := none
    compliance := none
    alert := none }
  if rules.riskScore < RULES_ESCALATION_THRESHOLD ∧ ¬ prefilter.isAnomaly then
    closeCase tx "Closed at stage 0 - no anomaly signal, no LLM call made" result
  else
    let triage ← raising (← ask (.runTriageAgent tx rules prefilter))
    push tx .triage
      ("Haiku triage: " ++ triage.category ++ " (fraud_likelihood=" ++
        texts.toFixed2 triage.fraudLikelihood ++ ")")
      triage.modelDump
    if ¬ triage.escalate then
      closeCase tx "Closed at triage - not escalated to investigation"
        { result with triage := some triage, stageReached := .closed }
    else
      let (result, caseFile) ← investigateCase texts tx triage
        { result with triage := some triage, stageReached := .triage }
      let result ← complyCase tx caseFile result
      alertCase tx caseFile result

end

end VaultWatch.Showcase
