import VaultWatch.Agents.Llm
import VaultWatch.Agents.Payments

/-! `Orchestrator.process_transaction` (`agents-python/app/orchestrator.py`), one
definition for each stage of the pipeline. Every `await` is an operation, so
what other coroutines do in the meantime is part of the answers. -/
namespace VaultWatch.Agents

open VaultWatch.Lib.Effects VaultWatch.Lib.Interleave

def RULES_ESCALATION_THRESHOLD : Int := 25

/-- Ten minutes. -/
def SECURITY_EVENT_WINDOW : Time := 600000000

/-- `_recent_security_event`, at `now` and on the account's events. -/
def recentSecurityEvent (now : Time) (events : List (Time × SecurityEvent)) :
    Option SecurityEvent :=
  ((events.filter fun e => e.1 > now - SECURITY_EVENT_WINDOW).map (·.2)).getLast?

/-- `_severity_for`. -/
def severityFor (riskScore : Int) (hasSecurityEvent : Bool) : Severity :=
  if hasSecurityEvent ∧ riskScore ≥ 50 then .critical
  else if riskScore ≥ 70 then .high
  else if riskScore ≥ 40 then .medium
  else .low

/-- `audit` and `eventSink` say whether one is configured. -/
structure Orchestrator where
  audit : Bool
  eventSink : Bool
  isLive : Bool
  haikuModel : String
  sonnetModel : String

def Event.modelDump (host : Host) : Event → Dict
  | .agent e => e.modelDump host
  | .alert a => a.modelDump host

/-- The event type of an event's receipt. -/
def Event.eventType : Event → String
  | .agent e => "pipeline." ++ e.stage.value
  | .alert _ => "pipeline.alert"

/-- What `capture_tool_call` keeps. -/
structure ToolEvent where
  name : String
  toolInput : Dict
  toolResult : Value

namespace Orchestrator

variable (host : Host) (o : Orchestrator) (tx : Transaction)

def record (eventType : String) (payload : Dict) : Py PipelineResult Unit :=
  if o.audit then
    attempt
      (do
        let receipt ← raising (← ask (.append (.str tx.id) eventType payload))
        modify (·.addEntry receipt))
      (exceptException (modify (·.addError ("Could not persist " ++ eventType))))
  else pure ()

def emit (event : Event) : Py PipelineResult Unit := do
  let payload := event.modelDump host
  modify fun result => { result with events := result.events ++ [payload] }
  record o tx event.eventType payload
  if o.eventSink then raising (← ask (.send event))

/-- `emit(AgentEvent(...))`. -/
def emitStage (stage : PipelineStage) (label : String) (detail : Dict) :
    Py PipelineResult Unit := do
  let timestamp ← ask .now
  emit host o tx (.agent ⟨tx.id, tx.accountId, stage, label, detail, timestamp⟩)

/-- The verification in `finish`. -/
def verifyCase : Py PipelineResult Unit :=
  if o.audit then
    attempt
      (do
        let _ ← verifyAudit host)
      (exceptException (modify fun result =>
        { result.addError "Audit verification unavailable" with audit.status := .unavailable }))
  else pure ()

def finish : Py PipelineResult Unit := do
  let result ← get
  record o tx "case.completed"
    [("stage", .str result.stageReached.value),
      ("case", .ofOption (.dict ·.modelDump) result.case),
      ("compliance", .ofOption (.dict ·.modelDump) result.compliance)]
  verifyCase host o
  applyPaymentControl host o.audit

def scoringContext : Option ScoringContext → Py PipelineResult ScoringContext
  | some ctx => return ctx
  | none => do raising (← ask (.buildScoringContext tx.accountId tx.amount))

/-- Up to the `case.opened` receipt. -/
def openCase (context : Option ScoringContext) (review : Option Dict) :
    Py PipelineResult ScoringContext := do
  let ctx ← scoringContext tx context
  let modelMode := if o.isLive then "live" else "replay"
  modify fun result => { result with
    transaction := tx.modelDump host
    context := ctx.modelDump
    review := review.getD []
    modelMode }
  record o tx "case.opened"
    [("transaction", .dict (tx.modelDump host)), ("context", .dict ctx.modelDump),
      ("review", .dict (review.getD [])), ("model_mode", .str modelMode)]
  return ctx

def scoreRules (ctx : ScoringContext) : Py PipelineResult RuleEngineVerdict := do
  let rules ← raising (← ask (.score tx ctx))
  modify fun result => { result with rules := some rules }
  emitStage host o tx .rules
    ("Rules engine: " ++ toString rules.riskScore ++ "/100 (" ++ rules.riskBand ++ ")")
    rules.modelDump
  return rules

def scorePrefilter (ctx : ScoringContext) : Py PipelineResult PreFilterVerdict := do
  let prefilter ← raising (← ask (.prefilter tx ctx))
  modify fun result => { result with prefilter := some prefilter }
  emitStage host o tx .prefilter
    ("ML pre-filter: anomaly_score=" ++ host.fixed2 prefilter.anomalyScore) prefilter.modelDump
  return prefilter

def close (label : String) : Py PipelineResult Unit := do
  modify fun result => { result with stageReached := .closed }
  emitStage host o tx .closed label []
  finish host o tx

def triageCase (ctx : ScoringContext) (rules : RuleEngineVerdict) (prefilter : PreFilterVerdict) :
    Py PipelineResult TriageVerdict := do
  let triage ← TriageAgent.run host o.haikuModel tx ctx rules prefilter
  modify fun result => { result with triage := some triage, stageReached := .triage }
  emitStage host o tx .triage
    ("Triage (" ++ (← get).modelMode ++ "): " ++ triage.category ++ " (fraud_likelihood=" ++
      host.fixed2 triage.fraudLikelihood ++ ")")
    triage.modelDump
  return triage

def captureToolCall : InvestigatorAgent.ToolCallObserver (List ToolEvent) :=
  fun name toolInput toolResult => modify (· ++ [⟨name, toolInput, toolResult⟩])

def emitToolEvent (event : ToolEvent) : Py PipelineResult Unit := do
  emitStage host o tx .investigation
    ("Investigator (" ++ (← get).modelMode ++ ") called " ++ event.name ++ "(" ++
      host.str (.dict event.toolInput) ++ ")")
    [("tool", .str event.name), ("input", .dict event.toolInput), ("result", event.toolResult)]

def investigate (triage : TriageVerdict) (rules : RuleEngineVerdict) :
    Py PipelineResult CaseFile := do
  let (case, toolEvents) ← withLocal []
    (InvestigatorAgent.run host o.sonnetModel tx triage (some captureToolCall) rules.riskScore)
  modify fun result => { result with case := some case, stageReached := .investigation }
  toolEvents.forM (emitToolEvent host o tx)
  emitStage host o tx .investigation
    ("Investigation complete: risk_score=" ++ toString case.riskScore) case.modelDump
  return case

def draftCompliance (case : CaseFile) : Py PipelineResult Unit :=
  if case.recommendComplianceReview then do
    let report ← ComplianceAgent.run host o.sonnetModel tx case
    modify fun result => { result with compliance := some report, stageReached := .compliance }
    emitStage host o tx .compliance "Compliance narrative drafted" report.modelDump
  else pure ()

def emitFusion : Option SecurityEvent → Py PipelineResult Unit
  | some event => do
    modify fun result => { result with stageReached := .fusion }
    emitStage host o tx .fusion ("Fused with recent security event: " ++ event.type)
      event.modelDump
  | none => return

def fuse : Py PipelineResult (Option SecurityEvent) := do
  let read ← ask (Op.recentSecurityEvents tx.accountId)
  let securityEvent := recentSecurityEvent read.1 read.2
  emitFusion host o tx securityEvent
  return securityEvent

def raiseAlert (case : CaseFile) (securityEvent : Option SecurityEvent) :
    Py PipelineResult Unit := do
  let timestamp ← ask .now
  let alert : Alert := {
    transactionId := tx.id
    accountId := tx.accountId
    severity := severityFor case.riskScore securityEvent.isSome
    title := if securityEvent.isSome then "Fused fraud + account-security alert"
      else "Financial risk alert"
    detail := [("case", .dict case.modelDump),
      ("security_event", .ofOption (.dict ·.modelDump) securityEvent)]
    fusedWithSecurityEvent := securityEvent.isSome
    timestamp }
  modify fun result => { result with alert := some alert }
  emit host o tx (.alert alert)

/-- From the investigation on. -/
def escalate (triage : TriageVerdict) (rules : RuleEngineVerdict) : Py PipelineResult Unit := do
  let case ← investigate host o tx triage rules
  draftCompliance host o tx case
  let securityEvent ← fuse host o tx
  raiseAlert host o tx case securityEvent
  finish host o tx

def stages (context : Option ScoringContext) (review : Option Dict) : Py PipelineResult Unit := do
  let ctx ← openCase host o tx context review
  let rules ← scoreRules host o tx ctx
  let prefilter ← scorePrefilter host o tx ctx
  if rules.riskScore < RULES_ESCALATION_THRESHOLD ∧ ¬ prefilter.isAnomaly then
    close host o tx "Closed at stage 0 - no anomaly signal, no LLM call made"
  else
    let triage ← triageCase host o tx ctx rules prefilter
    if ¬ triage.escalate then
      close host o tx "Closed at triage - not escalated to investigation"
    else escalate host o tx triage rules

def processTransaction (context : Option ScoringContext) (review : Option Dict) :
    Prog Op Op.Res (Except Raised PipelineResult) :=
  onNew {} (stages host o tx context review)

end Orchestrator

end VaultWatch.Agents
