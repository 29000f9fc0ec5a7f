import Mathlib.Data.Rat.Defs

/-! The data of the agent pipeline (`agents-python/app/models.py`): Python's JSON
values, the pydantic models with their dumps, and the constructors that take a
model provider's input. Floats are exact. What the host renders or coerces, in
formatting, JSON, datetimes, SHA-256 and pydantic's lax mode, is a `Host`. -/
namespace VaultWatch.Agents

/-- A raised object: an `Exception`, or a cancellation, which `except Exception`
lets through. -/
inductive Raised
  | exception (type : String) (message : String := "")
  | cancelled
  deriving DecidableEq

inductive Value
  | none
  | bool (b : Bool)
  | int (n : Int)
  | float (x : ℚ)
  | str (s : String)
  | list (xs : List Value)
  | dict (fields : List (String × Value))

abbrev Dict := List (String × Value)

/-- Microseconds. -/
abbrev Time := Int

/-- `d.get(key, default)`. -/
def Dict.get (d : Dict) (key : String) (default : Value := .none) : Value :=
  (d.lookup key).getD default

/-- `d[key]`. -/
def Dict.getItem (d : Dict) (key : String) : Except Raised Value :=
  match d.lookup key with
  | some v => .ok v
  | none => .error (.exception "KeyError")

namespace Value

def truthy : Value → Bool
  | none => false
  | bool b => b
  | int n => n ≠ 0
  | float x => x ≠ 0
  | str s => s ≠ ""
  | list xs => !xs.isEmpty
  | dict fields => !fields.isEmpty

/-- `v or w`. -/
def or (v w : Value) : Value :=
  if v.truthy then v else w

/-- `v.get(key, default)`. -/
def get (v : Value) (key : String) (default : Value := .none) : Except Raised Value :=
  match v with
  | dict fields => .ok (Dict.get fields key default)
  | _ => .error (.exception "AttributeError")

/-- `v[key]`. -/
def getItem (v : Value) (key : String) : Except Raised Value :=
  match v with
  | dict fields => Dict.getItem fields key
  | _ => .error (.exception "TypeError")

/-- `v >= n`. -/
def ge (v : Value) (n : Int) : Except Raised Bool :=
  match v with
  | int m => .ok (n ≤ m)
  | float x => .ok ((n : ℚ) ≤ x)
  | bool b => .ok (n ≤ if b then 1 else 0)
  | _ => .error (.exception "TypeError")

/-- `v == s`. -/
def eqStr (v : Value) (s : String) : Bool :=
  match v with
  | str t => t = s
  | _ => false

def ofOption {α : Type} (f : α → Value) : Option α → Value
  | some a => f a
  | .none => none

def strs (xs : List String) : Value := list (xs.map str)

end Value

structure Host where
  /-- `f"{x:.2f}"`. -/
  fixed2 : ℚ → String
  /-- `f"{v}"`. -/
  str : Value → String
  dumps : Value → String
  /-- A datetime in `model_dump(mode="json")`. -/
  jsonTime : Time → String
  isoformat : Time → String
  /-- `hashlib.sha256(s.encode()).hexdigest()`. -/
  sha256 : String → String
  /-- Pydantic's coercions of a field's input. -/
  asStr : Value → Option String
  asInt : Value → Option Int
  asFloat : Value → Option ℚ
  asBool : Value → Option Bool

structure Transaction where
  id : String
  accountId : String
  amount : ℚ
  currency : String := "EUR"
  timestamp : Time
  lat : Option ℚ := none
  lon : Option ℚ := none
  beneficiaryName : Option String := none
  beneficiaryId : Option String := none
  deviceId : Option String := none

structure ScoringContext where
  recentAmounts : List ℚ := []
  recentCountLastHour : Int := 0
  recentSumLastHour : ℚ := 0
  knownBeneficiaries : List String := []
  knownDevices : List String := []
  lastLocation : Option Dict := none

structure RuleEngineVerdict where
  transactionId : String
  riskScore : Int
  riskBand : String
  triggeredRules : List Dict := []

structure PreFilterVerdict where
  anomalyScore : ℚ
  isAnomaly : Bool

/-- `fraud_likelihood` lies between its bounds. -/
structure TriageVerdict where
  fraudLikelihood : ℚ
  category : String
  escalate : Bool
  reasoning : String
  bounds : 0 ≤ fraudLikelihood ∧ fraudLikelihood ≤ 1

/-- `risk_score` lies between its bounds. -/
structure CaseFile where
  summary : String
  riskScore : Int
  evidence : List String := []
  linkedAccounts : List String := []
  sanctionsHit : Bool := false
  recommendComplianceReview : Bool
  bounds : 0 ≤ riskScore ∧ riskScore ≤ 100

structure ComplianceReport where
  narrative : String
  obligationsReferenced : List String := []
  disclaimer : String :=
    "Synthetic demonstration output only. Not legal or regulatory advice, " ++
    "and not a real Suspicious Activity Report."

inductive PipelineStage
  | rules | prefilter | triage | investigation | compliance | fusion | closed
  deriving DecidableEq

inductive Severity
  | low | medium | high | critical
  deriving DecidableEq

structure AgentEvent where
  transactionId : String
  accountId : String
  stage : PipelineStage
  label : String
  detail : Dict := []
  timestamp : Time

structure Alert where
  transactionId : String
  accountId : String
  severity : Severity
  title : String
  detail : Dict := []
  fusedWithSecurityEvent : Bool := false
  timestamp : Time

structure SecurityEvent where
  type : String
  accountId : Option String := none
  severity : String
  detail : Dict := []
  timestamp : Option String := none

/-! ## Dumps -/

def PipelineStage.value : PipelineStage → String
  | rules => "rules"
  | prefilter => "prefilter"
  | triage => "triage"
  | investigation => "investigation"
  | compliance => "compliance"
  | fusion => "fusion"
  | closed => "closed"

def Severity.value : Severity → String
  | low => "low"
  | medium => "medium"
  | high => "high"
  | critical => "critical"

def Transaction.modelDump (host : Host) (tx : Transaction) : Dict :=
  [("id", .str tx.id), ("account_id", .str tx.accountId), ("amount", .float tx.amount),
    ("currency", .str tx.currency), ("timestamp", .str (host.jsonTime tx.timestamp)),
    ("lat", .ofOption .float tx.lat), ("lon", .ofOption .float tx.lon),
    ("beneficiary_name", .ofOption .str tx.beneficiaryName),
    ("beneficiary_id", .ofOption .str tx.beneficiaryId),
    ("device_id", .ofOption .str tx.deviceId)]

def ScoringContext.modelDump (ctx : ScoringContext) : Dict :=
  [("recent_amounts", .list (ctx.recentAmounts.map .float)),
    ("recent_count_last_hour", .int ctx.recentCountLastHour),
    ("recent_sum_last_hour", .float ctx.recentSumLastHour),
    ("known_beneficiaries", .strs ctx.knownBeneficiaries),
    ("known_devices", .strs ctx.knownDevices),
    ("last_location", .ofOption .dict ctx.lastLocation)]

def RuleEngineVerdict.modelDump (rules : RuleEngineVerdict) : Dict :=
  [("transaction_id", .str rules.transactionId), ("risk_score", .int rules.riskScore),
    ("risk_band", .str rules.riskBand),
    ("triggered_rules", .list (rules.triggeredRules.map .dict))]

def PreFilterVerdict.modelDump (prefilter : PreFilterVerdict) : Dict :=
  [("anomaly_score", .float prefilter.anomalyScore), ("is_anomaly", .bool prefilter.isAnomaly)]

def TriageVerdict.modelDump (triage : TriageVerdict) : Dict :=
  [("fraud_likelihood", .float triage.fraudLikelihood), ("category", .str triage.category),
    ("escalate", .bool triage.escalate), ("reasoning", .str triage.reasoning)]

def CaseFile.modelDump (case : CaseFile) : Dict :=
  [("summary", .str case.summary), ("risk_score", .int case.riskScore),
    ("evidence", .strs case.evidence), ("linked_accounts", .strs case.linkedAccounts),
    ("sanctions_hit", .bool case.sanctionsHit),
    ("recommend_compliance_review", .bool case.recommendComplianceReview)]

def ComplianceReport.modelDump (report : ComplianceReport) : Dict :=
  [("narrative", .str report.narrative),
    ("obligations_referenced", .strs report.obligationsReferenced),
    ("disclaimer", .str report.disclaimer)]

def AgentEvent.modelDump (host : Host) (event : AgentEvent) : Dict :=
  [("type", .str "agent_event"), ("transaction_id", .str event.transactionId),
    ("account_id", .str event.accountId), ("stage", .str event.stage.value),
    ("label", .str event.label), ("detail", .dict event.detail),
    ("timestamp", .str (host.jsonTime event.timestamp))]

def Alert.modelDump (host : Host) (alert : Alert) : Dict :=
  [("type", .str "alert"), ("transaction_id", .str alert.transactionId),
    ("account_id", .str alert.accountId), ("severity", .str alert.severity.value),
    ("title", .str alert.title), ("detail", .dict alert.detail),
    ("fused_with_security_event", .bool alert.fusedWithSecurityEvent),
    ("timestamp", .str (host.jsonTime alert.timestamp))]

def SecurityEvent.modelDump (event : SecurityEvent) : Dict :=
  [("type", .str event.type), ("account_id", .ofOption .str event.accountId),
    ("severity", .str event.severity), ("detail", .dict event.detail),
    ("timestamp", .ofOption .str event.timestamp)]

/-! ## Models built from a provider's input -/

def validated {α : Type} : Option α → Except Raised α
  | some a => .ok a
  | none => .error (.exception "ValidationError")

/-- A required field. -/
def Dict.required {α : Type} (input : Dict) (name : String) (coerce : Value → Option α) :
    Except Raised α :=
  validated ((input.lookup name).bind coerce)

/-- A field with a default. -/
def Dict.optional {α : Type} (input : Dict) (name : String) (default : α)
    (coerce : Value → Option α) : Except Raised α :=
  match input.lookup name with
  | some v => validated (coerce v)
  | none => .ok default

namespace Host

def asStrs (host : Host) : Value → Option (List String)
  | .list xs => xs.mapM host.asStr
  | _ => none

end Host

/-- `TriageVerdict(**input)`. -/
def TriageVerdict.ofInput (host : Host) (input : Dict) : Except Raised TriageVerdict := do
  let likelihood ← input.required "fraud_likelihood" host.asFloat
  let category ← input.required "category" host.asStr
  let escalate ← input.required "escalate" host.asBool
  let reasoning ← input.required "reasoning" host.asStr
  if bounds : 0 ≤ likelihood ∧ likelihood ≤ 1 then
    return ⟨likelihood, category, escalate, reasoning, bounds⟩
  else throw (.exception "ValidationError")

/-- `CaseFile(**input)`. -/
def CaseFile.ofInput (host : Host) (input : Dict) : Except Raised CaseFile := do
  let summary ← input.required "summary" host.asStr
  let riskScore ← input.required "risk_score" host.asInt
  let evidence ← input.optional "evidence" [] host.asStrs
  let linkedAccounts ← input.optional "linked_accounts" [] host.asStrs
  let sanctionsHit ← input.optional "sanctions_hit" false host.asBool
  let review ← input.required "recommend_compliance_review" host.asBool
  if bounds : 0 ≤ riskScore ∧ riskScore ≤ 100 then
    return ⟨summary, riskScore, evidence, linkedAccounts, sanctionsHit, review, bounds⟩
  else throw (.exception "ValidationError")

/-- `ComplianceReport(**input)`. -/
def ComplianceReport.ofInput (host : Host) (input : Dict) : Except Raised ComplianceReport := do
  let narrative ← input.required "narrative" host.asStr
  let obligations ← input.optional "obligations_referenced" [] host.asStrs
  let default : ComplianceReport := { narrative }
  let disclaimer ← input.optional "disclaimer" default.disclaimer host.asStr
  return ⟨narrative, obligations, disclaimer⟩

end VaultWatch.Agents
