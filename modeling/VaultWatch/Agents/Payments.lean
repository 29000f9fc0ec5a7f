import VaultWatch.Agents.Pipeline

/-! The payment gate (`agents-python/app/payments.py`). The policy reads the
result's dictionary, as the source does; `paymentPolicy_asDict` says what that
comes to in terms of the models. -/
namespace VaultWatch.Agents

open VaultWatch.Lib.Effects VaultWatch.Lib.Interleave

def POLICY_VERSION : String := "local-demo-v2"

/-- `a or b` of two tests, the second made only when the first fails. -/
def either (a b : Except Raised Bool) : Except Raised Bool := do
  if ← a then return true else b

/-- `alert.get("severity") or rules.get("risk_band")`. -/
def policySeverity (rules alert : Value) : Except Raised Value := do
  let alerted ← alert.get "severity"
  if alerted.truthy then return alerted else rules.get "risk_band"

/-- The last condition of the policy. -/
def riskSignal (result : Dict) (rules case alert : Value) : Except Raised Bool :=
  either (pure alert.truthy) <|
  either (do (← rules.get "risk_score" (.int 0)).ge 25) <|
  either (do return (← (← result.getItem "prefilter").get "is_anomaly").truthy) <|
  either (do return (← ((result.get "triage").or (.dict [])).get "escalate").truthy)
    (do return (← case.get "recommend_compliance_review").truthy)

def paymentPolicy (result : Dict) : Except Raised (PaymentAction × List String) := do
  let rules := (result.get "rules").or (.dict [])
  let case := (result.get "case").or (.dict [])
  let alert := (result.get "alert").or (.dict [])
  if (← case.get "sanctions_hit").truthy then
    return (.block, ["Synthetic watchlist match found in the investigation."])
  let severity ← policySeverity rules alert
  if severity.eqStr "critical" then
    return (.block, ["Critical risk: simulated payment execution is blocked."])
  if severity.eqStr "high" then
    return (.hold, ["High risk: payment paused for human review; execution is withheld."])
  if !(← (result.get "audit" (.dict [])).get "status").eqStr "verified" then
    return (.hold, ["Processing evidence could not be verified; do not proceed."])
  if !rules.truthy || !(result.get "prefilter").truthy then
    return (.hold, ["Required risk checks are missing."])
  if ← riskSignal result rules case alert then
    return (.hold, ["A risk signal remains; a human review is required."])
  return (.allow, ["Completed initial checks found no signal requiring a hold or block."])

def simulateExecution (host : Host) (transaction : Dict) : Except Raised SimulationReceipt := do
  let .str id ← transaction.getItem "id" | throw (.exception "AttributeError")
  let amount ← transaction.getItem "amount"
  return {
    id := "sim_" ++ String.ofList ((host.sha256 id).toList.take 16)
    status := "simulated_complete"
    amount
    currency := transaction.get "currency" (.str "EUR") }

/-- `except Exception`. -/
def exceptException {σ α : Type} (handler : Py σ α) : Raised → Py σ α
  | .exception .. => handler
  | .cancelled => throw .cancelled

/-! ## The audit of a run -/

/-- `result.audit["entries"].append(receipt)`. -/
def PipelineResult.addEntry (receipt : Value) (result : PipelineResult) : PipelineResult :=
  { result with audit.entries := result.audit.entries ++ [receipt] }

/-- `result.audit["errors"].append(error)`. -/
def PipelineResult.addError (error : String) (result : PipelineResult) : PipelineResult :=
  { result with audit.errors := result.audit.errors ++ [error] }

/-- `audit.verify()` and what is written down about it, in `finish` and in
`apply_payment_control` alike. -/
def verifyAudit (host : Host) : Py PipelineResult Bool := do
  let verification ← raising (← ask .verify)
  modify fun result => { result with audit.verification := some verification }
  let checkedAt ← ask .now
  modify fun result => { result with audit.checkedAt := some (host.isoformat checkedAt) }
  let valid ← raising (verification.getItem "valid")
  let verified := valid.truthy && (← get).audit.errors.isEmpty
  modify fun result =>
    { result with audit.status := if verified then .verified else .failed }
  return verified

/-- The `try` of `apply_payment_control`. -/
def recordPolicy (host : Host) (transactionId : Value) (event : Dict) : Py PipelineResult Bool :=
  attempt
    (do
      let receipt ← raising (← ask (.append transactionId "payment.policy" event))
      modify (·.addEntry receipt)
      verifyAudit host)
    (exceptException do
      modify (·.addError "Payment policy audit could not be verified")
      modify fun result => { result with
        audit.status := if result.audit.status ≠ .failed then .unavailable else .failed }
      return false)

/-- What becomes of the policy's decision. -/
def enforced (decision : PaymentAction × List String) (verified : Bool) :
    PaymentAction × List String :=
  if decision.1 = .allow ∧ ¬ verified then
    (.hold, ["Payment policy could not be recorded and verified; execution was withheld."])
  else decision

/-- Blocked and held cases never call the simulator. -/
def execute (host : Host) (action : PaymentAction) (transaction : Dict) :
    Py PipelineResult (Option SimulationReceipt) :=
  if action = .allow then do
    ask (Op.simulateExecution transaction)
    return some (← raising (simulateExecution host transaction))
  else return none

def paymentEvent (transactionId accountId : Value) (timestamp : String)
    (decision : PaymentAction × List String) : Dict :=
  [("type", .str "agent_event"), ("stage", .str "payment"), ("transaction_id", transactionId),
    ("account_id", accountId), ("timestamp", .str timestamp),
    ("label", .str ("Payment policy: " ++ decision.1.value)),
    ("detail", .dict [("policy_version", .str POLICY_VERSION),
      ("action", .str decision.1.value), ("reasons", .strs decision.2),
      ("scope", .str "simulation_only")])]

def applyPaymentControl (host : Host) (audit : Bool) : Py PipelineResult Unit := do
  let result ← get
  let decision ← raising (paymentPolicy (result.asDict host))
  let timestamp := host.isoformat (← ask .now)
  let transactionId ← raising (result.transaction.getItem "id")
  let accountId ← raising (result.transaction.getItem "account_id")
  let event := paymentEvent transactionId accountId timestamp decision
  modify fun result => { result with events := result.events ++ [event] }
  let verified ← (if audit then recordPolicy host transactionId event else pure false)
  let final := enforced decision verified
  let execution ← execute host final.1 result.transaction
  let payment : Payment := {
    action := final.1
    policyAction := decision.1
    policyVersion := POLICY_VERSION
    reasons := final.2
    decidedAt := timestamp
    scope := "simulation_only"
    executionStatus := if execution.isSome then .simulatedComplete else .notExecuted
    simulationReceipt := execution }
  modify fun result => { result with payment := some payment }

/-! ## The policy on the models -/

/-- The severity the policy goes by. -/
def PipelineResult.severity (result : PipelineResult) : Option String :=
  match result.alert with
  | some alert => some alert.severity.value
  | none => result.rules.map (·.riskBand)

def PipelineResult.policy (result : PipelineResult) : PaymentAction :=
  if result.case.any (·.sanctionsHit) then .block
  else if result.severity = some "critical" then .block
  else if result.severity = some "high" then .hold
  else if result.audit.status ≠ .verified then .hold
  else if result.rules.isNone || result.prefilter.isNone then .hold
  else if result.alert.isSome || result.rules.any (25 ≤ ·.riskScore) ||
    result.prefilter.any (·.isAnomaly) || result.triage.any (·.escalate) ||
    result.case.any (·.recommendComplianceReview) then .hold
  else .allow

/-- The dump of a model that may be missing, with `or {}`. -/
def dumped {α : Type} (dump : α → Dict) (model : Option α) : Value :=
  .dict ((model.map dump).getD [])

theorem dump_or {α : Type} (dump : α → Dict) (model : Option α) :
    (Value.ofOption (.dict <| dump ·) model).or (.dict []) = dumped dump model := by
  cases model with
  | none => rfl
  | some a =>
    unfold Value.or
    split
    · rfl
    · rename_i falsy
      simp only [Value.ofOption, Value.truthy, Bool.not_eq_true', Bool.not_eq_false,
        List.isEmpty_iff] at falsy
      simp [dumped, falsy]

theorem policySeverity_asDict (host : Host) (result : PipelineResult) :
    ∃ severity, policySeverity (dumped RuleEngineVerdict.modelDump result.rules)
        (dumped (Alert.modelDump host) result.alert) = .ok severity ∧
      ∀ s, severity.eqStr s = decide (result.severity = some s) := by
  unfold PipelineResult.severity
  cases result.alert with
  | some alert =>
    have graded : (dumped (Alert.modelDump host) (some alert)).get "severity" =
      .ok (.str alert.severity.value) := rfl
    have truthy : (Value.str alert.severity.value).truthy = true := by
      cases alert.severity <;> rfl
    refine ⟨.str alert.severity.value, ?_, fun s => by simp [Value.eqStr]⟩
    unfold policySeverity
    rw [graded]
    show (if (Value.str alert.severity.value).truthy = true then _ else _) = _
    rw [if_pos truthy]
    rfl
  | none =>
    cases result.rules with
    | none => exact ⟨.none, rfl, fun s => rfl⟩
    | some rules => exact ⟨.str rules.riskBand, rfl, fun s => by simp [Value.eqStr]⟩

theorem either_ok (a b : Bool) : either (.ok a) (.ok b) = .ok (a || b) := by
  cases a <;> rfl

theorem riskSignal_asDict (host : Host) (result : PipelineResult)
    (rules : result.rules.isSome) (prefilter : result.prefilter.isSome) :
    riskSignal (result.asDict host) (dumped RuleEngineVerdict.modelDump result.rules)
        (dumped CaseFile.modelDump result.case) (dumped (Alert.modelDump host) result.alert) =
      .ok (result.alert.isSome || result.rules.any (25 ≤ ·.riskScore) ||
        result.prefilter.any (·.isAnomaly) || result.triage.any (·.escalate) ||
        result.case.any (·.recommendComplianceReview)) := by
  obtain ⟨r, hr⟩ := Option.isSome_iff_exists.mp rules
  obtain ⟨p, hp⟩ := Option.isSome_iff_exists.mp prefilter
  have alerted : (dumped (Alert.modelDump host) result.alert).truthy = result.alert.isSome := by
    cases result.alert <;> rfl
  have score : (do
      (← (dumped RuleEngineVerdict.modelDump result.rules).get "risk_score" (.int 0)).ge 25) =
        .ok (result.rules.any (25 ≤ ·.riskScore)) := by
    rw [hr]
    rfl
  have filtered : (result.asDict host).getItem "prefilter" =
      .ok (.ofOption (.dict ·.modelDump) result.prefilter) := rfl
  have anomaly : (do
      return (← (← (result.asDict host).getItem "prefilter").get "is_anomaly").truthy) =
        Except.ok (ε := Raised) (result.prefilter.any (·.isAnomaly)) := by
    rw [filtered, hp]
    rfl
  have triage : (result.asDict host).get "triage" =
    .ofOption (.dict ·.modelDump) result.triage := rfl
  have escalated : (do
      return (← (((result.asDict host).get "triage").or (.dict [])).get "escalate").truthy) =
        Except.ok (ε := Raised) (result.triage.any (·.escalate)) := by
    rw [triage, dump_or]
    cases result.triage <;> rfl
  have review : (do
      return (← (dumped CaseFile.modelDump result.case).get
        "recommend_compliance_review").truthy) =
        Except.ok (ε := Raised) (result.case.any (·.recommendComplianceReview)) := by
    cases result.case <;> rfl
  unfold riskSignal
  rw [alerted, score, anomaly, escalated, review]
  simp only [pure, Except.pure, either_ok, Bool.or_assoc]

/-- The policy depends on the models as `policy` says. -/
theorem paymentPolicy_asDict (host : Host) (result : PipelineResult) :
    ∃ reasons, paymentPolicy (result.asDict host) = .ok (result.policy, reasons) := by
  have rules : (result.asDict host).get "rules" =
    .ofOption (.dict ·.modelDump) result.rules := rfl
  have case : (result.asDict host).get "case" = .ofOption (.dict ·.modelDump) result.case := rfl
  have alert : (result.asDict host).get "alert" =
    .ofOption (.dict <| ·.modelDump host) result.alert := rfl
  have sanctions : ((dumped CaseFile.modelDump result.case).get "sanctions_hit") =
      .ok (.ofOption .bool (result.case.map (·.sanctionsHit))) := by
    cases result.case <;> rfl
  have hit : (Value.ofOption .bool (result.case.map (·.sanctionsHit))).truthy =
      result.case.any (·.sanctionsHit) := by
    cases result.case <;> rfl
  have status : ((result.asDict host).get "audit" (.dict [])).get "status" =
    .ok (.str result.audit.status.value) := rfl
  have verified : (!(Value.str result.audit.status.value).eqStr "verified") =
      decide (result.audit.status ≠ .verified) := by
    cases result.audit.status <;> rfl
  have present : (dumped RuleEngineVerdict.modelDump result.rules).truthy =
      result.rules.isSome := by
    cases result.rules <;> rfl
  have filtered : ((result.asDict host).get "prefilter").truthy = result.prefilter.isSome := by
    show (Value.ofOption (.dict ·.modelDump) result.prefilter).truthy = _
    cases result.prefilter <;> rfl
  obtain ⟨severity, hseverity, eqStr⟩ := policySeverity_asDict host result
  unfold paymentPolicy
  rw [rules, case, alert, dump_or, dump_or, dump_or]
  simp only [sanctions, hseverity, status, present, filtered, eqStr, hit, verified, bind,
    Except.bind, decide_eq_true_eq]
  unfold PipelineResult.policy
  by_cases sanctioned : result.case.any (·.sanctionsHit) = true
  · rw [if_pos sanctioned, if_pos sanctioned]
    exact ⟨_, rfl⟩
  rw [if_neg sanctioned, if_neg sanctioned]
  by_cases critical : result.severity = some "critical"
  · rw [if_pos critical, if_pos critical]
    exact ⟨_, rfl⟩
  rw [if_neg critical, if_neg critical]
  by_cases high : result.severity = some "high"
  · rw [if_pos high, if_pos high]
    exact ⟨_, rfl⟩
  rw [if_neg high, if_neg high]
  by_cases unverified : result.audit.status ≠ .verified
  · rw [if_pos unverified, if_pos unverified]
    exact ⟨_, rfl⟩
  rw [if_neg unverified, if_neg unverified]
  by_cases missing : (result.rules.isNone || result.prefilter.isNone) = true
  · rw [if_pos (by simpa using missing), if_pos missing]
    exact ⟨_, rfl⟩
  rw [if_neg (by simpa using missing), if_neg missing]
  simp only [Bool.or_eq_true, not_or, Option.isNone_iff_eq_none] at missing
  rw [riskSignal_asDict host result (Option.isSome_iff_ne_none.mpr missing.1)
    (Option.isSome_iff_ne_none.mpr missing.2)]
  dsimp only
  split
  · exact ⟨_, rfl⟩
  · exact ⟨_, rfl⟩

end VaultWatch.Agents
