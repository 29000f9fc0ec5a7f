import VaultWatch.Agents.Fusion
import VaultWatch.Agents.ReplayRun
import VaultWatch.Agents.WatchlistBlock

/-! # What replay mode decides about a payment

What the stages leave of what the policy reads, and the payment that follows from it. -/
namespace VaultWatch.Agents

open VaultWatch.Lib.Effects VaultWatch.Lib.Interleave

/-- What the end of the pipeline reads of the result. -/
structure Findings where
  transaction : Dict := []
  errors : List String := []
  rules : Option RuleEngineVerdict := none
  prefilter : Option PreFilterVerdict := none
  triage : Option TriageVerdict := none
  case : Option CaseFile := none
  alert : Option Alert := none

def PipelineResult.findings (s : PipelineResult) : Findings where
  transaction := s.transaction
  errors := s.audit.errors
  rules := s.rules
  prefilter := s.prefilter
  triage := s.triage
  case := s.case
  alert := s.alert

theorem Adds.findings {s t : PipelineResult} (added : Adds s t) : t.findings = s.findings := by
  obtain ⟨_, _, rfl⟩ := added
  rfl

namespace ReplayWorld

variable {w : ReplayWorld} {host : Host} {o : Orchestrator} {tx : Transaction}

/-! ## The stages -/

theorem openCase_assures (context : Option ScoringContext) (review : Option Dict) :
    Assures (w.Answers host) (Orchestrator.openCase host o tx context review) {} fun _ t =>
      t.findings = { transaction := tx.modelDump host } := by
  have found : Assures (w.Answers host) (Orchestrator.scoringContext tx context) {} fun _ t =>
      t = {} := by
    cases context with
    | some ctx => exact .pure rfl
    | none =>
      refine .askThen fun answer within => ?_
      obtain ⟨ctx, rfl⟩ := within
      exact .raising rfl
  refine .bind found fun ctx s fresh => ?_
  subst fresh
  exact .modifyThen (.bind (record_assures _ _ _) fun _ t added => .pure added.findings)

theorem scoreRules_assures (ctx : ScoringContext) (s : PipelineResult) :
    Assures (w.Answers host) (Orchestrator.scoreRules host o tx ctx) s fun rules t =>
      rules = w.rules ∧ t.findings = { s.findings with rules := some w.rules } := by
  refine .askThen fun answer within => ?_
  obtain rfl : answer = .ok w.rules := within
  exact .raisingThen rfl (.modifyThen (.bind (emitStage_assures _ _ _ _) fun _ t added =>
    .pure ⟨rfl, added.findings⟩))

theorem scorePrefilter_assures (ctx : ScoringContext) (s : PipelineResult) :
    Assures (w.Answers host) (Orchestrator.scorePrefilter host o tx ctx) s fun prefilter t =>
      prefilter = w.prefilter ∧ t.findings = { s.findings with prefilter := some w.prefilter } := by
  refine .askThen fun answer within => ?_
  obtain rfl : answer = .ok w.prefilter := within
  exact .raisingThen rfl (.modifyThen (.bind (emitStage_assures _ _ _ _) fun _ t added =>
    .pure ⟨rfl, added.findings⟩))

theorem triageCase_assures (lax : host.Lax) (ctx : ScoringContext) (s : PipelineResult) :
    Assures (w.Answers host) (Orchestrator.triageCase host o tx ctx w.rules w.prefilter) s
      fun triage t =>
        w.TriageOf triage ∧ t.findings = { s.findings with triage := some triage } := by
  refine .bind (triage_assures lax _ _ _) fun triage u ends => ?_
  obtain ⟨found, rfl⟩ := ends
  exact .modifyThen (.getThen (.bind (emitStage_assures _ _ _ _) fun _ t added =>
    .pure ⟨found, added.findings⟩))

theorem investigate_assures (lax : host.Lax)
    (roundTrip : ∀ v ∈ w.toolResults tx, w.loads (host.dumps v) = .ok v) {triage : TriageVerdict}
    (likely : 1 / 2 ≤ triage.fraudLikelihood) (s : PipelineResult) :
    Assures (w.Answers host) (Orchestrator.investigate host o tx triage w.rules) s fun case t =>
      w.CaseOf tx case ∧ t.findings = { s.findings with case := some case } := by
  refine .bind (.withLocal (investigator_assures lax roundTrip likely [])) fun out u ends => ?_
  obtain ⟨found, rfl⟩ := ends
  refine .modifyThen (.bind
    (.forM (I := fun v => v.findings = { u.findings with case := some out.1 }) ?_ _ rfl) ?_)
  · intro event v kept
    exact .getThen ((emitStage_assures _ _ _ v).mono fun _ t added => added.findings.trans kept)
  · intro _ v kept
    exact .bind (emitStage_assures _ _ _ v) fun _ t added =>
      .pure ⟨found, added.findings.trans kept⟩

theorem draftCompliance_assures (lax : host.Lax) (case : CaseFile) (s : PipelineResult) :
    Assures (w.Answers host) (Orchestrator.draftCompliance host o tx case) s fun _ t =>
      t.findings = s.findings := by
  unfold Orchestrator.draftCompliance
  split
  · refine .bind (compliance_assures lax _ case s) fun report u same => ?_
    subst same
    exact .modifyThen ((emitStage_assures _ _ _ _).mono fun _ t added => added.findings)
  · exact .pure rfl

theorem fuse_assures (s : PipelineResult) :
    Assures (w.Answers host) (Orchestrator.fuse host o tx) s fun event t =>
      event = recentSecurityEvent w.read.1 w.read.2 ∧ t.findings = s.findings := by
  refine .askThen fun read within => ?_
  obtain rfl : read = w.read := within
  have emitted : ∀ event, Assures (w.Answers host) (Orchestrator.emitFusion host o tx event) s
      fun _ t => t.findings = s.findings := by
    intro event
    cases event with
    | none => exact .pure rfl
    | some event =>
      exact .modifyThen ((emitStage_assures _ _ _ _).mono fun _ t added => added.findings)
  exact .bind (emitted _) fun _ t kept => .pure ⟨rfl, kept⟩

theorem raiseAlert_assures (case : CaseFile) (event : Option SecurityEvent) (s : PipelineResult) :
    Assures (w.Answers host) (Orchestrator.raiseAlert host o tx case event) s fun _ t =>
      ∃ alert, alert.severity = severityFor case.riskScore event.isSome ∧
        t.findings = { s.findings with alert := some alert } :=
  .askThen fun _ _ => .modifyThen ((emit_assures _ _).mono fun _ _ added =>
    ⟨_, rfl, added.findings⟩)

theorem verifyCase_assures (audited : o.audit = true) {s : PipelineResult}
    (clean : s.audit.errors = []) :
    Assures (w.Answers host) (Orchestrator.verifyCase host o) s fun _ t =>
      t.findings = s.findings ∧ t.audit.status = .verified := by
  unfold Orchestrator.verifyCase
  rw [if_pos audited]
  refine .attempt (.bind (verifyAudit_assures clean) fun _ t ends => .pure ?_)
  obtain ⟨_, audit, rfl, verified, errors⟩ := ends
  refine ⟨?_, verified⟩
  unfold PipelineResult.findings
  rw [errors, clean]

/-- The payment that the policy gives the findings `f` once the audit is verified. -/
def Paid (f : Findings) (t : PipelineResult) : Prop :=
  ∃ payment, ∃ u : PipelineResult, t.payment = some payment ∧ payment.action = u.policy ∧
    u.findings = f ∧ u.audit.status = .verified

theorem finish_assures (audited : o.audit = true) {s : PipelineResult}
    (owner : s.findings.transaction = tx.modelDump host) (clean : s.findings.errors = []) :
    Assures (w.Answers host) (Orchestrator.finish host o tx) s fun _ t => Paid s.findings t := by
  refine .getThen (.bind (record_assures _ _ s) fun _ t added => ?_)
  have kept := added.findings
  refine .bind (verifyCase_assures audited ((congrArg Findings.errors kept).trans clean))
    fun _ u ends => ?_
  have same := ends.1.trans kept
  rw [audited]
  refine (applyPaymentControl_assures ((congrArg Findings.transaction same).trans owner)
    ((congrArg Findings.errors same).trans clean)).mono fun _ v paid => ?_
  obtain ⟨payment, stored, action⟩ := paid
  exact ⟨payment, u, stored, action, same, ends.2⟩

theorem close_assures (audited : o.audit = true) (label : String) {s : PipelineResult}
    (owner : s.findings.transaction = tx.modelDump host) (clean : s.findings.errors = []) :
    Assures (w.Answers host) (Orchestrator.close host o tx label) s fun _ t =>
      Paid s.findings t := by
  refine .modifyThen (.bind (emitStage_assures _ _ _ _) fun _ t added => ?_)
  have kept : t.findings = s.findings := added.findings
  rw [← kept] at owner clean ⊢
  exact finish_assures audited owner clean

theorem escalate_assures (lax : host.Lax)
    (roundTrip : ∀ v ∈ w.toolResults tx, w.loads (host.dumps v) = .ok v)
    (audited : o.audit = true) {triage : TriageVerdict} (likely : 1 / 2 ≤ triage.fraudLikelihood)
    {s : PipelineResult} (owner : s.findings.transaction = tx.modelDump host)
    (clean : s.findings.errors = []) :
    Assures (w.Answers host) (Orchestrator.escalate host o tx triage w.rules) s fun _ t =>
      ∃ case alert, w.CaseOf tx case ∧ alert.severity = severityFor case.riskScore
        (recentSecurityEvent w.read.1 w.read.2).isSome ∧
        Paid { s.findings with case := some case, alert := some alert } t := by
  refine .bind (investigate_assures lax roundTrip likely s) fun case t₁ ends => ?_
  obtain ⟨found, cased⟩ := ends
  refine .bind (draftCompliance_assures lax case t₁) fun _ t₂ drafted => ?_
  refine .bind (fuse_assures t₂) fun event t₃ ends => ?_
  obtain ⟨rfl, fused⟩ := ends
  refine .bind (raiseAlert_assures case _ t₃) fun _ t₄ ends => ?_
  obtain ⟨alert, severity, alerted⟩ := ends
  rw [fused, drafted, cased] at alerted
  refine (finish_assures audited ((congrArg Findings.transaction alerted).trans owner)
    ((congrArg Findings.errors alerted).trans clean)).mono fun _ t paid => ?_
  rw [alerted] at paid
  exact ⟨case, alert, found, severity, paid⟩

/-! ## The decision -/

/-- What blocks a payment that was investigated. -/
def Blocks (w : ReplayWorld) (tx : Transaction) : Prop :=
  hit tx = true ∨ (∃ e ∈ w.read.2, w.read.1 < e.1 + SECURITY_EVENT_WINDOW) ∧ 50 ≤ w.score tx

instance (w : ReplayWorld) (tx : Transaction) : Decidable (w.Blocks tx) :=
  inferInstanceAs (Decidable (_ ∨ _))

def action (w : ReplayWorld) (tx : Transaction) : PaymentAction :=
  if w.Closes then .allow else if w.Suspicious ∧ w.Blocks tx then .block else .hold

section
variable (banded : w.verdict.riskBand = .fromScore w.verdict.riskScore)
include banded

theorem band_low (low : w.rules.riskScore < 25) : w.rules.riskBand = "low" := by
  have small : w.verdict.riskScore ≤ 24 := by
    have : (w.verdict.riskScore : Int) < 25 := low
    omega
  show w.verdict.riskBand.value = "low"
  rw [banded]
  unfold Engine.RiskBand.fromScore
  rw [if_pos small]
  rfl

theorem band_not_critical (calm : w.rules.riskScore < 50) : w.rules.riskBand ≠ "critical" := by
  have small : w.verdict.riskScore ≤ 54 := by
    have : (w.verdict.riskScore : Int) < 50 := calm
    omega
  show w.verdict.riskBand.value ≠ "critical"
  rw [banded]
  unfold Engine.RiskBand.fromScore
  rw [if_pos small]
  split <;> decide

end

/-- Both verdicts are in. -/
structure Concluded (w : ReplayWorld) (f : Findings) : Prop where
  rules : f.rules = some w.rules
  prefilter : f.prefilter = some w.prefilter

section
variable {u : PipelineResult} (concluded : w.Concluded u.findings)
include concluded

theorem severity_banded (noAlert : u.findings.alert = none) :
    u.severity = some w.rules.riskBand := by
  unfold PipelineResult.severity
  rw [show u.alert = none from noAlert, show u.rules = some w.rules from concluded.rules]
  rfl

/-- A payment is allowed only when nothing stands out at stage 0. -/
theorem policy_allow_closes (allowed : u.policy = .allow) : w.Closes := by
  have cleared := ((policy_allow_iff u).mp allowed).2
  have low := cleared.lowScore
  have normal := cleared.normal
  rw [show u.rules = some w.rules from concluded.rules] at low
  rw [show u.prefilter = some w.prefilter from concluded.prefilter] at normal
  exact ⟨by simpa using low, by simpa using normal⟩

theorem policy_closed (banded : w.verdict.riskBand = .fromScore w.verdict.riskScore)
    (verified : u.audit.status = .verified) (noTriage : u.findings.triage = none)
    (noCase : u.findings.case = none) (noAlert : u.findings.alert = none) (closes : w.Closes) :
    u.policy = .allow := by
  have severity := severity_banded concluded noAlert
  rw [band_low banded closes.1] at severity
  have rules : u.rules = some w.rules := concluded.rules
  have prefilter : u.prefilter = some w.prefilter := concluded.prefilter
  have triage : u.triage = none := noTriage
  have case : u.case = none := noCase
  refine (policy_allow_iff u).mpr ⟨verified, ?_⟩
  exact {
    notSanctioned := by rw [case]; rfl
    notCritical := by rw [severity]; decide
    notHigh := by rw [severity]; decide
    checked := by rw [rules, prefilter]; exact ⟨Option.some_ne_none _, Option.some_ne_none _⟩
    noAlert
    lowScore := by rw [rules]; exact decide_eq_false (not_le.mpr closes.1)
    normal := by rw [prefilter]; exact eq_false_of_ne_true closes.2
    notEscalated := by rw [triage]; rfl
    noReview := by rw [case]; rfl }

theorem policy_unescalated (banded : w.verdict.riskBand = .fromScore w.verdict.riskScore)
    (noCase : u.findings.case = none) (noAlert : u.findings.alert = none) (stays : ¬ w.Closes)
    (calm : ¬ w.Suspicious) : u.policy = .hold := by
  have notBlocked : u.policy ≠ .block := by
    intro blocked
    rcases (policy_block_iff u).mp blocked with sanctioned | critical
    · rw [show u.case = none from noCase] at sanctioned
      cases sanctioned
    · rw [severity_banded concluded noAlert] at critical
      exact band_not_critical banded (not_le.mp fun high => calm (.inl high))
        (Option.some.inj critical)
  cases policy : u.policy with
  | allow => exact absurd (policy_allow_closes concluded policy) stays
  | hold => rfl
  | block => exact absurd policy notBlocked

theorem policy_investigated {case : CaseFile} {alert : Alert} (found : w.CaseOf tx case)
    (cased : u.findings.case = some case) (alerted : u.findings.alert = some alert)
    (severity : alert.severity = severityFor case.riskScore
      (recentSecurityEvent w.read.1 w.read.2).isSome) (stays : ¬ w.Closes) :
    u.policy = if w.Blocks tx then .block else .hold := by
  have blocks : u.policy = .block ↔ w.Blocks tx := by
    have raised : u.severity = some alert.severity.value := by
      unfold PipelineResult.severity
      rw [show u.alert = some alert from alerted]
    rw [policy_block_iff, raised, show u.case = some case from cased, Option.some_inj, severity,
      severityFor_critical_iff, recentSecurityEvent_isSome_iff, found.score]
    exact or_congr (by rw [← found.hit]; rfl) Iff.rfl
  split
  · rename_i blocked
    exact blocks.mpr blocked
  · rename_i kept
    cases policy : u.policy with
    | allow => exact absurd (policy_allow_closes concluded policy) stays
    | hold => rfl
    | block => exact absurd (blocks.mp policy) kept

end

/-! ## The outcome -/

section
variable (lax : host.Lax) (banded : w.verdict.riskBand = .fromScore w.verdict.riskScore)
  (audited : o.audit = true)
include lax banded audited

/-- From triage on. -/
theorem triaged_assures (roundTrip : ∀ v ∈ w.toolResults tx, w.loads (host.dumps v) = .ok v)
    {triage : TriageVerdict} (verdict : w.TriageOf triage) (stays : ¬ w.Closes) {s : PipelineResult}
    (concluded : w.Concluded s.findings) (owner : s.findings.transaction = tx.modelDump host)
    (clean : s.findings.errors = []) (noCase : s.findings.case = none)
    (noAlert : s.findings.alert = none) (label : String) :
    Assures (w.Answers host) (if ¬ triage.escalate = true then Orchestrator.close host o tx label
      else Orchestrator.escalate host o tx triage w.rules) s fun _ t =>
      ∃ payment, t.payment = some payment ∧
        payment.action = if w.Suspicious ∧ w.Blocks tx then .block else .hold := by
  rw [verdict.escalate]
  by_cases suspicious : w.Suspicious
  · rw [if_neg (not_not.mpr (decide_eq_true suspicious))]
    refine (escalate_assures lax roundTrip audited (verdict.likely suspicious) owner clean).mono
      fun _ t ends => ?_
    obtain ⟨case, alert, cased, severity, payment, u, stored, action, found, verified⟩ := ends
    have concluded' : w.Concluded u.findings := by
      rw [found]
      exact ⟨concluded.rules, concluded.prefilter⟩
    have decided := policy_investigated (u := u) concluded' cased (by rw [found]) (by rw [found])
      severity stays
    refine ⟨payment, stored, ?_⟩
    rw [action, decided]
    exact if_congr (and_iff_right suspicious).symm rfl rfl
  · rw [if_pos (fun yes => suspicious (of_decide_eq_true yes))]
    refine (close_assures audited label owner clean).mono fun _ t paid => ?_
    obtain ⟨payment, u, stored, action, found, verified⟩ := paid
    rw [← found] at concluded noCase noAlert
    refine ⟨payment, stored, ?_⟩
    rw [action, policy_unescalated concluded banded noCase noAlert stays suspicious,
      if_neg fun both => suspicious both.1]

theorem stages_assures (roundTrip : ∀ v ∈ w.toolResults tx, w.loads (host.dumps v) = .ok v)
    (context : Option ScoringContext) (review : Option Dict) :
    Assures (w.Answers host) (Orchestrator.stages host o tx context review) {} fun _ t =>
      ∃ payment, t.payment = some payment ∧ payment.action = w.action tx := by
  refine .bind (openCase_assures context review) fun ctx s₁ opened => ?_
  refine .bind (scoreRules_assures ctx s₁) fun rules s₂ ends => ?_
  obtain ⟨rfl, ruled⟩ := ends
  refine .bind (scorePrefilter_assures ctx s₂) fun prefilter s₃ ends => ?_
  obtain ⟨rfl, filtered⟩ := ends
  rw [ruled, opened] at filtered
  have owner := congrArg Findings.transaction filtered
  have clean := congrArg Findings.errors filtered
  unfold action
  by_cases closes : w.Closes
  · rw [if_pos (show w.rules.riskScore < RULES_ESCALATION_THRESHOLD ∧
      ¬ w.prefilter.isAnomaly = true from closes), if_pos closes]
    refine (close_assures audited _ owner clean).mono fun _ t paid => ?_
    obtain ⟨payment, u, stored, action, found, verified⟩ := paid
    rw [filtered] at found
    have concluded : w.Concluded u.findings := by
      rw [found]
      exact ⟨rfl, rfl⟩
    refine ⟨payment, stored, ?_⟩
    rw [action]
    exact policy_closed concluded banded verified (by rw [found]) (by rw [found]) (by rw [found])
      closes
  · rw [if_neg (show ¬ (w.rules.riskScore < RULES_ESCALATION_THRESHOLD ∧
      ¬ w.prefilter.isAnomaly = true) from closes), if_neg closes]
    refine .bind (triageCase_assures lax ctx s₃) fun triage s₄ ends => ?_
    obtain ⟨verdict, triaged⟩ := ends
    rw [filtered] at triaged
    refine triaged_assures lax banded audited roundTrip verdict closes ?_ ?_ ?_ ?_ ?_ _
    · rw [triaged]
      exact ⟨rfl, rfl⟩
    · rw [triaged]
    · rw [triaged]
    · rw [triaged]
    · rw [triaged]

end

end ReplayWorld

/-- In replay mode the payment of a run is allowed exactly when nothing stands out
at stage 0, blocked exactly when it was escalated and the watchlist, or a recent
security event together with the case, calls for it, and held otherwise. -/
theorem replay_outcome (w : ReplayWorld) (host : Host) (o : Orchestrator) (tx : Transaction)
    (context : Option ScoringContext) (review : Option Dict) (lax : host.Lax)
    (roundTrip : ∀ v ∈ w.toolResults tx, w.loads (host.dumps v) = .ok v)
    (banded : w.verdict.riskBand = .fromScore w.verdict.riskScore) (audited : o.audit = true)
    (h : History) (r : Except Raised PipelineResult)
    (run : (Orchestrator.processTransaction host o tx context review).Runs h r)
    (within : ∀ d ∈ h, w.Answers host d.1 d.2) :
    ∃ result payment, r = .ok result ∧ result.payment = some payment ∧
      (payment.action = .allow ↔ w.Closes) ∧
      (payment.action = .block ↔ ¬ w.Closes ∧ w.Suspicious ∧ w.Blocks tx) ∧
      (payment.action = .hold ↔ ¬ w.Closes ∧ ¬ (w.Suspicious ∧ w.Blocks tx)) := by
  obtain ⟨result, rfl, payment, stored, action⟩ :=
    (onNew_assured (ReplayWorld.stages_assures lax banded audited roundTrip context review)).runs
      run within
  refine ⟨result, payment, rfl, stored, ?_⟩
  rw [action]
  unfold ReplayWorld.action
  by_cases closes : w.Closes
  · rw [if_pos closes]
    simp [closes]
  · rw [if_neg closes]
    by_cases blocks : w.Suspicious ∧ w.Blocks tx
    · rw [if_pos blocks]
      simp [closes, blocks]
    · rw [if_neg blocks]
      simp only [closes, blocks, not_false_eq_true, and_self, and_false, reduceCtorEq]

/-! A payment after an impossible travel, with a security event a second before. -/

def historyText : String :=
  "\x7b\"history\": [\x7b\"id\": \"tx_hist_acct_gate_0\", \"amount\": 40.0, " ++
    "\"beneficiary_id\": \"ben_1\", \"device_id\": \"dev_1\"\x7d]\x7d"

def graphText : String :=
  "\x7b\"account_id\": \"acct_gate\", \"linked_accounts\": [\"acct_51234\"], " ++
    "\"shared_device_count\": 1\x7d"

def screenText : String :=
  "\x7b\"query\": \"Unspecified demo beneficiary\", \"hit\": false, " ++
    "\"list\": \"vaultwatch-synthetic-watchlist-v1\"\x7d"

def travelHistory : List HistoryRow := [⟨"tx_hist_acct_gate_0", 40, "ben_1", "dev_1"⟩]

def travelGraph : EntityGraph := ⟨"acct_gate", ["acct_51234"], 1⟩

/-- A host as the Python one on the run below. -/
def replayHost : Host :=
  { sampleHost with
    str
      | .list _ => "['impossible_travel', 'new_device']"
      | .dict fields =>
        if (fields.lookup "name").isSome then "\x7b'name': 'Unspecified demo beneficiary'\x7d"
        else "\x7b'account_id': 'acct_gate'\x7d"
      | v => sampleHost.str v
    dumps
      | .dict fields =>
        if (fields.lookup "history").isSome then historyText
        else if (fields.lookup "query").isSome then screenText
        else graphText
      | v => sampleHost.dumps v }

def travelWorld : ReplayWorld where
  loads text :=
    if text = historyText then
      .ok (.dict [("history", .list (travelHistory.map (.dict ·.asDict)))])
    else if text = graphText then .ok (.dict travelGraph.asDict)
    else if text = screenText then
      .ok (.dict (ReplayWorld.screening "Unspecified demo beneficiary"))
    else .error (.exception "JSONDecodeError")
  verdict := {
    transactionId := "tx_gate"
    riskScore := 50
    riskBand := .medium
    triggeredRules := [
      ⟨"impossible_travel", 40, "1344km in 0.50h implies 2688km/h (threshold 900km/h)"⟩,
      ⟨"new_device", 10, "device dev_9 has not been seen on this account before"⟩] }
  prefilter := { anomalyScore := 0, isAnomaly := false }
  history := travelHistory
  graph := travelGraph
  read := (1000000, [(0, { type := "impossible_travel", severity := "high" })])

def travelAnswers (past : History) : (o : Op) → o.Res
  | .complete request =>
    ReplayProvider.complete travelWorld.loads replayHost ("0000000" ++ toString past.length) request
  | .score .. => .ok travelWorld.rules
  | .prefilter .. => .ok travelWorld.prefilter
  | .recentSecurityEvents _ => travelWorld.read
  | .generateTransactionHistory _ => .ok (.list (travelHistory.map (.dict ·.asDict)))
  | .generateEntityGraph _ => .ok (.dict travelGraph.asDict)
  | o => clearAnswers past o

def replayOrchestrator : Orchestrator :=
  { sampleOrchestrator with isLive := false }

def travelRun : History × Except Raised PipelineResult :=
  (replayOrchestrator.processTransaction replayHost sampleTransaction none none).play
    travelAnswers []

theorem replayHost_lax : replayHost.Lax := by
  constructor <;> intro _ <;> rfl

theorem travel_roundTrip (tx : Transaction)
    (unnamed : ReplayWorld.screenedName tx = "Unspecified demo beneficiary") :
    ∀ v ∈ travelWorld.toolResults tx, travelWorld.loads (replayHost.dumps v) = .ok v := by
  intro v mem
  rw [ReplayWorld.toolResults, unnamed] at mem
  obtain rfl | rfl | rfl : v = _ ∨ v = _ ∨ v = _ := by simpa using mem
  · rfl
  · rfl
  · rfl

theorem travelAnswers_within (past : History) (op : Op) :
    travelWorld.Answers replayHost op (travelAnswers past op) := by
  cases op with
  | buildScoringContext accountId amount => exact ⟨_, rfl⟩
  | append transactionId eventType payload => exact ⟨_, rfl⟩
  | verify => exact ⟨_, _, rfl, rfl, rfl⟩
  | complete request => exact ⟨_, rfl⟩
  | score tx ctx => rfl
  | prefilter tx ctx => rfl
  | send event => rfl
  | now => trivial
  | recentSecurityEvents accountId => rfl
  | generateTransactionHistory accountId => rfl
  | generateEntityGraph accountId => rfl
  | checkSanctionsList name => trivial
  | simulateExecution transaction => trivial

/-- Every answer of a played run is within the world. -/
theorem travel_within {α : Type} (p : Prog Op Op.Res α) :
    ∀ d ∈ (p.play travelAnswers []).1, travelWorld.Answers replayHost d.1 d.2 := by
  intro d mem
  obtain ⟨past, answered⟩ := Prog.play_answers travelAnswers [] _ mem
  rw [answered]
  exact travelAnswers_within past d.1

theorem replay_outcome_travel :
    ∃ result payment, travelRun.2 = .ok result ∧ result.payment = some payment ∧
      payment.action = .block := by
  obtain ⟨result, payment, ended, paid, _, blocks, _⟩ := replay_outcome travelWorld replayHost
    replayOrchestrator sampleTransaction none none replayHost_lax (travel_roundTrip _ rfl) rfl rfl
    travelRun.1 travelRun.2 (Prog.play_runs travelAnswers [] _) (travel_within _)
  refine ⟨result, payment, ended, paid, blocks.mpr ⟨?_, .inl (by decide), .inr ⟨?_, ?_⟩⟩⟩
  · exact fun closes => absurd closes.1 (by decide)
  · exact ⟨_, .head _, by decide⟩
  · decide +kernel

end VaultWatch.Agents
