import VaultWatch.Agents.Exits
import Mathlib.Tactic.SplitIfs

/-! When a payment executes. `finish` verifies the audit, lets the policy decide,
records the decision and verifies again; the simulator runs only when all of
that succeeded for a run the policy allows. -/
namespace VaultWatch.Agents

open VaultWatch.Lib.Effects VaultWatch.Lib.Interleave

/-! ## Verifying -/

/-- `h` calls `verify` once, with this answer, and appends and simulates nothing. -/
structure VerifiesOnce (h : History) (answer : Except Raised Value) : Prop where
  appends : appendAnswers h = []
  verifies : verifyAnswers h = [answer]
  simulations : simulations h = []

variable {host : Host} {o : Orchestrator} {tx : Transaction}

theorem verifyAudit_ends {s t : PipelineResult} {h : History} {r : Except Raised Bool}
    (ends : Ends (verifyAudit host) s h r t) :
    ∃ audit answer, t = { s with audit } ∧ VerifiesOnce h answer ∧
      audit.errors = s.audit.errors ∧
      ((∃ verified, r = .ok verified ∧ audit.status = (if verified then .verified else .failed) ∧
          (verified = true ↔ s.audit.errors = [] ∧ ReturnedValid answer)) ∨
        ∃ e, r = .error e ∧ audit.status = s.audit.status ∧ ¬ ReturnedValid answer) := by
  unfold verifyAudit at ends
  obtain ⟨answer, _, rfl, asked⟩ := ends.askThen
  obtain ⟨e, rfl, rfl, rfl, rfl⟩ | ⟨verification, rfl, rest⟩ := asked.raisingThen
  · refine ⟨t.audit, .error e, rfl, ⟨rfl, rfl, rfl⟩, rfl, .inr ⟨e, rfl, rfl, ?_⟩⟩
    intro ⟨_, _, same, _⟩
    cases same
  obtain ⟨checkedAt, _, rfl, checked⟩ := rest.modifyThen.askThen
  obtain ⟨e, missing, rfl, rfl, rfl⟩ | ⟨valid, found, last⟩ := checked.modifyThen.raisingThen
  · refine ⟨_, .ok verification, rfl, ⟨rfl, rfl, rfl⟩, rfl, .inr ⟨e, rfl, rfl, ?_⟩⟩
    intro ⟨_, _, same, found, _⟩
    cases same
    rw [missing] at found
    cases found
  obtain ⟨rfl, rfl, rfl⟩ := last.getThen.modifyThen.pure
  refine ⟨_, .ok verification, rfl, ⟨rfl, rfl, rfl⟩, rfl, .inl ⟨_, rfl, rfl, ?_⟩⟩
  show (valid.truthy && s.audit.errors.isEmpty) = true ↔ _
  rw [Bool.and_eq_true, List.isEmpty_iff, and_comm]
  refine and_congr_right fun _ => ⟨fun truthy => ⟨_, valid, rfl, found, truthy⟩, ?_⟩
  intro ⟨_, _, same, found', truthy⟩
  cases same
  rw [found] at found'
  cases found'
  exact truthy

theorem verifyCase_returns (configured : o.audit = true) {s t : PipelineResult} {h : History}
    (returns : Returns (Orchestrator.verifyCase host o) s h () t) :
    ∃ audit answer, t = { s with audit } ∧ VerifiesOnce h answer ∧
      (audit.status = .verified ↔ s.audit.errors = [] ∧ ReturnedValid answer) ∧
      (audit.status = .verified → audit.errors = []) := by
  unfold Orchestrator.verifyCase at returns
  rw [if_pos configured] at returns
  rcases returns.attempt with done | ⟨e, u, h₁, h₂, rfl, failed, handled⟩
  · obtain ⟨verified, _, h₁, _, rfl, ran, rest⟩ := done.bind
    obtain ⟨rfl, _, rfl⟩ := rest.pure
    obtain ⟨audit, answer, rfl, once, errors, ended⟩ := verifyAudit_ends ran
    obtain ⟨_, same, status, valid⟩ | ⟨_, same, _⟩ := ended
    · cases same
      have verified_iff : audit.status = .verified ↔ verified = true := by
        rw [status]
        cases verified <;> simp
      rw [List.append_nil]
      refine ⟨audit, answer, rfl, once, verified_iff.trans valid, ?_⟩
      intro ok
      rw [errors]
      exact (valid.mp (verified_iff.mp ok)).1
    · cases same
  · obtain ⟨rfl, rfl⟩ := (exceptException_returns handled).modify
    rw [List.append_nil]
    obtain ⟨_, _, ran⟩ | ⟨_, _, _, _, _, _, returned⟩ := failed.bind
    · obtain ⟨audit, answer, rfl, once, _, ended⟩ := verifyAudit_ends ran
      obtain ⟨_, same, _⟩ | ⟨_, _, _, invalid⟩ := ended
      · cases same
      · refine ⟨_, answer, rfl, once, ⟨?_, fun ok => absurd ok.2 invalid⟩, ?_⟩
        · intro same
          cases same
        · intro same
          cases same
    · obtain ⟨_, same, _⟩ := returned.pure
      cases same

/-! ## Enforcing the policy -/

/-- The policy's decision was recorded and verified. -/
def PolicyVerified (audit : AuditTrail) (h : History) : Prop :=
  audit.errors = [] ∧ AppendsOk h ∧ ∃ answer, verifyAnswers h = [answer] ∧ ReturnedValid answer

theorem VerifiesOnce.policyVerified_iff {audit : AuditTrail} {h : History}
    {answer : Except Raised Value} (once : VerifiesOnce h answer) (transactionId : Value)
    (event : Dict) (receipt : Value) :
    PolicyVerified audit (⟨.append transactionId "payment.policy" event, .ok receipt⟩ :: h) ↔
      audit.errors = [] ∧ ReturnedValid answer := by
  have appended : AppendsOk
      (⟨.append transactionId "payment.policy" event, .ok receipt⟩ :: h) := by
    show ∀ a ∈ Except.ok receipt :: appendAnswers h, a.isOk = true
    rw [once.appends]
    intro a mem
    rw [List.mem_singleton.mp mem]
    rfl
  refine and_congr_right fun _ => ?_
  show AppendsOk _ ∧ (∃ answer, verifyAnswers h = [answer] ∧ ReturnedValid answer) ↔ _
  rw [once.verifies]
  constructor
  · intro ⟨_, _, same, valid⟩
    cases same
    exact valid
  · intro valid
    exact ⟨appended, answer, rfl, valid⟩

theorem recordPolicy_returns {transactionId : Value} {event : Dict} {s t : PipelineResult}
    {h : History} {verified : Bool}
    (returns : Returns (recordPolicy host transactionId event) s h verified t) :
    ∃ audit, t = { s with audit } ∧ simulations h = [] ∧
      (verified = true ↔ PolicyVerified s.audit h) := by
  unfold recordPolicy at returns
  rcases returns.attempt with done | ⟨e, u, h₁, h₂, rfl, failed, handled⟩
  · obtain ⟨_, receipt, _, rfl, rfl, rest⟩ := done.request
    obtain ⟨audit, answer, rfl, once, _, ended⟩ := verifyAudit_ends rest.modifyThen
    obtain ⟨_, same, _, valid⟩ | ⟨_, same, _⟩ := ended
    · cases same
      exact ⟨audit, rfl, once.simulations,
        valid.trans (once.policyVerified_iff transactionId event receipt).symm⟩
    · cases same
  · obtain ⟨rfl, rfl, rfl⟩ := (exceptException_returns handled).modifyThen.modifyThen.pure
    rw [List.append_nil]
    obtain ⟨answer, _, rfl, asked⟩ := failed.askThen
    obtain ⟨_, rfl, _, rfl, rfl⟩ | ⟨receipt, rfl, rest⟩ := asked.raisingThen
    · refine ⟨_, rfl, rfl, ⟨nofun, ?_⟩⟩
      intro ⟨_, appended, _⟩
      cases appended _ (List.mem_singleton.mpr rfl)
    · obtain ⟨audit, answer, rfl, once, _, ended⟩ := verifyAudit_ends rest.modifyThen
      obtain ⟨_, same, _⟩ | ⟨_, _, _, invalid⟩ := ended
      · cases same
      · refine ⟨_, rfl, once.simulations, ⟨nofun, ?_⟩⟩
        intro verified
        exact absurd ((once.policyVerified_iff transactionId event receipt).mp verified).2 invalid

theorem execute_returns {action : PaymentAction} {transaction : Dict} {s t : PipelineResult}
    {h : History} {execution : Option SimulationReceipt}
    (returns : Returns (execute host action transaction) s h execution t) :
    t = s ∧ appendAnswers h = [] ∧ verifyAnswers h = [] ∧
      ((action = .allow ∧ execution.isSome ∧ simulations h = [transaction]) ∨
        (action ≠ .allow ∧ execution = none ∧ simulations h = [])) := by
  unfold execute at returns
  split at returns
  · rename_i allowed
    obtain ⟨_, _, rfl, rest⟩ := returns.askThen
    obtain ⟨receipt, _, _, _, rfl, raised, last⟩ := rest.bind
    obtain ⟨rfl, _, rfl⟩ := raised.raising
    obtain ⟨rfl, rfl, rfl⟩ := last.pure
    exact ⟨rfl, rfl, rfl, .inl ⟨allowed, rfl, rfl⟩⟩
  · rename_i withheld
    obtain ⟨rfl, rfl, rfl⟩ := returns.pure
    exact ⟨rfl, rfl, rfl, .inr ⟨withheld, rfl, rfl⟩⟩

/-- The payment carries a receipt, and the simulator was called exactly once. -/
structure Executed (payment : Payment) (h : History) : Prop where
  action : payment.action = .allow
  status : payment.executionStatus = .simulatedComplete
  receipt : payment.simulationReceipt.isSome
  once : (simulations h).length = 1

/-- The payment is held or blocked, and the simulator was never called. -/
structure Withheld (payment : Payment) (h : History) : Prop where
  action : payment.action = .hold ∨ payment.action = .block
  status : payment.executionStatus = .notExecuted
  receipt : payment.simulationReceipt = none
  never : simulations h = []

theorem policyVerified_congr {audit : AuditTrail} {h k : History}
    (appends : appendAnswers h = appendAnswers k) (verifies : verifyAnswers h = verifyAnswers k) :
    PolicyVerified audit h ↔ PolicyVerified audit k := by
  unfold PolicyVerified AppendsOk
  rw [appends, verifies]

/-- The policy's audit, when one is configured. -/
theorem policyAudit_returns {audit : Bool} {transactionId : Value} {event : Dict}
    {s t : PipelineResult} {h : History} {verified : Bool}
    (returns : Returns (if audit then recordPolicy host transactionId event else pure false)
      s h verified t) :
    ∃ trail, t = { s with audit := trail } ∧ simulations h = [] ∧
      (verified = true ↔ audit = true ∧ PolicyVerified s.audit h) := by
  split at returns
  · rename_i configured
    obtain ⟨trail, rfl, unsimulated, valid⟩ := recordPolicy_returns returns
    exact ⟨trail, rfl, unsimulated, valid.trans (by simp [configured])⟩
  · rename_i missing
    obtain ⟨rfl, rfl, rfl⟩ := returns.pure
    exact ⟨t.audit, rfl, rfl, by simp [missing]⟩

theorem enforced_allow_iff (decision : PaymentAction × List String) (verified : Bool) :
    (enforced decision verified).1 = .allow ↔ decision.1 = .allow ∧ verified = true := by
  unfold enforced
  split
  · rename_i withheld
    exact ⟨nofun, fun allowed => absurd allowed.2 withheld.2⟩
  · rename_i kept
    exact ⟨fun allowed => ⟨allowed, by simpa [allowed] using kept⟩, And.left⟩

theorem enforced_block_iff (decision : PaymentAction × List String) (verified : Bool) :
    (enforced decision verified).1 = .block ↔ decision.1 = .block := by
  unfold enforced
  split
  · rename_i withheld
    rw [withheld.1]
    exact ⟨nofun, nofun⟩
  · exact Iff.rfl

theorem Executed.transfer {payment : Payment} {h k : History} (executed : Executed payment h)
    (calls : simulations k = simulations h) : Executed payment k :=
  ⟨executed.action, executed.status, executed.receipt, by rw [calls, executed.once]⟩

theorem Withheld.transfer {payment : Payment} {h k : History} (withheld : Withheld payment h)
    (calls : simulations k = simulations h) : Withheld payment k :=
  ⟨withheld.action, withheld.status, withheld.receipt, by rw [calls, withheld.never]⟩

theorem applyPaymentControl_returns {configured : Bool} {s t : PipelineResult} {h : History}
    (returns : Returns (applyPaymentControl host configured) s h () t) :
    ∃ payment events audit, t = { s with events, audit, payment := some payment } ∧
      (payment.action = .block ↔ s.policy = .block) ∧
      ((Executed payment h ∧ s.policy = .allow ∧ configured = true ∧ PolicyVerified s.audit h) ∨
        (Withheld payment h ∧
          ¬ (s.policy = .allow ∧ configured = true ∧ PolicyVerified s.audit h))) := by
  obtain ⟨reasons, decided⟩ := paymentPolicy_asDict host s
  obtain ⟨decision, same, rest⟩ := returns.getThen.raisingThen
  rw [decided] at same
  cases same
  obtain ⟨timestamp, h', rfl, asked⟩ := rest.askThen
  obtain ⟨transactionId, _, named⟩ := asked.raisingThen
  obtain ⟨accountId, _, owned⟩ := named.raisingThen
  obtain ⟨verified, _, h₁, h₂, rfl, recorded, rest⟩ := owned.modifyThen.bind
  obtain ⟨trail, rfl, unsimulated, verified_iff⟩ := policyAudit_returns recorded
  obtain ⟨execution, _, h₃, _, rfl, executed, rest⟩ := rest.bind
  obtain ⟨rfl, appends, verifies, simulated⟩ := execute_returns executed
  obtain ⟨rfl, rfl⟩ := rest.modify
  have audited : verified = true ↔
      configured = true ∧ PolicyVerified s.audit (⟨.now, timestamp⟩ :: (h₁ ++ (h₃ ++ []))) := by
    refine verified_iff.trans (and_congr_right fun _ => policyVerified_congr ?_ ?_)
    · show _ = appendAnswers (h₁ ++ (h₃ ++ []))
      rw [List.append_nil, appendAnswers_append, appends, List.append_nil]
    · show _ = verifyAnswers (h₁ ++ (h₃ ++ []))
      rw [List.append_nil, verifyAnswers_append, verifies, List.append_nil]
  have calls : simulations (⟨.now, timestamp⟩ :: (h₁ ++ (h₃ ++ []))) = simulations h₃ := by
    show simulations (h₁ ++ (h₃ ++ [])) = _
    rw [List.append_nil, simulations_append, unsimulated, List.nil_append]
  have allowed_iff := enforced_allow_iff (s.policy, reasons) verified
  refine ⟨_, _, _, rfl, enforced_block_iff _ _, ?_⟩
  obtain ⟨allowed, receipt, once⟩ | ⟨withheld, none, never⟩ := simulated
  · left
    obtain ⟨policy, ok⟩ := allowed_iff.mp allowed
    exact ⟨⟨allowed, if_pos receipt, receipt, by rw [calls, once]; rfl⟩, policy, audited.mp ok⟩
  · right
    refine ⟨⟨?_, by simp [none], none, by rw [calls, never]⟩, ?_⟩
    · show (enforced (s.policy, reasons) verified).1 = .hold ∨
        (enforced (s.policy, reasons) verified).1 = .block
      cases action : (enforced (s.policy, reasons) verified).1 with
      | allow => exact absurd action withheld
      | hold => exact .inl rfl
      | block => exact .inr rfl
    · intro ⟨policy, ok⟩
      exact withheld (allowed_iff.mpr ⟨policy, audited.mpr ok⟩)

/-! ## The end of a run -/

theorem policy_block_iff (r : PipelineResult) :
    r.policy = .block ↔ r.case.any (·.sanctionsHit) = true ∨ r.severity = some "critical" := by
  unfold PipelineResult.policy
  split_ifs with sanctioned critical <;> simp_all

/-- The policy allows the result as soon as its audit is verified. -/
structure Cleared (r : PipelineResult) : Prop where
  notSanctioned : r.case.any (·.sanctionsHit) = false
  notCritical : r.severity ≠ some "critical"
  notHigh : r.severity ≠ some "high"
  checked : r.rules ≠ none ∧ r.prefilter ≠ none
  noAlert : r.alert = none
  lowScore : r.rules.any (25 ≤ ·.riskScore) = false
  normal : r.prefilter.any (·.isAnomaly) = false
  notEscalated : r.triage.any (·.escalate) = false
  noReview : r.case.any (·.recommendComplianceReview) = false

theorem cleared_audit (r : PipelineResult) (audit : AuditTrail) :
    Cleared { r with audit } ↔ Cleared r := by
  constructor <;>
    exact fun c => ⟨c.notSanctioned, c.notCritical, c.notHigh, c.checked, c.noAlert, c.lowScore,
      c.normal, c.notEscalated, c.noReview⟩

theorem policy_allow_iff (r : PipelineResult) :
    r.policy = .allow ↔ r.audit.status = .verified ∧ Cleared r := by
  constructor
  · intro allowed
    unfold PipelineResult.policy at allowed
    split_ifs at allowed with sanctioned critical high unverified missing signal
    simp only [Bool.or_eq_true, not_or, Bool.not_eq_true, Option.isSome_eq_false_iff,
      Option.isNone_iff_eq_none] at missing signal
    obtain ⟨⟨⟨⟨alert, score⟩, normal⟩, escalated⟩, review⟩ := signal
    exact ⟨not_not.mp unverified, ⟨by simpa using sanctioned, critical, high, missing, alert,
      score, normal, escalated, review⟩⟩
  · intro ⟨verified, c⟩
    unfold PipelineResult.policy
    rw [if_neg (by rw [c.notSanctioned]; decide), if_neg c.notCritical, if_neg c.notHigh,
      if_neg (by rw [verified]; decide), if_neg, if_neg]
    · rw [c.noAlert, c.lowScore, c.normal, c.notEscalated, c.noReview]
      decide
    · obtain ⟨rules, prefilter⟩ := c.checked
      simp [rules, prefilter]

/-- No append of the run failed, and both verifications were made and returned valid. -/
def AuditPassed (o : Orchestrator) (h : History) : Prop :=
  o.audit = true ∧ AppendsOk h ∧
    ∃ first second, verifyAnswers h = [first, second] ∧ ReturnedValid first ∧ ReturnedValid second

/-- The audit of the whole history, from the case's verification and the policy's. -/
theorem auditPassed_iff (configured : o.audit = true) {s : PipelineResult} {trail : AuditTrail}
    {past h₁ h₂ : History} {first : Except Raised Value} (before : Recorded past {} s.audit)
    (once : VerifiesOnce h₁ first)
    (valid : trail.status = .verified ↔ s.audit.errors = [] ∧ ReturnedValid first)
    (clean : trail.status = .verified → trail.errors = []) :
    trail.status = .verified ∧ PolicyVerified trail h₂ ↔ AuditPassed o (past ++ (h₁ ++ h₂)) := by
  have appends : AppendsOk (past ++ (h₁ ++ h₂)) ↔ s.audit.errors = [] ∧ AppendsOk h₂ := by
    have none : AppendsOk h₁ := by
      unfold AppendsOk
      rw [once.appends]
      exact fun _ mem => by cases mem
    rw [appendsOk_append, appendsOk_append h₁, before.errors]
    exact ⟨fun ok => ⟨⟨rfl, ok.1⟩, ok.2.2⟩, fun ok => ⟨ok.1.2, none, ok.2⟩⟩
  have verifies : verifyAnswers (past ++ (h₁ ++ h₂)) = first :: verifyAnswers h₂ := by
    rw [verifyAnswers_append, verifyAnswers_append, before.verifies, once.verifies]
    rfl
  unfold AuditPassed
  rw [appends, verifies]
  constructor
  · intro ⟨ok, _, appended, second, answered, secondValid⟩
    obtain ⟨noErrors, firstValid⟩ := valid.mp ok
    exact ⟨configured, ⟨noErrors, appended⟩, first, second, by rw [answered], firstValid,
      secondValid⟩
  · intro ⟨_, ⟨noErrors, appended⟩, _, second, answered, firstValid, secondValid⟩
    obtain ⟨same, answered⟩ := List.cons.inj answered
    have ok : trail.status = .verified := valid.mpr ⟨noErrors, same ▸ firstValid⟩
    exact ⟨ok, clean ok, appended, second, answered, secondValid⟩

/-- The verification of the case and the payment gate. `past` is the history before. -/
theorem gate_returns {s t : PipelineResult} {past h : History} (before : Recorded past {} s.audit)
    (returns : Returns (do
      Orchestrator.verifyCase host o
      applyPaymentControl host o.audit) s h () t) :
    ∃ payment events audit, t = { s with events, audit, payment := some payment } ∧
      (payment.action = .block ↔ s.policy = .block) ∧
      ((Executed payment (past ++ h) ∧ Cleared s ∧ AuditPassed o (past ++ h)) ∨
        (Withheld payment (past ++ h) ∧ ¬ (Cleared s ∧ AuditPassed o (past ++ h)))) := by
  obtain ⟨_, _, h₁, h₂, rfl, verified, controlled⟩ := returns.bind
  obtain ⟨payment, events, audit, rfl, blocks, gate⟩ := applyPaymentControl_returns controlled
  cases configured : o.audit with
  | false =>
    unfold Orchestrator.verifyCase at verified
    rw [configured] at verified
    obtain ⟨rfl, _, rfl⟩ := Returns.pure verified
    have calls : simulations (past ++ ([] ++ h₂)) = simulations h₂ := by
      rw [simulations_append, before.simulations]
      rfl
    have missing : ∀ {p : Prop}, ¬ (o.audit = true ∧ p) := by
      intro p present
      rw [configured] at present
      cases present.1
    refine ⟨payment, events, audit, rfl, blocks, .inr ?_⟩
    obtain ⟨_, _, present⟩ | ⟨withheld, _⟩ := gate
    · exact absurd present missing
    · exact ⟨withheld.transfer calls, fun present => missing present.2⟩
  | true =>
    obtain ⟨trail, first, rfl, once, valid, clean⟩ := verifyCase_returns configured verified
    have calls : simulations (past ++ (h₁ ++ h₂)) = simulations h₂ := by
      rw [simulations_append, simulations_append, before.simulations, once.simulations]
      rfl
    have passed : _ ↔ AuditPassed o (past ++ (h₁ ++ h₂)) :=
      auditPassed_iff configured before once valid clean
    have allowed_iff := policy_allow_iff { s with audit := trail }
    rw [cleared_audit] at allowed_iff
    refine ⟨payment, events, audit, rfl,
      blocks.trans ((policy_block_iff _).trans (policy_block_iff s).symm), ?_⟩
    obtain ⟨executed, policy, _, ok⟩ | ⟨withheld, refused⟩ := gate
    · left
      obtain ⟨status, cleared⟩ := allowed_iff.mp policy
      exact ⟨executed.transfer calls, cleared, passed.mp ⟨status, ok⟩⟩
    · right
      refine ⟨withheld.transfer calls, ?_⟩
      intro ⟨cleared, ok⟩
      obtain ⟨status, policyVerified⟩ := passed.mpr ok
      exact refused ⟨allowed_iff.mpr ⟨status, cleared⟩, configured, policyVerified⟩

/-- From the receipt of the completed case on. -/
theorem finish_returns {s t : PipelineResult} {past h : History} (before : Recorded past {} s.audit)
    (returns : Returns (Orchestrator.finish host o tx) s h () t) :
    ∃ payment events audit, t = { s with events, audit, payment := some payment } ∧
      (payment.action = .block ↔ s.policy = .block) ∧
      ((Executed payment (past ++ h) ∧ Cleared s ∧ AuditPassed o (past ++ h)) ∨
        (Withheld payment (past ++ h) ∧ ¬ (Cleared s ∧ AuditPassed o (past ++ h)))) := by
  obtain ⟨_, _, h₁, _, rfl, recorded, rest⟩ := returns.getThen.bind
  obtain ⟨trail, rfl, trailed⟩ := Orchestrator.record_returns recorded
  have gate := gate_returns (before.trans trailed) rest
  rw [List.append_assoc, cleared_audit] at gate
  obtain ⟨payment, events, audit, rfl, blocks, decided⟩ := gate
  exact ⟨payment, events, audit, rfl,
    blocks.trans ((policy_block_iff _).trans (policy_block_iff s).symm), decided⟩

/-! ## Whole runs -/

/-- The audit calls of a run that closes at stage 0 and records its payment policy. -/
def stageZeroCalls (tx : Transaction) : List AuditCall :=
  Orchestrator.closingCalls tx ++ [.append (.str tx.id) "case.completed", .verify,
    .append (.str tx.id) "payment.policy", .verify]

/-- The audit of the whole run is in order: the appends of its steps, its policy's
among them, and both verifications were made, every append succeeded, and both
verifications returned valid. -/
structure AuditInOrder (o : Orchestrator) (tx : Transaction) (h : History) : Prop where
  configured : o.audit = true
  made : auditCalls h = stageZeroCalls tx
  appended : AppendsOk h
  verified : ∃ first second, verifyAnswers h = [first, second] ∧ ReturnedValid first ∧
    ReturnedValid second

/-- What has to hold for the payment of a run to execute. -/
structure Executes (o : Orchestrator) (tx : Transaction) (rules : RuleEngineVerdict)
    (prefilter : PreFilterVerdict) (h : History) : Prop where
  closes : Orchestrator.ClosesAtStageZero rules prefilter
  notHigh : rules.riskBand ≠ "high"
  notCritical : rules.riskBand ≠ "critical"
  audit : AuditInOrder o tx h

/-- The audit calls from the receipt of the completed case on. -/
theorem finish_calls (configured : o.audit = true) {s t : PipelineResult} {h : History}
    (owner : s.transaction = tx.modelDump host)
    (returns : Returns (Orchestrator.finish host o tx) s h () t) (appended : AppendsOk h) :
    auditCalls h = [.append (.str tx.id) "case.completed", .verify,
      .append (.str tx.id) "payment.policy", .verify] := by
  obtain ⟨_, _, h₁, _, rfl, recorded, rest⟩ := returns.getThen.bind
  have completed := Orchestrator.record_calls configured _ _ recorded
  obtain ⟨trail, rfl, _⟩ := Orchestrator.record_returns recorded
  obtain ⟨_, _, h₂, h₃, rfl, verified, controlled⟩ := rest.bind
  have checked := Orchestrator.verifyCase_calls configured verified
  obtain ⟨trail', _, rfl, _⟩ := verifyCase_returns configured verified
  rw [configured] at controlled
  rw [appendsOk_append, appendsOk_append] at appended
  have decided := applyPaymentControl_calls (s := { s with audit := trail' }) owner controlled
    appended.2.2
  rw [auditCalls_append, auditCalls_append, completed, checked, decided]
  rfl

/-- In a run that closes at stage 0 the audit is in order as soon as none of its
calls failed: all of them are made. -/
theorem auditInOrder_iff {s t : PipelineResult} {h₁ h₂ : History} {rules : RuleEngineVerdict}
    {prefilter : PreFilterVerdict} (exit : Orchestrator.Exit host o tx h₁ rules prefilter s)
    (closes : Orchestrator.ClosesAtStageZero rules prefilter)
    (finished : Returns (Orchestrator.finish host o tx) s h₂ () t) :
    AuditInOrder o tx (h₁ ++ h₂) ↔ AuditPassed o (h₁ ++ h₂) := by
  constructor
  · intro inOrder
    exact ⟨inOrder.configured, inOrder.appended, inOrder.verified⟩
  · intro ⟨configured, appended, verified⟩
    refine ⟨configured, ?_, appended, verified⟩
    cases exit with
    | stageZero _ _ _ _ _ owner calls =>
      have last := finish_calls configured owner finished ((appendsOk_append h₁ h₂).mp appended).2
      rw [auditCalls_append, calls configured, last]
      rfl
    | triage signal _ _ _ => exact absurd closes signal
    | investigated signal => exact absurd closes signal

theorem cleared_iff {h : History} {rules : RuleEngineVerdict} {prefilter : PreFilterVerdict}
    {s : PipelineResult} (hr : s.rules = some rules) (hp : s.prefilter = some prefilter)
    (exit : Orchestrator.Exit host o tx h rules prefilter s) :
    Cleared s ↔ Orchestrator.ClosesAtStageZero rules prefilter ∧ rules.riskBand ≠ "high" ∧
      rules.riskBand ≠ "critical" := by
  have closes : Cleared s → Orchestrator.ClosesAtStageZero rules prefilter := by
    intro c
    have low := c.lowScore
    have normal := c.normal
    rw [hr] at low
    rw [hp] at normal
    exact ⟨by simpa [Orchestrator.ClosesAtStageZero, RULES_ESCALATION_THRESHOLD] using low,
      by simpa using normal⟩
  have banded : s.alert = none → s.severity = some rules.riskBand := by
    intro alert
    unfold PipelineResult.severity
    rw [alert, hr]
    rfl
  cases exit with
  | stageZero closed triage case alert _ _ _ =>
    constructor
    · intro c
      have high := c.notHigh
      have critical := c.notCritical
      rw [banded alert] at high critical
      exact ⟨closed, by simpa using high, by simpa using critical⟩
    · intro ⟨⟨low, normal⟩, high, critical⟩
      have notLow : ¬ (25 : Int) ≤ rules.riskScore := Int.not_le.mpr low
      refine ⟨by simp [case], ?_, ?_, ⟨by simp [hr], by simp [hp]⟩, alert, ?_, ?_, by simp [triage],
        by simp [case]⟩
      · rw [banded alert]
        simpa using critical
      · rw [banded alert]
        simpa using high
      · simpa [hr] using notLow
      · simpa [hp] using normal
  | triage signal _ _ _ => exact ⟨fun c => absurd (closes c) signal, fun c => absurd c.1 signal⟩
  | investigated signal => exact ⟨fun c => absurd (closes c) signal, fun c => absurd c.1 signal⟩

/-- The payment of a run that returns carries a receipt exactly when the run
closed at stage 0 in a harmless band and its whole audit is in order; the
simulator was then called once. Otherwise the payment is held or blocked. -/
theorem payment_executes_iff {context : Option ScoringContext} {review : Option Dict}
    {h : History} {result : PipelineResult}
    (run : (o.processTransaction host tx context review).Runs h (.ok result)) :
    ∃ ctx rules prefilter payment, ⟨.score tx ctx, .ok rules⟩ ∈ h ∧
      ⟨.prefilter tx ctx, .ok prefilter⟩ ∈ h ∧ result.rules = some rules ∧
      result.prefilter = some prefilter ∧ result.payment = some payment ∧
      (payment.simulationReceipt.isSome ↔ Executes o tx rules prefilter h) ∧
      (Executes o tx rules prefilter h → Executed payment h) ∧
      (¬ Executes o tx rules prefilter h → Withheld payment h) := by
  obtain ⟨h₁, h₂, s, ctx, rules, prefilter, rfl, finished, trail, hr, hp, ruled, filtered, exit⟩ :=
    Orchestrator.stages_returns (onNew_returns run)
  obtain ⟨payment, events, audit, rfl, _, gate⟩ := finish_returns trail finished
  have executes_iff : Cleared s ∧ AuditPassed o (h₁ ++ h₂) ↔
      Executes o tx rules prefilter (h₁ ++ h₂) := by
    rw [cleared_iff hr hp exit]
    constructor
    · intro ⟨⟨closes, high, critical⟩, passed⟩
      exact ⟨closes, high, critical, (auditInOrder_iff exit closes finished).mpr passed⟩
    · intro e
      exact ⟨⟨e.closes, e.notHigh, e.notCritical⟩,
        (auditInOrder_iff exit e.closes finished).mp e.audit⟩
  rw [executes_iff] at gate
  refine ⟨ctx, rules, prefilter, payment, List.mem_append_left _ ruled,
    List.mem_append_left _ filtered, hr, hp, rfl, ?_⟩
  obtain ⟨executed, executes⟩ | ⟨withheld, refused⟩ := gate
  · exact ⟨⟨fun _ => executes, fun _ => executed.receipt⟩, fun _ => executed,
      fun refused => absurd executes refused⟩
  · refine ⟨⟨?_, fun executes => absurd executes refused⟩, fun executes => absurd executes refused,
      fun _ => withheld⟩
    intro receipt
    rw [withheld.receipt] at receipt
    cases receipt

/-! A run that executes: no signal, every append answered, both verifications valid. -/

/-- A host as the Python one on the runs below. -/
def sampleHost : Host where
  fixed2 x :=
    let cents := (x * 100 + 1 / 2).floor
    toString (cents / 100) ++ "." ++ (if cents % 100 < 10 then "0" else "") ++
      toString (cents % 100)
  str
    | .none => "None"
    | .bool b => if b then "True" else "False"
    | .int n => toString n
    | .float x => toString x.floor ++ ".0"
    | .str s => s
    | .list _ => "[]"
    | .dict _ => "\x7b'name': 'Victor Krantz Holdings'\x7d"
  dumps _ := "\x7b\"query\": \"Victor Krantz Holdings\", \"hit\": true, " ++
    "\"list\": \"vaultwatch-synthetic-watchlist-v1\"\x7d"
  jsonTime _ := "1970-01-01T00:00:00Z"
  isoformat _ := "1970-01-01T00:00:00+00:00"
  sha256 _ := "2038f26c345108480ce005db0e60ef5a0ed8d79b5f5459ce9b04742aaa0ba1cf"
  asStr
    | .str s => some s
    | _ => none
  asInt
    | .int n => some n
    | _ => none
  asFloat
    | .float x => some x
    | .int n => some n
    | _ => none
  asBool
    | .bool b => some b
    | _ => none

def sampleOrchestrator : Orchestrator where
  audit := true
  eventSink := true
  isLive := true
  haikuModel := "haiku"
  sonnetModel := "sonnet"

def sampleTransaction : Transaction where
  id := "tx_gate"
  accountId := "acct_gate"
  amount := 50
  timestamp := 0

def clearAnswers (_ : History) : (o : Op) → o.Res
  | .buildScoringContext .. => .ok {}
  | .append id eventType payload =>
    .ok (.dict [("event_type", .str eventType), ("subject_id", id), ("payload", .dict payload)])
  | .verify => .ok (.dict [("valid", .bool true)])
  | .score .. => .ok { transactionId := "tx_gate", riskScore := 0, riskBand := "low" }
  | .prefilter .. => .ok { anomalyScore := 0, isAnomaly := false }
  | .complete _ => .error (.exception "APIConnectionError")
  | .send _ => .ok ()
  | .now => 0
  | .recentSecurityEvents _ => (0, [])
  | .generateTransactionHistory _ => .ok (.list [])
  | .generateEntityGraph _ => .ok (.dict [])
  | .checkSanctionsList _ => ()
  | .simulateExecution _ => ()

def clearRun : History × Except Raised PipelineResult :=
  (sampleOrchestrator.processTransaction sampleHost sampleTransaction (some {}) none).play
    clearAnswers []

theorem payment_executes_clear :
    ∃ result payment, clearRun.2 = .ok result ∧ result.payment = some payment ∧
      Executed payment clearRun.1 := by
  have receipt : clearRun.2.toOption.any
    (·.payment.any (·.simulationReceipt.isSome)) = true := rfl
  have run :
      (sampleOrchestrator.processTransaction sampleHost sampleTransaction (some {}) none).Runs
        clearRun.1 clearRun.2 := Prog.play_runs clearAnswers [] _
  cases ended : clearRun.2 with
  | error e =>
    rw [ended] at receipt
    cases receipt
  | ok result =>
    rw [ended] at run receipt
    obtain ⟨_, _, _, payment, _, _, _, _, paid, executes, executed, _⟩ := payment_executes_iff run
    have carried : result.payment.any (·.simulationReceipt.isSome) = true := receipt
    rw [paid] at carried
    exact ⟨result, payment, rfl, paid, executed (executes.mp carried)⟩

end VaultWatch.Agents
