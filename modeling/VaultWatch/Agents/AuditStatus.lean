import VaultWatch.Agents.PaymentGate

/-! What the final audit status of a run says. Two pieces of code write it in
sequence, the second over what the first found, and only an exception of the
second keeps an earlier `failed`. -/
namespace VaultWatch.Agents

open VaultWatch.Lib.Effects VaultWatch.Lib.Interleave

variable {host : Host} {o : Orchestrator} {tx : Transaction}

/-- A call of `verify` that returned a verdict, whatever it is. -/
def Completed (answer : Except Raised Value) : Prop :=
  ∃ verification valid, answer = .ok verification ∧ verification.getItem "valid" = .ok valid

/-- A call of `verify` that returned, but not valid. -/
def ReturnedInvalid (answer : Except Raised Value) : Prop :=
  Completed answer ∧ ¬ ReturnedValid answer

theorem ReturnedValid.completed {answer : Except Raised Value} (valid : ReturnedValid answer) :
    Completed answer := by
  obtain ⟨verification, v, same, found, _⟩ := valid
  exact ⟨verification, v, same, found⟩

/-- `verifyAudit` raises exactly when the service gave no verdict. -/
theorem verifyAudit_completed {s t : PipelineResult} {h : History} {r : Except Raised Bool}
    (ends : Ends (verifyAudit host) s h r t) {answer : Except Raised Value}
    (asked : verifyAnswers h = [answer]) : (∃ verified, r = .ok verified) ↔ Completed answer := by
  unfold verifyAudit at ends
  obtain ⟨answer', _, rfl, called⟩ := ends.askThen
  rcases called.raisingThen with ⟨e, rfl, rfl, rfl, rfl⟩ | ⟨verification, rfl, rest⟩
  · cases asked
    constructor
    · intro ⟨_, same⟩
      cases same
    · intro ⟨_, _, same, _⟩
      cases same
  obtain ⟨checkedAt, _, rfl, checked⟩ := rest.modifyThen.askThen
  rcases checked.modifyThen.raisingThen with ⟨e, missing, rfl, rfl, rfl⟩ | ⟨valid, found, last⟩
  · cases asked
    constructor
    · intro ⟨_, same⟩
      cases same
    · intro ⟨_, _, same, found⟩
      cases same
      rw [missing] at found
      cases found
  · obtain ⟨rfl, rfl, rfl⟩ := last.getThen.modifyThen.pure
    cases asked
    exact ⟨fun _ => ⟨verification, valid, rfl, found⟩, fun _ => ⟨_, rfl⟩⟩

/-- The verification in `finish` leaves an error exactly when it gave no verdict. -/
theorem verifyCase_errors (configured : o.audit = true) {s t : PipelineResult} {h : History}
    (returns : Returns (Orchestrator.verifyCase host o) s h () t) :
    ∃ first, VerifiesOnce h first ∧
      (t.audit.errors = [] ↔ s.audit.errors = [] ∧ Completed first) := by
  unfold Orchestrator.verifyCase at returns
  rw [if_pos configured] at returns
  rcases returns.attempt with done | ⟨e, u, h₁, h₂, rfl, failed, handled⟩
  · obtain ⟨verified, _, h₁, _, rfl, ran, rest⟩ := done.bind
    obtain ⟨rfl, _, rfl⟩ := rest.pure
    obtain ⟨audit, answer, rfl, once, errors, _⟩ := verifyAudit_ends ran
    have completed : Completed answer := (verifyAudit_completed ran once.verifies).mp ⟨_, rfl⟩
    rw [List.append_nil]
    refine ⟨answer, once, ?_⟩
    rw [errors]
    exact ⟨fun none => ⟨none, completed⟩, And.left⟩
  · obtain ⟨rfl, rfl⟩ := (exceptException_returns handled).modify
    rw [List.append_nil]
    rcases failed.bind with ⟨_, _, ran⟩ | ⟨_, _, _, _, _, _, returned⟩
    · obtain ⟨audit, answer, rfl, once, _, _⟩ := verifyAudit_ends ran
      refine ⟨answer, once, ?_⟩
      constructor
      · intro none
        exact absurd none (List.append_ne_nil_of_right_ne_nil _ (List.cons_ne_nil _ _))
      · intro ⟨_, completed⟩
        obtain ⟨_, same⟩ := (verifyAudit_completed ran once.verifies).mpr completed
        cases same
    · obtain ⟨_, same, _⟩ := returned.pure
      cases same

/-- The second writer: the status it leaves is the decision it returns. -/
theorem recordPolicy_status {transactionId : Value} {event : Dict} {s t : PipelineResult}
    {h : History} {verified : Bool}
    (returns : Returns (recordPolicy host transactionId event) s h verified t) :
    (t.audit.status = .verified ↔ verified = true) ∧
      (AppendsOk h → ∃ answer, verifyAnswers h = [answer]) := by
  unfold recordPolicy at returns
  rcases returns.attempt with done | ⟨e, u, h₁, h₂, rfl, failed, handled⟩
  · obtain ⟨_, receipt, _, rfl, rfl, rest⟩ := done.request
    obtain ⟨audit, answer, rfl, once, _, ended⟩ := verifyAudit_ends rest.modifyThen
    rcases ended with ⟨_, same, status, _⟩ | ⟨_, same, _⟩
    · cases same
      refine ⟨?_, fun _ => ⟨answer, once.verifies⟩⟩
      show audit.status = .verified ↔ _
      rw [status]
      cases verified <;> simp
    · cases same
  · obtain ⟨rfl, rfl, rfl⟩ := (exceptException_returns handled).modifyThen.modifyThen.pure
    rw [List.append_nil]
    refine ⟨?_, ?_⟩
    · show (if _ then AuditStatus.unavailable else AuditStatus.failed) = .verified ↔ _
      split <;> simp
    · obtain ⟨answer, _, rfl, asked⟩ := failed.askThen
      rcases asked.raisingThen with ⟨_, rfl, _, rfl, rfl⟩ | ⟨receipt, rfl, rest⟩
      · intro appended
        cases appended _ (List.mem_singleton.mpr rfl)
      · obtain ⟨audit, answer, rfl, once, _⟩ := verifyAudit_ends rest.modifyThen
        exact fun _ => ⟨answer, once.verifies⟩

theorem applyPaymentControl_status {s t : PipelineResult} {h : History}
    (returns : Returns (applyPaymentControl host true) s h () t) :
    (t.audit.status = .verified ↔ PolicyVerified s.audit h) ∧
      (AppendsOk h → ∃ answer, verifyAnswers h = [answer]) := by
  obtain ⟨decision, same, rest⟩ := returns.getThen.raisingThen
  obtain ⟨timestamp, h', rfl, asked⟩ := rest.askThen
  obtain ⟨transactionId, _, named⟩ := asked.raisingThen
  obtain ⟨accountId, _, owned⟩ := named.raisingThen
  obtain ⟨verified, _, h₁, h₂, rfl, recorded, rest⟩ := owned.modifyThen.bind
  rw [if_pos rfl] at recorded
  obtain ⟨trail, rfl, _, verified_iff⟩ := recordPolicy_returns recorded
  obtain ⟨status, answered⟩ := recordPolicy_status recorded
  obtain ⟨execution, _, h₃, _, rfl, executed, rest⟩ := rest.bind
  obtain ⟨rfl, appends, verifies, _⟩ := execute_returns executed
  obtain ⟨rfl, rfl⟩ := rest.modify
  have appended : appendAnswers (⟨.now, timestamp⟩ :: (h₁ ++ (h₃ ++ []))) = appendAnswers h₁ := by
    show appendAnswers (h₁ ++ (h₃ ++ [])) = _
    rw [List.append_nil, appendAnswers_append, appends, List.append_nil]
  have checked : verifyAnswers (⟨.now, timestamp⟩ :: (h₁ ++ (h₃ ++ []))) = verifyAnswers h₁ := by
    show verifyAnswers (h₁ ++ (h₃ ++ [])) = _
    rw [List.append_nil, verifyAnswers_append, verifies, List.append_nil]
  refine ⟨?_, ?_⟩
  · rw [policyVerified_congr appended checked, ← verified_iff]
    exact status
  · unfold AppendsOk
    rw [appended, checked]
    exact answered

/-! ## Whole runs -/

/-- The two verifications as the code weighs them: the first only has to complete. -/
def VerifiedAtEnd (h : History) : Prop :=
  ∃ first second, verifyAnswers h = [first, second] ∧ Completed first ∧ ReturnedValid second

/-- From the receipt of the completed case on. `past` is the history before. -/
theorem finish_status (configured : o.audit = true) {s t : PipelineResult} {past h : History}
    (before : Recorded past {} s.audit)
    (returns : Returns (Orchestrator.finish host o tx) s h () t) :
    (t.audit.status = .verified ↔ AppendsOk (past ++ h) ∧ VerifiedAtEnd (past ++ h)) ∧
      (AppendsOk (past ++ h) → ∃ first second, verifyAnswers (past ++ h) = [first, second]) := by
  obtain ⟨_, _, h₁, _, rfl, recorded, rest⟩ := returns.getThen.bind
  obtain ⟨trail, rfl, trailed⟩ := Orchestrator.record_returns recorded
  have opened : Recorded (past ++ h₁) {} trail := before.trans trailed
  obtain ⟨_, _, h₂, h₃, rfl, verified, controlled⟩ := rest.bind
  rw [configured] at controlled
  obtain ⟨first, once, clean⟩ := verifyCase_errors configured verified
  obtain ⟨status, answered⟩ := applyPaymentControl_status controlled
  rw [← List.append_assoc]
  have verifies : verifyAnswers (past ++ h₁ ++ (h₂ ++ h₃)) = first :: verifyAnswers h₃ := by
    rw [verifyAnswers_append, verifyAnswers_append h₂, opened.verifies, once.verifies]
    rfl
  have appends : AppendsOk (past ++ h₁ ++ (h₂ ++ h₃)) ↔ trail.errors = [] ∧ AppendsOk h₃ := by
    have none : AppendsOk h₂ := by
      unfold AppendsOk
      rw [once.appends]
      exact fun _ mem => by cases mem
    rw [appendsOk_append, appendsOk_append h₂, opened.errors]
    exact ⟨fun ok => ⟨⟨rfl, ok.1⟩, ok.2.2⟩, fun ok => ⟨ok.1.2, none, ok.2⟩⟩
  unfold VerifiedAtEnd
  rw [appends, verifies, status]
  unfold PolicyVerified
  rw [clean]
  refine ⟨⟨?_, ?_⟩, ?_⟩
  · intro ⟨⟨noErrors, completed⟩, appended, second, same, valid⟩
    exact ⟨⟨noErrors, appended⟩, first, second, by rw [same], completed, valid⟩
  · intro ⟨⟨noErrors, appended⟩, _, second, same, completed, valid⟩
    obtain ⟨rfl, last⟩ := List.cons.inj same
    exact ⟨⟨noErrors, completed⟩, appended, second, last, valid⟩
  · intro ⟨_, appended⟩
    obtain ⟨second, same⟩ := answered appended
    exact ⟨first, second, by rw [same]⟩

/-- A first verification that came back invalid, forgotten over a valid second one. -/
def InvalidForgotten (h : History) : Prop :=
  AppendsOk h ∧
    ∃ first second, verifyAnswers h = [first, second] ∧ ReturnedInvalid first ∧ ReturnedValid second

/-- The final status says what the audit answered, except where the second
verification covers up an invalid first one. -/
theorem audit_status_iff (configured : o.audit = true) {context : Option ScoringContext}
    {review : Option Dict} {h : History} {result : PipelineResult}
    (run : (o.processTransaction host tx context review).Runs h (.ok result)) :
    (result.audit.status = .verified ↔
        AppendsOk h ∧ ∀ answer ∈ verifyAnswers h, ReturnedValid answer) ↔
      ¬ InvalidForgotten h := by
  obtain ⟨h₁, h₂, s, ctx, rules, prefilter, rfl, finished, trail, _⟩ :=
    Orchestrator.stages_returns (onNew_returns run)
  obtain ⟨status, answered⟩ := finish_status configured trail finished
  unfold InvalidForgotten
  rw [status]
  by_cases appended : AppendsOk (h₁ ++ h₂)
  · obtain ⟨first, second, verifies⟩ := answered appended
    have weighed : VerifiedAtEnd (h₁ ++ h₂) ↔ Completed first ∧ ReturnedValid second := by
      unfold VerifiedAtEnd
      rw [verifies]
      simp
    have forgotten : (∃ a b, verifyAnswers (h₁ ++ h₂) = [a, b] ∧ ReturnedInvalid a ∧
        ReturnedValid b) ↔ ReturnedInvalid first ∧ ReturnedValid second := by
      rw [verifies]
      simp
    have all : (∀ a ∈ verifyAnswers (h₁ ++ h₂), ReturnedValid a) ↔
        ReturnedValid first ∧ ReturnedValid second := by
      rw [verifies]
      simp
    rw [weighed, forgotten, all]
    constructor
    · intro same ⟨_, ⟨completed, invalid⟩, valid⟩
      exact invalid (same.mp ⟨appended, completed, valid⟩).2.1
    · intro kept
      constructor
      · intro ⟨_, completed, valid⟩
        refine ⟨appended, by_contra fun invalid => ?_, valid⟩
        exact kept ⟨appended, ⟨completed, invalid⟩, valid⟩
      · intro ⟨_, firstValid, valid⟩
        exact ⟨appended, firstValid.completed, valid⟩
  · exact ⟨fun _ forgotten => appended forgotten.1,
      fun _ => ⟨fun ok => absurd ok.1 appended, fun ok => absurd ok.1 appended⟩⟩

/-- On the clear run nothing is covered up, and the status says what the audit answered. -/
theorem audit_status_clear :
    ∃ result, clearRun.2 = .ok result ∧
      (result.audit.status = .verified ↔
        AppendsOk clearRun.1 ∧ ∀ answer ∈ verifyAnswers clearRun.1, ReturnedValid answer) := by
  have run :
      (sampleOrchestrator.processTransaction sampleHost sampleTransaction (some {}) none).Runs
        clearRun.1 clearRun.2 := Prog.play_runs clearAnswers [] _
  have verifies : verifyAnswers clearRun.1 =
    [.ok (.dict [("valid", .bool true)]), .ok (.dict [("valid", .bool true)])] := rfl
  have kept : ¬ InvalidForgotten clearRun.1 := by
    intro ⟨_, first, second, same, invalid, _⟩
    rw [verifies] at same
    cases same
    exact invalid.2 ⟨_, _, rfl, rfl, rfl⟩
  have returned : clearRun.2.toOption.isSome = true := rfl
  cases ended : clearRun.2 with
  | error e =>
    rw [ended] at returned
    cases returned
  | ok result =>
    rw [ended] at run
    exact ⟨result, rfl, (audit_status_iff rfl run).mpr kept⟩

/-! A run whose first verification comes back invalid and whose second comes back valid. -/

/-- As `clearAnswers`, except that the first verdict of `verify` is invalid. -/
def invalidFirstAnswers (past : History) : (o : Op) → o.Res
  | .verify => .ok (.dict [("valid", .bool (!(verifyAnswers past).isEmpty))])
  | o => clearAnswers past o

def invalidFirstRun : History × Except Raised PipelineResult :=
  (sampleOrchestrator.processTransaction sampleHost sampleTransaction (some {}) none).play
    invalidFirstAnswers []

theorem invalidFirst_verifies :
    verifyAnswers invalidFirstRun.1 =
      [.ok (.dict [("valid", .bool false)]), .ok (.dict [("valid", .bool true)])] := rfl

/-- The run returns with status `verified`, and one of its verifications was invalid. -/
theorem invalidFirst_reported_verified :
    ∃ result,
      (sampleOrchestrator.processTransaction sampleHost sampleTransaction (some {}) none).Runs
        invalidFirstRun.1 (.ok result) ∧
      result.audit.status = .verified ∧
      ¬ (AppendsOk invalidFirstRun.1 ∧
        ∀ answer ∈ verifyAnswers invalidFirstRun.1, ReturnedValid answer) := by
  have status : invalidFirstRun.2.toOption.any (·.audit.status = .verified) = true := rfl
  have invalid : ¬ (∀ answer ∈ verifyAnswers invalidFirstRun.1, ReturnedValid answer) := by
    rw [invalidFirst_verifies]
    intro valid
    obtain ⟨_, _, same, found, truthy⟩ := valid _ (.head _)
    cases same
    cases found
    cases truthy
  have run :
      (sampleOrchestrator.processTransaction sampleHost sampleTransaction (some {}) none).Runs
        invalidFirstRun.1 invalidFirstRun.2 := Prog.play_runs invalidFirstAnswers [] _
  cases ended : invalidFirstRun.2 with
  | error e =>
    rw [ended] at status
    cases status
  | ok result =>
    rw [ended] at run status
    exact ⟨result, run, of_decide_eq_true status, fun claim => invalid claim.2⟩

end VaultWatch.Agents
