import VaultWatch.Agents.Evidence
import VaultWatch.Lib.Stepwise
import VaultWatch.Lib.Obligations

/-! # The receipts of a run

However a run goes, its audit holds the receipts its appends were answered with, in order
and nothing else, and every append is about its own transaction. -/
namespace VaultWatch.Agents

open VaultWatch.Lib.Effects VaultWatch.Lib.Interleave

/-- The receipt an operation was answered with. -/
def receipt : Prog.Done Op Op.Res → List Value
  | ⟨.append .., .ok receipt⟩ => [receipt]
  | _ => []

def Op.isAppend : Op → Bool
  | .append .. => true
  | _ => false

/-- Whatever is appended is about the transaction `id`. -/
def Op.About (id : Value) : Op → Prop
  | .append transactionId .. => transactionId = id
  | _ => True

/-- The receipts of `h` are what `t` has more than `s`, and `h` appends only about the
transaction of both. -/
def Receipted (id : Value) (h : History) (s t : PipelineResult) : Prop :=
  s.transaction.getItem "id" = .ok id →
    t.transaction = s.transaction ∧ t.audit.entries = s.audit.entries ++ h.flatMap receipt ∧
      ∀ d ∈ h, d.1.About id

variable {host : Host} {o : Orchestrator} {tx : Transaction} {id : Value} {α : Type}

theorem receipted_steps : Stepwise (Receipted id) where
  refl s _ := ⟨rfl, (List.append_nil _).symm, fun _ mem => by cases mem⟩
  trans := by
    intro h₁ h₂ s t u first second named
    obtain ⟨same, entries, about⟩ := first named
    obtain ⟨same', entries', about'⟩ := second (same ▸ named)
    refine ⟨same'.trans same, ?_, List.forall_mem_append.mpr ⟨about, about'⟩⟩
    rw [entries', entries, List.flatMap_append, List.append_assoc]

/-- A history without appends. -/
theorem receipted_quiet {h : History} (quiet : ∀ d ∈ h, d.1.isAppend = false)
    (s : PipelineResult) : Receipted id h s s := by
  intro _
  have unreceipted : h.flatMap receipt = [] := by
    refine List.flatMap_eq_nil_iff.mpr fun d mem => ?_
    have other := quiet d mem
    obtain ⟨op, answer⟩ := d
    cases op with
    | append => cases other
    | _ => rfl
  refine ⟨rfl, by rw [unreceipted, List.append_nil], fun d mem => ?_⟩
  have other := quiet d mem
  obtain ⟨op, answer⟩ := d
  cases op with
  | append => cases other
  | _ => trivial

theorem asked_receipted {op : Op} (other : op.isAppend = false) :
    Leaves (Receipted id) (ask op : Py PipelineResult op.Res) :=
  .ask fun _ s => receipted_quiet (fun _ mem => List.mem_singleton.mp mem ▸ other) s

theorem modify_receipted {f : PipelineResult → PipelineResult}
    (transaction : ∀ s, (f s).transaction = s.transaction)
    (entries : ∀ s, (f s).audit.entries = s.audit.entries) :
    Leaves (Receipted id) (modify f : Py PipelineResult Unit) :=
  .modify fun s _ => ⟨transaction s, (entries s).trans (List.append_nil _).symm,
    fun _ mem => by cases mem⟩

/-- An append whose receipt is kept before anything else is done. -/
theorem append_receipted {eventType : String} {payload : Dict} {k : Unit → Py PipelineResult α}
    (rest : Leaves (Receipted id) (k ())) :
    Leaves (Receipted id) (do
      let receipt ← raising (← ask (.append id eventType payload))
      modify (·.addEntry receipt) >>= k : Py PipelineResult α) := by
  intro s h r t ends named
  obtain ⟨answer, _, rfl, asked⟩ := ends.askThen
  obtain ⟨e, rfl, _, rfl, rfl⟩ | ⟨receipt, rfl, kept⟩ := asked.raisingThen
  · exact ⟨rfl, (List.append_nil _).symm, fun d mem => by rw [List.mem_singleton.mp mem]; rfl⟩
  · obtain ⟨same, entries, about⟩ := rest kept.modifyThen named
    refine ⟨same, ?_, List.forall_mem_cons.mpr ⟨rfl, about⟩⟩
    rw [entries, List.flatMap_cons]
    exact List.append_assoc ..

theorem exceptException_receipted {handler : Py PipelineResult α}
    (handled : Leaves (Receipted id) handler) (e : Raised) :
    Leaves (Receipted id) (exceptException handler e) := by
  cases e with
  | exception type message => exact handled
  | cancelled => exact .throw receipted_steps _

theorem complete_receipted (request : CompleteRequest) :
    Leaves (Receipted id) (complete request : Py PipelineResult ModelResponse) :=
  .bind receipted_steps (asked_receipted rfl) fun _ => .raising receipted_steps _

theorem triage_receipted (model : String) (ctx : ScoringContext) (rules : RuleEngineVerdict)
    (prefilter : PreFilterVerdict) :
    Leaves (Receipted id) (TriageAgent.run host model tx ctx rules prefilter) := by
  refine .bind receipted_steps (complete_receipted _) fun response => ?_
  split
  · exact .raising receipted_steps _
  · exact .throw receipted_steps _

theorem compliance_receipted (model : String) (case : CaseFile) :
    Leaves (Receipted id) (ComplianceAgent.run host model tx case) := by
  refine .bind receipted_steps (complete_receipted _) fun response => ?_
  split
  · exact .raising receipted_steps _
  · exact .throw receipted_steps _

theorem verifyAudit_receipted : Leaves (Receipted id) (verifyAudit host) :=
  .bind receipted_steps (asked_receipted rfl) fun _ => .bind receipted_steps
    (.raising receipted_steps _) fun _ => .bind receipted_steps
    (modify_receipted (fun _ => rfl) fun _ => rfl) fun _ => .bind receipted_steps
    (asked_receipted rfl) fun _ => .bind receipted_steps
    (modify_receipted (fun _ => rfl) fun _ => rfl) fun _ => .bind receipted_steps
    (.raising receipted_steps _) fun _ => .bind receipted_steps (.get receipted_steps) fun _ =>
    .bind receipted_steps (modify_receipted (fun _ => rfl) fun _ => rfl) fun _ =>
    .pure receipted_steps _

theorem recordPolicy_receipted (event : Dict) :
    Leaves (Receipted id) (recordPolicy host id event) := by
  refine .attempt receipted_steps (append_receipted (k := fun _ => verifyAudit host)
    verifyAudit_receipted) (exceptException_receipted ?_)
  exact .bind receipted_steps (modify_receipted (fun _ => rfl) fun _ => rfl) fun _ =>
    .bind receipted_steps (modify_receipted (fun _ => rfl) fun _ => rfl) fun _ =>
    .pure receipted_steps _

theorem execute_receipted (action : PaymentAction) (transaction : Dict) :
    Leaves (Receipted id) (execute host action transaction) :=
  .ite (.bind receipted_steps (asked_receipted rfl) fun _ => .bind receipted_steps
    (.raising receipted_steps _) fun _ => .pure receipted_steps _) (.pure receipted_steps _)

/-- The policy's append is about the transaction the result was opened with. -/
theorem applyPaymentControl_receipted (audit : Bool) :
    Leaves (Receipted id) (applyPaymentControl host audit) := by
  intro s h r t ends named
  obtain ⟨_, _, _, rfl, rfl⟩ | ⟨decision, _, rest⟩ := ends.getThen.raisingThen
  · exact receipted_steps.refl _ named
  obtain ⟨timestamp, h', rfl, asked⟩ := rest.askThen
  rw [named] at asked
  obtain ⟨e, same, _⟩ | ⟨transactionId, same, rest⟩ := asked.raisingThen
  · cases same
  obtain rfl := Except.ok.inj same
  have kept : Receipted id h' s t := by
    obtain ⟨_, _, _, rfl, rfl⟩ | ⟨accountId, _, rest⟩ := rest.raisingThen
    · exact receipted_steps.refl _
    refine (?_ : Leaves (Receipted id) _) rest
    exact .bind receipted_steps (modify_receipted (fun _ => rfl) fun _ => rfl) fun _ =>
      .bind receipted_steps (.ite (recordPolicy_receipted _) (.pure receipted_steps _))
      fun verified => .bind receipted_steps (execute_receipted _ _) fun execution =>
      modify_receipted (fun _ => rfl) fun _ => rfl
  have asked : Receipted id [⟨.now, timestamp⟩] s s :=
    receipted_quiet (fun d mem => by rw [List.mem_singleton.mp mem]; rfl) s
  exact receipted_steps.trans asked kept named

namespace Orchestrator

theorem record_receipted (eventType : String) (payload : Dict) :
    Leaves (Receipted (.str tx.id)) (record o tx eventType payload) := by
  refine .ite (.attempt receipted_steps ?_ (exceptException_receipted
    (modify_receipted (fun _ => rfl) fun _ => rfl))) (.pure receipted_steps _)
  exact append_receipted (k := fun _ => pure ()) (.pure receipted_steps _)

theorem emit_receipted (event : Event) :
    Leaves (Receipted (.str tx.id)) (emit host o tx event) :=
  .bind receipted_steps (modify_receipted (fun _ => rfl) fun _ => rfl) fun _ =>
    .bind receipted_steps (record_receipted _ _) fun _ => .ite (.bind receipted_steps
    (asked_receipted rfl) fun _ => .raising receipted_steps _) (.pure receipted_steps _)

theorem emitStage_receipted (stage : PipelineStage) (label : String) (detail : Dict) :
    Leaves (Receipted (.str tx.id)) (emitStage host o tx stage label detail) :=
  .bind receipted_steps (asked_receipted rfl) fun _ => emit_receipted _

theorem finish_receipted : Leaves (Receipted (.str tx.id)) (finish host o tx) := by
  refine .bind receipted_steps (.get receipted_steps) fun _ => .bind receipted_steps
    (record_receipted _ _) fun _ => .bind receipted_steps ?_ fun _ =>
    applyPaymentControl_receipted _
  exact .ite (.attempt receipted_steps (.bind receipted_steps verifyAudit_receipted fun _ =>
    .pure receipted_steps _) (exceptException_receipted
    (modify_receipted (fun _ => rfl) fun _ => rfl))) (.pure receipted_steps _)

theorem close_receipted (label : String) :
    Leaves (Receipted (.str tx.id)) (close host o tx label) :=
  .bind receipted_steps (modify_receipted (fun _ => rfl) fun _ => rfl) fun _ =>
    .bind receipted_steps (emitStage_receipted _ _ _) fun _ => finish_receipted

theorem scoreRules_receipted (ctx : ScoringContext) :
    Leaves (Receipted (.str tx.id)) (scoreRules host o tx ctx) :=
  .bind receipted_steps (asked_receipted rfl) fun _ => .bind receipted_steps
    (.raising receipted_steps _) fun _ => .bind receipted_steps
    (modify_receipted (fun _ => rfl) fun _ => rfl) fun _ => .bind receipted_steps
    (emitStage_receipted _ _ _) fun _ => .pure receipted_steps _

theorem scorePrefilter_receipted (ctx : ScoringContext) :
    Leaves (Receipted (.str tx.id)) (scorePrefilter host o tx ctx) :=
  .bind receipted_steps (asked_receipted rfl) fun _ => .bind receipted_steps
    (.raising receipted_steps _) fun _ => .bind receipted_steps
    (modify_receipted (fun _ => rfl) fun _ => rfl) fun _ => .bind receipted_steps
    (emitStage_receipted _ _ _) fun _ => .pure receipted_steps _

theorem triageCase_receipted (ctx : ScoringContext) (rules : RuleEngineVerdict)
    (prefilter : PreFilterVerdict) :
    Leaves (Receipted (.str tx.id)) (triageCase host o tx ctx rules prefilter) :=
  .bind receipted_steps (triage_receipted _ _ _ _) fun _ => .bind receipted_steps
    (modify_receipted (fun _ => rfl) fun _ => rfl) fun _ => .bind receipted_steps
    (.get receipted_steps) fun _ => .bind receipted_steps (emitStage_receipted _ _ _) fun _ =>
    .pure receipted_steps _

theorem investigate_receipted (triage : TriageVerdict) (rules : RuleEngineVerdict) :
    Leaves (Receipted (.str tx.id)) (investigate host o tx triage rules) := by
  refine .bind receipted_steps (.withLocal fun h r l ends s => ?_) fun out => .bind
    receipted_steps (modify_receipted (fun _ => rfl) fun _ => rfl) fun _ => .bind receipted_steps
    (.forM receipted_steps (fun _ => .bind receipted_steps (.get receipted_steps) fun _ =>
      emitStage_receipted _ _ _) _) fun _ => .bind receipted_steps (emitStage_receipted _ _ _)
    fun _ => .pure receipted_steps _
  have quiet : Only (·.isAppend = false) (InvestigatorAgent.run host o.sonnetModel tx triage
      (some captureToolCall) rules.riskScore) := by
    refine InvestigatorAgent.turns_only ⟨fun _ => rfl, fun _ => rfl, fun _ => rfl, fun _ => rfl⟩
      host _ ?_ _ _
    intro observe mem name toolInput result
    cases mem
    exact .modify _
  exact receipted_quiet (quiet ends) s

theorem draftCompliance_receipted (case : CaseFile) :
    Leaves (Receipted (.str tx.id)) (draftCompliance host o tx case) :=
  .ite (.bind receipted_steps (compliance_receipted _ _) fun _ => .bind receipted_steps
    (modify_receipted (fun _ => rfl) fun _ => rfl) fun _ => emitStage_receipted _ _ _)
    (.pure receipted_steps _)

theorem fuse_receipted : Leaves (Receipted (.str tx.id)) (fuse host o tx) := by
  refine .bind receipted_steps (asked_receipted rfl) fun read => .bind receipted_steps ?_
    fun _ => .pure receipted_steps _
  cases recentSecurityEvent read.1 read.2 with
  | none => exact .pure receipted_steps _
  | some event =>
    exact .bind receipted_steps (modify_receipted (fun _ => rfl) fun _ => rfl) fun _ =>
      emitStage_receipted _ _ _

theorem escalate_receipted (triage : TriageVerdict) (rules : RuleEngineVerdict) :
    Leaves (Receipted (.str tx.id)) (escalate host o tx triage rules) := by
  refine .bind receipted_steps (investigate_receipted _ _) fun case => .bind receipted_steps
    (draftCompliance_receipted _) fun _ => .bind receipted_steps fuse_receipted fun _ =>
    .bind receipted_steps ?_ fun _ => finish_receipted
  exact .bind receipted_steps (asked_receipted rfl) fun _ => .bind receipted_steps
    (modify_receipted (fun _ => rfl) fun _ => rfl) fun _ => emit_receipted _

/-- From an opened case on. -/
theorem opened_receipted (ctx : ScoringContext) :
    Leaves (Receipted (.str tx.id)) (do
      let rules ← scoreRules host o tx ctx
      let prefilter ← scorePrefilter host o tx ctx
      if rules.riskScore < RULES_ESCALATION_THRESHOLD ∧ ¬ prefilter.isAnomaly then
        close host o tx "Closed at stage 0 - no anomaly signal, no LLM call made"
      else
        let triage ← triageCase host o tx ctx rules prefilter
        if ¬ triage.escalate then
          close host o tx "Closed at triage - not escalated to investigation"
        else escalate host o tx triage rules) :=
  .bind receipted_steps (scoreRules_receipted _) fun _ => .bind receipted_steps
    (scorePrefilter_receipted _) fun _ => .ite (close_receipted _) (.bind receipted_steps
    (triageCase_receipted _ _ _) fun _ => .ite (close_receipted _) (escalate_receipted _ _))

theorem scoringContext_quiet {context : Option ScoringContext} {s t : PipelineResult}
    {h : History} {r : Except Raised ScoringContext}
    (ends : Ends (scoringContext tx context) s h r t) :
    t = s ∧ ∀ d ∈ h, d.1.isAppend = false := by
  unfold scoringContext at ends
  split at ends
  · obtain ⟨rfl, _, rfl⟩ := ends.pure
    exact ⟨rfl, fun _ mem => by cases mem⟩
  · obtain ⟨_, _, rfl, raised⟩ := ends.askThen
    obtain ⟨rfl, _, rfl⟩ := raised.raising
    exact ⟨rfl, fun d mem => by rw [List.mem_singleton.mp mem]; rfl⟩

/-- A case is not opened at all, or it is its transaction's from then on. -/
theorem openCase_receipted {context : Option ScoringContext} {review : Option Dict}
    {s t : PipelineResult} {h : History} {r : Except Raised ScoringContext}
    (ends : Ends (openCase host o tx context review) s h r t) :
    ∃ h₁ h₂ u, h = h₁ ++ h₂ ∧ (∀ d ∈ h₁, d.1.isAppend = false) ∧ u.audit = s.audit ∧
      (u.transaction = tx.modelDump host ∧ Receipted (.str tx.id) h₂ u t ∨
        h₂ = [] ∧ t = u ∧ ∃ e, r = .error e) := by
  rcases ends.bind with ⟨e, rfl, raised⟩ | ⟨ctx, _, h₁, h₂, rfl, returned, rest⟩
  · obtain ⟨rfl, quiet⟩ := scoringContext_quiet raised
    exact ⟨h, [], t, (List.append_nil h).symm, quiet, rfl, .inr ⟨rfl, rfl, e, rfl⟩⟩
  · obtain ⟨rfl, quiet⟩ := scoringContext_quiet returned
    have steps : Stepwise (Receipted (.str tx.id)) := receipted_steps
    have kept := Leaves.bind steps (record_receipted _ _) (fun _ => .pure steps ctx)
      rest.modifyThen
    refine ⟨h₁, h₂, _, rfl, quiet, ?_, .inl ⟨?_, kept⟩⟩
    · rfl
    · rfl

/-- However a run ends, its receipts are those of its appends, all of its own transaction. -/
theorem stages_receipted {context : Option ScoringContext} {review : Option Dict} {h : History}
    {r : Except Raised Unit} {t : PipelineResult}
    (ends : Ends (stages host o tx context review) {} h r t) :
    t.audit.entries = h.flatMap receipt ∧ ∀ d ∈ h, d.1.About (.str tx.id) := by
  have whole : ∃ h₁ h₂ u, h = h₁ ++ h₂ ∧ (∀ d ∈ h₁, d.1.isAppend = false) ∧
      u.audit.entries = [] ∧ (u.transaction = tx.modelDump host ∧ Receipted (.str tx.id) h₂ u t ∨
        h₂ = [] ∧ t = u) := by
    rcases ends.bind with ⟨e, rfl, raised⟩ | ⟨ctx, v, h₁, h₂, rfl, returned, rest⟩
    · obtain ⟨h₁, h₂, u, rfl, quiet, empty, opened | ⟨rfl, rfl, _⟩⟩ := openCase_receipted raised
      · exact ⟨h₁, h₂, u, rfl, quiet, by rw [empty], .inl opened⟩
      · exact ⟨h₁, [], t, rfl, quiet, by rw [empty], .inr ⟨rfl, rfl⟩⟩
    · obtain ⟨h₁, h₃, u, rfl, quiet, empty, ⟨owner, opened⟩ | ⟨_, _, e, same⟩⟩ :=
        openCase_receipted returned
      · refine ⟨h₁, h₃ ++ h₂, u, List.append_assoc .., quiet, by rw [empty], .inl ⟨owner, ?_⟩⟩
        exact receipted_steps.trans opened (opened_receipted ctx rest)
      · cases same
  obtain ⟨h₁, h₂, u, rfl, quiet, empty, rest⟩ := whole
  have opening : Receipted (.str tx.id) h₁ { u with transaction := tx.modelDump host }
      { u with transaction := tx.modelDump host } := receipted_quiet quiet _
  obtain ⟨_, before, about⟩ := opening rfl
  have unreceipted : h₁.flatMap receipt = [] := List.self_eq_append_right.mp before
  rw [List.flatMap_append, unreceipted, List.nil_append]
  rcases rest with ⟨owner, kept⟩ | ⟨rfl, rfl⟩
  · obtain ⟨_, entries, about'⟩ := kept (owner ▸ rfl)
    exact ⟨by rw [entries, empty, List.nil_append], List.forall_mem_append.mpr ⟨about, about'⟩⟩
  · exact ⟨empty, by rwa [List.append_nil]⟩

end Orchestrator

/-! ## Verified -/

/-- The verification that made a result verified came back valid, after the last append. -/
def VerifiedBy (h : History) (audit : AuditTrail) : Prop :=
  ∃ h₁ verification valid h₂, h = h₁ ++ ⟨.verify, .ok verification⟩ :: h₂ ∧
    audit.verification = some verification ∧ verification.getItem "valid" = .ok valid ∧
    valid.truthy = true ∧ h₂.flatMap receipt = []

theorem recordPolicy_verified {event : Dict} {s t : PipelineResult} {h : History} {b : Bool}
    (returns : Returns (recordPolicy host id event) s h b t)
    (verified : t.audit.status = .verified) : VerifiedBy h t.audit ∧ t.audit.errors = [] := by
  rcases returns.attempt with done | ⟨e, u, h₁, h₂, rfl, failed, handled⟩
  · obtain ⟨_, receipt, _, rfl, rfl, rest⟩ := done.request
    obtain ⟨_, verification, _, rfl, rfl, answered⟩ := rest.modifyThen.request
    obtain ⟨checkedAt, _, rfl, checked⟩ := answered.modifyThen.askThen
    obtain ⟨valid, found, last⟩ := checked.modifyThen.raisingThen
    obtain ⟨rfl, _, rfl⟩ := last.getThen.modifyThen.pure
    have both : (valid.truthy && s.audit.errors.isEmpty) = true := by
      by_contra falsy
      have failed : (if (valid.truthy && s.audit.errors.isEmpty) = true then AuditStatus.verified
        else AuditStatus.failed) = .verified := verified
      rw [if_neg falsy] at failed
      cases failed
    obtain ⟨truthy, clean⟩ := Bool.and_eq_true_iff.mp both
    exact ⟨⟨[_], verification, valid, _, rfl, rfl, found, truthy, rfl⟩, List.isEmpty_iff.mp clean⟩
  · obtain ⟨rfl, rfl, rfl⟩ := (exceptException_returns handled).modifyThen.modifyThen.pure
    have status : (if u.audit.status ≠ .failed then AuditStatus.unavailable
      else AuditStatus.failed) = .verified := verified
    split at status <;> cases status

/-- A policy that left no error was recorded. -/
theorem recordPolicy_errors {event : Dict} {s t : PipelineResult} {h : History} {b : Bool}
    (returns : Returns (recordPolicy host id event) s h b t) (clean : t.audit.errors = []) :
    s.audit.errors = [] ∧ AppendsOk h := by
  rcases returns.attempt with done | ⟨e, u, h₁, h₂, rfl, failed, handled⟩
  · obtain ⟨_, receipt, _, rfl, rfl, rest⟩ := done.request
    obtain ⟨audit, answer, rfl, once, errors, _⟩ := verifyAudit_ends rest.modifyThen
    refine ⟨errors.symm.trans clean, ?_⟩
    show ∀ a ∈ Except.ok receipt :: appendAnswers _, a.isOk = true
    rw [once.appends]
    intro a mem
    rw [List.mem_singleton.mp mem]
    rfl
  · obtain ⟨rfl, rfl, rfl⟩ := (exceptException_returns handled).modifyThen.modifyThen.pure
    exact absurd clean (List.append_ne_nil_of_right_ne_nil _ (List.cons_ne_nil _ _))

theorem VerifiedBy.after {h : History} {audit : AuditTrail} (before : History)
    (verified : VerifiedBy h audit) : VerifiedBy (before ++ h) audit := by
  obtain ⟨h₁, verification, valid, h₂, rfl, rest⟩ := verified
  exact ⟨before ++ h₁, verification, valid, h₂, (List.append_assoc ..).symm, rest⟩

theorem VerifiedBy.before {h later : History} {audit : AuditTrail}
    (quiet : later.flatMap receipt = []) (verified : VerifiedBy h audit) :
    VerifiedBy (h ++ later) audit := by
  obtain ⟨h₁, verification, valid, h₂, rfl, kept, found, truthy, unreceipted⟩ := verified
  refine ⟨h₁, verification, valid, h₂ ++ later, by simp, kept, found, truthy, ?_⟩
  rw [List.flatMap_append, unreceipted, quiet]
  rfl

theorem flatMap_receipt_nil {h : History} (none : appendAnswers h = []) :
    h.flatMap receipt = [] := by
  refine List.flatMap_eq_nil_iff.mpr fun d mem => ?_
  have unanswered := List.filterMap_eq_nil_iff.mp none d mem
  obtain ⟨op, answer⟩ := d
  cases op with
  | append => cases unanswered
  | _ => rfl

/-- The payment gate, as far as the audit goes. -/
theorem applyPaymentControl_audited {s t : PipelineResult} {h : History}
    (returns : Returns (applyPaymentControl host true) s h () t) :
    (t.audit.status = .verified → VerifiedBy h t.audit ∧ t.audit.errors = []) ∧
      (t.audit.errors = [] → s.audit.errors = [] ∧ AppendsOk h) := by
  obtain ⟨decision, _, rest⟩ := returns.getThen.raisingThen
  obtain ⟨timestamp, h', rfl, asked⟩ := rest.askThen
  obtain ⟨transactionId, _, named⟩ := asked.raisingThen
  obtain ⟨accountId, _, owned⟩ := named.raisingThen
  obtain ⟨verified, _, h₁, h₂, rfl, recorded, later⟩ := owned.modifyThen.bind
  rw [if_pos rfl] at recorded
  obtain ⟨execution, _, h₃, _, rfl, executed, last⟩ := later.bind
  obtain ⟨rfl, appends, _⟩ := execute_returns executed
  obtain ⟨rfl, rfl⟩ := last.modify
  have unanswered : appendAnswers (h₃ ++ []) = [] := by rwa [List.append_nil]
  constructor
  · intro status
    obtain ⟨own, clean⟩ := recordPolicy_verified recorded status
    exact ⟨(own.before (flatMap_receipt_nil unanswered)).after [⟨.now, timestamp⟩], clean⟩
  · intro clean
    obtain ⟨before, ok⟩ := recordPolicy_errors recorded clean
    refine ⟨before, ?_⟩
    have same : appendAnswers (⟨.now, timestamp⟩ :: (h₁ ++ (h₃ ++ []))) = appendAnswers h₁ := by
      show appendAnswers (h₁ ++ (h₃ ++ [])) = _
      rw [appendAnswers_append, unanswered, List.append_nil]
    unfold AppendsOk
    rw [same]
    exact ok

namespace Orchestrator

theorem finish_audited (configured : o.audit = true) {s t : PipelineResult} {past h : History}
    (before : Recorded past {} s.audit) (returns : Returns (finish host o tx) s h () t) :
    (t.audit.status = .verified → VerifiedBy h t.audit ∧ t.audit.errors = []) ∧
      (t.audit.errors = [] → AppendsOk (past ++ h)) := by
  obtain ⟨_, _, h₁, _, rfl, recorded, rest⟩ := returns.getThen.bind
  obtain ⟨trail, rfl, trailed⟩ := record_returns recorded
  have opened : Recorded (past ++ h₁) {} trail := before.trans trailed
  obtain ⟨_, _, h₂, h₃, rfl, verified, controlled⟩ := rest.bind
  rw [configured] at controlled
  obtain ⟨first, once, clean⟩ := verifyCase_errors configured verified
  obtain ⟨status, errors⟩ := applyPaymentControl_audited controlled
  constructor
  · intro kept
    obtain ⟨own, clean⟩ := status kept
    exact ⟨(own.after h₂).after h₁, clean⟩
  · intro none
    obtain ⟨noErrors, appended⟩ := errors none
    obtain ⟨earlier, _⟩ := clean.mp noErrors
    have ok := (opened.errors.mp earlier).2
    have quiet : AppendsOk h₂ := by
      unfold AppendsOk
      rw [once.appends]
      exact fun _ mem => by cases mem
    rw [← List.append_assoc]
    exact (appendsOk_append _ _).mpr ⟨ok, (appendsOk_append _ _).mpr ⟨quiet, appended⟩⟩

end Orchestrator

/-- What a finished run says of its audit: whose receipts it holds, that none is missing when
there is no error, and what verified it. -/
theorem processTransaction_audited (configured : o.audit = true)
    {context : Option ScoringContext} {review : Option Dict} {h : History}
    {result : PipelineResult}
    (run : (o.processTransaction host tx context review).Runs h (.ok result)) :
    result.audit.entries = h.flatMap receipt ∧ (result.audit.errors = [] → AppendsOk h) ∧
      (result.audit.status = .verified →
        VerifiedBy h result.audit ∧ result.audit.errors = []) := by
  have ends := onNew_returns run
  obtain ⟨h₁, h₂, s, ctx, rules, prefilter, rfl, finished, trail, _⟩ :=
    Orchestrator.stages_returns ends
  obtain ⟨status, errors⟩ := Orchestrator.finish_audited configured trail finished
  refine ⟨(Orchestrator.stages_receipted ends).1, errors, fun verified => ?_⟩
  obtain ⟨own, clean⟩ := status verified
  exact ⟨own.after h₁, clean⟩

/-- A run is verified when its audit answered as it should. -/
theorem processTransaction_verified (configured : o.audit = true)
    {context : Option ScoringContext} {review : Option Dict} {h : History}
    {result : PipelineResult}
    (run : (o.processTransaction host tx context review).Runs h (.ok result))
    (appended : AppendsOk h) (valid : ∀ answer ∈ verifyAnswers h, ReturnedValid answer) :
    result.audit.status = .verified := by
  obtain ⟨h₁, h₂, s, ctx, rules, prefilter, rfl, finished, trail, _⟩ :=
    Orchestrator.stages_returns (onNew_returns run)
  obtain ⟨status, answered⟩ := finish_status configured trail finished
  obtain ⟨first, second, verifies⟩ := answered appended
  rw [verifies] at valid
  obtain ⟨completed, rest⟩ := List.forall_mem_cons.mp valid
  exact status.mpr ⟨appended, first, second, verifies, completed.completed,
    List.forall_mem_singleton.mp rest⟩

instance Op.nonemptyRes (op : Op) : Nonempty op.Res := ⟨clearAnswers [] op⟩

/-- Wherever a run stands, it has appended about its transaction only. -/
theorem processTransaction_about {context : Option ScoringContext} {review : Option Dict}
    {h : History} {p : Prog Op Op.Res (Except Raised PipelineResult)}
    (past : Prog.Past (o.processTransaction host tx context review) h p) :
    ∀ d ∈ h, d.1.About (.str tx.id) := by
  obtain ⟨h', out, run⟩ := Prog.exists_runs p
  obtain ⟨r, t, ends, _⟩ := onNew_ends (past.append run)
  exact fun d mem => (Orchestrator.stages_receipted ends).2 d (List.mem_append_left _ mem)

/-- And so it is with what it asks next. -/
theorem processTransaction_asks {context : Option ScoringContext} {review : Option Dict}
    {h : History} {op : Op} {k : op.Res → Prog Op Op.Res (Except Raised PipelineResult)}
    (past : Prog.Past (o.processTransaction host tx context review) h (.call op k)) :
    op.About (.str tx.id) :=
  processTransaction_about (past.snoc (Classical.arbitrary _)) _
    (List.mem_append_right _ (List.mem_singleton_self _))

end VaultWatch.Agents
