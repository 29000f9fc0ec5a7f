import VaultWatch.Agents.StageCalls

/-! What each stage of the pipeline leaves in the result and in the history, as
far as the audit goes: one lemma for each definition of `Orchestrator`. A stage
sets its own verdict and otherwise only adds events, receipts and audit errors
(`Recorded`). -/
namespace VaultWatch.Agents

open VaultWatch.Lib.Effects VaultWatch.Lib.Interleave

/-! ## What a history says -/

def appendAnswers (h : History) : List (Except Raised Value) :=
  h.filterMap fun
    | ⟨.append .., answer⟩ => some answer
    | _ => none

def verifyAnswers (h : History) : List (Except Raised Value) :=
  h.filterMap fun
    | ⟨.verify, answer⟩ => some answer
    | _ => none

/-- The calls of `simulate_execution`. -/
def simulations (h : History) : List Dict :=
  h.filterMap fun
    | ⟨.simulateExecution transaction, _⟩ => some transaction
    | _ => none

@[simp] theorem appendAnswers_append (h₁ h₂ : History) :
    appendAnswers (h₁ ++ h₂) = appendAnswers h₁ ++ appendAnswers h₂ :=
  List.filterMap_append

@[simp] theorem verifyAnswers_append (h₁ h₂ : History) :
    verifyAnswers (h₁ ++ h₂) = verifyAnswers h₁ ++ verifyAnswers h₂ :=
  List.filterMap_append

@[simp] theorem simulations_append (h₁ h₂ : History) :
    simulations (h₁ ++ h₂) = simulations h₁ ++ simulations h₂ :=
  List.filterMap_append

/-- Every append of the run succeeded. -/
def AppendsOk (h : History) : Prop :=
  ∀ answer ∈ appendAnswers h, answer.isOk = true

theorem appendsOk_append (h₁ h₂ : History) :
    AppendsOk (h₁ ++ h₂) ↔ AppendsOk h₁ ∧ AppendsOk h₂ := by
  unfold AppendsOk
  rw [appendAnswers_append]
  exact List.forall_mem_append

/-- A call of `verify` that returned valid. -/
def ReturnedValid (answer : Except Raised Value) : Prop :=
  ∃ verification valid, answer = .ok verification ∧ verification.getItem "valid" = .ok valid ∧
    valid.truthy = true

/-! ## Recording -/

/-- `h` only adds receipts to the audit, and an error for each that failed. -/
structure Recorded (h : History) (before after : AuditTrail) : Prop where
  status : after.status = before.status
  errors : after.errors = [] ↔ before.errors = [] ∧ AppendsOk h
  verifies : verifyAnswers h = []
  simulations : simulations h = []

theorem Recorded.trans {h₁ h₂ : History} {a b c : AuditTrail} (first : Recorded h₁ a b)
    (second : Recorded h₂ b c) : Recorded (h₁ ++ h₂) a c where
  status := second.status.trans first.status
  errors := by rw [second.errors, first.errors, appendsOk_append, and_assoc]
  verifies := by rw [verifyAnswers_append, first.verifies, second.verifies]; rfl
  simulations := by rw [simulations_append, first.simulations, second.simulations]; rfl

/-- An operation that is no append, no verification and no simulation. -/
def Op.unaudited : Op → Bool
  | .append .. | .verify | .simulateExecution _ => false
  | _ => true

theorem Recorded.unaudited {h : History} (quiet : ∀ d ∈ h, d.1.unaudited = true)
    (a : AuditTrail) : Recorded h a a := by
  have none : ∀ {β : Type} (f : Prog.Done Op Op.Res → Option β),
      (∀ d : Prog.Done Op Op.Res, d.1.unaudited = true → f d = none) → h.filterMap f = [] := by
    intro β f skip
    exact List.filterMap_eq_nil_iff.mpr fun d mem => skip d (quiet d mem)
  have appends : appendAnswers h = [] := by
    apply none
    intro ⟨o, answer⟩ unaudited
    cases o <;> first | rfl | cases unaudited
  refine ⟨rfl, ?_, ?_, ?_⟩
  · simp [AppendsOk, appends]
  · apply none
    intro ⟨o, answer⟩ unaudited
    cases o <;> first | rfl | cases unaudited
  · apply none
    intro ⟨o, answer⟩ unaudited
    cases o <;> first | rfl | cases unaudited

theorem Recorded.nothing (a : AuditTrail) : Recorded [] a a :=
  Recorded.unaudited (fun d mem => by cases mem) a

theorem Recorded.one {d : Prog.Done Op Op.Res} (unaudited : d.1.unaudited = true)
    (a : AuditTrail) : Recorded [d] a a :=
  Recorded.unaudited (fun e mem => by rwa [List.mem_singleton.mp mem]) a

theorem Emits.unaudited {α : Type} {family : ReplayFamily} {tool : String}
    {ofInput : Dict → Except Raised α} {a : α} {d : Prog.Done Op Op.Res}
    (emits : Emits family tool ofInput a d) : d.1.unaudited = true := by
  obtain ⟨request, response, call, rfl, _⟩ := emits
  rfl

/-! ## Reporting -/

/-- What an event says: the alert, or a stage with its detail. -/
inductive Report
  | stage (stage : PipelineStage) (detail : Dict)
  | alert (alert : Alert)

def Event.report : Event → Report
  | .agent e => .stage e.stage e.detail
  | .alert a => .alert a

/-- The event is about the transaction. -/
def Event.About (tx : Transaction) : Event → Prop
  | .agent e => e.transactionId = tx.id ∧ e.accountId = tx.accountId
  | .alert a => a.transactionId = tx.id ∧ a.accountId = tx.accountId

/-- Between `before` and `after` lie events of the transaction that say `reports`. -/
def Told (host : Host) (tx : Transaction) (before after : List Dict) (reports : List Report) :
    Prop :=
  ∃ emitted : List Event, after = before ++ emitted.map (·.modelDump host) ∧
    emitted.map Event.report = reports ∧ ∀ e ∈ emitted, e.About tx

section
variable {host : Host} {tx : Transaction} {a b c : List Dict} {first second : List Report}

theorem Told.nothing (a : List Dict) : Told host tx a a [] :=
  ⟨[], (List.append_nil a).symm, rfl, fun e mem => by cases mem⟩

theorem Told.one {event : Event} (own : event.About tx) :
    Told host tx a (a ++ [event.modelDump host]) [event.report] :=
  ⟨[event], rfl, rfl, fun _ mem => List.mem_singleton.mp mem ▸ own⟩

theorem Told.stage (stage : PipelineStage) (label : String) (detail : Dict) (timestamp : Time) :
    Told host tx a (a ++
        [AgentEvent.modelDump host ⟨tx.id, tx.accountId, stage, label, detail, timestamp⟩])
      [.stage stage detail] :=
  @Told.one host tx a (.agent ⟨tx.id, tx.accountId, stage, label, detail, timestamp⟩) ⟨rfl, rfl⟩

theorem Told.trans (one : Told host tx a b first) (two : Told host tx b c second) :
    Told host tx a c (first ++ second) := by
  obtain ⟨emitted, rfl, rfl, own⟩ := one
  obtain ⟨emitted', rfl, rfl, own'⟩ := two
  refine ⟨emitted ++ emitted', by simp, by simp, fun e mem => ?_⟩
  rcases List.mem_append.mp mem with mem | mem
  · exact own e mem
  · exact own' e mem

end

theorem exceptException_returns {σ α : Type} {handler : Py σ α} {e : Raised} {s t : σ}
    {h : History} {a : α} (returns : Returns (exceptException handler e) s h a t) :
    Returns handler s h a t := by
  cases e with
  | exception type message => exact returns
  | cancelled => exact absurd returns Returns.throw

namespace Orchestrator

variable {host : Host} {o : Orchestrator} {tx : Transaction}

theorem record_returns {eventType : String} {payload : Dict} {s t : PipelineResult}
    {h : History} (returns : Returns (record o tx eventType payload) s h () t) :
    ∃ audit, t = { s with audit } ∧ Recorded h s.audit audit := by
  unfold record at returns
  split at returns
  · rcases returns.attempt with done | ⟨e, u, h₁, h₂, rfl, failed, handled⟩
    · obtain ⟨_, receipt, _, rfl, rfl, rest⟩ := done.request
      obtain ⟨rfl, rfl⟩ := rest.modify
      refine ⟨_, rfl, rfl, ?_, rfl, rfl⟩
      simp [AppendsOk, appendAnswers, Except.toBool]
    · obtain ⟨rfl, rfl⟩ := (exceptException_returns handled).modify
      obtain ⟨answer, _, rfl, rest⟩ := failed.askThen
      obtain ⟨_, rfl, _, rfl, rfl⟩ | ⟨receipt, rfl, rest⟩ := rest.raisingThen
      · refine ⟨_, rfl, rfl, ?_, rfl, rfl⟩
        simp [AppendsOk, appendAnswers, Except.toBool]
      · obtain ⟨_, same, _⟩ := rest.modify
        cases same
  · obtain ⟨rfl, _, rfl⟩ := returns.pure
    exact ⟨t.audit, rfl, Recorded.nothing _⟩

theorem emit_returns {event : Event} {s t : PipelineResult} {h : History}
    (returns : Returns (emit host o tx event) s h () t) :
    ∃ audit, t = { s with events := s.events ++ [event.modelDump host], audit } ∧
      Recorded h s.audit audit := by
  unfold emit at returns
  have rest := returns.modifyThen
  obtain ⟨_, _, h₁, _, rfl, recorded, rest⟩ := rest.bind
  obtain ⟨audit, rfl, trail⟩ := record_returns recorded
  refine ⟨audit, ?_⟩
  split at rest
  · obtain ⟨answer, _, rfl, sent⟩ := rest.askThen
    obtain ⟨rfl, rfl, rfl⟩ := sent.raising
    exact ⟨rfl, trail.trans (Recorded.one rfl _)⟩
  · obtain ⟨rfl, _, rfl⟩ := rest.pure
    exact ⟨rfl, trail.trans (Recorded.nothing _)⟩

/-- The event an `AgentEvent` of the run becomes. -/
theorem emitStage_returns {stage : PipelineStage} {label : String} {detail : Dict}
    {s t : PipelineResult} {h : History}
    (returns : Returns (emitStage host o tx stage label detail) s h () t) :
    ∃ timestamp audit,
      t = { s with
        events := s.events ++
          [AgentEvent.modelDump host ⟨tx.id, tx.accountId, stage, label, detail, timestamp⟩]
        audit } ∧
      Recorded h s.audit audit := by
  unfold emitStage at returns
  obtain ⟨timestamp, _, rfl, rest⟩ := returns.askThen
  obtain ⟨audit, rfl, trail⟩ := emit_returns rest
  exact ⟨timestamp, audit, rfl, (Recorded.one rfl _).trans trail⟩

/-! ## Stages -/

theorem scoringContext_returns {context : Option ScoringContext} {s t : PipelineResult}
    {h : History} {ctx : ScoringContext}
    (returns : Returns (scoringContext tx context) s h ctx t) :
    t = s ∧ Recorded h s.audit s.audit := by
  unfold scoringContext at returns
  split at returns
  · obtain ⟨rfl, _, rfl⟩ := returns.pure
    exact ⟨rfl, .nothing _⟩
  · obtain ⟨_, _, rfl, raised⟩ := returns.askThen
    obtain ⟨rfl, _, rfl⟩ := raised.raising
    exact ⟨rfl, .one rfl _⟩

theorem openCase_returns {context : Option ScoringContext} {review : Option Dict}
    {s t : PipelineResult} {h : History} {ctx : ScoringContext}
    (returns : Returns (openCase host o tx context review) s h ctx t) :
    ∃ audit, t = { s with
        transaction := tx.modelDump host
        context := ctx.modelDump
        review := review.getD []
        modelMode := if o.isLive then "live" else "replay"
        audit } ∧
      Recorded h s.audit audit := by
  unfold openCase at returns
  obtain ⟨_, _, h₁, _, rfl, built, rest⟩ := returns.bind
  obtain ⟨rfl, before⟩ := scoringContext_returns built
  have rest := rest.modifyThen
  obtain ⟨_, _, h₂, _, rfl, recorded, rest⟩ := rest.bind
  obtain ⟨audit, rfl, trail⟩ := record_returns recorded
  obtain ⟨rfl, rfl, rfl⟩ := rest.pure
  exact ⟨audit, rfl, before.trans (trail.trans (.nothing _))⟩

theorem scoreRules_returns {ctx : ScoringContext} {s t : PipelineResult} {h : History}
    {rules : RuleEngineVerdict} (returns : Returns (scoreRules host o tx ctx) s h rules t) :
    ∃ events audit, t = { s with rules := some rules, events, audit } ∧
      Recorded h s.audit audit ∧ ⟨.score tx ctx, .ok rules⟩ ∈ h ∧
      Told host tx s.events events [.stage .rules rules.modelDump] := by
  unfold scoreRules at returns
  obtain ⟨_, _, _, rfl, rfl, rest⟩ := returns.request
  have rest := rest.modifyThen
  obtain ⟨_, _, h₁, _, rfl, emitted, rest⟩ := rest.bind
  obtain ⟨timestamp, audit, rfl, trail⟩ := emitStage_returns emitted
  obtain ⟨rfl, rfl, rfl⟩ := rest.pure
  exact ⟨_, audit, rfl, (Recorded.one rfl _).trans (trail.trans (.nothing _)), .head _,
    .stage ..⟩

theorem scorePrefilter_returns {ctx : ScoringContext} {s t : PipelineResult} {h : History}
    {prefilter : PreFilterVerdict}
    (returns : Returns (scorePrefilter host o tx ctx) s h prefilter t) :
    ∃ events audit, t = { s with prefilter := some prefilter, events, audit } ∧
      Recorded h s.audit audit ∧ ⟨.prefilter tx ctx, .ok prefilter⟩ ∈ h ∧
      Told host tx s.events events [.stage .prefilter prefilter.modelDump] := by
  unfold scorePrefilter at returns
  obtain ⟨_, _, _, rfl, rfl, rest⟩ := returns.request
  have rest := rest.modifyThen
  obtain ⟨_, _, h₁, _, rfl, emitted, rest⟩ := rest.bind
  obtain ⟨timestamp, audit, rfl, trail⟩ := emitStage_returns emitted
  obtain ⟨rfl, rfl, rfl⟩ := rest.pure
  exact ⟨_, audit, rfl, (Recorded.one rfl _).trans (trail.trans (.nothing _)), .head _,
    .stage ..⟩

theorem triageCase_returns {ctx : ScoringContext} {rules : RuleEngineVerdict}
    {prefilter : PreFilterVerdict} {s t : PipelineResult} {h : History} {triage : TriageVerdict}
    (returns : Returns (triageCase host o tx ctx rules prefilter) s h triage t) :
    ∃ events audit,
      t = { s with triage := some triage, stageReached := .triage, events, audit } ∧
      Recorded h s.audit audit ∧
      Told host tx s.events events [.stage .triage triage.modelDump] := by
  unfold triageCase at returns
  obtain ⟨_, _, _, _, rfl, ran, rest⟩ := returns.bind
  obtain ⟨rfl, d, rfl, emits⟩ := TriageAgent.run_returns ran
  have rest := rest.modifyThen
  have rest := rest.getThen
  obtain ⟨_, _, h₁, _, rfl, emitted, rest⟩ := rest.bind
  obtain ⟨timestamp, audit, rfl, trail⟩ := emitStage_returns emitted
  obtain ⟨rfl, rfl, rfl⟩ := rest.pure
  exact ⟨_, audit, rfl, (Recorded.one emits.unaudited _).trans (trail.trans (.nothing _)),
    .stage ..⟩

/-- What the event of a tool call says. -/
def toolReport (event : ToolEvent) : Report :=
  .stage .investigation [("tool", .str event.name), ("input", .dict event.toolInput),
    ("result", event.toolResult)]

theorem emitToolEvents_returns {toolEvents : List ToolEvent} {s t : PipelineResult} {h : History}
    (returns : Returns (toolEvents.forM (emitToolEvent host o tx)) s h () t) :
    ∃ events audit, t = { s with events, audit } ∧ Recorded h s.audit audit ∧
      Told host tx s.events events (toolEvents.map toolReport) := by
  induction toolEvents generalizing s h with
  | nil =>
    obtain ⟨rfl, _, rfl⟩ := returns.pure
    exact ⟨t.events, t.audit, rfl, .nothing _, .nothing _⟩
  | cons event rest ih =>
    obtain ⟨_, u, h₁, h₂, rfl, emitted, later⟩ := returns.bind
    obtain ⟨timestamp, audit, rfl, trail⟩ := emitStage_returns emitted.getThen
    obtain ⟨events, audit', rfl, trail', told⟩ := ih later
    exact ⟨events, audit', rfl, trail.trans trail', (Told.stage ..).trans told⟩

theorem asked_unaudited : AskedByAgents (·.unaudited = true) :=
  ⟨fun _ => rfl, fun _ => rfl, fun _ => rfl, fun _ => rfl⟩

theorem investigate_returns {triage : TriageVerdict} {rules : RuleEngineVerdict}
    {s t : PipelineResult} {h : History} {case : CaseFile}
    (returns : Returns (investigate host o tx triage rules) s h case t) :
    ∃ events audit,
      t = { s with case := some case, stageReached := .investigation, events, audit } ∧
      Recorded h s.audit audit ∧
      (∃ d ∈ h, Emits .investigation "emit_case_file" (CaseFile.ofInput host) case d) ∧
      ∃ toolEvents, List.Forall₂ Researched (research h) toolEvents ∧
        Told host tx s.events events (toolEvents.map toolReport ++
          [.stage .investigation case.modelDump]) := by
  unfold investigate at returns
  obtain ⟨⟨_, toolEvents⟩, _, h₁, _, rfl, ran, rest⟩ := returns.bind
  obtain ⟨own, rfl⟩ := ran.withLocal
  have rest := rest.modifyThen
  obtain ⟨_, _, h₂, _, rfl, emitted, rest⟩ := rest.bind
  obtain ⟨_, audit, rfl, trail, told⟩ := emitToolEvents_returns emitted
  obtain ⟨_, _, h₃, _, rfl, completed, rest⟩ := rest.bind
  obtain ⟨_, audit', rfl, trail'⟩ := emitStage_returns completed
  obtain ⟨rfl, rfl, rfl⟩ := rest.pure
  have quiet : Only (·.unaudited = true) (InvestigatorAgent.run host o.sonnetModel tx triage
      (some captureToolCall) rules.riskScore) := by
    refine InvestigatorAgent.turns_only asked_unaudited host _ ?_ _ _
    intro observe mem name toolInput result
    cases mem
    exact .modify _
  obtain ⟨d, mem, emits⟩ := InvestigatorAgent.turns_returns (fun _ => rfl) own
  obtain ⟨_, rfl, seen⟩ := InvestigatorAgent.turns_captured own
  have later : research (h₂ ++ (h₃ ++ [])) = [] := by
    simp only [research_append, research_quiet (emitToolEvents_only (fun _ => id) _ emitted),
      research_quiet (emitStage_only (fun _ => id) _ _ _ completed), List.append_nil]
  refine ⟨_, audit', rfl,
    (Recorded.unaudited (quiet own) _).trans (trail.trans (trail'.trans (.nothing _))),
    ⟨d, List.mem_append_left _ mem, emits⟩, _, ?_, told.trans (.stage ..)⟩
  rw [research_append, later, List.append_nil]
  exact seen

theorem draftCompliance_returns {case : CaseFile} {s t : PipelineResult} {h : History}
    (returns : Returns (draftCompliance host o tx case) s h () t) :
    ∃ (drafted : Option ComplianceReport) (events : List Dict) (audit : AuditTrail),
      t = { s with
        compliance := drafted.or s.compliance
        stageReached := if drafted.isSome then .compliance else s.stageReached
        events, audit } ∧
      Recorded h s.audit audit ∧ drafted.isSome = case.recommendComplianceReview ∧
      Told host tx s.events events (drafted.toList.map (.stage .compliance ·.modelDump)) := by
  unfold draftCompliance at returns
  split at returns
  · rename_i recommended
    obtain ⟨report, _, _, _, rfl, ran, rest⟩ := returns.bind
    obtain ⟨rfl, d, rfl, emits⟩ := ComplianceAgent.run_returns ran
    have rest := rest.modifyThen
    obtain ⟨timestamp, audit, rfl, trail⟩ := emitStage_returns rest
    exact ⟨some report, _, audit, rfl, (Recorded.one emits.unaudited _).trans trail,
      recommended.symm, .stage ..⟩
  · rename_i unneeded
    obtain ⟨rfl, _, rfl⟩ := returns.pure
    exact ⟨none, t.events, t.audit, rfl, .nothing _, (Bool.eq_false_iff.mpr unneeded).symm,
      .nothing _⟩

theorem emitFusion_returns {securityEvent : Option SecurityEvent} {s t : PipelineResult}
    {h : History} (returns : Returns (emitFusion host o tx securityEvent) s h () t) :
    ∃ events audit, t = { s with
        stageReached := if securityEvent.isSome then .fusion else s.stageReached
        events, audit } ∧
      Recorded h s.audit audit ∧
      Told host tx s.events events (securityEvent.toList.map (.stage .fusion ·.modelDump)) := by
  cases securityEvent with
  | some event =>
    have rest := returns.modifyThen
    obtain ⟨timestamp, audit, rfl, trail⟩ := emitStage_returns rest
    exact ⟨_, audit, rfl, trail, .stage ..⟩
  | none =>
    obtain ⟨rfl, _, rfl⟩ := returns.pure
    exact ⟨t.events, t.audit, rfl, .nothing _, .nothing _⟩

/-- The security event is the one the account's events and the clock give. -/
theorem fuse_returns {s t : PipelineResult} {h : History} {securityEvent : Option SecurityEvent}
    (returns : Returns (fuse host o tx) s h securityEvent t) :
    ∃ events audit, t = { s with
        stageReached := if securityEvent.isSome then .fusion else s.stageReached
        events, audit } ∧
      Recorded h s.audit audit ∧
      (∃ now bucket, ⟨.recentSecurityEvents tx.accountId, (now, bucket)⟩ ∈ h ∧
        securityEvent = recentSecurityEvent now bucket) ∧
      Told host tx s.events events (securityEvent.toList.map (.stage .fusion ·.modelDump)) := by
  unfold fuse at returns
  obtain ⟨⟨now, bucket⟩, _, rfl, rest⟩ := returns.askThen
  obtain ⟨_, _, h₁, _, rfl, emitted, rest⟩ := rest.bind
  obtain ⟨rfl, rfl, rfl⟩ := rest.pure
  obtain ⟨events, audit, rfl, trail, told⟩ := emitFusion_returns emitted
  exact ⟨events, audit, rfl, (Recorded.one rfl _).trans (trail.trans (.nothing _)),
    ⟨now, bucket, .head _, rfl⟩, told⟩

theorem raiseAlert_returns {case : CaseFile} {securityEvent : Option SecurityEvent}
    {s t : PipelineResult} {h : History}
    (returns : Returns (raiseAlert host o tx case securityEvent) s h () t) :
    ∃ alert events audit, t = { s with alert := some alert, events, audit } ∧
      Recorded h s.audit audit ∧
      alert.severity = severityFor case.riskScore securityEvent.isSome ∧
      alert.fusedWithSecurityEvent = securityEvent.isSome ∧
      Told host tx s.events events [.alert alert] := by
  unfold raiseAlert at returns
  obtain ⟨timestamp, _, rfl, rest⟩ := returns.askThen
  have rest := rest.modifyThen
  obtain ⟨audit, rfl, trail⟩ := emit_returns rest
  exact ⟨_, _, audit, rfl, (Recorded.one rfl _).trans trail, rfl, rfl, .one ⟨rfl, rfl⟩⟩

end Orchestrator

end VaultWatch.Agents
