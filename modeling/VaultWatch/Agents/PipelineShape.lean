import VaultWatch.Agents.WatchlistBlock

/-! # The shape of a result

Which verdicts a returned result holds, the stage it says it has reached and its events
follow from one another: no stage is skipped, doubled or out of order, and each call of a
research tool is among the events. -/
namespace VaultWatch.Agents

open VaultWatch.Lib.Effects VaultWatch.Lib.Interleave

/-! ## Shapes -/

/-- The stage that the verdicts of a result say it has reached. -/
def PipelineResult.reached (r : PipelineResult) : PipelineStage :=
  if r.case.isNone then .closed
  else if r.alert.any (·.fusedWithSecurityEvent) then .fusion
  else if r.compliance.isSome then .compliance
  else .investigation

/-- What the events of a result say before the payment event, given the research calls and
the security event that was fused. -/
def PipelineResult.outline (r : PipelineResult) (toolEvents : List ToolEvent)
    (securityEvent : Option SecurityEvent) : List Report :=
  r.rules.toList.map (.stage .rules ·.modelDump) ++
    r.prefilter.toList.map (.stage .prefilter ·.modelDump) ++
    r.triage.toList.map (.stage .triage ·.modelDump) ++
    match r.case with
    | none => [.stage .closed []]
    | some case => toolEvents.map Orchestrator.toolReport ++
        [.stage .investigation case.modelDump] ++
        r.compliance.toList.map (.stage .compliance ·.modelDump) ++
        securityEvent.toList.map (.stage .fusion ·.modelDump) ++ r.alert.toList.map .alert

/-- Each verdict is there exactly when the one before asks for it. -/
structure Shaped (r : PipelineResult) (rules : RuleEngineVerdict) (prefilter : PreFilterVerdict) :
    Prop where
  ruled : r.rules = some rules
  filtered : r.prefilter = some prefilter
  triage : r.triage.isSome ↔ rules.riskScore ≥ 25 ∨ prefilter.isAnomaly
  case : r.case.isSome ↔ ∃ triage, r.triage = some triage ∧ triage.escalate
  alert : r.alert.isSome ↔ r.case.isSome
  compliance : r.compliance.isSome ↔ ∃ case, r.case = some case ∧ case.recommendComplianceReview
  stage : r.stageReached = r.reached

/-- The alert of an investigated case says whether a security event of the account was
found when it was raised. -/
def FusedWith (tx : Transaction) (h : History) (r : PipelineResult)
    (securityEvent : Option SecurityEvent) : Prop :=
  r.case.isSome → r.alert.map (·.fusedWithSecurityEvent) = some securityEvent.isSome ∧
    ∃ now bucket, ⟨.recentSecurityEvents tx.accountId, (now, bucket)⟩ ∈ h ∧
      securityEvent = recentSecurityEvent now bucket

/-- All that the run with history `h` leaves in `r` before it finishes. -/
structure Story (host : Host) (tx : Transaction) (h : History) (r : PipelineResult)
    (rules : RuleEngineVerdict) (prefilter : PreFilterVerdict) (toolEvents : List ToolEvent)
    (securityEvent : Option SecurityEvent) : Prop where
  shaped : Shaped r rules prefilter
  told : Told host tx [] r.events (r.outline toolEvents securityEvent)
  research : List.Forall₂ Researched (research h) toolEvents
  fused : FusedWith tx h r securityEvent

variable {host : Host} {o : Orchestrator} {tx : Transaction}

/-! ## Finishing -/

theorem verifyCase_keeps {s t : PipelineResult} {h : History}
    (returns : Returns (Orchestrator.verifyCase host o) s h () t) :
    ∃ audit, t = { s with audit } := by
  by_cases configured : o.audit = true
  · obtain ⟨audit, _, rfl, _⟩ := verifyCase_returns configured returns
    exact ⟨audit, rfl⟩
  · unfold Orchestrator.verifyCase at returns
    rw [if_neg configured] at returns
    obtain ⟨_, _, rfl⟩ := returns.pure
    exact ⟨t.audit, rfl⟩

/-- The end of every run adds the payment and its event. -/
theorem finish_appends {s t : PipelineResult} {h : History}
    (owner : s.transaction = tx.modelDump host)
    (returns : Returns (Orchestrator.finish host o tx) s h () t) :
    ∃ timestamp decision audit payment, t = { s with
      events := s.events ++ [paymentEvent (.str tx.id) (.str tx.accountId) timestamp decision]
      audit
      payment := some payment } := by
  obtain ⟨_, _, _, _, rfl, recorded, rest⟩ := returns.getThen.bind
  obtain ⟨_, rfl, _⟩ := Orchestrator.record_returns recorded
  obtain ⟨_, _, _, _, rfl, verified, controlled⟩ := rest.bind
  obtain ⟨_, rfl⟩ := verifyCase_keeps verified
  obtain ⟨decision, _, rest⟩ := controlled.getThen.raisingThen
  obtain ⟨timestamp, _, rfl, asked⟩ := rest.askThen
  obtain ⟨transactionId, named, rest⟩ := asked.raisingThen
  obtain ⟨accountId, owned, rest⟩ := rest.raisingThen
  rw [owner] at named owned
  cases named
  cases owned
  obtain ⟨_, _, _, _, rfl, recorded, rest⟩ := rest.modifyThen.bind
  obtain ⟨audit, rfl, _⟩ := policyAudit_returns recorded
  obtain ⟨_, _, _, _, rfl, executed, rest⟩ := rest.bind
  obtain ⟨rfl, _⟩ := execute_returns executed
  obtain ⟨rfl, rfl⟩ := rest.modify
  exact ⟨_, decision, audit, _, rfl⟩

/-! ## Stages -/

namespace Orchestrator

/-- From the investigation to the alert. -/
theorem escalate_told {triage : TriageVerdict} {rules : RuleEngineVerdict}
    {s t : PipelineResult} {h : History} (fresh : s.compliance = none)
    (returns : Returns (escalate host o tx triage rules) s h () t) :
    ∃ h₁ h₂ case drafted securityEvent alert events audit toolEvents, h = h₁ ++ h₂ ∧
      Returns (finish host o tx) { s with
        case := some case
        compliance := drafted
        alert := some alert
        stageReached := if securityEvent.isSome then .fusion
          else if drafted.isSome then .compliance else .investigation
        events, audit } h₂ () t ∧
      drafted.isSome = case.recommendComplianceReview ∧
      alert.fusedWithSecurityEvent = securityEvent.isSome ∧
      (∃ now bucket, ⟨.recentSecurityEvents tx.accountId, (now, bucket)⟩ ∈ h₁ ∧
        securityEvent = recentSecurityEvent now bucket) ∧
      List.Forall₂ Researched (research h₁) toolEvents ∧
      Told host tx s.events events (toolEvents.map toolReport ++
        [.stage .investigation case.modelDump] ++
        drafted.toList.map (.stage .compliance ·.modelDump) ++
        securityEvent.toList.map (.stage .fusion ·.modelDump) ++ [.alert alert]) := by
  obtain ⟨case, _, h₁, _, rfl, investigated, rest⟩ := returns.bind
  obtain ⟨_, _, rfl, _, _, toolEvents, researched, told₁⟩ := investigate_returns investigated
  obtain ⟨_, _, h₂, _, rfl, ran, rest⟩ := rest.bind
  obtain ⟨drafted, _, _, rfl, _, recommended, told₂⟩ := draftCompliance_returns ran
  obtain ⟨securityEvent, _, h₃, _, rfl, fused, rest⟩ := rest.bind
  obtain ⟨_, _, rfl, _, ⟨now, bucket, read, found⟩, told₃⟩ := fuse_returns fused
  obtain ⟨_, _, h₄, h₅, rfl, raised, rest⟩ := rest.bind
  obtain ⟨alert, events, audit, rfl, _, _, marked, told₄⟩ := raiseAlert_returns raised
  have quiet : research (h₂ ++ (h₃ ++ h₄)) = [] := by
    simp only [research_append, research_quiet (draftCompliance_only (fun _ => id) _ ran),
      research_quiet (fuse_only (fun _ => id) fused),
      research_quiet (raiseAlert_only (fun _ => id) _ _ raised), List.append_nil]
  refine ⟨h₁ ++ (h₂ ++ (h₃ ++ h₄)), h₅, case, drafted, securityEvent, alert, events, audit,
    toolEvents, by simp, ?_, recommended, marked, ⟨now, bucket, by simp [read], found⟩, ?_,
    ((told₁.trans told₂).trans told₃).trans told₄⟩
  · simpa only [fresh, Option.or_none] using rest
  · rw [research_append, quiet, List.append_nil]
    exact researched

theorem signal_iff (rules : RuleEngineVerdict) (prefilter : PreFilterVerdict) :
    ¬ ClosesAtStageZero rules prefilter ↔ rules.riskScore ≥ 25 ∨ prefilter.isAnomaly := by
  rw [ClosesAtStageZero, not_and_or, not_not, Int.not_lt]
  rfl

/-- A case that was not investigated. -/
theorem closed_shaped {rules : RuleEngineVerdict} {prefilter : PreFilterVerdict}
    {s : PipelineResult} (ruled : s.rules = some rules) (filtered : s.prefilter = some prefilter)
    (triage : s.triage.isSome ↔ rules.riskScore ≥ 25 ∨ prefilter.isAnomaly)
    (kept : ∀ triage, s.triage = some triage → ¬ triage.escalate) (unfound : s.case = none)
    (unalerted : s.alert = none) (undrafted : s.compliance = none)
    (stage : s.stageReached = .closed) : Shaped s rules prefilter where
  ruled := ruled
  filtered := filtered
  triage := triage
  case := by
    rw [unfound]
    exact ⟨nofun, fun ⟨triage, triaged, escalates⟩ => absurd escalates (kept triage triaged)⟩
  alert := by simp [unalerted, unfound]
  compliance := by
    rw [undrafted, unfound]
    exact ⟨nofun, fun ⟨_, found, _⟩ => nomatch found⟩
  stage := by
    rw [stage, PipelineResult.reached, unfound]
    rfl

/-- Every way to `finish`, with what the result holds there. -/
theorem stages_told {context : Option ScoringContext} {review : Option Dict}
    {t : PipelineResult} {h : History}
    (returns : Returns (stages host o tx context review) {} h () t) :
    ∃ h₁ h₂ s rules prefilter toolEvents securityEvent, h = h₁ ++ h₂ ∧
      Returns (finish host o tx) s h₂ () t ∧ s.transaction = tx.modelDump host ∧
      Story host tx h₁ s rules prefilter toolEvents securityEvent := by
  obtain ⟨ctx, _, h₁, _, rfl, opened, rest⟩ := returns.bind
  obtain ⟨_, rfl, _⟩ := openCase_returns opened
  obtain ⟨rules, _, h₂, _, rfl, scored, rest⟩ := rest.bind
  obtain ⟨_, _, rfl, _, _, told₁⟩ := scoreRules_returns scored
  obtain ⟨prefilter, _, h₃, _, rfl, filtered, rest⟩ := rest.bind
  obtain ⟨_, _, rfl, _, _, told₂⟩ := scorePrefilter_returns filtered
  have quiet : research (h₁ ++ (h₂ ++ h₃)) = [] := by
    simp only [research_append, research_quiet (openCase_only (fun _ => id) _ _ opened),
      research_quiet (scoreRules_only (fun _ => id) _ scored),
      research_quiet (scorePrefilter_only (fun _ => id) _ filtered), List.append_nil]
  have scores := told₁.trans told₂
  split at rest
  · rename_i closes
    obtain ⟨h₄, h₅, _, _, rfl, finished, _, _, quiet₄, told₃, _⟩ := close_returns rest
    refine ⟨h₁ ++ (h₂ ++ h₃) ++ h₄, h₅, _, rules, prefilter, [], none, by simp, finished, rfl, ?_⟩
    refine ⟨closed_shaped rfl rfl ?_ nofun rfl rfl rfl rfl, scores.trans told₃, ?_, nofun⟩
    · simpa using mt (signal_iff rules prefilter).mpr (not_not.mpr closes)
    · rw [research_append, quiet, quiet₄]
      exact .nil
  · rename_i signal
    obtain ⟨triage, _, h₄, _, rfl, triaged, rest⟩ := rest.bind
    obtain ⟨_, _, rfl, _, told₃⟩ := triageCase_returns triaged
    have quiet₄ : research h₄ = [] := research_quiet (triageCase_only (fun _ => id) _ _ _ triaged)
    have asked := (signal_iff rules prefilter).mp signal
    split at rest
    · rename_i kept
      obtain ⟨h₅, h₆, _, _, rfl, finished, _, _, quiet₅, told₄, _⟩ := close_returns rest
      refine ⟨h₁ ++ (h₂ ++ h₃) ++ (h₄ ++ h₅), h₆, _, rules, prefilter, [], none, by simp, finished,
        rfl, ?_⟩
      refine ⟨closed_shaped rfl rfl ?_ ?_ rfl rfl rfl rfl, (scores.trans told₃).trans told₄, ?_,
        nofun⟩
      · simpa using asked
      · intro _ same
        cases same
        exact kept
      · rw [research_append, quiet, research_append, quiet₄, quiet₅]
        exact .nil
    · rename_i escalated
      obtain ⟨h₅, h₆, case, drafted, securityEvent, alert, events, audit, toolEvents, rfl, finished,
        recommended, marked, read, researched, told₄⟩ := escalate_told rfl rest
      refine ⟨h₁ ++ (h₂ ++ h₃) ++ (h₄ ++ h₅), h₆, _, rules, prefilter, toolEvents, securityEvent,
        by simp, finished, rfl, ?_⟩
      refine ⟨⟨rfl, rfl, ?_, ?_, ?_, ?_, ?_⟩, (scores.trans told₃).trans told₄, ?_, ?_⟩
      · simpa using asked
      · simpa using escalated
      · simp
      · simp [recommended]
      · simp [PipelineResult.reached, marked]
      · rw [research_append, quiet, research_append, quiet₄]
        exact researched
      · intro _
        obtain ⟨now, bucket, mem, found⟩ := read
        exact ⟨congrArg some marked, now, bucket, by simp [mem], found⟩

end Orchestrator

/-! ## Whole runs -/

theorem Shaped.finished {r : PipelineResult} {rules : RuleEngineVerdict}
    {prefilter : PreFilterVerdict} (shaped : Shaped r rules prefilter) (events : List Dict)
    (audit : AuditTrail) (payment : Option Payment) :
    Shaped { r with events, audit, payment } rules prefilter :=
  ⟨shaped.ruled, shaped.filtered, shaped.triage, shaped.case, shaped.alert, shaped.compliance,
    shaped.stage⟩

/-- **The pipeline is one state machine**: in every result that is returned the verdicts, the
stage and the events follow from one another, and the events end with the payment. -/
theorem pipeline_shape {context : Option ScoringContext} {review : Option Dict} {h : History}
    {result : PipelineResult}
    (run : (o.processTransaction host tx context review).Runs h (.ok result)) :
    ∃ rules prefilter toolEvents securityEvent events timestamp decision,
      Shaped result rules prefilter ∧
      result.events =
        events ++ [paymentEvent (.str tx.id) (.str tx.accountId) timestamp decision] ∧
      Told host tx [] events (result.outline toolEvents securityEvent) ∧
      List.Forall₂ Researched (research h) toolEvents ∧
      FusedWith tx h result securityEvent := by
  obtain ⟨h₁, h₂, s, rules, prefilter, toolEvents, securityEvent, rfl, finished, owner, story⟩ :=
    Orchestrator.stages_told (onNew_returns run)
  obtain ⟨timestamp, decision, audit, payment, rfl⟩ := finish_appends owner finished
  refine ⟨rules, prefilter, toolEvents, securityEvent, s.events, timestamp, decision,
    story.shaped.finished .., rfl, story.told, ?_, fun investigated => ?_⟩
  · rw [research_append, research_quiet (Orchestrator.finish_only (fun _ => id) finished),
      List.append_nil]
    exact story.research
  · obtain ⟨marked, now, bucket, read, found⟩ := story.fused investigated
    exact ⟨marked, now, bucket, List.mem_append_left _ read, found⟩

/-- A run that screens one name and raises an alert. -/
theorem pipeline_shape_screened :
    ∃ result rules prefilter toolEvents securityEvent events timestamp decision,
      (sampleOrchestrator.processTransaction sampleHost screenedTransaction (some {}) none).Runs
        (screeningRun silentCaseFile).1 (.ok result) ∧
      Shaped result rules prefilter ∧
      result.events = events ++ [paymentEvent (.str "tx_gate") (.str "acct_gate") timestamp
        decision] ∧
      Told sampleHost screenedTransaction [] events (result.outline toolEvents securityEvent) ∧
      toolEvents.length = 1 := by
  obtain ⟨result, _, run, _⟩ := screeningRun_returns silentCaseFile .hold (by decide +kernel)
  obtain ⟨rules, prefilter, toolEvents, securityEvent, events, timestamp, decision, shaped, ended,
    told, researched, _⟩ := pipeline_shape run
  refine ⟨result, rules, prefilter, toolEvents, securityEvent, events, timestamp, decision, run,
    shaped, ended, told, ?_⟩
  rw [← researched.length_eq]
  decide +kernel

end VaultWatch.Agents
