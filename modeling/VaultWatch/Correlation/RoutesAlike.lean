import VaultWatch.Agents.Undisturbed
import VaultWatch.Agents.WatchlistBlock
import VaultWatch.Correlation.Routes

/-! # Both pipelines take the same way

The service keeps the research calls of an investigation until it has ended, records every
event, looks for a security event before it alerts and decides on the payment at the end. With
no recent security event and an event sink that accepts, a transaction still goes where the
showcase would send it. -/
namespace VaultWatch.Correlation

open VaultWatch.Lib.Effects VaultWatch.Lib.Interleave VaultWatch.Agents

/-- The stage of an event of the service. -/
def eventStage (event : Dict) : Option Value := event.lookup "stage"

/-- The last event is the payment's. -/
def serviceRoute (result : PipelineResult) : Route where
  stageReached := result.stageReached.value
  rules := result.rules
  prefilter := result.prefilter
  triage := result.triage
  case := result.case
  compliance := result.compliance
  severity := result.alert.map (·.severity)
  stages := result.events.dropLast.map eventStage

/-- The context and the scores are those of `oc`. -/
def Scored (oc : Outcomes) : (o : Op) → o.Res → Prop
  | .buildScoringContext .., answer => answer.map (fun _ => ()) = oc.context
  | .score .., answer => answer = oc.rules
  | .prefilter .., answer => answer = oc.prefilter
  | _, _ => True

/-- In the run with history `h` the service's stages end as in `oc`. An agent's is over when
the agent returns or raises, whatever it asks before. -/
structure ServiceGiven (host : Host) (o : Orchestrator) (tx : Transaction)
    (context : Option ScoringContext) (oc : Outcomes) (h : History) : Prop where
  context : ∀ ctx, context = some ctx → oc.context = .ok ()
  scored : ∀ d ∈ h, Scored oc d.1 d.2
  triage : ∀ ctx rules prefilter (s : PipelineResult), Wherever h
    (TriageAgent.run host o.haikuModel tx ctx rules prefilter) s fun r _ => r = oc.triage
  case : ∀ triage rulesScore, Wherever h
    (InvestigatorAgent.run host o.sonnetModel tx triage (some Orchestrator.captureToolCall)
      rulesScore) []
    fun r toolEvents => r = oc.case ∧ toolEvents.map (fun e => (e.name, e.toolInput)) = oc.tools
  compliance : ∀ case (s : PipelineResult), Wherever h
    (ComplianceAgent.run host o.sonnetModel tx case) s fun r _ => r = oc.compliance

section
variable {host : Host} {o : Orchestrator} {tx : Transaction} {context : Option ScoringContext}
  {oc : Outcomes} {h : History}

/-- What has been emitted so far, stage by stage. -/
abbrev emitted (result : PipelineResult) : List (Option Value) :=
  result.events.map eventStage

section
variable (quiet : ∀ d ∈ h, Quiet d.1 d.2) (accepted : ∀ d ∈ h, Accepted d.1 d.2)
include quiet accepted

theorem emitStage_stage (stage : PipelineStage) (label : String) (detail : Dict)
    (s : PipelineResult) :
    Wherever h (Orchestrator.emitStage host o tx stage label detail) s <| Returning fun _ t =>
      ∃ events audit, t = { s with events, audit } ∧
        emitted t = emitted s ++ [ofStage stage.value] := by
  refine (Orchestrator.emitStage_kept quiet accepted stage label detail s).mono fun _ _ kept => ?_
  obtain ⟨_, rfl, timestamp, audit, rfl⟩ := kept
  refine ⟨(), rfl, _, audit, rfl, ?_⟩
  rw [emitted, List.map_append]
  rfl

theorem emitToolEvents_stages (toolEvents : List ToolEvent) (s : PipelineResult) :
    Wherever h (toolEvents.forM (Orchestrator.emitToolEvent host o tx)) s <| Returning fun _ t =>
      ∃ events audit, t = { s with events, audit } ∧
        emitted t = emitted s ++ toolEvents.map fun _ => ofStage "investigation" := by
  induction toolEvents generalizing s with
  | nil => exact .pure ⟨_, rfl, s.events, s.audit, rfl, by simp⟩
  | cons event toolEvents ih =>
    refine .andThen (.getThen (emitStage_stage quiet accepted _ _ _ s)) fun _ _ kept => ?_
    obtain ⟨events, audit, rfl, told⟩ := kept
    refine (ih _).mono fun _ _ kept => ?_
    obtain ⟨a, rfl, events', audit', rfl, later⟩ := kept
    refine ⟨a, rfl, events', audit', rfl, ?_⟩
    rw [later, told, List.append_assoc]
    rfl

theorem close_stage (label : String) {s : PipelineResult}
    (owner : s.transaction = tx.modelDump host) :
    Wherever h (Orchestrator.close host o tx label) s <| Returning fun _ t =>
      ∃ events audit event payment, t = { s with
        stageReached := .closed
        events := events ++ [event]
        audit
        payment := some payment } ∧ events.map eventStage = emitted s ++ [ofStage "closed"] := by
  refine .modifyThen <| .andThen (emitStage_stage quiet accepted _ _ _ _) ?_
  intro _ _ kept
  obtain ⟨events, audit, rfl, told⟩ := kept
  refine .mono (Orchestrator.finish_kept quiet ?owner) ?_
  case owner => exact owner
  intro _ _ kept
  obtain ⟨_, rfl, event, audit', payment, rfl⟩ := kept
  exact ⟨(), rfl, events, audit', event, payment, rfl, told⟩

omit accepted in
theorem fuse_stage (s : PipelineResult) :
    Wherever h (Orchestrator.fuse host o tx) s <| Returning fun found t =>
      found = none ∧ t = s := by
  refine .askThen fun read asked => ?_
  have none : recentSecurityEvent read.1 read.2 = none := quiet _ asked
  rw [none]
  exact .pure ⟨_, rfl, rfl, rfl⟩

theorem raiseAlert_stage (case : CaseFile) (s : PipelineResult) :
    Wherever h (Orchestrator.raiseAlert host o tx case none) s <| Returning fun _ t =>
      ∃ alert events audit, t = { s with alert := some alert, events, audit } ∧
        alert.severity = alertSeverity case.riskScore ∧ emitted t = emitted s ++ [none] := by
  refine .askThen fun timestamp _ => .modifyThen <|
    (Orchestrator.emit_kept quiet accepted _ _).mono fun _ _ kept => ?_
  obtain ⟨_, rfl, audit, rfl⟩ := kept
  refine ⟨(), rfl, _, _, audit, rfl, ?_, ?_⟩
  · simp [severityFor, alertSeverity]
  · rw [emitted, List.map_append]
    rfl

end

/-! ## The stages -/

section
variable (given : ServiceGiven host o tx context oc h)
include given

theorem scoringContext_stage (s : PipelineResult) :
    Wherever h (Orchestrator.scoringContext tx context) s <|
      Mirroring oc.context fun _ _ t => t = s := by
  cases chosen : context with
  | none =>
    refine .askThen fun answer asked => .raising ?_
    have built : answer.map (fun _ => ()) = oc.context := given.scored _ asked
    rw [← built]
    cases answer with
    | error e => rfl
    | ok ctx => exact ⟨ctx, rfl, rfl⟩
  | some ctx =>
    rw [given.context ctx chosen]
    exact .pure ⟨ctx, rfl, rfl⟩

theorem triageAgent_stage (ctx : ScoringContext) (rules : RuleEngineVerdict)
    (prefilter : PreFilterVerdict) (s : PipelineResult) :
    Wherever h (TriageAgent.run host o.haikuModel tx ctx rules prefilter) s <|
      Mirroring oc.triage fun triage out t => out = triage ∧ t = s :=
  .mirrored (given.triage ctx rules prefilter s) fun _ _ _ returns =>
    (TriageAgent.run_returns returns).1

theorem complianceAgent_stage (case : CaseFile) (s : PipelineResult) :
    Wherever h (ComplianceAgent.run host o.sonnetModel tx case) s <|
      Mirroring oc.compliance fun report out t => out = report ∧ t = s :=
  .mirrored (given.compliance case s) fun _ _ _ returns => (ComplianceAgent.run_returns returns).1

theorem investigatorAgent_stage (triage : TriageVerdict) (rulesScore : Int) (s : PipelineResult) :
    Wherever h (withLocal [] (InvestigatorAgent.run host o.sonnetModel tx triage
        (some Orchestrator.captureToolCall) rulesScore)) s <|
      Mirroring oc.case fun case out t =>
        out.1 = case ∧ out.2.map (fun e => (e.name, e.toolInput)) = oc.tools ∧ t = s := by
  refine .withLocal (given.case triage rulesScore) fun _ toolEvents kept => ?_
  obtain ⟨rfl, research⟩ := kept
  cases oc.case with
  | error e => rfl
  | ok case => exact ⟨(case, toolEvents), rfl, rfl, research, rfl⟩

variable (quiet : ∀ d ∈ h, Quiet d.1 d.2)
include quiet

theorem openCase_stage (review : Option Dict) (s : PipelineResult) :
    Wherever h (Orchestrator.openCase host o tx context review) s <|
      Mirroring oc.context fun _ _ t => ∃ context review modelMode audit,
        t = { s with transaction := tx.modelDump host, context, review, modelMode, audit } := by
  refine .mirrorOn (scoringContext_stage given s) fun _ _ _ kept => ?_
  obtain rfl := kept
  refine .modifyThen <| .andThen (Orchestrator.record_kept quiet _ _ _) ?_
  intro _ _ kept
  obtain ⟨audit, rfl⟩ := kept
  exact .pure ⟨_, rfl, _, _, _, audit, rfl⟩

variable (accepted : ∀ d ∈ h, Accepted d.1 d.2)
include accepted

theorem scoreRules_stage (ctx : ScoringContext) (s : PipelineResult) :
    Wherever h (Orchestrator.scoreRules host o tx ctx) s <|
      Mirroring oc.rules fun rules out t => out = rules ∧ ∃ events audit,
        t = { s with rules := some rules, events, audit } ∧
          emitted t = emitted s ++ [ofStage "rules"] := by
  refine .askThen fun answer asked => ?_
  obtain rfl : answer = oc.rules := given.scored _ asked
  refine .mirroring fun rules _ => .modifyThen <|
    .andThen (emitStage_stage quiet accepted _ _ _ _) fun _ _ kept => ?_
  obtain ⟨events, audit, rfl, told⟩ := kept
  exact .pure ⟨rules, rfl, rfl, events, audit, rfl, told⟩

theorem scorePrefilter_stage (ctx : ScoringContext) (s : PipelineResult) :
    Wherever h (Orchestrator.scorePrefilter host o tx ctx) s <|
      Mirroring oc.prefilter fun prefilter out t => out = prefilter ∧ ∃ events audit,
        t = { s with prefilter := some prefilter, events, audit } ∧
          emitted t = emitted s ++ [ofStage "prefilter"] := by
  refine .askThen fun answer asked => ?_
  obtain rfl : answer = oc.prefilter := given.scored _ asked
  refine .mirroring fun prefilter _ => .modifyThen <|
    .andThen (emitStage_stage quiet accepted _ _ _ _) fun _ _ kept => ?_
  obtain ⟨events, audit, rfl, told⟩ := kept
  exact .pure ⟨prefilter, rfl, rfl, events, audit, rfl, told⟩

theorem triageCase_stage (ctx : ScoringContext) (rules : RuleEngineVerdict)
    (prefilter : PreFilterVerdict) (s : PipelineResult) :
    Wherever h (Orchestrator.triageCase host o tx ctx rules prefilter) s <|
      Mirroring oc.triage fun triage out t => out = triage ∧ ∃ events audit,
        t = { s with triage := some triage, stageReached := .triage, events, audit } ∧
          emitted t = emitted s ++ [ofStage "triage"] := by
  refine .mirrorOn (triageAgent_stage given ctx rules prefilter s) fun triage _ _ kept => ?_
  obtain ⟨rfl, rfl⟩ := kept
  refine .modifyThen <| .getThen <| .andThen (emitStage_stage quiet accepted _ _ _ _) ?_
  intro _ _ kept
  obtain ⟨events, audit, rfl, told⟩ := kept
  exact .pure ⟨_, rfl, rfl, events, audit, rfl, told⟩

theorem investigate_stage (triage : TriageVerdict) (rules : RuleEngineVerdict)
    (s : PipelineResult) :
    Wherever h (Orchestrator.investigate host o tx triage rules) s <|
      Mirroring oc.case fun case out t => out = case ∧ ∃ events audit,
        t = { s with case := some case, stageReached := .investigation, events, audit } ∧
          emitted t = emitted s ++ (oc.tools.map fun _ => ofStage "investigation") ++
            [ofStage "investigation"] := by
  refine .mirrorOn (investigatorAgent_stage given triage rules.riskScore s) ?_
  intro case out _ kept
  obtain ⟨_, toolEvents⟩ := out
  obtain ⟨rfl, research, rfl⟩ := kept
  refine .modifyThen <| .andThen (emitToolEvents_stages quiet accepted toolEvents _) ?_
  intro _ _ kept
  obtain ⟨events, audit, rfl, told⟩ := kept
  refine .andThen (emitStage_stage quiet accepted _ _ _ _) fun _ _ kept => ?_
  obtain ⟨events', audit', rfl, told'⟩ := kept
  refine .pure ⟨_, rfl, rfl, events', audit', rfl, ?_⟩
  rw [told', told, ← research, List.map_map]
  rfl

theorem draftCompliance_stage (case : CaseFile) (s : PipelineResult) :
    Wherever h (Orchestrator.draftCompliance host o tx case) s <|
      Mirroring (oc.report case) fun report _ t => ∃ events audit,
        t = { s with
          compliance := report.or s.compliance
          stageReached := if report.isSome then .compliance else s.stageReached
          events, audit } ∧
        emitted t = emitted s ++ report.toList.map fun _ => ofStage "compliance" := by
  unfold Orchestrator.draftCompliance Outcomes.report
  split
  · refine .mirrorThen (complianceAgent_stage given case s)
      (fun e t failed => by rw [failed]; rfl) ?_
    intro report _ _ drafted kept
    obtain ⟨rfl, rfl⟩ := kept
    rw [drafted]
    refine .modifyThen <| (emitStage_stage quiet accepted _ _ _ _).mono ?_
    intro _ _ kept
    obtain ⟨_, rfl, events, audit, rfl, told⟩ := kept
    exact ⟨(), rfl, events, audit, rfl, told⟩
  · exact .pure ⟨(), rfl, s.events, s.audit, rfl, by simp⟩

/-! ## The way of a run -/

/-- From the investigation to the end. -/
theorem escalate_route {rules : RuleEngineVerdict} {prefilter : PreFilterVerdict}
    {triage : TriageVerdict} {s : PipelineResult} (owner : s.transaction = tx.modelDump host)
    (ruled : s.rules = some rules) (filtered : s.prefilter = some prefilter)
    (triaged : s.triage = some triage) (fresh : s.compliance = none)
    (told : emitted s = scoreStages ++ [ofStage "triage"]) :
    Wherever h (Orchestrator.escalate host o tx triage rules) s fun out t =>
      (out.map fun _ => serviceRoute t) = oc.escalated rules prefilter triage := by
  refine .mirrorThen (investigate_stage given quiet accepted triage rules s)
    (fun e t failed => by rw [Outcomes.escalated, failed]; rfl) ?_
  intro case _ _ found kept
  obtain ⟨rfl, events₁, audit₁, rfl, told₁⟩ := kept
  refine .mirrorThen (draftCompliance_stage given quiet accepted _ _)
    (fun e t failed => by rw [Outcomes.escalated_found found, failed]; rfl) ?_
  intro report _ _ drafted kept
  obtain ⟨events₂, audit₂, rfl, told₂⟩ := kept
  refine .andThen (fuse_stage quiet _) fun _ _ kept => ?_
  obtain ⟨rfl, rfl⟩ := kept
  refine .andThen (raiseAlert_stage quiet accepted _ _) fun _ _ kept => ?_
  obtain ⟨alert, events₃, audit₃, rfl, graded, told₃⟩ := kept
  rw [told₂, told₁, told] at told₃
  refine .mono (Orchestrator.finish_kept quiet ?owner) ?_
  case owner => exact owner
  intro _ _ kept
  obtain ⟨_, rfl, event, audit, payment, rfl⟩ := kept
  rw [Outcomes.escalated_found found, drafted]
  simp only [Except.map, serviceRoute, Outcomes.investigated, List.dropLast_concat, told₃, ruled,
    filtered, triaged, fresh, Option.map_some, graded, Option.or_none]
  cases report <;> rfl

theorem stages_route (review : Option Dict) :
    Wherever h (Orchestrator.stages host o tx context review) {} fun out t =>
      (out.map fun _ => serviceRoute t) = oc.route := by
  refine .mirrorThen (openCase_stage given quiet review {})
    (fun e t failed => by rw [Outcomes.route, failed]; rfl) ?_
  intro _ _ _ built kept
  obtain ⟨_, _, _, audit, rfl⟩ := kept
  refine .mirrorThen (scoreRules_stage given quiet accepted _ _)
    (fun e t failed => by rw [Outcomes.route, built, failed]; rfl) ?_
  intro rules _ _ scored kept
  obtain ⟨rfl, events₁, audit₁, rfl, told₁⟩ := kept
  refine .mirrorThen (scorePrefilter_stage given quiet accepted _ _)
    (fun e t failed => by rw [Outcomes.route, built, scored, failed]; rfl) ?_
  intro prefilter _ _ filtered kept
  obtain ⟨rfl, events₂, audit₂, rfl, told₂⟩ := kept
  rw [told₁] at told₂
  split
  · rename_i closes
    rw [Outcomes.route_closed built scored filtered closes]
    refine (close_stage quiet accepted _ rfl).mono fun _ _ kept => ?_
    obtain ⟨_, rfl, events, audit', event, payment, rfl, told⟩ := kept
    rw [told₂] at told
    simp only [Except.map, serviceRoute, List.dropLast_concat, told]
    rfl
  · rename_i signal
    rw [Outcomes.route_signal built scored filtered signal]
    refine .mirrorThen (triageCase_stage given quiet accepted _ _ _ _)
      (fun e t failed => by rw [Outcomes.triaged, failed]; rfl) ?_
    intro triage _ _ triaged kept
    obtain ⟨rfl, events₃, audit₃, rfl, told₃⟩ := kept
    rw [told₂] at told₃
    split
    · rename_i kept
      rw [Outcomes.triaged_kept triaged kept]
      refine (close_stage quiet accepted _ rfl).mono fun _ _ kept => ?_
      obtain ⟨_, rfl, events, audit', event, payment, rfl, told⟩ := kept
      rw [told₃] at told
      simp only [Except.map, serviceRoute, List.dropLast_concat, told]
      rfl
    · rename_i escalates
      rw [Outcomes.triaged_escalated triaged (not_not.mp escalates)]
      exact escalate_route given quiet accepted rfl rfl rfl rfl rfl told₃

end

/-- **Both pipelines route alike**: given the same outcomes of the stages, both return with the
same stage, verdicts, severity and stages of events, or both raise. -/
theorem pipelines_route_alike {texts : Showcase.Texts} {review : Option Dict}
    {g : List (Prog.Done Showcase.PipelineOp Showcase.PipelineOp.Res)}
    {out : Except Raised PipelineResult} {out' : Except Raised (Showcase.PipelineResult Dict)}
    {events : List (Showcase.StreamItem Dict)}
    (served : (o.processTransaction host tx context review).Runs h out)
    (given : ServiceGiven host o tx context oc h) (quiet : ∀ d ∈ h, Quiet d.1 d.2)
    (accepted : ∀ d ∈ h, Accepted d.1 d.2)
    (shown : Ends (Showcase.runPipeline texts tx) [] g out' events)
    (same : ∀ d ∈ g, ShowcaseGiven oc d.1 d.2) :
    out.map serviceRoute = out'.map (showcaseRoute events) := by
  obtain ⟨r, t, ends, rfl⟩ := onNew_ends served
  calc (r.map fun _ => t).map serviceRoute
      = r.map fun _ => serviceRoute t := by cases r <;> rfl
    _ = oc.route := (stages_route given quiet accepted review).whole ends
    _ = out'.map (showcaseRoute events) := ((runPipeline_route same).whole shown).symm

end

/-! ## Two runs -/

/-- A showcase whose stages end as in `oc`. -/
def showcaseAnswers (oc : Outcomes)
    (_ : List (Prog.Done Showcase.PipelineOp Showcase.PipelineOp.Res)) :
    (o : Showcase.PipelineOp) → o.Res
  | .buildScoringContext .. => oc.context.map fun _ => {}
  | .scoreTransaction .. => oc.rules
  | .scorePreFilter .. => oc.prefilter
  | .runTriageAgent .. => oc.triage
  | .runInvestigatorAgent .. => (oc.tools, oc.case)
  | .runComplianceAgent .. => oc.compliance
  | .appendAuditEntry .. => ()
  | .utcNow => "1970-01-01T00:00:00.000Z"

/-- Any outcomes are those of a run of the showcase. -/
theorem showcase_runs (oc : Outcomes) (texts : Showcase.Texts) (tx : Transaction) :
    ∃ g out events, Ends (Showcase.runPipeline texts tx) [] g out events ∧
      ∀ d ∈ g, ShowcaseGiven oc d.1 d.2 := by
  let run := ((Showcase.runPipeline texts tx).run.run []).play (showcaseAnswers oc) []
  refine ⟨run.1, run.2.1, run.2.2, Prog.play_runs (showcaseAnswers oc) [] _, fun d mem => ?_⟩
  obtain ⟨_, answered⟩ := Prog.play_answers (showcaseAnswers oc) [] _ mem
  rw [answered]
  cases d.1 with
  | buildScoringContext =>
    show (oc.context.map fun _ => ({} : ScoringContext)).map (fun _ => ()) = oc.context
    cases oc.context <;> rfl
  | _ => first | rfl | trivial

theorem complete_answered {σ : Type} {h : History} {request : CompleteRequest}
    {answer : Except Raised ModelResponse}
    (answered : ∀ r, ⟨.complete request, r⟩ ∈ h → r = answer) (s : σ) :
    Wherever h (complete request : Py σ ModelResponse) s <|
      Mirroring answer fun response out t => out = response ∧ t = s := by
  refine .askThen fun r asked => .raising ?_
  obtain rfl : r = answer := answered r asked
  cases r with
  | error e => rfl
  | ok response => exact ⟨response, rfl, rfl, rfl⟩

def sampleTexts : Showcase.Texts where
  toFixed2 := sampleHost.fixed2
  stringify d := sampleHost.dumps (.dict d)

/-- How the stages of `screeningRun` end. -/
def screeningOutcomes (caseFile : Dict) : Outcomes where
  context := .ok ()
  rules := .ok { transactionId := "tx_gate", riskScore := 30, riskBand := "medium" }
  prefilter := .ok { anomalyScore := 0, isAnomaly := false }
  triage := (triageResponse.callTo "emit_triage_verdict").elim
    (.error InvestigatorAgent.exceeded) fun call => TriageVerdict.ofInput sampleHost call.input
  tools := [("check_sanctions_list", [("name", .str "Victor Krantz Holdings")])]
  case := CaseFile.ofInput sampleHost caseFile
  compliance := .error
    (.exception "RuntimeError" "ComplianceAgent: model did not emit a compliance report")

theorem screening_executed {h : History} :
    Wherever h (InvestigatorAgent.executeCalls sampleHost (some Orchestrator.captureToolCall)
      screeningResponse.toolCalls) [] <| Returning fun _ toolEvents =>
        toolEvents.map (fun e => (e.name, e.toolInput)) =
          [("check_sanctions_list", [("name", .str "Victor Krantz Holdings")])] := by
  refine .andThen (R := fun _ t => t = []) ?_ ?_
  · refine .raisingThen nofun fun screened same => ?_
    cases same
    exact .askThen fun _ _ => .raisingThen nofun fun _ _ => .pure ⟨_, rfl, rfl⟩
  · intro result _ same
    obtain rfl := same
    exact .modifyThen <| .pure ⟨_, rfl, rfl⟩

theorem screeningRun_given (caseFile : Dict) :
    ServiceGiven sampleHost sampleOrchestrator screenedTransaction (some {})
      (screeningOutcomes caseFile) (screeningRun caseFile).1 := by
  have answered {d : Prog.Done Op Op.Res} (mem : d ∈ (screeningRun caseFile).1) :
      ∃ before, d.2 = screeningAnswers caseFile before d.1 :=
    Prog.play_answers (screeningAnswers caseFile) [] _ mem
  have provided (request : CompleteRequest) (r) :
      ⟨.complete request, r⟩ ∈ (screeningRun caseFile).1 →
        r = .ok (screeningProvider caseFile request) := by
    intro mem
    obtain ⟨_, same⟩ := answered mem
    exact same
  constructor
  · intro ctx kept
    cases kept
    rfl
  · intro d mem
    obtain ⟨_, same⟩ := answered mem
    rw [same]
    cases d.1 <;> first | rfl | trivial
  · intro ctx rules prefilter s
    refine .andThen (complete_answered (provided _) s) fun _ _ kept => ?_
    obtain ⟨rfl, rfl⟩ := kept
    exact .raising rfl
  · intro triage rulesScore
    refine .andThen (complete_answered (provided _) _) fun _ _ kept => ?_
    obtain ⟨rfl, rfl⟩ := kept
    refine .andThen screening_executed fun _ toolEvents research => ?_
    refine .andThen (complete_answered (provided _) _) fun _ _ kept => ?_
    obtain ⟨rfl, rfl⟩ := kept
    exact .raising ⟨rfl, research⟩
  · intro case s
    refine .andThen (complete_answered (provided _) s) fun _ _ kept => ?_
    obtain ⟨rfl, rfl⟩ := kept
    exact .throw rfl

/-- A case that is screened, investigated and kept from compliance, in both pipelines. -/
theorem pipelines_route_alike_screened :
    ∃ h result g out events,
      (sampleOrchestrator.processTransaction sampleHost screenedTransaction (some {}) none).Runs h
        (.ok result) ∧
      Ends (Showcase.runPipeline sampleTexts screenedTransaction) [] g out events ∧
      .ok (serviceRoute result) = out.map (showcaseRoute events) ∧
      (serviceRoute result).stageReached = "investigation" := by
  obtain ⟨result, payment, run, _⟩ := screeningRun_returns silentCaseFile .hold (by decide +kernel)
  obtain ⟨g, out, events, shown, same⟩ :=
    showcase_runs (screeningOutcomes silentCaseFile) sampleTexts screenedTransaction
  have calm {d : Prog.Done Op Op.Res} (mem : d ∈ (screeningRun silentCaseFile).1) :
      Quiet d.1 d.2 ∧ Accepted d.1 d.2 := by
    obtain ⟨_, answered⟩ := Prog.play_answers (screeningAnswers silentCaseFile) [] _ mem
    rw [answered]
    cases d.1 <;> exact ⟨by first | trivial | nofun, by trivial⟩
  have alike := pipelines_route_alike run (screeningRun_given silentCaseFile)
    (fun d mem => (calm mem).1) (fun d mem => (calm mem).2) shown same
  have routed := alike.trans ((runPipeline_route same).whole shown)
  have stage : (screeningOutcomes silentCaseFile).route.map (·.stageReached) =
    .ok "investigation" := by decide +kernel
  rw [← routed] at stage
  exact ⟨_, result, g, out, events, run, shown, alike, Except.ok.inj stage⟩

/-- A service whose event sink fails, as when a client joins during a broadcast. -/
def refusingAnswers (past : History) : (o : Op) → o.Res
  | .send _ => .error (.exception "RuntimeError" "Set changed size during iteration")
  | o => clearAnswers past o

def refusingRun : History × Except Raised PipelineResult :=
  (sampleOrchestrator.processTransaction sampleHost sampleTransaction (some {}) none).play
    refusingAnswers []

/-- How the stages of `refusingRun` end; the provider, which is not asked, is out of reach. -/
def refusingOutcomes : Outcomes where
  context := .ok ()
  rules := .ok { transactionId := "tx_gate", riskScore := 0, riskBand := "low" }
  prefilter := .ok { anomalyScore := 0, isAnomaly := false }
  triage := .error (.exception "APIConnectionError")
  tools := []
  case := .error (.exception "APIConnectionError")
  compliance := .error (.exception "APIConnectionError")

theorem refusingRun_given :
    ServiceGiven sampleHost sampleOrchestrator sampleTransaction (some {}) refusingOutcomes
      refusingRun.1 := by
  have unreachable {σ : Type} (request : CompleteRequest) (s : σ) :
      Wherever refusingRun.1 (complete request : Py σ ModelResponse) s fun r t =>
        r = .error (.exception "APIConnectionError") ∧ t = s := by
    refine .askThen fun r asked => .raising ⟨?_, rfl⟩
    obtain ⟨_, same⟩ := Prog.play_answers refusingAnswers [] _ asked
    exact same
  constructor
  · intro ctx kept
    cases kept
    rfl
  · intro d mem
    obtain ⟨_, same⟩ := Prog.play_answers refusingAnswers [] _ mem
    rw [same]
    cases d.1 <;> first | rfl | trivial
  · intro ctx rules prefilter s
    refine .bind (unreachable _ s) ?_ ?_
    · intro e t kept
      obtain ⟨⟨⟩, _⟩ := kept
      rfl
    · intro a t kept
      obtain ⟨⟨⟩, _⟩ := kept
  · intro triage rulesScore
    refine .bind (unreachable _ []) ?_ ?_
    · intro e t kept
      obtain ⟨⟨⟩, rfl⟩ := kept
      exact ⟨rfl, rfl⟩
    · intro a t kept
      obtain ⟨⟨⟩, _⟩ := kept
  · intro case s
    refine .bind (unreachable _ s) ?_ ?_
    · intro e t kept
      obtain ⟨⟨⟩, _⟩ := kept
      rfl
    · intro a t kept
      obtain ⟨⟨⟩, _⟩ := kept

/-- The pipelines part when the event sink raises: the stages end alike, every append has
succeeded and no security event is recent, but the service fails and the showcase returns. -/
theorem pipelines_part_when_refused :
    ∃ h e g result events,
      (sampleOrchestrator.processTransaction sampleHost sampleTransaction (some {}) none).Runs h
        (.error e) ∧
      ServiceGiven sampleHost sampleOrchestrator sampleTransaction (some {}) refusingOutcomes h ∧
      (∀ d ∈ h, Quiet d.1 d.2) ∧ AppendsOk h ∧ verifyAnswers h = [] ∧
      Ends (Showcase.runPipeline sampleTexts sampleTransaction) [] g (.ok result) events ∧
      ∀ d ∈ g, ShowcaseGiven refusingOutcomes d.1 d.2 := by
  obtain ⟨g, out, events, shown, same⟩ :=
    showcase_runs refusingOutcomes sampleTexts sampleTransaction
  have failed : refusingRun.2 =
    .error (.exception "RuntimeError" "Set changed size during iteration") := rfl
  have run :
      (sampleOrchestrator.processTransaction sampleHost sampleTransaction (some {}) none).Runs
        refusingRun.1 refusingRun.2 := Prog.play_runs refusingAnswers [] _
  rw [failed] at run
  have returned : refusingOutcomes.route.isOk = true := by decide +kernel
  rw [← (runPipeline_route same).whole shown] at returned
  cases out with
  | error e => cases returned
  | ok result =>
    refine ⟨_, _, g, result, events, run, refusingRun_given, fun d mem => ?_, ?_, rfl, shown, same⟩
    · obtain ⟨_, answered⟩ := Prog.play_answers refusingAnswers [] _ mem
      rw [answered]
      cases d.1 <;> first | trivial | nofun
    · unfold AppendsOk
      decide +kernel

end VaultWatch.Correlation
