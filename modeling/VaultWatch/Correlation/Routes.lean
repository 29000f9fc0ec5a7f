import VaultWatch.Lib.Parts
import VaultWatch.Showcase.Pipeline

/-! # Where a transaction goes

The way of a transaction through the stages, as a function of how each stage ends. Both
pipelines are to follow it: this module has the showcase's, `RoutesAlike` the service's. -/
namespace VaultWatch.Correlation

open VaultWatch.Lib.Effects VaultWatch.Lib.Interleave

open VaultWatch.Agents (Dict Value Raised Severity ScoringContext RuleEngineVerdict
  PreFilterVerdict TriageVerdict CaseFile ComplianceReport Transaction)

/-- How the stages end: with a verdict or an exception. A stage that is not reached may
have any. Of the scoring context it is only told whether it was built. -/
structure Outcomes where
  context : Except Raised Unit
  rules : Except Raised RuleEngineVerdict
  prefilter : Except Raised PreFilterVerdict
  triage : Except Raised TriageVerdict
  /-- The research tools executed, in order. -/
  tools : List (String × Dict)
  case : Except Raised CaseFile
  compliance : Except Raised ComplianceReport

/-- What results are compared by. The severity is the alert's; an event counts with its
`stage`, which an alert does not have. -/
structure Route where
  stageReached : String
  rules : Option RuleEngineVerdict
  prefilter : Option PreFilterVerdict
  triage : Option TriageVerdict
  case : Option CaseFile
  compliance : Option ComplianceReport
  severity : Option Severity
  stages : List (Option Value)

/-- An event of the stage. -/
def ofStage (stage : String) : Option Value := some (.str stage)

/-- An alert of that severity, without a security event. -/
def alertSeverity (riskScore : Int) : Severity :=
  if riskScore ≥ 70 then .high
  else if riskScore ≥ 40 then .medium
  else .low

def Outcomes.report (oc : Outcomes) (case : CaseFile) : Except Raised (Option ComplianceReport) :=
  if case.recommendComplianceReview then oc.compliance.map some else .ok none

/-- Both scores have been made. -/
def scoreStages : List (Option Value) := [ofStage "rules", ofStage "prefilter"]

section
variable (oc : Outcomes) (rules : RuleEngineVerdict) (prefilter : PreFilterVerdict)

/-- An investigated case, with its report. -/
def Outcomes.investigated (triage : TriageVerdict) (case : CaseFile)
    (report : Option ComplianceReport) : Route where
  stageReached := if report.isSome then "compliance" else "investigation"
  rules := rules
  prefilter := prefilter
  triage := triage
  case := case
  compliance := report
  severity := alertSeverity case.riskScore
  stages := scoreStages ++ [ofStage "triage"] ++ oc.tools.map (fun _ => ofStage "investigation") ++
    [ofStage "investigation"] ++ report.toList.map (fun _ => ofStage "compliance") ++ [none]

/-- From the investigation on. -/
def Outcomes.escalated (triage : TriageVerdict) : Except Raised Route := do
  let case ← oc.case
  let report ← oc.report case
  return oc.investigated rules prefilter triage case report

/-- From the triage on. -/
def Outcomes.triaged : Except Raised Route := do
  let triage ← oc.triage
  if triage.escalate then oc.escalated rules prefilter triage
  else return ⟨"closed", rules, prefilter, triage, none, none, none,
    scoreStages ++ [ofStage "triage", ofStage "closed"]⟩

end

/-- The way a transaction takes. -/
def Outcomes.route (oc : Outcomes) : Except Raised Route := do
  let _ ← oc.context
  let rules ← oc.rules
  let prefilter ← oc.prefilter
  if rules.riskScore < 25 ∧ ¬ prefilter.isAnomaly then
    return ⟨"closed", rules, prefilter, none, none, none, none, scoreStages ++ [ofStage "closed"]⟩
  else oc.triaged rules prefilter

namespace Outcomes

variable {oc : Outcomes} {rules : RuleEngineVerdict}
  {prefilter : PreFilterVerdict} {triage : TriageVerdict}

theorem route_closed (built : oc.context = .ok ()) (scored : oc.rules = .ok rules)
    (filtered : oc.prefilter = .ok prefilter)
    (closes : rules.riskScore < 25 ∧ ¬ prefilter.isAnomaly) :
    oc.route = .ok ⟨"closed", rules, prefilter, none, none, none, none,
      scoreStages ++ [ofStage "closed"]⟩ := by
  rw [route, built, scored, filtered]
  exact if_pos closes

theorem route_signal (built : oc.context = .ok ()) (scored : oc.rules = .ok rules)
    (filtered : oc.prefilter = .ok prefilter)
    (signal : ¬ (rules.riskScore < 25 ∧ ¬ prefilter.isAnomaly)) :
    oc.route = oc.triaged rules prefilter := by
  rw [route, built, scored, filtered]
  exact if_neg signal

theorem triaged_kept (triaged : oc.triage = .ok triage) (kept : ¬ triage.escalate) :
    oc.triaged rules prefilter = .ok ⟨"closed", rules, prefilter, triage, none, none, none,
      scoreStages ++ [ofStage "triage", ofStage "closed"]⟩ := by
  rw [Outcomes.triaged, triaged]
  exact if_neg kept

theorem triaged_escalated (triaged : oc.triage = .ok triage) (escalates : triage.escalate) :
    oc.triaged rules prefilter = oc.escalated rules prefilter triage := by
  rw [Outcomes.triaged, triaged]
  exact if_pos escalates

theorem escalated_found {case : CaseFile} (found : oc.case = .ok case) :
    oc.escalated rules prefilter triage =
      (oc.report case).map (oc.investigated rules prefilter triage case) := by
  rw [Outcomes.escalated, found]
  show (oc.report case >>= fun report => pure _) = _
  cases oc.report case <;> rfl

end Outcomes

/-! ## The showcase -/

/-- The stage of an event of the showcase. -/
def itemStage : Showcase.StreamItem Dict → Option Value
  | .event e => some (.str e.stage.value)
  | .alert _ => none

def showcaseRoute (events : List (Showcase.StreamItem Dict))
    (result : Showcase.PipelineResult Dict) : Route where
  stageReached := result.stageReached.value
  rules := result.rules
  prefilter := result.prefilter
  triage := result.triage
  case := result.case
  compliance := result.compliance
  severity := result.alert.map (·.severity)
  stages := events.map itemStage

/-- The showcase's stages end as in `oc`. -/
def ShowcaseGiven (oc : Outcomes) : (o : Showcase.PipelineOp) → o.Res → Prop
  | .buildScoringContext .., answer => answer.map (fun _ => ()) = oc.context
  | .scoreTransaction .., answer => answer = oc.rules
  | .scorePreFilter .., answer => answer = oc.prefilter
  | .runTriageAgent .., answer => answer = oc.triage
  | .runInvestigatorAgent .., answer => answer = (oc.tools, oc.case)
  | .runComplianceAgent .., answer => answer = oc.compliance
  | .appendAuditEntry .., _ => True
  | .utcNow, _ => True

section
variable {oc : Outcomes} {texts : Showcase.Texts} {tx : Transaction}
  {h : List (Prog.Done Showcase.PipelineOp Showcase.PipelineOp.Res)}

/-- What has been pushed so far, stage by stage. -/
abbrev stagesOf (events : List (Showcase.StreamItem Dict)) : List (Option Value) :=
  events.map itemStage

theorem push_stage (stage : Showcase.PipelineStage) (label : String) (detail : Dict)
    (events : List (Showcase.StreamItem Dict)) :
    Wherever h (Showcase.push tx stage label detail) events <| Returning fun _ t =>
      stagesOf t = stagesOf events ++ [ofStage stage.value] :=
  .askThen fun _ _ => .modify ⟨(), rfl, by simp [itemStage, ofStage]⟩

theorem pushToolUses_stages (calls : List Showcase.ToolUse)
    (events : List (Showcase.StreamItem Dict)) :
    Wherever h (calls.forM (Showcase.pushToolUse texts tx)) events <| Returning fun _ t =>
      stagesOf t = stagesOf events ++ calls.map fun _ => ofStage "investigation" := by
  induction calls generalizing events with
  | nil => exact .pure ⟨_, rfl, by simp⟩
  | cons call calls ih =>
    refine .andThen (push_stage _ _ _ events) fun _ t pushed => (ih t).mono fun _ u later => ?_
    obtain ⟨a, rfl, later⟩ := later
    refine ⟨a, rfl, ?_⟩
    show stagesOf u = _
    rw [later, pushed, List.append_assoc]
    rfl

theorem closeCase_stage (label : String) (result : Showcase.PipelineResult Dict)
    (events : List (Showcase.StreamItem Dict)) :
    Wherever h (Showcase.closeCase tx label result) events <| Returning fun closed t =>
      closed = result ∧ stagesOf t = stagesOf events ++ [ofStage "closed"] :=
  .andThen (push_stage _ _ _ events) fun _ _ pushed => .askThen fun _ _ =>
    .pure ⟨_, rfl, rfl, pushed⟩

theorem alertCase_stage (case : CaseFile) (result : Showcase.PipelineResult Dict)
    (events : List (Showcase.StreamItem Dict)) :
    Wherever h (Showcase.alertCase tx case result) events <| Returning fun alerted t =>
      ∃ alert, alerted = { result with alert := some alert } ∧
        alert.severity = alertSeverity case.riskScore ∧ stagesOf t = stagesOf events ++ [none] :=
  .askThen fun _ _ => .modifyThen <| .askThen fun _ _ =>
    .pure ⟨_, rfl, _, rfl, rfl, by simp [itemStage]⟩

variable (given : ∀ d ∈ h, ShowcaseGiven oc d.1 d.2)
include given

theorem investigateCase_stages (triage : TriageVerdict) (result : Showcase.PipelineResult Dict)
    (events : List (Showcase.StreamItem Dict)) :
    Wherever h (Showcase.investigateCase texts tx triage result) events <|
      Mirroring oc.case fun case out t =>
        out = ({ result with case := some case, stageReached := .investigation }, case) ∧
        stagesOf t = stagesOf events ++ (oc.tools.map fun _ => ofStage "investigation") ++
          [ofStage "investigation"] := by
  refine .askThen fun answer asked => ?_
  obtain rfl : answer = (oc.tools, oc.case) := given _ asked
  refine .andThen (pushToolUses_stages oc.tools events) fun _ t told => .mirroring fun case _ => ?_
  refine .andThen (push_stage _ _ _ t) fun _ u pushed => .pure ⟨_, rfl, rfl, ?_⟩
  rw [pushed, told]
  rfl

/-- The result with a report, if one has been drafted. -/
def complied (result : Showcase.PipelineResult Dict) :
    Option ComplianceReport → Showcase.PipelineResult Dict
  | none => result
  | some report => { result with compliance := some report, stageReached := .compliance }

theorem complyCase_stages (case : CaseFile) (result : Showcase.PipelineResult Dict)
    (events : List (Showcase.StreamItem Dict)) :
    Wherever h (Showcase.complyCase tx case result) events <|
      Mirroring (oc.report case) fun report out t => out = complied result report ∧
        stagesOf t = stagesOf events ++ report.toList.map fun _ => ofStage "compliance" := by
  unfold Showcase.complyCase Outcomes.report
  by_cases review : case.recommendComplianceReview = true
  · rw [if_pos review, if_pos review]
    refine .askThen fun answer asked => ?_
    obtain rfl : answer = oc.compliance := given _ asked
    refine .raisingThen (fun e failed => by rw [failed]; rfl) fun report drafted => ?_
    rw [drafted]
    exact .andThen (push_stage _ _ _ events) fun _ t pushed => .pure ⟨_, rfl, rfl, pushed⟩
  · rw [if_neg review, if_neg review]
    exact .pure ⟨_, rfl, rfl, by simp⟩

/-- From the investigation to the alert. -/
theorem escalated_route {rules : RuleEngineVerdict} {prefilter : PreFilterVerdict}
    {triage : TriageVerdict} {events : List (Showcase.StreamItem Dict)}
    (told : stagesOf events = scoreStages ++ [ofStage "triage"]) :
    Wherever h (do
        let (result, case) ← Showcase.investigateCase texts tx triage
          ⟨.triage, rules, prefilter, triage, none, none, none⟩
        let result ← Showcase.complyCase tx case result
        Showcase.alertCase tx case result) events fun out t =>
      out.map (showcaseRoute t) = oc.escalated rules prefilter triage := by
  refine .mirrorThen (investigateCase_stages given _ _ events)
    (fun e t failed => by rw [Outcomes.escalated, failed]; rfl) fun case out t₁ found told₁ => ?_
  obtain ⟨rfl, told₁⟩ := told₁
  refine .mirrorThen (complyCase_stages given _ _ t₁)
    (fun e t failed => by rw [Outcomes.escalated_found found, failed]; rfl)
    fun report out t₂ drafted told₂ => ?_
  obtain ⟨rfl, told₂⟩ := told₂
  refine (alertCase_stage _ _ t₂).mono fun r t ended => ?_
  obtain ⟨_, rfl, alert, rfl, graded, told₃⟩ := ended
  rw [told₂, told₁, told] at told₃
  rw [Outcomes.escalated_found found, drafted]
  simp only [Except.map, showcaseRoute, Outcomes.investigated, told₃, Option.map_some, graded]
  cases report <;> rfl

/-- Every run of the showcase follows the route of its outcomes. -/
theorem runPipeline_route :
    Wherever h (Showcase.runPipeline texts tx) [] fun out events =>
      out.map (showcaseRoute events) = oc.route := by
  refine .askThen fun answer asked => ?_
  have context : answer.map (fun _ => ()) = oc.context := given _ asked
  refine .raisingThen (fun e failed => by rw [Outcomes.route, ← context, failed]; rfl)
    fun ctx found => ?_
  have built : oc.context = .ok () := by rw [← context, found]; rfl
  refine .askThen fun _ _ => .askThen fun answer asked => ?_
  obtain rfl : answer = oc.rules := given _ asked
  refine .raisingThen (fun e failed => by rw [Outcomes.route, built, failed]; rfl)
    fun rules scored => ?_
  refine .andThen (push_stage _ _ _ _) fun _ t₁ told₁ => .askThen fun answer asked => ?_
  obtain rfl : answer = oc.prefilter := given _ asked
  refine .raisingThen (fun e failed => by rw [Outcomes.route, built, scored, failed]; rfl)
    fun prefilter filtered => ?_
  refine .andThen (push_stage _ _ _ _) fun _ t₂ told₂ => ?_
  have scores : stagesOf t₂ = scoreStages := by
    rw [told₂, told₁]
    rfl
  simp only
  split
  · rename_i closes
    rw [Outcomes.route_closed built scored filtered closes]
    refine (closeCase_stage _ _ t₂).mono fun r t ended => ?_
    obtain ⟨_, rfl, rfl, told⟩ := ended
    rw [scores] at told
    simp only [Except.map, showcaseRoute, told]
    rfl
  · rename_i signal
    rw [Outcomes.route_signal built scored filtered signal]
    refine .askThen fun answer asked => ?_
    obtain rfl : answer = oc.triage := given _ asked
    refine .raisingThen (fun e failed => by rw [Outcomes.triaged, failed]; rfl)
      fun triage triaged => ?_
    refine .andThen (push_stage _ _ _ _) fun _ t₃ told₃ => ?_
    rw [scores] at told₃
    split
    · rename_i kept
      rw [Outcomes.triaged_kept triaged kept]
      refine (closeCase_stage _ _ t₃).mono fun r t ended => ?_
      obtain ⟨_, rfl, rfl, told⟩ := ended
      rw [told₃] at told
      simp only [Except.map, showcaseRoute, told]
      rfl
    · rename_i escalates
      rw [Outcomes.triaged_escalated triaged (not_not.mp escalates)]
      exact escalated_route given told₃

end

end VaultWatch.Correlation
