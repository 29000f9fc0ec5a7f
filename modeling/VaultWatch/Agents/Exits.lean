import VaultWatch.Agents.AuditCalls

/-! How a run of `process_transaction` gets to `finish`: it closes at stage 0, it
closes at triage, or it goes through the investigation to the alert. The
watchlist is screened in the investigation only. -/
namespace VaultWatch.Agents

open VaultWatch.Lib.Effects VaultWatch.Lib.Interleave

namespace Orchestrator

variable {host : Host} {o : Orchestrator} {tx : Transaction}

/-! ## Screening -/

/-- No call of `check_sanctions_list`. -/
abbrev Unscreened {σ α : Type} (m : Py σ α) : Prop :=
  Only (fun o => ∀ name, o ≠ .checkSanctionsList name) m

/-- Only the research tools screen. -/
theorem not_screening (op : Op) (stage : op.isResearch = false) :
    ∀ name, op ≠ .checkSanctionsList name := by
  rintro name rfl
  cases stage

theorem finish_unscreened : Unscreened (finish host o tx) := finish_only not_screening

/-! ## Exits -/

/-- No signal at stage 0. -/
def ClosesAtStageZero (rules : RuleEngineVerdict) (prefilter : PreFilterVerdict) : Prop :=
  rules.riskScore < RULES_ESCALATION_THRESHOLD ∧ ¬ prefilter.isAnomaly

def NeverScreened (h : History) : Prop :=
  ∀ d ∈ h, ∀ name, d.1 ≠ .checkSanctionsList name

/-- What a run asks of the audit client until it closes at stage 0. -/
def closingCalls (tx : Transaction) : List AuditCall :=
  ["case.opened", "pipeline.rules", "pipeline.prefilter", "pipeline.closed"].map
    (.append (.str tx.id))

/-- What the result `r` holds when a run with history `h` gets to `finish`. -/
inductive Exit (host : Host) (o : Orchestrator) (tx : Transaction) (h : History)
    (rules : RuleEngineVerdict) (prefilter : PreFilterVerdict) (r : PipelineResult) : Prop
  | stageZero (closes : ClosesAtStageZero rules prefilter) (triage : r.triage = none)
      (case : r.case = none) (alert : r.alert = none) (unscreened : NeverScreened h)
      (owner : r.transaction = tx.modelDump host)
      (calls : o.audit = true → auditCalls h = closingCalls tx)
  | triage (signal : ¬ ClosesAtStageZero rules prefilter) (case : r.case = none)
      (alert : r.alert = none) (unscreened : NeverScreened h)
  | investigated (signal : ¬ ClosesAtStageZero rules prefilter) (case : CaseFile) (alert : Alert)
      (now : Time) (bucket : List (Time × SecurityEvent))
      (caseFile : r.case = some case) (raised : r.alert = some alert)
      (emits : ∃ d ∈ h, Emits .investigation "emit_case_file" (CaseFile.ofInput host) case d)
      (read : ⟨.recentSecurityEvents tx.accountId, (now, bucket)⟩ ∈ h)
      (severity : alert.severity =
        severityFor case.riskScore (recentSecurityEvent now bucket).isSome)

theorem NeverScreened.append {h₁ h₂ : History} (first : NeverScreened h₁)
    (second : NeverScreened h₂) : NeverScreened (h₁ ++ h₂) := by
  intro d mem
  rcases List.mem_append.mp mem with mem | mem
  · exact first d mem
  · exact second d mem

theorem close_returns {label : String} {s t : PipelineResult} {h : History}
    (returns : Returns (close host o tx label) s h () t) :
    ∃ h₁ h₂ events audit, h = h₁ ++ h₂ ∧
      Returns (finish host o tx) { s with stageReached := .closed, events, audit } h₂ () t ∧
      Recorded h₁ s.audit audit ∧ NeverScreened h₁ ∧ research h₁ = [] ∧
      Told host tx s.events events [.stage .closed []] ∧
      (o.audit = true → auditCalls h₁ = [.append (.str tx.id) "pipeline.closed"]) := by
  obtain ⟨_, _, h₁, h₂, rfl, emitted, rest⟩ := returns.modifyThen.bind
  obtain ⟨timestamp, audit, rfl, trail⟩ := emitStage_returns emitted
  exact ⟨h₁, h₂, _, audit, rfl, rest, trail, emitStage_only not_screening _ _ _ emitted,
    research_quiet (emitStage_only (fun _ => id) _ _ _ emitted), .stage ..,
    fun configured => emitStage_calls configured _ _ _ emitted⟩

theorem escalate_returns {triage : TriageVerdict} {rules : RuleEngineVerdict}
    {s t : PipelineResult} {h : History}
    (returns : Returns (escalate host o tx triage rules) s h () t) :
    ∃ h₁ h₂ u case alert now bucket, h = h₁ ++ h₂ ∧ Returns (finish host o tx) u h₂ () t ∧
      Recorded h₁ s.audit u.audit ∧ u.rules = s.rules ∧ u.prefilter = s.prefilter ∧
      u.case = some case ∧ u.alert = some alert ∧
      (∃ d ∈ h₁, Emits .investigation "emit_case_file" (CaseFile.ofInput host) case d) ∧
      ⟨.recentSecurityEvents tx.accountId, (now, bucket)⟩ ∈ h₁ ∧
      alert.severity = severityFor case.riskScore (recentSecurityEvent now bucket).isSome := by
  obtain ⟨case, _, h₁, _, rfl, investigated, rest⟩ := returns.bind
  obtain ⟨_, _, rfl, trail₁, ⟨d, emitted, emits⟩, _⟩ := investigate_returns investigated
  obtain ⟨_, _, h₂, _, rfl, drafted, rest⟩ := rest.bind
  obtain ⟨_, _, _, rfl, trail₂, _⟩ := draftCompliance_returns drafted
  obtain ⟨securityEvent, _, h₃, _, rfl, fused, rest⟩ := rest.bind
  obtain ⟨_, _, rfl, trail₃, ⟨now, bucket, read, rfl⟩, _⟩ := fuse_returns fused
  obtain ⟨_, _, h₄, h₅, rfl, raised, rest⟩ := rest.bind
  obtain ⟨alert, _, _, rfl, trail₄, severity, _⟩ := raiseAlert_returns raised
  refine ⟨h₁ ++ (h₂ ++ (h₃ ++ h₄)), h₅, _, case, alert, now, bucket, by simp, rest,
    trail₁.trans (trail₂.trans (trail₃.trans trail₄)), rfl, rfl, rfl, rfl,
    ⟨d, List.mem_append_left _ emitted, emits⟩, ?_, severity⟩
  simp [read]

/-- Every run that returns gets to `finish` through one of the exits. -/
theorem stages_returns {context : Option ScoringContext} {review : Option Dict}
    {t : PipelineResult} {h : History}
    (returns : Returns (stages host o tx context review) {} h () t) :
    ∃ h₁ h₂ s ctx rules prefilter, h = h₁ ++ h₂ ∧ Returns (finish host o tx) s h₂ () t ∧
      Recorded h₁ {} s.audit ∧ s.rules = some rules ∧ s.prefilter = some prefilter ∧
      ⟨.score tx ctx, .ok rules⟩ ∈ h₁ ∧ ⟨.prefilter tx ctx, .ok prefilter⟩ ∈ h₁ ∧
      Exit host o tx h₁ rules prefilter s := by
  obtain ⟨ctx, _, h₁, _, rfl, opened, rest⟩ := returns.bind
  obtain ⟨_, rfl, trail₁⟩ := openCase_returns opened
  obtain ⟨rules, _, h₂, _, rfl, scored, rest⟩ := rest.bind
  obtain ⟨_, _, rfl, trail₂, ruled, _⟩ := scoreRules_returns scored
  obtain ⟨prefilter, _, h₃, _, rfl, filtered, rest⟩ := rest.bind
  obtain ⟨_, _, rfl, trail₃, prefiltered, _⟩ := scorePrefilter_returns filtered
  have trail := trail₁.trans (trail₂.trans trail₃)
  have quiet : NeverScreened (h₁ ++ (h₂ ++ h₃)) :=
    .append (openCase_only not_screening _ _ opened)
      (.append (scoreRules_only not_screening _ scored)
        (scorePrefilter_only not_screening _ filtered))
  split at rest
  · rename_i closes
    obtain ⟨h₄, h₅, _, _, rfl, finished, trail₄, quiet₄, _, _, closed⟩ := close_returns rest
    refine ⟨h₁ ++ (h₂ ++ h₃) ++ h₄, h₅, _, ctx, rules, prefilter, by simp, finished,
      trail.trans trail₄, rfl, rfl, by simp [ruled], by simp [prefiltered],
      .stageZero closes rfl rfl rfl (quiet.append quiet₄) rfl fun configured => ?_⟩
    simp only [auditCalls_append, openCase_calls configured _ _ opened,
      scoreRules_calls configured _ scored, scorePrefilter_calls configured _ filtered,
      closed configured]
    rfl
  · rename_i signal
    obtain ⟨triage, _, h₄, _, rfl, triaged, rest⟩ := rest.bind
    obtain ⟨_, _, rfl, trail₄, _⟩ := triageCase_returns triaged
    split at rest
    · obtain ⟨h₅, h₆, _, _, rfl, finished, trail₅, quiet₅, _⟩ := close_returns rest
      exact ⟨h₁ ++ (h₂ ++ h₃) ++ (h₄ ++ h₅), h₆, _, ctx, rules, prefilter, by simp, finished,
        trail.trans (trail₄.trans trail₅), rfl, rfl, by simp [ruled], by simp [prefiltered],
        .triage signal rfl rfl
          (quiet.append (.append (triageCase_only not_screening _ _ _ triaged) quiet₅))⟩
    · obtain ⟨h₅, h₆, u, case, alert, now, bucket, rfl, finished, trail₅, sameRules,
        samePrefilter, caseFile, raised, ⟨d, mem, emits⟩, read, severity⟩ := escalate_returns rest
      refine ⟨h₁ ++ (h₂ ++ h₃) ++ (h₄ ++ h₅), h₆, u, ctx, rules, prefilter, by simp, finished,
        trail.trans (trail₄.trans trail₅), sameRules, samePrefilter, by simp [ruled],
        by simp [prefiltered], ?_⟩
      exact .investigated signal case alert now bucket caseFile raised
        ⟨d, by simp [mem], emits⟩ (by simp [read]) severity

end Orchestrator

end VaultWatch.Agents
