import VaultWatch.Agents.PaymentGate

/-! What a watchlist hit does to the payment. The policy reads the case file the
model provider emits, not the result of the screening, so a hit blocks exactly
when the provider reports it or when the alert is critical anyway. -/
namespace VaultWatch.Agents

open VaultWatch.Lib.Effects VaultWatch.Lib.Interleave

variable {host : Host} {o : Orchestrator} {tx : Transaction}

/-- A call of `check_sanctions_list` that returned `hit = true`. -/
def returnedHit : Prog.Done Op Op.Res → Bool
  | ⟨.checkSanctionsList name, _⟩ =>
    (checkSanctionsList name).toOption.any fun result => (result.get "hit").truthy
  | _ => false

def ScreenedHit (h : History) : Prop :=
  ∃ d ∈ h, returnedHit d = true

instance (h : History) : Decidable (ScreenedHit h) :=
  inferInstanceAs (Decidable (∃ d ∈ h, returnedHit d = true))

theorem screening_of_returnedHit {d : Prog.Done Op Op.Res} (hit : returnedHit d = true) :
    ∃ name, d.1 = .checkSanctionsList name := by
  obtain ⟨op, answer⟩ := d
  cases op with
  | checkSanctionsList name => exact ⟨name, rfl⟩
  | _ => cases hit

theorem severityFor_critical_iff (riskScore : Int) (hasSecurityEvent : Bool) :
    (severityFor riskScore hasSecurityEvent).value = "critical" ↔
      hasSecurityEvent = true ∧ 50 ≤ riskScore := by
  unfold severityFor
  by_cases critical : hasSecurityEvent = true ∧ riskScore ≥ 50
  · rw [if_pos critical]
    exact ⟨fun _ => critical, fun _ => rfl⟩
  · rw [if_neg critical]
    refine ⟨fun same => ?_, fun c => absurd c critical⟩
    split at same
    · exact absurd same (by decide)
    · split at same
      · exact absurd same (by decide)
      · exact absurd same (by decide)

/-- The runs in which the watchlist is screened go through the investigation. -/
theorem investigated_of_screened {h : History} {rules : RuleEngineVerdict}
    {prefilter : PreFilterVerdict} {s : PipelineResult} (screened : ScreenedHit h)
    (exit : Orchestrator.Exit host o tx h rules prefilter s) :
    ∃ case alert now bucket, s.case = some case ∧ s.alert = some alert ∧
      (∃ d ∈ h, Emits .investigation "emit_case_file" (CaseFile.ofInput host) case d) ∧
      ⟨.recentSecurityEvents tx.accountId, (now, bucket)⟩ ∈ h ∧
      alert.severity = severityFor case.riskScore (recentSecurityEvent now bucket).isSome := by
  obtain ⟨d, mem, hit⟩ := screened
  obtain ⟨name, screening⟩ := screening_of_returnedHit hit
  cases exit with
  | stageZero _ _ _ _ unscreened _ _ => exact absurd screening (unscreened d mem name)
  | triage _ _ _ unscreened => exact absurd screening (unscreened d mem name)
  | investigated _ case alert now bucket caseFile raised emits read severity =>
    exact ⟨case, alert, now, bucket, caseFile, raised, emits, read, severity⟩

/-- After a hit the payment is blocked if and only if the emitted case file says
so, or its score is at least 50 and a recent security event is fused with it. -/
theorem watchlist_hit_blocks_iff {context : Option ScoringContext} {review : Option Dict}
    {h : History} {result : PipelineResult}
    (run : (o.processTransaction host tx context review).Runs h (.ok result))
    (hit : ScreenedHit h) :
    ∃ case now bucket payment,
      (∃ d ∈ h, Emits .investigation "emit_case_file" (CaseFile.ofInput host) case d) ∧
      ⟨.recentSecurityEvents tx.accountId, (now, bucket)⟩ ∈ h ∧ result.case = some case ∧
      result.payment = some payment ∧
      (payment.action = .block ↔ case.sanctionsHit = true ∨
        (50 ≤ case.riskScore ∧ (recentSecurityEvent now bucket).isSome = true)) := by
  obtain ⟨h₁, h₂, s, ctx, rules, prefilter, rfl, finished, trail, _, _, _, _, exit⟩ :=
    Orchestrator.stages_returns (onNew_returns run)
  have screened : ScreenedHit h₁ := by
    obtain ⟨d, mem, hit⟩ := hit
    obtain ⟨name, screening⟩ := screening_of_returnedHit hit
    rcases List.mem_append.mp mem with mem | mem
    · exact ⟨d, mem, hit⟩
    · exact absurd screening (Orchestrator.finish_unscreened finished d mem name)
  obtain ⟨case, alert, now, bucket, caseFile, raised, ⟨d, emitted, emits⟩, read, severity⟩ :=
    investigated_of_screened screened exit
  obtain ⟨payment, events, audit, rfl, blocks, _⟩ := finish_returns trail finished
  refine ⟨case, now, bucket, payment, ⟨d, List.mem_append_left _ emitted, emits⟩,
    List.mem_append_left _ read, caseFile, rfl, blocks.trans ((policy_block_iff s).trans ?_)⟩
  have sanctioned : s.case.any (·.sanctionsHit) = case.sanctionsHit := by
    rw [caseFile]
    rfl
  have graded : s.severity = some alert.severity.value := by
    unfold PipelineResult.severity
    rw [raised]
  rw [sanctioned, graded, severity, Option.some.injEq, severityFor_critical_iff,
    and_comm (a := 50 ≤ case.riskScore)]

/-! A provider that triages, screens the name and then emits `caseFile`. -/

def triageResponse : ModelResponse where
  text := ""
  toolCalls := [⟨"toolu_1", "emit_triage_verdict",
    [("fraud_likelihood", .float (4 / 5)), ("category", .str "sanctions_exposure"),
      ("escalate", .bool true), ("reasoning", .str "The beneficiary needs screening.")]⟩]
  stopReason := "tool_use"

def screeningResponse : ModelResponse where
  text := ""
  toolCalls := [⟨"toolu_2", "check_sanctions_list", [("name", .str "Victor Krantz Holdings")]⟩]
  stopReason := "tool_use"

def caseResponse (caseFile : Dict) : ModelResponse where
  text := ""
  toolCalls := [⟨"toolu_3", "emit_case_file", caseFile⟩]
  stopReason := "tool_use"

def screeningProvider (caseFile : Dict) (request : CompleteRequest) : ModelResponse :=
  match request.replayFamily with
  | .triage => triageResponse
  | .investigation =>
    if request.messages.length = 1 then screeningResponse else caseResponse caseFile
  | .compliance => { text := "" }

def screeningAnswers (caseFile : Dict) (past : History) : (o : Op) → o.Res
  | .score .. => .ok { transactionId := "tx_gate", riskScore := 30, riskBand := "medium" }
  | .complete request => .ok (screeningProvider caseFile request)
  | o => clearAnswers past o

def screenedTransaction : Transaction :=
  { sampleTransaction with beneficiaryName := some "Victor Krantz Holdings" }

def screeningRun (caseFile : Dict) : History × Except Raised PipelineResult :=
  (sampleOrchestrator.processTransaction sampleHost screenedTransaction (some {}) none).play
    (screeningAnswers caseFile) []

/-- The case file without its optional fields. -/
def silentCaseFile : Dict :=
  [("summary", .str "No further indication of fraud."), ("risk_score", .int 12),
    ("evidence", .list []), ("recommend_compliance_review", .bool false)]

theorem screeningRun_returns (caseFile : Dict) (action : PaymentAction)
    (acted : (screeningRun caseFile).2.toOption.any (·.payment.any (·.action = action)) = true) :
    ∃ result payment,
      (sampleOrchestrator.processTransaction sampleHost screenedTransaction (some {}) none).Runs
        (screeningRun caseFile).1 (.ok result) ∧
      result.payment = some payment ∧ payment.action = action := by
  have run :
      (sampleOrchestrator.processTransaction sampleHost screenedTransaction (some {}) none).Runs
        (screeningRun caseFile).1 (screeningRun caseFile).2 := Prog.play_runs _ [] _
  cases ended : (screeningRun caseFile).2 with
  | error e =>
    rw [ended] at acted
    cases acted
  | ok result =>
    rw [ended] at run acted
    have decided : result.payment.any (·.action = action) = true := acted
    obtain ⟨payment, paid, same⟩ := (Option.any_eq_true _ _).mp decided
    exact ⟨result, payment, run, paid, of_decide_eq_true same⟩

/-- A provider that reports the hit. -/
theorem watchlist_hit_blocks_reported :
    ∃ h result case payment,
      (sampleOrchestrator.processTransaction sampleHost screenedTransaction (some {}) none).Runs h
        (.ok result) ∧
      ScreenedHit h ∧ result.case = some case ∧ result.payment = some payment ∧
      payment.action = .block := by
  obtain ⟨result, payment, run, paid, blocked⟩ :=
    screeningRun_returns (("sanctions_hit", .bool true) :: silentCaseFile) .block
      (by decide +kernel)
  have hit : ScreenedHit (screeningRun (("sanctions_hit", .bool true) :: silentCaseFile)).1 := by
    decide +kernel
  obtain ⟨case, _, _, _, _, _, caseFile, _⟩ := watchlist_hit_blocks_iff run hit
  exact ⟨_, result, case, payment, run, hit, caseFile, paid, blocked⟩

/-- The name is on the watchlist, the provider leaves `sanctions_hit` out, and the
payment is only held. -/
theorem watchlist_hit_held :
    ∃ h result payment,
      (sampleOrchestrator.processTransaction sampleHost screenedTransaction (some {}) none).Runs h
        (.ok result) ∧
      ScreenedHit h ∧ result.payment = some payment ∧ payment.action ≠ .block := by
  obtain ⟨result, payment, run, paid, held⟩ :=
    screeningRun_returns silentCaseFile .hold (by decide +kernel)
  refine ⟨_, result, payment, run, by decide +kernel, paid, ?_⟩
  rw [held]
  decide

end VaultWatch.Agents
