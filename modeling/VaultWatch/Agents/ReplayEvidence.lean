import VaultWatch.Agents.ReplayOutcome

/-! # Replay invents no evidence

The script of an investigation is computed again in every turn from the conversation. It
spends three turns on research, each with the result of the tool in the next conversation,
and the case file of the fourth says what these results say. -/
namespace VaultWatch.Agents

open VaultWatch.Lib.Effects VaultWatch.Lib.Interleave

/-! ## Calls of the provider -/

def Op.isComplete : Op → Bool
  | .complete _ => true
  | _ => false

/-- How often the provider was asked. -/
def providerCalls (h : History) : Nat :=
  h.countP (·.1.isComplete)

theorem providerCalls_append (h₁ h₂ : History) :
    providerCalls (h₁ ++ h₂) = providerCalls h₁ + providerCalls h₂ :=
  List.countP_append ..

/-- Each answer of the provider calls one tool. -/
def SingleCalls (h : History) : Prop :=
  ∀ request response, (⟨.complete request, .ok response⟩ : Prog.Done Op Op.Res) ∈ h →
    response.toolCalls.length = 1

namespace InvestigatorAgent

open Orchestrator (captureToolCall)

variable {host : Host}

theorem executeCalls_asks {calls : List ToolCall} {content : List Block} {s t : List ToolEvent}
    {h : History}
    (returns : Returns (executeCalls host (some captureToolCall) calls) s h content t) :
    (research h).length = calls.length ∧ providerCalls h = 0 := by
  induction calls generalizing content s h with
  | nil =>
    obtain ⟨rfl, _, rfl⟩ := returns.pure
    exact ⟨rfl, rfl⟩
  | cons call calls ih =>
    obtain ⟨result, _, h₁, _, rfl, executed, rest⟩ := returns.bind
    obtain ⟨rfl, d, rfl, tool, _⟩ := executeResearchTool_returns executed
    obtain ⟨_, _, h₂, _, rfl, notified, rest⟩ := rest.bind
    obtain ⟨rfl, rfl⟩ := Returns.modify notified
    obtain ⟨_, _, h₃, _, rfl, later, rest⟩ := rest.bind
    obtain ⟨rfl, _, rfl⟩ := rest.pure
    obtain ⟨researched, silent⟩ := ih later
    have first : providerCalls [d] = 0 ∧ (research [d]).length = 1 := by
      obtain ⟨o, answer⟩ := d
      cases o <;> first | exact ⟨rfl, rfl⟩ | cases tool
    simp only [List.nil_append, List.append_nil, research_append, List.length_append,
      providerCalls_append, first, researched, silent, List.length_cons]
    exact ⟨Nat.add_comm .., trivial⟩

/-- One call of the provider for each research call, and one for the case file. -/
theorem turns_calls {request : List Message → CompleteRequest} {left : Nat}
    {messages : List Message} {case : CaseFile} {s t : List ToolEvent} {h : History}
    (single : SingleCalls h)
    (returns : Returns (turns host request (some captureToolCall) left messages) s h case t) :
    providerCalls h = (research h).length + 1 := by
  induction left generalizing messages s h with
  | zero => exact absurd returns Returns.throw
  | succ left ih =>
    obtain ⟨response, _, _, h₁, rfl, asked, rest⟩ := returns.bind
    obtain ⟨rfl, rfl⟩ := complete_returns asked
    rw [providerCalls_append, research_append, List.length_append]
    split at rest
    · obtain ⟨rfl, _, rfl⟩ := rest.raising
      rfl
    · split at rest
      · exact absurd rest Returns.throw
      · obtain ⟨_, _, h₂, h₃, rfl, executed, later⟩ := rest.bind
        obtain ⟨researched, silent⟩ := executeCalls_asks executed
        have own := single _ _ (List.mem_append_left _ (.head _))
        have rest := ih (fun request response mem => single request response (by simp [mem])) later
        rw [providerCalls_append, research_append, List.length_append, researched, silent, own,
          rest]
        show 1 + _ = 0 + _ + 1
        omega

end InvestigatorAgent

/-! ## The case file -/

theorem replayScore_range (hit : Bool) (rulesScore : Int) (amount : ℚ) (amounts : List ℚ)
    (linked : Nat) :
    40 ≤ replayScore hit rulesScore amount amounts linked ∧
      replayScore hit rulesScore amount amounts linked ≤ 95 ∧
      (hit = true → 85 ≤ replayScore hit rulesScore amount amounts linked) := by
  unfold replayScore
  dsimp only
  cases hit with
  | true =>
    rw [if_pos rfl]
    exact ⟨by omega, by omega, fun _ => by omega⟩
  | false =>
    rw [if_neg Bool.false_ne_true]
    split
    · exact ⟨by omega, by omega, nofun⟩
    · exact ⟨by omega, by omega, nofun⟩

/-- The observer was called with the three tools, on the account and the name screened,
and the case file says what the tools said. -/
def Evidenced (tx : Transaction) (seen : List ToolEvent) (case : CaseFile) : Prop :=
  ∃ history graph screen,
    seen = [⟨"get_transaction_history", [("account_id", .str tx.accountId)], history⟩,
      ⟨"get_entity_graph", [("account_id", .str tx.accountId)], graph⟩,
      ⟨"check_sanctions_list", [("name", .str (ReplayWorld.screenedName tx))], screen⟩] ∧
    graph.getItem "linked_accounts" = .ok (.strs case.linkedAccounts) ∧
    screen.getItem "hit" = .ok (.bool case.sanctionsHit)

variable {w : ReplayWorld} {host : Host} {tx : Transaction}

theorem ReplayWorld.singleCalls {h : History} (within : ∀ d ∈ h, w.Answers host d.1 d.2) :
    SingleCalls h := by
  intro request response mem
  obtain ⟨hex, answered⟩ := within _ mem
  have answered : Except.ok response = ReplayProvider.complete w.loads host hex request := answered
  unfold ReplayProvider.complete at answered
  cases scripted : ReplayProvider.step w.loads host request with
  | error e =>
    rw [scripted] at answered
    cases answered
  | ok script =>
    rw [scripted] at answered
    cases answered
    rfl

/-- **Replay invents no evidence**: an investigation of a likely fraud asks the provider
four times, observes the three tools in order, and returns a case file that repeats their
results; its score and its recommendation agree. -/
theorem replay_evidence (lax : host.Lax)
    (roundTrip : ∀ v ∈ w.toolResults tx, w.loads (host.dumps v) = .ok v) (model : String)
    {triage : TriageVerdict} (likely : 1 / 2 ≤ triage.fraudLikelihood) (rulesScore : Int)
    {h : History} {out : Except Raised CaseFile} {seen : List ToolEvent}
    (ends : Ends (InvestigatorAgent.run host model tx triage (some Orchestrator.captureToolCall)
      rulesScore) [] h out seen)
    (within : ∀ d ∈ h, w.Answers host d.1 d.2) :
    ∃ case, out = .ok case ∧ providerCalls h = 4 ∧ Evidenced tx seen case ∧
      0 ≤ case.riskScore ∧ case.riskScore ≤ 95 ∧
      (case.recommendComplianceReview = true ↔ 70 ≤ case.riskScore) := by
  obtain ⟨case, returned, supported, observed⟩ :=
    (ReplayWorld.investigator_replays lax roundTrip likely rulesScore []).runs ends within
  dsimp only at returned observed
  subst returned observed
  obtain ⟨_, own, researched⟩ := InvestigatorAgent.turns_captured ends
  have calls := InvestigatorAgent.turns_calls (ReplayWorld.singleCalls within) ends
  have three : (research h).length = 3 := by
    rw [researched.length_eq, ← List.append_cancel_left own]
    rfl
  obtain ⟨low, high, hit⟩ := replayScore_range (ReplayWorld.hit tx) rulesScore tx.amount
    (w.history.map (·.amount)) w.graph.linkedAccounts.length
  rw [← supported.score] at low high hit
  refine ⟨case, rfl, by rw [calls, three], ⟨_, _, _, rfl, ?_, ?_⟩, by omega, high, ?_⟩
  · rw [supported.linked]
    rfl
  · rw [supported.hit]
    rfl
  · rw [supported.review, decide_eq_true_iff]
    constructor
    · rintro (review | matched)
      · exact review
      · have := hit matched
        omega
    · exact .inl

/-! An investigation with the answers of the travel run, and one of a payment to an
empty name. -/

def likelyTriage : TriageVerdict :=
  ⟨82 / 100, "account_takeover", true, "Impossible travel.", by constructor <;> decide +kernel⟩

theorem likelyTriage_likely : 1 / 2 ≤ likelyTriage.fraudLikelihood := by decide +kernel

def travelInvestigation (tx : Transaction) : History × Except Raised CaseFile × List ToolEvent :=
  ((InvestigatorAgent.run replayHost "replay" tx likelyTriage
    (some Orchestrator.captureToolCall) 50).run.run []).play travelAnswers []

theorem replay_evidence_travel :
    ∃ case, (travelInvestigation sampleTransaction).2.1 = .ok case ∧
      providerCalls (travelInvestigation sampleTransaction).1 = 4 ∧
      Evidenced sampleTransaction (travelInvestigation sampleTransaction).2.2 case := by
  obtain ⟨case, returned, calls, evidenced, _⟩ := replay_evidence replayHost_lax
    (travel_roundTrip sampleTransaction rfl) "replay" likelyTriage_likely 50
    (Prog.play_runs travelAnswers [] _) (travel_within _)
  exact ⟨case, returned, calls, evidenced⟩

def namelessTransaction : Transaction :=
  { sampleTransaction with beneficiaryName := some "" }

/-- A beneficiary without a name is screened under another one. -/
theorem screened_otherwise :
    namelessTransaction.beneficiaryName = some "" ∧
      ((travelInvestigation namelessTransaction).2.2.map (·.toolInput))[2]? =
        some [("name", Value.str "Unspecified demo beneficiary")] := by
  refine ⟨rfl, ?_⟩
  obtain ⟨_, _, _, observed⟩ :=
    (ReplayWorld.investigator_replays replayHost_lax (travel_roundTrip namelessTransaction rfl)
      likelyTriage_likely 50 []).runs (Prog.play_runs travelAnswers [] _) (travel_within _)
  have observed : (travelInvestigation namelessTransaction).2.2 =
    [] ++ travelWorld.observed namelessTransaction := observed
  rw [observed]
  rfl

end VaultWatch.Agents
