import VaultWatch.Agents.Pipeline

/-! The three agents behind the model provider (`agents-python/app/llm/`) and the
research tools of the investigator (`llm/tools.py`, `synthetic.py`). The provider
is the environment: `complete` answers whatever it likes. -/
namespace VaultWatch.Agents

open VaultWatch.Lib.Effects VaultWatch.Lib.Interleave

/-! ## Research tools -/

def SYNTHETIC_SANCTIONS_LIST : List String :=
  ["victor krantz holdings", "ashgrove trading fzco", "meridian bulk logistics"]

/-- `str.isspace`. -/
def isspace (c : Char) : Bool :=
  let n := c.toNat
  (9 ≤ n && n ≤ 13) || (28 ≤ n && n ≤ 32) || n = 0x85 || n = 0xa0 || n = 0x1680 ||
    (0x2000 ≤ n && n ≤ 0x200a) || n = 0x2028 || n = 0x2029 || n = 0x202f || n = 0x205f ||
    n = 0x3000

def strip (cs : List Char) : List Char :=
  ((cs.dropWhile isspace).reverse.dropWhile isspace).reverse

/-- `str.lower` where it gives ASCII: besides the capitals that is the Kelvin
sign. A character left alone here has a lower case outside ASCII. -/
def lower (c : Char) : Char :=
  if c = Char.ofNat 0x212a then 'k' else c.toLower

def onSanctionsList (name : String) : Bool :=
  SYNTHETIC_SANCTIONS_LIST.any fun entry => entry.toList = (strip name.toList).map lower

def checkSanctionsList : Value → Except Raised Dict
  | .str name =>
    .ok [("query", .str name), ("hit", .bool (onSanctionsList name)),
      ("list", .str "vaultwatch-synthetic-watchlist-v1")]
  | _ => .error (.exception "AttributeError")

section
variable {σ : Type}

def executeResearchTool (name : String) (toolInput : Dict) : Py σ Value :=
  if name = "get_transaction_history" then do
    let accountId ← raising (toolInput.getItem "account_id")
    let history ← raising (← ask (.generateTransactionHistory accountId))
    return .dict [("history", history)]
  else if name = "get_entity_graph" then do
    let accountId ← raising (toolInput.getItem "account_id")
    raising (← ask (.generateEntityGraph accountId))
  else if name = "check_sanctions_list" then do
    let screened ← raising (toolInput.getItem "name")
    ask (Op.checkSanctionsList screened)
    let result ← raising (checkSanctionsList screened)
    return .dict result
  else throw (.exception "ValueError" ("unknown research tool: " ++ name))

/-! ## Agents -/

def complete (request : CompleteRequest) : Py σ ModelResponse := do
  raising (← ask (.complete request))

/-- The first call of the tool `name`. -/
def ModelResponse.callTo (response : ModelResponse) (name : String) : Option ToolCall :=
  response.toolCalls.find? (·.name = name)

namespace TriageAgent

def prompt (host : Host) (tx : Transaction) (rules : RuleEngineVerdict)
    (prefilter : PreFilterVerdict) : String :=
  let triggered := rules.triggeredRules.map (·.get "rule")
  "Transaction " ++ tx.id ++ " on account " ++ tx.accountId ++ ": amount=" ++
  host.str (.float tx.amount) ++ " " ++ tx.currency ++ ", beneficiary=" ++
  host.str (.ofOption .str tx.beneficiaryId) ++ ", device=" ++
  host.str (.ofOption .str tx.deviceId) ++ ".\nRules engine: risk_score=" ++
  toString rules.riskScore ++ " band=" ++ rules.riskBand ++ " triggered=" ++
  host.str (.list triggered) ++ ".\nPre-filter: anomaly_score=" ++
  host.fixed2 prefilter.anomalyScore ++ " is_anomaly=" ++
  host.str (.bool prefilter.isAnomaly) ++ "."

def run (host : Host) (model : String) (tx : Transaction) (_ctx : ScoringContext)
    (rules : RuleEngineVerdict) (prefilter : PreFilterVerdict) : Py σ TriageVerdict := do
  let response ← complete
    { model
      messages := [⟨.user, .text (prompt host tx rules prefilter)⟩]
      replayFamily := .triage
      replayScenario := if rules.riskScore ≥ 50 ∨ prefilter.isAnomaly then "high" else "low"
      replayVars := [("rules", .dict rules.modelDump), ("prefilter", .dict prefilter.modelDump)] }
  match response.callTo "emit_triage_verdict" with
  | some call => raising (TriageVerdict.ofInput host call.input)
  | none => throw (.exception "RuntimeError" "TriageAgent: model did not emit a triage verdict")

end TriageAgent

namespace InvestigatorAgent

def MAX_TURNS : Nat := 6

abbrev ToolCallObserver (σ : Type) := String → Dict → Value → Py σ Unit

def prompt (host : Host) (tx : Transaction) (triage : TriageVerdict) : String :=
  "Investigate transaction " ++ tx.id ++ " on account " ++ tx.accountId ++ " (amount=" ++
  host.str (.float tx.amount) ++ " " ++ tx.currency ++ ", beneficiary=" ++
  host.str (.ofOption .str tx.beneficiaryId) ++ ", name=" ++
  host.str (.ofOption .str tx.beneficiaryName) ++ "). Triage flagged it as '" ++
  triage.category ++ "' with fraud_likelihood=" ++ host.fixed2 triage.fraudLikelihood ++ ": " ++
  triage.reasoning

def request (model : String) (tx : Transaction) (triage : TriageVerdict) (rulesScore : Int)
    (messages : List Message) : CompleteRequest :=
  { model
    messages
    replayFamily := .investigation
    replayScenario := if triage.fraudLikelihood ≥ 1 / 2 then "high" else "low"
    replayVars :=
      [("account_id", .str tx.accountId),
        ("beneficiary_name",
          (Value.ofOption .str tx.beneficiaryName).or (.str "Unspecified demo beneficiary")),
        ("amount", .float tx.amount), ("currency", .str tx.currency),
        ("rules_score", .int rulesScore)] }

def toolCallsToContent (toolCalls : List ToolCall) : List Block :=
  toolCalls.map fun c => .toolUse c.id c.name c.input

def notify (onToolCall : Option (ToolCallObserver σ)) (call : ToolCall) (result : Value) :
    Py σ Unit :=
  match onToolCall with
  | some observe => observe call.name call.input result
  | none => pure ()

/-- The `for` loop over the calls of one response. -/
def executeCalls (host : Host) (onToolCall : Option (ToolCallObserver σ)) :
    List ToolCall → Py σ (List Block)
  | [] => return []
  | call :: calls => do
    let result ← executeResearchTool call.name call.input
    notify onToolCall call result
    let toolResults ← executeCalls host onToolCall calls
    return .toolResult call.id (host.dumps result) :: toolResults

def exceeded : Raised :=
  .exception "RuntimeError" "InvestigatorAgent: exceeded max turns without emitting a case file"

/-- The loop over the turns that are left. -/
def turns (host : Host) (request : List Message → CompleteRequest)
    (onToolCall : Option (ToolCallObserver σ)) : Nat → List Message → Py σ CaseFile
  | 0, _ => throw exceeded
  | left + 1, messages => do
    let response ← complete (request messages)
    match response.callTo "emit_case_file" with
    | some call => raising (CaseFile.ofInput host call.input)
    | none =>
      if response.toolCalls.isEmpty then throw exceeded
      else
        let toolResults ← executeCalls host onToolCall response.toolCalls
        turns host request onToolCall left
          (messages ++ [⟨.assistant, .blocks (toolCallsToContent response.toolCalls)⟩,
            ⟨.user, .blocks toolResults⟩])

def run (host : Host) (model : String) (tx : Transaction) (triage : TriageVerdict)
    (onToolCall : Option (ToolCallObserver σ)) (rulesScore : Int) : Py σ CaseFile :=
  turns host (request model tx triage rulesScore) onToolCall MAX_TURNS
    [⟨.user, .text (prompt host tx triage)⟩]

end InvestigatorAgent

namespace ComplianceAgent

def prompt (tx : Transaction) (case : CaseFile) : String :=
  "Case file for transaction " ++ tx.id ++ " (account " ++ tx.accountId ++ "): " ++
  case.summary ++ "\nRisk score: " ++ toString case.riskScore ++ "\nEvidence: " ++
  "; ".intercalate case.evidence

def run (host : Host) (model : String) (tx : Transaction) (case : CaseFile) :
    Py σ ComplianceReport := do
  let response ← complete
    { model
      messages := [⟨.user, .text (prompt tx case)⟩]
      replayFamily := .compliance
      replayScenario := "high"
      replayVars :=
        [("account_id", .str tx.accountId), ("case_summary", .str case.summary),
          ("evidence", .strs case.evidence)] }
  match response.callTo "emit_compliance_report" with
  | some call => raising (ComplianceReport.ofInput host call.input)
  | none =>
    throw (.exception "RuntimeError" "ComplianceAgent: model did not emit a compliance report")

end ComplianceAgent

/-! ## What an agent returns -/

/-- The provider answers a request of the family with a call of `tool` whose input
is built into `a`. -/
def Emits {α : Type} (family : ReplayFamily) (tool : String) (ofInput : Dict → Except Raised α)
    (a : α) (d : Prog.Done Op Op.Res) : Prop :=
  ∃ request response call, d = ⟨.complete request, .ok response⟩ ∧
    request.replayFamily = family ∧ response.callTo tool = some call ∧ ofInput call.input = .ok a

theorem complete_returns {request : CompleteRequest} {response : ModelResponse} {s t : σ}
    {h : History} (returns : Returns (complete request) s h response t) :
    h = [⟨.complete request, .ok response⟩] ∧ t = s := by
  obtain ⟨answer, _, rfl, rest⟩ := returns.askThen
  obtain ⟨rfl, rfl, rfl⟩ := rest.raising
  exact ⟨rfl, rfl⟩

theorem TriageAgent.run_returns {host : Host} {model : String} {tx : Transaction}
    {ctx : ScoringContext} {rules : RuleEngineVerdict} {prefilter : PreFilterVerdict}
    {triage : TriageVerdict} {s t : σ} {h : History}
    (returns : Returns (TriageAgent.run host model tx ctx rules prefilter) s h triage t) :
    t = s ∧ ∃ d, h = [d] ∧
      Emits .triage "emit_triage_verdict" (TriageVerdict.ofInput host) triage d := by
  obtain ⟨response, _, _, _, rfl, asked, rest⟩ := returns.bind
  obtain ⟨rfl, rfl⟩ := complete_returns asked
  split at rest
  · rename_i call called
    obtain ⟨rfl, built, rfl⟩ := rest.raising
    exact ⟨rfl, _, rfl, _, response, call, rfl, rfl, called, built⟩
  · exact absurd rest Returns.throw

theorem ComplianceAgent.run_returns {host : Host} {model : String} {tx : Transaction}
    {case : CaseFile} {report : ComplianceReport} {s t : σ} {h : History}
    (returns : Returns (ComplianceAgent.run host model tx case) s h report t) :
    t = s ∧ ∃ d, h = [d] ∧
      Emits .compliance "emit_compliance_report" (ComplianceReport.ofInput host) report d := by
  obtain ⟨response, _, _, _, rfl, asked, rest⟩ := returns.bind
  obtain ⟨rfl, rfl⟩ := complete_returns asked
  split at rest
  · rename_i call called
    obtain ⟨rfl, built, rfl⟩ := rest.raising
    exact ⟨rfl, _, rfl, _, response, call, rfl, rfl, called, built⟩
  · exact absurd rest Returns.throw

/-- Whatever happens in the turns before, the case file comes from an
`emit_case_file` call. -/
theorem InvestigatorAgent.turns_returns {host : Host} {request : List Message → CompleteRequest}
    {onToolCall : Option (ToolCallObserver σ)}
    (family : ∀ messages, (request messages).replayFamily = .investigation) {left : Nat}
    {messages : List Message} {case : CaseFile} {s t : σ} {h : History}
    (returns : Returns (turns host request onToolCall left messages) s h case t) :
    ∃ d ∈ h, Emits .investigation "emit_case_file" (CaseFile.ofInput host) case d := by
  induction left generalizing messages s h with
  | zero => exact absurd returns Returns.throw
  | succ left ih =>
    obtain ⟨response, _, _, h₁, rfl, asked, rest⟩ := returns.bind
    obtain ⟨rfl, rfl⟩ := complete_returns asked
    split at rest
    · rename_i call called
      obtain ⟨rfl, built, rfl⟩ := rest.raising
      exact ⟨_, .head _, _, response, call, rfl, family messages, called, built⟩
    · split at rest
      · exact absurd rest Returns.throw
      · obtain ⟨_, _, _, h₂, rfl, _, later⟩ := rest.bind
        obtain ⟨d, mem, emits⟩ := ih later
        exact ⟨d, List.mem_append_right _ (List.mem_append_right _ mem), emits⟩

/-! ## What the agents ask for -/

/-- A call of a research tool. -/
def Op.isResearch : Op → Bool
  | .generateTransactionHistory _ | .generateEntityGraph _ | .checkSanctionsList _ => true
  | _ => false

/-- `P` holds of whatever an agent asks: the provider and the research tools. -/
structure AskedByAgents (P : Op → Prop) : Prop where
  complete : ∀ request, P (.complete request)
  history : ∀ accountId, P (.generateTransactionHistory accountId)
  graph : ∀ accountId, P (.generateEntityGraph accountId)
  screen : ∀ name, P (.checkSanctionsList name)

variable {P : Op → Prop}

theorem complete_only (asked : ∀ request, P (.complete request)) (request : CompleteRequest) :
    Only P (complete request : Py σ ModelResponse) :=
  .bind (.ask (asked request)) .raising

theorem executeResearchTool_only (asked : AskedByAgents P) (name : String) (toolInput : Dict) :
    Only P (executeResearchTool name toolInput : Py σ Value) := by
  unfold executeResearchTool
  refine .ite ?_ (.ite ?_ (.ite ?_ (.throw _)))
  · refine .bind (.raising _) fun accountId => ?_
    refine .bind (.ask (asked.history accountId)) fun answer => ?_
    exact .bind (.raising _) fun _ => .pure _
  · refine .bind (.raising _) fun accountId => ?_
    exact .bind (.ask (asked.graph accountId)) fun answer => .raising _
  · refine .bind (.raising _) fun screened => ?_
    refine .bind (.ask (asked.screen screened)) fun _ => ?_
    exact .bind (.raising _) fun _ => .pure _

namespace InvestigatorAgent

theorem executeCalls_only (asked : AskedByAgents P) (host : Host)
    {onToolCall : Option (ToolCallObserver σ)}
    (quiet : ∀ observe ∈ onToolCall, ∀ name toolInput result,
      Only P (observe name toolInput result)) (calls : List ToolCall) :
    Only P (executeCalls host onToolCall calls) := by
  induction calls with
  | nil => exact .pure _
  | cons call calls ih =>
    refine .bind (executeResearchTool_only asked _ _) fun result => ?_
    refine .bind ?_ fun _ => .bind ih fun _ => .pure _
    unfold notify
    cases onToolCall with
    | some observe => exact quiet observe rfl _ _ _
    | none => exact .pure _

theorem turns_only (asked : AskedByAgents P) (host : Host)
    (request : List Message → CompleteRequest) {onToolCall : Option (ToolCallObserver σ)}
    (quiet : ∀ observe ∈ onToolCall, ∀ name toolInput result,
      Only P (observe name toolInput result)) (left : Nat) (messages : List Message) :
    Only P (turns host request onToolCall left messages) := by
  induction left generalizing messages with
  | zero => exact .throw _
  | succ left ih =>
    refine .bind (complete_only asked.complete _) fun response => ?_
    split
    · exact .raising _
    · exact .ite (.throw _) (.bind (executeCalls_only asked host quiet _) fun _ => ih _)

end InvestigatorAgent

end

end VaultWatch.Agents
