import VaultWatch.Agents.Llm
import Mathlib.Algebra.Order.Field.Rat
import Mathlib.Data.List.Infix

/-! The offline model provider (`ReplayProvider` of `agents-python/app/llm/provider.py`)
and its script (`llm/transcripts.py`). It reads the results of the research tools
back out of the conversation it is given, and answers by the number of turns. -/
namespace VaultWatch.Agents

namespace Value

/-- Iterating over `v`. -/
def iter : Value → Except Raised (List Value)
  | list xs => .ok xs
  | dict fields => .ok (fields.map fun field => str field.1)
  | str s => .ok (s.toList.map fun c => str (String.singleton c))
  | _ => .error (.exception "TypeError")

/-- `v` in arithmetic. -/
def number : Value → Except Raised ℚ
  | int n => .ok n
  | float x => .ok x
  | bool b => .ok (if b then 1 else 0)
  | _ => .error (.exception "TypeError")

/-- `v` where a text is joined or searched. -/
def text : Value → Except Raised String
  | str s => .ok s
  | _ => .error (.exception "TypeError")

end Value

/-- `d[key] = a`. -/
def assign {α : Type} (key : String) (a : α) : List (String × α) → List (String × α)
  | [] => [(key, a)]
  | (k, b) :: rest => if k = key then (k, a) :: rest else (k, b) :: assign key a rest

theorem lookup_assign {α : Type} (key : String) (a : α) (d : List (String × α)) :
    (assign key a d).lookup key = some a := by
  induction d with
  | nil => simp [assign]
  | cons field rest ih =>
    unfold assign
    split
    · rename_i same
      simp [same]
    · rename_i other
      have apart : (key == field.1) = false := beq_eq_false_iff_ne.mpr (Ne.symm other)
      rw [List.lookup_cons, apart]
      exact ih

/-! ## The script -/

/-- A step of the script. Every script calls a tool. -/
structure ReplayStep where
  tool : String
  input : Dict

/-- `any(r.get("rule") == rule for r in triggered)`. -/
def anyTriggered (rule : String) : List Value → Except Raised Bool
  | [] => .ok false
  | r :: rs => do if (← r.get "rule").eqStr rule then return true else anyTriggered rule rs

def triageStep (host : Host) (scenario : String) (rules prefilter : Value) :
    Except Raised ReplayStep :=
  if scenario = "high" then do
    let rules := rules.or (.dict [])
    let triggered ← (← rules.get "triggered_rules" (.list [])).iter
    let travel ← anyTriggered "impossible_travel" triggered
    let names ← triggered.mapM fun r => do (← r.getItem "rule").text
    let joined := ", ".intercalate names
    return {
      tool := "emit_triage_verdict"
      input := [
        ("fraud_likelihood", .float (82 / 100)),
        ("category", .str (if travel then "potential_account_takeover" else "unusual_activity")),
        ("escalate", .bool true),
        ("reasoning", .str ("Rules score " ++
          host.str (← rules.get "risk_score" (.str "unknown")) ++ ". Triggered: " ++
          (if joined = "" then "none" else joined) ++ ". Statistical anomaly: " ++
          host.str (← (prefilter.or (.dict [])).get "is_anomaly" (.bool false)) ++
          ". Replay triage escalates these signals for evidence gathering."))] }
  else
    return {
      tool := "emit_triage_verdict"
      input := [
        ("fraud_likelihood", .float (4 / 100)),
        ("category", .str "normal_activity"),
        ("escalate", .bool false),
        ("reasoning", .str ("Amount, beneficiary and device are all consistent with this " ++
          "account's recent history; no rules or pre-filter signals fired above threshold."))] }

/-- `sum(row["amount"] for row in history) / len(history) if history else 0`. -/
def meanAmount (history : Value) : Except Raised ℚ :=
  if history.truthy then do
    let rows ← history.iter
    let amounts ← rows.mapM fun row => do (← row.getItem "amount").number
    return amounts.sum / amounts.length
  else return 0

/-- The arguments of `investigation_steps` that are not evidence. -/
structure InvestigationVars where
  accountId : Value
  beneficiaryName : Value
  amount : Value
  currency : Value
  rulesScore : Value

/-- The defaults are those of the parameters. -/
def InvestigationVars.ofDict (vars : Dict) : InvestigationVars where
  accountId := vars.get "account_id" (.str "acct_unknown")
  beneficiaryName := vars.get "beneficiary_name" (.str "Unspecified demo beneficiary")
  amount := vars.get "amount" (.int 0)
  currency := vars.get "currency" (.str "EUR")
  rulesScore := vars.get "rules_score" (.int 0)

/-- The case file that the evidence supports. -/
def replayCase (host : Host) (vars : InvestigationVars) (evidence : Dict) : Except Raised Dict := do
  let history ← (evidence.get "get_transaction_history" (.dict [])).get "history" (.list [])
  let linked ← (evidence.get "get_entity_graph" (.dict [])).get "linked_accounts" (.list [])
  let screen := evidence.get "check_sanctions_list" (.dict [])
  let hit := (← screen.get "hit" (.bool false)).truthy
  let mean ← meanAmount history
  let amount ← vars.amount.number
  let payments := (← history.iter).length
  let accounts := (← linked.iter).length
  let facts := [
    "Payment " ++ host.fixed2 amount ++ " " ++ host.str vars.currency ++ "; " ++
      toString payments ++ " synthetic historical payments average " ++ host.fixed2 mean ++ ".",
    "Synthetic entity graph returned " ++ toString accounts ++ " linked accounts.",
    "Synthetic watchlist " ++ (if hit then "MATCH" else "no match") ++ " for " ++
      host.str (← screen.get "query" vars.beneficiaryName) ++ "."]
  let summary := "Account " ++ host.str vars.accountId ++ " was escalated by triage. " ++
    " ".intercalate facts
  let base : Int :=
    if (← vars.rulesScore.ge 50) ∨ (0 < mean ∧ mean * 3 ≤ amount) then 70 else 40
  let score := min 95 ((if hit then 85 else base) + accounts * 3)
  return [("summary", .str summary), ("risk_score", .int score), ("evidence", .strs facts),
    ("linked_accounts", linked), ("sanctions_hit", .bool hit),
    ("recommend_compliance_review", .bool (70 ≤ score ∨ hit))]

def investigationSteps (host : Host) (scenario : String) (evidence vars : Dict) :
    Except Raised (List ReplayStep) := do
  let vars := InvestigationVars.ofDict vars
  let case ← replayCase host vars evidence
  if scenario = "high" then
    return [
      ⟨"get_transaction_history", [("account_id", vars.accountId)]⟩,
      ⟨"get_entity_graph", [("account_id", vars.accountId)]⟩,
      ⟨"check_sanctions_list", [("name", vars.beneficiaryName)]⟩,
      ⟨"emit_case_file", case⟩]
  else
    return [⟨"emit_case_file", [
      ("summary", .str ("Triage did not identify a high-risk pattern; no research tools were " ++
        "requested.")),
      ("risk_score", .int 12), ("evidence", .list []), ("linked_accounts", .list []),
      ("sanctions_hit", .bool false), ("recommend_compliance_review", .bool false)]⟩]

/-- `item not in text`. -/
def absentFrom (text item : String) : Bool :=
  ¬ item.toList <:+: text.toList

def complianceStep (host : Host) (caseSummary evidence : Value) : Except Raised ReplayStep := do
  let items ← (← (evidence.or (.list [])).iter).mapM (·.text)
  let summary ← caseSummary.text
  return {
    tool := "emit_compliance_report"
    input := [
      ("narrative", .str ("SYNTHETIC DRAFT - " ++ host.str caseSummary ++ " " ++
        " ".intercalate (items.filter (absentFrom summary)) ++
        " Manual review recommended. This risk narrative precedes the separate payment " ++
        "decision. No real funds moved and no regulatory report was filed.")),
      ("obligations_referenced",
        .strs ["Internal review of suspicious activity (synthetic demonstration)"])] }

/-! ## The provider -/

namespace ReplayProvider

/-- The tool names by call, and the last result of each tool. -/
structure Gathered where
  names : List (String × String) := []
  evidence : Dict := []

variable (loads : String → Except Raised Value)

def readBlock (gathered : Gathered) : Block → Except Raised Gathered
  | .toolUse id name _ => return { gathered with names := assign id name gathered.names }
  | .toolResult toolUseId content =>
    match gathered.names.lookup toolUseId with
    | none => return gathered
    | some name =>
      if name = "" then return gathered
      else return { gathered with
        evidence := assign name (← loads content) gathered.evidence }

def readMessage (gathered : Gathered) (message : Message) : Except Raised Gathered :=
  match message.content with
  | .text _ => return gathered
  | .blocks bs => bs.foldlM (readBlock loads) gathered

def gather (messages : List Message) : Except Raised Gathered :=
  messages.foldlM (readMessage loads) {}

/-- The turns the assistant has had. -/
def turn (messages : List Message) : Nat :=
  messages.countP (·.role = .assistant)

def step (host : Host) (request : CompleteRequest) : Except Raised ReplayStep :=
  let vars := request.replayVars
  match request.replayFamily with
  | .triage =>
    triageStep host request.replayScenario (vars.get "rules") (vars.get "prefilter")
  | .investigation => do
    let gathered ← gather loads request.messages
    let steps ← investigationSteps host request.replayScenario gathered.evidence vars
    match steps[min (turn request.messages) (steps.length - 1)]? with
    | some step => return step
    | none => throw (.exception "IndexError")
  | .compliance =>
    complianceStep host (vars.get "case_summary" (.str "")) (vars.get "evidence")

/-- `hex` is what `uuid.uuid4()` gives the call. -/
def stepToResponse (hex : String) (step : ReplayStep) : ModelResponse where
  text := ""
  toolCalls := [⟨"replay_" ++ hex, step.tool, step.input⟩]
  stopReason := "tool_use"

def complete (host : Host) (hex : String) (request : CompleteRequest) :
    Except Raised ModelResponse := do
  return stepToResponse hex (← step loads host request)

end ReplayProvider

/-! ## What the tools give it -/

/-- A row of `generate_transaction_history`. -/
structure HistoryRow where
  id : String
  amount : ℚ
  beneficiaryId : String
  deviceId : String

def HistoryRow.asDict (row : HistoryRow) : Dict :=
  [("id", .str row.id), ("amount", .float row.amount),
    ("beneficiary_id", .str row.beneficiaryId), ("device_id", .str row.deviceId)]

/-- What `generate_entity_graph` returns. -/
structure EntityGraph where
  accountId : String
  linkedAccounts : List String
  sharedDeviceCount : Int

def EntityGraph.asDict (graph : EntityGraph) : Dict :=
  [("account_id", .str graph.accountId), ("linked_accounts", .strs graph.linkedAccounts),
    ("shared_device_count", .int graph.sharedDeviceCount)]

/-! ## What the script says -/

theorem mapM_ok {α β γ : Type} {f : β → Except Raised γ} {view : α → β} {g : α → γ} (xs : List α)
    (each : ∀ x, f (view x) = .ok (g x)) : (xs.map view).mapM f = .ok (xs.map g) := by
  induction xs with
  | nil => rfl
  | cons x xs ih =>
    rw [List.map_cons, List.mapM_cons, each, ih]
    rfl

/-- Over exact numbers; of no amounts it is zero. -/
def mean (amounts : List ℚ) : ℚ :=
  amounts.sum / amounts.length

theorem meanAmount_history (history : List HistoryRow) :
    meanAmount (.list (history.map (.dict ·.asDict))) = .ok (mean (history.map (·.amount))) := by
  unfold meanAmount
  cases history with
  | nil => exact congrArg Except.ok (zero_div _).symm
  | cons row rows =>
    have read : ((row :: rows).map fun r => Value.dict r.asDict).mapM
        (fun v => do (← v.getItem "amount").number) = .ok ((row :: rows).map (·.amount)) :=
      mapM_ok _ fun _ => rfl
    show (do
      let amounts ← ((row :: rows).map fun r : HistoryRow => Value.dict r.asDict).mapM
        (fun v : Value => do (← v.getItem "amount").number)
      return amounts.sum / amounts.length) = _
    rw [read]
    rfl

/-- The score of the case file. -/
def replayScore (hit : Bool) (rulesScore : Int) (amount : ℚ) (amounts : List ℚ) (linked : Nat) :
    Int :=
  let base : Int :=
    if hit then 85
    else if 50 ≤ rulesScore ∨ (0 < mean amounts ∧ 3 * mean amounts ≤ amount) then 70
    else 40
  min 95 (base + 3 * linked)

theorem replayScore_bounds (hit : Bool) (rulesScore : Int) (amount : ℚ) (amounts : List ℚ)
    (linked : Nat) :
    0 ≤ replayScore hit rulesScore amount amounts linked ∧
      replayScore hit rulesScore amount amounts linked ≤ 100 := by
  unfold replayScore
  dsimp only
  split
  · omega
  · split <;> omega

/-- The input of `emit_case_file`. -/
def caseInput (summary : String) (facts linked : List String) (hit : Bool) (score : Int) : Dict :=
  [("summary", .str summary), ("risk_score", .int score), ("evidence", .strs facts),
    ("linked_accounts", .strs linked), ("sanctions_hit", .bool hit),
    ("recommend_compliance_review", .bool (70 ≤ score ∨ hit))]

/-- The evidence gathered so far, as far as the script reads it. -/
structure Shows (evidence : Dict) (history : List HistoryRow) (linked : List String)
    (hit : Bool) : Prop where
  history : (evidence.get "get_transaction_history" (.dict [])).get "history" (.list []) =
    .ok (.list (history.map (.dict ·.asDict)))
  linked : (evidence.get "get_entity_graph" (.dict [])).get "linked_accounts" (.list []) =
    .ok (.strs linked)
  screen : ∃ screen : Dict, evidence.get "check_sanctions_list" (.dict []) = .dict screen ∧
    screen.get "hit" (.bool false) = .bool hit

theorem replayCase_eq (host : Host) {vars : InvestigationVars} {evidence : Dict}
    {history : List HistoryRow} {linked : List String} {hit : Bool} {amount : ℚ}
    {rulesScore : Int} (shows : Shows evidence history linked hit)
    (paid : vars.amount = .float amount) (scored : vars.rulesScore = .int rulesScore) :
    ∃ summary facts, replayCase host vars evidence = .ok (caseInput summary facts linked hit
      (replayScore hit rulesScore amount (history.map (·.amount)) linked.length)) := by
  obtain ⟨screen, screened, found⟩ := shows.screen
  unfold replayCase
  rw [shows.history, shows.linked, screened, paid, scored]
  simp only [bind, Except.bind, Value.get, found, meanAmount_history, Value.number, Value.iter,
    Value.ge, Value.strs]
  have score : min 95 ((if (Value.bool hit).truthy = true then (85 : Int)
      else if decide (50 ≤ rulesScore) = true ∨ 0 < mean (history.map (·.amount)) ∧
        mean (history.map (·.amount)) * 3 ≤ amount then 70 else 40) +
      ((linked.map Value.str).length : Int) * 3) =
      replayScore hit rulesScore amount (history.map (·.amount)) linked.length := by
    unfold replayScore
    cases hit <;> simp [Value.truthy, mul_comm]
  rw [score]
  exact ⟨_, _, rfl⟩

/-- The four steps of an investigation of a likely fraud. -/
theorem investigationSteps_high (host : Host) {vars : Dict} {accountId name : String}
    {currency : Value} {evidence : Dict} {history : List HistoryRow} {linked : List String}
    {hit : Bool} {amount : ℚ} {rulesScore : Int} (shows : Shows evidence history linked hit)
    (read : InvestigationVars.ofDict vars =
      ⟨.str accountId, .str name, .float amount, currency, .int rulesScore⟩) :
    ∃ summary facts, investigationSteps host "high" evidence vars = .ok [
      ⟨"get_transaction_history", [("account_id", .str accountId)]⟩,
      ⟨"get_entity_graph", [("account_id", .str accountId)]⟩,
      ⟨"check_sanctions_list", [("name", .str name)]⟩,
      ⟨"emit_case_file", caseInput summary facts linked hit
        (replayScore hit rulesScore amount (history.map (·.amount)) linked.length)⟩] := by
  have paid : (InvestigationVars.ofDict vars).amount = .float amount := by rw [read]
  have scored : (InvestigationVars.ofDict vars).rulesScore = .int rulesScore := by rw [read]
  obtain ⟨summary, facts, case⟩ := replayCase_eq host shows paid scored
  refine ⟨summary, facts, ?_⟩
  unfold investigationSteps
  dsimp only
  rw [case, read]
  rfl

theorem anyTriggered_ok (rule : String) (rs : List Dict) :
    ∃ found, anyTriggered rule (rs.map .dict) = .ok found := by
  induction rs with
  | nil => exact ⟨false, rfl⟩
  | cons r rs ih =>
    obtain ⟨found, later⟩ := ih
    have first : anyTriggered rule ((r :: rs).map .dict) =
      if (Dict.get r "rule").eqStr rule then .ok true else anyTriggered rule (rs.map .dict) := rfl
    rw [first, later]
    split
    · exact ⟨true, rfl⟩
    · exact ⟨found, rfl⟩

/-- Each rule of the verdict has a name, as the rules engine gives it one. -/
def Named (rules : RuleEngineVerdict) : Prop :=
  ∀ r ∈ rules.triggeredRules, ∃ name, r.getItem "rule" = .ok (.str name)

theorem ruleNames_ok {rs : List Dict}
    (named : ∀ r ∈ rs, ∃ name, r.getItem "rule" = .ok (.str name)) :
    ∃ names, (rs.map Value.dict).mapM (fun r => do (← r.getItem "rule").text) = .ok names := by
  induction rs with
  | nil => exact ⟨[], rfl⟩
  | cons r rs ih =>
    obtain ⟨name, own⟩ := named r (.head _)
    obtain ⟨names, later⟩ := ih fun r' mem => named r' (.tail _ mem)
    have first : (do (← (Value.dict r).getItem "rule").text) = Except.ok name := by
      show (do (← r.getItem "rule").text) = Except.ok name
      rw [own]
      rfl
    refine ⟨name :: names, ?_⟩
    rw [List.map_cons, List.mapM_cons, first, later]
    rfl

/-- The input of `emit_triage_verdict`. -/
def triageInput (likelihood : ℚ) (category : String) (escalate : Bool) (reasoning : String) :
    Dict :=
  [("fraud_likelihood", .float likelihood), ("category", .str category),
    ("escalate", .bool escalate), ("reasoning", .str reasoning)]

theorem triageStep_high (host : Host) {rules : RuleEngineVerdict} (named : Named rules)
    (prefilter : PreFilterVerdict) :
    ∃ category reasoning,
      triageStep host "high" (.dict rules.modelDump) (.dict prefilter.modelDump) =
        .ok ⟨"emit_triage_verdict", triageInput (82 / 100) category true reasoning⟩ := by
  obtain ⟨travel, found⟩ := anyTriggered_ok "impossible_travel" rules.triggeredRules
  obtain ⟨names, read⟩ := ruleNames_ok named
  have triggered : ((Value.dict rules.modelDump).or (.dict [])).get "triggered_rules" (.list []) =
    .ok (.list (rules.triggeredRules.map .dict)) := rfl
  unfold triageStep
  dsimp only
  rw [if_pos rfl, triggered]
  simp only [bind, Except.bind, Value.iter] at read ⊢
  rw [found]
  dsimp only
  rw [read]
  exact ⟨_, _, rfl⟩

theorem triageStep_low (host : Host) (rules prefilter : Value) :
    ∃ category reasoning, triageStep host "low" rules prefilter =
      .ok ⟨"emit_triage_verdict", triageInput (4 / 100) category false reasoning⟩ :=
  ⟨_, _, rfl⟩

theorem complianceStep_ok (host : Host) (summary : String) (evidence : List String) :
    ∃ narrative, complianceStep host (.str summary) (.strs evidence) =
      .ok ⟨"emit_compliance_report", [("narrative", .str narrative), ("obligations_referenced",
        .strs ["Internal review of suspicious activity (synthetic demonstration)"])]⟩ := by
  have items : ((Value.strs evidence).or (.list [])).iter = .ok (evidence.map .str) := by
    cases evidence <;> rfl
  have texts : (evidence.map Value.str).mapM (·.text) = Except.ok (evidence.map id) :=
    mapM_ok evidence fun _ => rfl
  unfold complianceStep
  rw [items]
  simp only [bind, Except.bind]
  rw [texts]
  exact ⟨_, rfl⟩

namespace ReplayProvider

variable {loads : String → Except Raised Value}

theorem step_investigation {host : Host} {request : CompleteRequest} {gathered : Gathered}
    {steps : List ReplayStep} {script : ReplayStep}
    (family : request.replayFamily = .investigation)
    (read : gather loads request.messages = .ok gathered)
    (written : investigationSteps host request.replayScenario gathered.evidence
      request.replayVars = .ok steps)
    (picked : steps[min (turn request.messages) (steps.length - 1)]? = some script) :
    step loads host request = .ok script := by
  unfold step
  rw [family]
  simp only [read, written, picked, bind, Except.bind]
  rfl

theorem complete_ok {host : Host} {request : CompleteRequest} {script : ReplayStep}
    (scripted : step loads host request = .ok script) (hex : String) :
    complete loads host hex request = .ok (stepToResponse hex script) := by
  unfold complete
  rw [scripted]
  rfl

/-- A turn with one call: its result is there under the tool's name. -/
theorem gather_turn {messages : List Message} {gathered : Gathered} {id name content : String}
    {input : Dict} {result : Value} (before : gather loads messages = .ok gathered)
    (named : name ≠ "") (loaded : loads content = .ok result) :
    gather loads (messages ++ [⟨.assistant, .blocks [.toolUse id name input]⟩,
      ⟨.user, .blocks [.toolResult id content]⟩]) =
      .ok ⟨assign id name gathered.names, assign name result gathered.evidence⟩ := by
  have start : messages.foldlM (readMessage loads) {} = .ok gathered := before
  unfold gather
  rw [List.foldlM_append, start]
  simp [readMessage, readBlock, lookup_assign, named, loaded, bind, Except.bind, pure, Except.pure]

theorem turn_append (messages : List Message) (called result : Content) :
    turn (messages ++ [⟨.assistant, called⟩, ⟨.user, result⟩]) = turn messages + 1 := by
  simp [turn]

end ReplayProvider

end VaultWatch.Agents
