import VaultWatch.Agents.ReplayEvidence

/-! # The conversation of an investigation

`InvestigatorAgent.run` with any provider. Each turn that goes on adds two messages to
the conversation: the calls of the response, and the result of each. A run is
followed turn by turn; what it asked before says what it has told the observer. -/
namespace VaultWatch.Agents

open VaultWatch.Lib.Effects VaultWatch.Lib.Interleave

/-! ## Well-formed conversations -/

/-- The ids of the calls a message makes. -/
def Message.toolUses (message : Message) : List String :=
  match message.content with
  | .text _ => []
  | .blocks bs => bs.filterMap fun
    | .toolUse id _ _ => some id
    | .toolResult _ _ => none

/-- The ids of the calls a message answers. -/
def Message.toolResults (message : Message) : List String :=
  match message.content with
  | .text _ => []
  | .blocks bs => bs.filterMap fun
    | .toolUse _ _ _ => none
    | .toolResult toolUseId _ => some toolUseId

/-- The next message is of the other role, and answers the calls of an assistant
message, which have distinct ids, one by one. -/
structure Follows (m n : Message) : Prop where
  alternates : m.role ≠ n.role
  answered : m.role = .assistant → m.toolUses.Nodup ∧ n.toolResults = m.toolUses

/-- What the messages API takes: the user opens, each message follows the one before,
and no assistant message is the last. -/
structure WellFormed (messages : List Message) : Prop where
  opens : messages.head?.map (·.role) = some .user
  follows : messages.IsChain Follows
  ends : messages.getLast?.map (·.role) = some .user

/-- A call with the result its execution gave. -/
structure Exchange where
  call : ToolCall
  result : Value

/-- What the observer is told of it. -/
def Exchange.event (x : Exchange) : ToolEvent := ⟨x.call.name, x.call.input, x.result⟩

/-- The `tool_result` block that answers it. -/
def Exchange.answer (host : Host) (x : Exchange) : Block :=
  .toolResult x.call.id (host.dumps x.result)

/-- The two messages of a turn. -/
def turnMessages (host : Host) (turn : List Exchange) : List Message :=
  [⟨.assistant, .blocks (InvestigatorAgent.toolCallsToContent (turn.map (·.call)))⟩,
    ⟨.user, .blocks (turn.map (·.answer host))⟩]

/-- The responses the provider gave. -/
def responses (h : History) : List ModelResponse :=
  h.filterMap fun
    | ⟨.complete _, .ok response⟩ => some response
    | _ => none

/-- No response has two calls of one id. -/
def DistinctIds (h : History) : Prop :=
  ∀ response ∈ responses h, (response.toolCalls.map (·.id)).Nodup

theorem responses_append (h₁ h₂ : History) : responses (h₁ ++ h₂) = responses h₁ ++ responses h₂ :=
  List.filterMap_append ..

section
variable {host : Host}

theorem turnMessages_follows (host : Host) {turn : List Exchange}
    (distinct : (turn.map (·.call.id)).Nodup) :
    ∃ m n, turnMessages host turn = [m, n] ∧ m.role = .assistant ∧ n.role = .user ∧
      Follows m n := by
  refine ⟨_, _, rfl, rfl, rfl, ⟨Role.noConfusion, fun _ => ?_⟩⟩
  have uses : Message.toolUses ⟨.assistant, .blocks (InvestigatorAgent.toolCallsToContent
      (turn.map (·.call)))⟩ = turn.map (·.call.id) := by
    simp [Message.toolUses, InvestigatorAgent.toolCallsToContent, List.filterMap_map,
      Function.comp_def]
  have results : Message.toolResults ⟨.user, .blocks (turn.map (·.answer host))⟩ =
      turn.map (·.call.id) := by
    simp [Message.toolResults, Exchange.answer, List.filterMap_map]
  rw [uses, results]
  exact ⟨distinct, rfl⟩

/-- An opening and any number of turns. -/
theorem wellFormed_turns {opening : Message} (user : opening.role = .user)
    {done : List (List Exchange)} (distinct : ∀ turn ∈ done, (turn.map (·.call.id)).Nodup) :
    WellFormed (opening :: done.flatMap (turnMessages host)) := by
  induction done generalizing opening with
  | nil => exact ⟨congrArg some user, .singleton _, congrArg some user⟩
  | cons turn done ih =>
    obtain ⟨m, n, two, assistant, next, follows⟩ :=
      turnMessages_follows host (distinct turn (.head _))
    have rest := ih next fun later mem => distinct later (.tail _ mem)
    rw [List.flatMap_cons, two]
    have first : Follows opening m := by
      refine ⟨?_, fun called => ?_⟩
      · rw [user, assistant]
        decide
      · rw [user] at called
        cases called
    exact ⟨congrArg some user, .cons_cons first (.cons_cons follows rest.follows), rest.ends⟩

end

/-! ## One turn -/

theorem executeResearchTool_tools {σ : Type} (name : String) (toolInput : Dict) :
    Only (fun o => o.isResearch = true) (executeResearchTool name toolInput : Py σ Value) := by
  unfold executeResearchTool
  refine .ite ?_ (.ite ?_ (.ite ?_ (.throw _)))
  · refine .bind (.raising _) fun accountId => .bind (.ask rfl) fun answer => ?_
    exact .bind (.raising _) fun _ => .pure _
  · exact .bind (.raising _) fun accountId => .bind (.ask rfl) fun answer => .raising _
  · refine .bind (.raising _) fun screened => .bind (.ask rfl) fun _ => ?_
    exact .bind (.raising _) fun _ => .pure _

theorem research_all {h : History} (tools : ∀ d ∈ h, d.1.isResearch = true) : research h = h :=
  List.filter_eq_self.mpr tools

theorem responses_tools {h : History} (tools : ∀ d ∈ h, d.1.isResearch = true) :
    responses h = [] := by
  refine List.filterMap_eq_nil_iff.mpr fun d mem => ?_
  have tool := tools d mem
  obtain ⟨o, answer⟩ := d
  cases o <;> first | rfl | cases tool

theorem providerCalls_tools {h : History} (tools : ∀ d ∈ h, d.1.isResearch = true) :
    providerCalls h = 0 := by
  refine List.countP_eq_zero.mpr fun d mem => ?_
  have tool := tools d mem
  obtain ⟨o, answer⟩ := d
  cases o <;> first | exact Bool.false_ne_true | cases tool

namespace InvestigatorAgent

open Orchestrator (captureToolCall)

variable {host : Host} {request : List Message → CompleteRequest}

theorem executeCalls_tools (calls : List ToolCall) :
    Only (fun o => o.isResearch = true) (executeCalls host (some captureToolCall) calls) := by
  induction calls with
  | nil => exact .pure _
  | cons call calls ih =>
    refine .bind (executeResearchTool_tools _ _) fun result => ?_
    exact .bind (.modify _) fun _ => .bind ih fun _ => .pure _

/-- Each call is executed once, in order, and answered with its own result, which the
observer is told. -/
theorem executeCalls_turn {calls : List ToolCall} {content : List Block} {s t : List ToolEvent}
    {h : History}
    (returns : Returns (executeCalls host (some captureToolCall) calls) s h content t) :
    ∃ turn : List Exchange, turn.map (·.call) = calls ∧ content = turn.map (·.answer host) ∧
      t = s ++ turn.map (·.event) ∧ List.Forall₂ Researched h (turn.map (·.event)) := by
  induction calls generalizing content s h with
  | nil =>
    obtain ⟨rfl, rfl, rfl⟩ := returns.pure
    exact ⟨[], rfl, rfl, by simp, .nil⟩
  | cons call calls ih =>
    obtain ⟨result, _, h₁, _, rfl, executed, rest⟩ := returns.bind
    obtain ⟨rfl, d, rfl, _, researched⟩ := executeResearchTool_returns executed
    obtain ⟨_, _, h₂, _, rfl, notified, rest⟩ := rest.bind
    obtain ⟨rfl, rfl⟩ := Returns.modify notified
    obtain ⟨_, _, h₃, _, rfl, later, rest⟩ := rest.bind
    obtain ⟨rfl, rfl, rfl⟩ := rest.pure
    obtain ⟨turn, own, rfl, rfl, each⟩ := ih later
    refine ⟨⟨call, result⟩ :: turn, by rw [List.map_cons, own], rfl, by simp [Exchange.event], ?_⟩
    simpa [Exchange.event] using List.Forall₂.cons researched each

/-- How a turn ends once the provider has answered: with what it asked after that, the
outcome of the run and what the observer has been told. -/
inductive Turn (host : Host) (request : List Message → CompleteRequest) (left : Nat)
    (messages : List Message) (s : List ToolEvent) :
    Except Raised ModelResponse → History → Except Raised CaseFile → List ToolEvent → Prop
  | raised (e : Raised) : Turn host request left messages s (.error e) [] (.error e) s
  | emitted {response : ModelResponse} {call : ToolCall}
      (called : response.callTo "emit_case_file" = some call) :
      Turn host request left messages s (.ok response) [] (CaseFile.ofInput host call.input) s
  | silent {response : ModelResponse} (none : response.callTo "emit_case_file" = none) :
      Turn host request left messages s (.ok response) [] (.error exceeded) s
  | failed {response : ModelResponse} {h : History} {e : Raised} {t : List ToolEvent}
      (none : response.callTo "emit_case_file" = none) (tools : ∀ d ∈ h, d.1.isResearch = true) :
      Turn host request left messages s (.ok response) h (.error e) t
  | went {response : ModelResponse} {h₁ h₂ : History} {r : Except Raised CaseFile}
      {t : List ToolEvent} {turn : List Exchange}
      (none : response.callTo "emit_case_file" = none) (some : response.toolCalls ≠ [])
      (own : turn.map (·.call) = response.toolCalls)
      (executed : Returns (executeCalls host (.some captureToolCall) response.toolCalls) s h₁
        (turn.map (·.answer host)) (s ++ turn.map (·.event)))
      (each : List.Forall₂ Researched h₁ (turn.map (·.event)))
      (later : Ends (turns host request (.some captureToolCall) left
        (messages ++ turnMessages host turn)) (s ++ turn.map (·.event)) h₂ r t) :
      Turn host request left messages s (.ok response) (h₁ ++ h₂) r t

theorem turns_turn {left : Nat} {messages : List Message} {s t : List ToolEvent} {h : History}
    {r : Except Raised CaseFile}
    (ends : Ends (turns host request (some captureToolCall) (left + 1) messages) s h r t) :
    ∃ answer rest, h = ⟨.complete (request messages), answer⟩ :: rest ∧
      Turn host request left messages s answer rest r t := by
  rcases Ends.bind ends with ⟨e, rfl, asked⟩ | ⟨response, u, h₁, h₂, rfl, asked, rest⟩
  · obtain ⟨answer, _, rfl, rest⟩ := asked.askThen
    obtain ⟨rfl, rfl, rfl⟩ := rest.raising
    exact ⟨_, _, rfl, .raised e⟩
  · obtain ⟨rfl, rfl⟩ := complete_returns asked
    refine ⟨_, h₂, rfl, ?_⟩
    split at rest
    · rename_i call called
      obtain ⟨rfl, rfl, rfl⟩ := rest.raising
      exact .emitted called
    · rename_i none
      split at rest
      · obtain ⟨rfl, rfl, rfl⟩ := rest.throw
        exact .silent none
      · rename_i some
        rcases rest.bind with ⟨e, rfl, failed⟩ | ⟨content, u, h₃, h₄, rfl, executed, later⟩
        · exact .failed none (executeCalls_tools _ failed)
        · obtain ⟨turn, own, rfl, rfl, each⟩ := executeCalls_turn executed
          refine .went none (by simpa using some) own executed each ?_
          rw [← own] at later
          exact later

/-- A turn that goes on, then the turns that are left. -/
theorem turns_went {left : Nat} {messages : List Message} {s t : List ToolEvent}
    {h₁ h₂ : History} {r : Except Raised CaseFile} {response : ModelResponse}
    {turn : List Exchange} (none : response.callTo "emit_case_file" = none)
    (some : response.toolCalls ≠ []) (own : turn.map (·.call) = response.toolCalls)
    (executed : Returns (executeCalls host (.some captureToolCall) response.toolCalls) s h₁
      (turn.map (·.answer host)) (s ++ turn.map (·.event)))
    (later : Ends (turns host request (.some captureToolCall) left
      (messages ++ turnMessages host turn)) (s ++ turn.map (·.event)) h₂ r t) :
    Ends (turns host request (.some captureToolCall) (left + 1) messages) s
      (⟨.complete (request messages), .ok response⟩ :: (h₁ ++ h₂)) r t := by
  have asked : Returns (complete (request messages)) s
      [⟨.complete (request messages), .ok response⟩] response s := ⟨_, _, rfl, rfl, rfl⟩
  show Ends _ _ ([⟨_, _⟩] ++ (h₁ ++ h₂)) _ _
  refine asked.andThen ?_
  rw [none]
  show Ends (if response.toolCalls.isEmpty then _ else _) _ _ _ _
  rw [if_neg (by simpa using some)]
  refine executed.andThen ?_
  rw [← own]
  exact later

/-! ## The turns of a run -/

variable {left : Nat} {messages : List Message} {s t : List ToolEvent} {h : History}
  {r : Except Raised CaseFile}

theorem turns_zero (ends : Ends (turns host request (some captureToolCall) 0 messages) s h r t) :
    h = [] ∧ r = .error exceeded ∧ t = s :=
  Ends.throw ends

theorem turns_providerCalls
    (ends : Ends (turns host request (some captureToolCall) left messages) s h r t) :
    providerCalls h ≤ left := by
  induction left generalizing messages s h with
  | zero =>
    obtain ⟨rfl, _, _⟩ := turns_zero ends
    exact Nat.le_refl 0
  | succ left ih =>
    obtain ⟨answer, rest, rfl, turn⟩ := turns_turn ends
    have first : providerCalls (⟨.complete (request messages), answer⟩ :: rest) =
        providerCalls rest + 1 := List.countP_cons_of_pos rfl
    rw [first]
    refine Nat.succ_le_succ ?_
    cases turn with
    | raised | emitted | silent => exact Nat.zero_le _
    | failed _ tools => exact (providerCalls_tools tools).trans_le (Nat.zero_le _)
    | went _ _ _ executed _ later =>
      rw [providerCalls_append, providerCalls_tools (executeCalls_tools _ executed), Nat.zero_add]
      exact ih later

/-- The last thing that was asked is the provider, and it emits the case file. -/
def EmitsLast (host : Host) (case : CaseFile) (h : History) : Prop :=
  ∃ d ∈ h.getLast?, Emits .investigation "emit_case_file" (CaseFile.ofInput host) case d

theorem emitsLast_append {case : CaseFile} {front : History} (back : History)
    (quiet : ∀ d ∈ front, ¬ Emits .investigation "emit_case_file" (CaseFile.ofInput host) case d) :
    EmitsLast host case (front ++ back) ↔ EmitsLast host case back := by
  unfold EmitsLast
  rw [List.getLast?_append]
  cases back.getLast? with
  | some d => rfl
  | none =>
    refine ⟨fun ⟨d, last, emits⟩ => ?_, fun ⟨d, last, _⟩ => by cases last⟩
    exact absurd emits (quiet d (List.mem_of_getLast? last))

theorem not_emits_tool {case : CaseFile} {d : Prog.Done Op Op.Res}
    (tool : d.1.isResearch = true) :
    ¬ Emits .investigation "emit_case_file" (CaseFile.ofInput host) case d := by
  rintro ⟨asked, response, call, rfl, _⟩
  cases tool

theorem not_emits_turn {case : CaseFile} {d : Prog.Done Op Op.Res} {tools : History}
    (silent : ¬ Emits .investigation "emit_case_file" (CaseFile.ofInput host) case d)
    (only : ∀ d ∈ tools, d.1.isResearch = true) :
    ∀ e ∈ d :: tools,
      ¬ Emits .investigation "emit_case_file" (CaseFile.ofInput host) case e :=
  List.forall_mem_cons.mpr ⟨silent, fun e mem => not_emits_tool (only e mem)⟩

/-- The run returns a case file exactly when its last response emits it. -/
theorem turns_case_iff (case : CaseFile)
    (family : ∀ messages, (request messages).replayFamily = .investigation)
    (ends : Ends (turns host request (some captureToolCall) left messages) s h r t) :
    r = .ok case ↔ EmitsLast host case h := by
  induction left generalizing messages s h with
  | zero =>
    obtain ⟨rfl, rfl, rfl⟩ := turns_zero ends
    simp [EmitsLast]
  | succ left ih =>
    obtain ⟨answer, rest, rfl, turn⟩ := turns_turn ends
    have silent : ∀ {response}, response.callTo "emit_case_file" = none →
        ¬ Emits .investigation "emit_case_file" (CaseFile.ofInput host) case
          ⟨.complete (request messages), .ok response⟩ := by
      rintro response none ⟨_, _, call, same, _, called, _⟩
      cases same
      rw [none] at called
      cases called
    cases turn with
    | raised e =>
      have quiet : ¬ Emits .investigation "emit_case_file" (CaseFile.ofInput host) case
          ⟨.complete (request messages), .error e⟩ := by
        rintro ⟨_, _, _, same, _⟩
        cases same
      simp [EmitsLast, quiet]
    | @emitted response call called =>
      constructor
      · intro built
        exact ⟨_, rfl, _, response, call, rfl, family messages, called, built⟩
      · rintro ⟨d, last, _, _, own, rfl, _, found, built⟩
        cases last
        rw [called] at found
        cases found
        exact built
    | silent none => simp [EmitsLast, silent none]
    | failed none tools =>
      rw [← List.append_nil (_ :: rest), emitsLast_append _ (not_emits_turn (silent none) tools)]
      simp [EmitsLast]
    | @went response h₁ h₂ _ _ turn none _ _ executed _ later =>
      have tools := executeCalls_tools _ executed
      rw [ih later, ← List.cons_append, emitsLast_append _ (not_emits_turn (silent none) tools)]

/-- What comes after tools in a run, when it is a call of the provider. -/
theorem split_after_tools {tools h h₁ h₂ : History} {asked : CompleteRequest}
    {answer : Except Raised ModelResponse} (only : ∀ d ∈ tools, d.1.isResearch = true)
    (split : tools ++ h = h₁ ++ ⟨.complete asked, answer⟩ :: h₂) :
    ∃ later, h₁ = tools ++ later ∧ h = later ++ ⟨.complete asked, answer⟩ :: h₂ := by
  rcases List.append_eq_append_iff.mp split with ⟨later, rfl, rest⟩ | ⟨spare, rfl, rest⟩
  · exact ⟨later, rfl, rest⟩
  · cases spare with
    | nil => exact ⟨[], by simp, rest.symm⟩
    | cons d spare =>
      obtain ⟨rfl, _⟩ := List.cons.inj rest
      cases only _ (List.mem_append_right _ (.head _))

/-- A call of the provider within a run: some turns are done, each with the calls of its
response, and their messages are what has been added to the conversation. What the
observer has been told by then is where the run would end if this call raised. -/
theorem turns_asked
    (ends : Ends (turns host request (some captureToolCall) left messages) s h r t)
    {h₁ h₂ : History} {asked : CompleteRequest} {answer : Except Raised ModelResponse}
    (split : h = h₁ ++ ⟨.complete asked, answer⟩ :: h₂) :
    ∃ done : List (List Exchange),
      asked = request (messages ++ done.flatMap (turnMessages host)) ∧
      done.map (·.map (·.call)) = (responses h₁).map (·.toolCalls) ∧
      (∀ turn ∈ done, turn ≠ []) ∧
      List.Forall₂ Researched (research h₁) (done.flatten.map (·.event)) ∧
      ∀ e, Ends (turns host request (some captureToolCall) left messages) s
        (h₁ ++ [⟨.complete asked, .error e⟩]) (.error e) (s ++ done.flatten.map (·.event)) := by
  induction left generalizing messages s h h₁ with
  | zero =>
    obtain ⟨rfl, _, _⟩ := turns_zero ends
    simp at split
  | succ left ih =>
    obtain ⟨first, rest, rfl, turn⟩ := turns_turn ends
    cases h₁ with
    | nil =>
      obtain ⟨same, rfl⟩ := List.cons.inj split
      cases same
      refine ⟨[], by simp, rfl, by simp, .nil, fun e => ?_⟩
      rw [List.flatten_nil, List.map_nil, List.append_nil]
      exact ⟨.error e, [], rfl, rfl, rfl⟩
    | cons d h₁ =>
      obtain ⟨rfl, tail⟩ := List.cons.inj split
      cases turn with
      | raised | emitted | silent => simp at tail
      | failed _ tools =>
        have asks := tools ⟨.complete asked, answer⟩ (by simp [tail])
        cases asks
      | @went response h₃ h₄ _ _ turn none some own executed each later =>
        have tools := executeCalls_tools _ executed
        obtain ⟨h₅, rfl, rest⟩ := split_after_tools tools tail
        obtain ⟨done, conversation, calls, busy, researched, stops⟩ := ih later rest
        refine ⟨turn :: done, ?_, ?_, ?_, ?_, fun e => ?_⟩
        · rw [conversation, List.flatMap_cons, List.append_assoc]
        · show _ = List.map _ (response :: responses (h₃ ++ h₅))
          rw [responses_append, responses_tools tools, List.nil_append, List.map_cons,
            List.map_cons, own, calls]
        · refine List.forall_mem_cons.mpr ⟨?_, busy⟩
          rintro rfl
          exact some own.symm
        · show List.Forall₂ _ (research (h₃ ++ h₅)) _
          rw [research_append, research_all tools, List.flatten_cons, List.map_append]
          exact List.rel_append each researched
        · have stop := stops e
          rw [List.append_assoc, ← List.map_append, ← List.flatten_cons] at stop
          rw [List.cons_append, List.append_assoc]
          exact turns_went none some own executed stop

/-! ## Every run -/

/-- Whatever the provider answers, as long as the calls of a response have distinct ids. It
is asked at most six times. Each time the conversation is well formed: the prompt, and
for each response so far its calls and their results, of which the observer has been
told, one for each tool executed and in that order. A case file is returned exactly when
the last response emits it; otherwise the run raises. -/
theorem run_conversation {model : String} {tx : Transaction} {triage : TriageVerdict}
    {rulesScore : Int} {h : History} {out : Except Raised CaseFile} {seen : List ToolEvent}
    (distinct : DistinctIds h)
    (ends : Ends (run host model tx triage (some captureToolCall) rulesScore) [] h out seen) :
    providerCalls h ≤ 6 ∧
    (∀ h₁ asked answer h₂, h = h₁ ++ ⟨.complete asked, answer⟩ :: h₂ →
      WellFormed asked.messages ∧
      ∃ done : List (List Exchange),
        asked.messages = ⟨.user, .text (prompt host tx triage)⟩ ::
          done.flatMap (turnMessages host) ∧
        done.map (·.map (·.call)) = (responses h₁).map (·.toolCalls) ∧
        (∀ turn ∈ done, turn ≠ []) ∧
        List.Forall₂ Researched (research h₁) (done.flatten.map (·.event)) ∧
        ∀ e, Ends (run host model tx triage (some captureToolCall) rulesScore) []
          (h₁ ++ [⟨.complete asked, .error e⟩]) (.error e) (done.flatten.map (·.event))) ∧
    ∀ case, out = .ok case ↔ EmitsLast host case h := by
  refine ⟨turns_providerCalls ends, ?_, fun case => turns_case_iff case (fun _ => rfl) ends⟩
  intro h₁ asked answer h₂ split
  obtain ⟨done, rfl, calls, busy, researched, stops⟩ := turns_asked ends split
  refine ⟨wellFormed_turns rfl fun turn mem => ?_, done, rfl, calls, busy, researched, stops⟩
  have own : turn.map (·.call) ∈ (responses h₁).map (·.toolCalls) := by
    rw [← calls]
    exact List.mem_map_of_mem mem
  obtain ⟨response, given, same⟩ := List.mem_map.mp own
  have ids := distinct response (by
    rw [split, responses_append]
    exact List.mem_append_left _ given)
  rwa [same, List.map_map] at ids

end InvestigatorAgent

/-! An investigation whose first response calls two tools, and whose second call of the
provider raises. -/

def pairAnswers (past : History) : (o : Op) → o.Res
  | .complete _ =>
    if past.isEmpty then
      .ok { text := "", toolCalls :=
        [⟨"t1", "check_sanctions_list", [("name", .str "Ada Lindqvist")]⟩,
          ⟨"t2", "get_entity_graph", [("account_id", .str "acct_gate")]⟩] }
    else .error (.exception "APIConnectionError")
  | o => clearAnswers past o

def pairInvestigation : History × Except Raised CaseFile × List ToolEvent :=
  ((InvestigatorAgent.run sampleHost "sonnet" sampleTransaction likelyTriage
    (some Orchestrator.captureToolCall) 50).run.run []).play pairAnswers []

theorem run_conversation_pair :
    ∃ asked answer, pairInvestigation.1.getLast? = some ⟨.complete asked, answer⟩ ∧
      WellFormed asked.messages ∧ asked.messages.length = 3 := by
  have split : ∃ asked answer, pairInvestigation.1 =
      pairInvestigation.1.take 3 ++ [⟨.complete asked, answer⟩] ∧ asked.messages.length = 3 :=
    ⟨_, _, rfl, rfl⟩
  obtain ⟨asked, answer, split, length⟩ := split
  have distinct : DistinctIds pairInvestigation.1 := by
    intro response given
    obtain rfl := List.mem_singleton.mp given
    simp
  obtain ⟨_, conversation, _⟩ :=
    InvestigatorAgent.run_conversation distinct (Prog.play_runs pairAnswers [] _)
  refine ⟨asked, answer, ?_, (conversation _ asked answer [] split).1, length⟩
  rw [split, List.getLast?_concat]

end VaultWatch.Agents
