import VaultWatch.Agents.Orchestrator
import Mathlib.Data.List.Forall2

/-! What each stage of `process_transaction` asks of its environment. Only the
investigator calls research tools, and its observer sees each call with its result. -/
namespace VaultWatch.Agents

open VaultWatch.Lib.Effects VaultWatch.Lib.Interleave

namespace Orchestrator

variable {host : Host} {o : Orchestrator} {tx : Transaction}

/-! ## Outside the investigator -/

theorem exceptException_only {P : Op → Prop} {σ α : Type} {handler : Py σ α}
    (only : Only P handler) (e : Raised) : Only P (exceptException handler e) := by
  cases e with
  | exception type message => exact only
  | cancelled => exact .throw _

section
variable {P : Op → Prop} (asked : ∀ op : Op, op.isResearch = false → P op)
include asked

theorem record_only (eventType : String) (payload : Dict) :
    Only P (record o tx eventType payload) := by
  refine .ite (.attempt ?_ (exceptException_only (.modify _))) (.pure _)
  exact .bind (.ask (asked _ rfl)) fun _ => .bind (.raising _) fun _ => .modify _

theorem emit_only (event : Event) : Only P (emit host o tx event) := by
  refine .bind (.modify _) fun _ => .bind (record_only asked _ _) fun _ => .ite ?_ (.pure _)
  exact .bind (.ask (asked _ rfl)) fun _ => .raising _

theorem emitStage_only (stage : PipelineStage) (label : String) (detail : Dict) :
    Only P (emitStage host o tx stage label detail) :=
  .bind (.ask (asked _ rfl)) fun _ => emit_only asked _

theorem openCase_only (context : Option ScoringContext) (review : Option Dict) :
    Only P (openCase host o tx context review) := by
  refine .bind ?_ fun ctx => .bind (.modify _) fun _ =>
    .bind (record_only asked _ _) fun _ => .pure _
  cases context with
  | some ctx => exact .pure _
  | none => exact .bind (.ask (asked _ rfl)) fun _ => .raising _

theorem scoreRules_only (ctx : ScoringContext) : Only P (scoreRules host o tx ctx) :=
  .bind (.ask (asked _ rfl)) fun _ => .bind (.raising _) fun _ => .bind (.modify _) fun _ =>
    .bind (emitStage_only asked _ _ _) fun _ => .pure _

theorem scorePrefilter_only (ctx : ScoringContext) : Only P (scorePrefilter host o tx ctx) :=
  .bind (.ask (asked _ rfl)) fun _ => .bind (.raising _) fun _ => .bind (.modify _) fun _ =>
    .bind (emitStage_only asked _ _ _) fun _ => .pure _

theorem triageCase_only (ctx : ScoringContext) (rules : RuleEngineVerdict)
    (prefilter : PreFilterVerdict) : Only P (triageCase host o tx ctx rules prefilter) := by
  refine .bind (.bind (complete_only (fun _ => asked _ rfl) _) fun _ => ?_) fun triage => ?_
  · split
    · exact .raising _
    · exact .throw _
  · exact .bind (.modify _) fun _ => .bind .get fun _ =>
      .bind (emitStage_only asked _ _ _) fun _ => .pure _

theorem emitToolEvents_only (toolEvents : List ToolEvent) :
    Only P (toolEvents.forM (emitToolEvent host o tx)) := by
  induction toolEvents with
  | nil => exact .pure _
  | cons event rest ih =>
    exact .bind (.bind .get fun _ => emitStage_only asked _ _ _) fun _ => ih

theorem draftCompliance_only (case : CaseFile) : Only P (draftCompliance host o tx case) := by
  refine .ite (.bind (.bind (complete_only (fun _ => asked _ rfl) _) fun _ => ?_) fun report => ?_)
    (.pure _)
  · split
    · exact .raising _
    · exact .throw _
  · exact .bind (.modify _) fun _ => emitStage_only asked _ _ _

theorem fuse_only : Only P (fuse host o tx) := by
  refine .bind (.ask (asked _ rfl)) fun read => .bind ?_ fun _ => .pure _
  cases recentSecurityEvent read.1 read.2 with
  | none => exact .pure _
  | some event => exact .bind (.modify _) fun _ => emitStage_only asked _ _ _

theorem raiseAlert_only (case : CaseFile) (securityEvent : Option SecurityEvent) :
    Only P (raiseAlert host o tx case securityEvent) :=
  .bind (.ask (asked _ rfl)) fun _ => .bind (.modify _) fun _ => emit_only asked _

theorem verifyAudit_only : Only P (verifyAudit host) :=
  .bind (.ask (asked _ rfl)) fun _ => .bind (.raising _) fun _ => .bind (.modify _) fun _ =>
    .bind (.ask (asked _ rfl)) fun _ => .bind (.modify _) fun _ => .bind (.raising _) fun _ =>
    .bind .get fun _ => .bind (.modify _) fun _ => .pure _

theorem applyPaymentControl_only (audit : Bool) : Only P (applyPaymentControl host audit) := by
  refine .bind .get fun _ => .bind (.raising _) fun _ => .bind (.ask (asked _ rfl)) fun _ =>
    .bind (.raising _) fun _ => .bind (.raising _) fun _ => .bind (.modify _) fun _ =>
    .bind (.ite (.attempt ?_ (exceptException_only ?_)) (.pure _)) fun _ => .bind ?_ fun _ =>
    .modify _
  · exact .bind (.ask (asked _ rfl)) fun _ => .bind (.raising _) fun _ => .bind (.modify _) fun _ =>
      verifyAudit_only asked
  · exact .bind (.modify _) fun _ => .bind (.modify _) fun _ => .pure _
  · exact .ite (.bind (.ask (asked _ rfl)) fun _ => .bind (.raising _) fun _ => .pure _) (.pure _)

theorem finish_only : Only P (finish host o tx) := by
  refine .bind .get fun _ => .bind (record_only asked _ _) fun _ => .bind ?_ fun _ =>
    applyPaymentControl_only asked _
  refine .ite (.attempt ?_ (exceptException_only (.modify _))) (.pure _)
  exact .bind (verifyAudit_only asked) fun _ => .pure _

end

end Orchestrator

/-! ## Research -/

/-- The calls of research tools, in order. -/
def research (h : History) : History :=
  h.filter (·.1.isResearch)

theorem research_append (h₁ h₂ : History) : research (h₁ ++ h₂) = research h₁ ++ research h₂ :=
  List.filter_append ..

theorem research_quiet {h : History} (quiet : ∀ d ∈ h, d.1.isResearch = false) :
    research h = [] :=
  List.filter_eq_nil_iff.mpr fun d mem => Bool.eq_false_iff.mp (quiet d mem)

/-- What the observer is told of a research call. -/
inductive Researched : Prog.Done Op Op.Res → ToolEvent → Prop
  | history {toolInput : Dict} {accountId history : Value}
      (input : toolInput.getItem "account_id" = .ok accountId) :
      Researched ⟨.generateTransactionHistory accountId, .ok history⟩
        ⟨"get_transaction_history", toolInput, .dict [("history", history)]⟩
  | graph {toolInput : Dict} {accountId graph : Value}
      (input : toolInput.getItem "account_id" = .ok accountId) :
      Researched ⟨.generateEntityGraph accountId, .ok graph⟩ ⟨"get_entity_graph", toolInput, graph⟩
  | screen {toolInput result : Dict} {screened : Value}
      (input : toolInput.getItem "name" = .ok screened)
      (answer : checkSanctionsList screened = .ok result) :
      Researched ⟨.checkSanctionsList screened, ()⟩
        ⟨"check_sanctions_list", toolInput, .dict result⟩

theorem executeResearchTool_returns {σ : Type} {name : String} {toolInput : Dict} {result : Value}
    {s t : σ} {h : History} (returns : Returns (executeResearchTool name toolInput) s h result t) :
    t = s ∧ ∃ d, h = [d] ∧ d.1.isResearch = true ∧ Researched d ⟨name, toolInput, result⟩ := by
  unfold executeResearchTool at returns
  split at returns
  · rename_i named
    subst named
    obtain ⟨accountId, input, asked⟩ := returns.raisingThen
    obtain ⟨answer, _, rfl, rest⟩ := asked.askThen
    obtain ⟨history, rfl, last⟩ := rest.raisingThen
    obtain ⟨rfl, rfl, rfl⟩ := last.pure
    exact ⟨rfl, _, rfl, rfl, .history input⟩
  · split at returns
    · rename_i _ named
      subst named
      obtain ⟨accountId, input, asked⟩ := returns.raisingThen
      obtain ⟨answer, _, rfl, rest⟩ := asked.askThen
      obtain ⟨rfl, rfl, rfl⟩ := rest.raising
      exact ⟨rfl, _, rfl, rfl, .graph input⟩
    · split at returns
      · rename_i _ _ named
        subst named
        obtain ⟨screened, input, asked⟩ := returns.raisingThen
        obtain ⟨answer, _, rfl, rest⟩ := asked.askThen
        obtain ⟨r, found, last⟩ := rest.raisingThen
        obtain ⟨rfl, rfl, rfl⟩ := last.pure
        exact ⟨rfl, _, rfl, rfl, .screen input found⟩
      · exact absurd returns Returns.throw

/-- From `s` to `t` the observer has been told of each research call of `h`. -/
def Captured (h : History) (s t : List ToolEvent) : Prop :=
  ∃ seen, t = s ++ seen ∧ List.Forall₂ Researched (research h) seen

theorem Captured.nothing {h : History} (quiet : ∀ d ∈ h, d.1.isResearch = false)
    (s : List ToolEvent) : Captured h s s :=
  ⟨[], (List.append_nil s).symm, research_quiet quiet ▸ .nil⟩

theorem Captured.trans {h₁ h₂ : History} {s t u : List ToolEvent} (first : Captured h₁ s t)
    (second : Captured h₂ t u) : Captured (h₁ ++ h₂) s u := by
  obtain ⟨seen, rfl, each⟩ := first
  obtain ⟨seen', rfl, each'⟩ := second
  exact ⟨seen ++ seen', List.append_assoc .., research_append h₁ h₂ ▸ List.rel_append each each'⟩

namespace InvestigatorAgent

open Orchestrator (captureToolCall)

theorem executeCalls_captured {host : Host} {calls : List ToolCall} {content : List Block}
    {s t : List ToolEvent} {h : History}
    (returns : Returns (executeCalls host (some captureToolCall) calls) s h content t) :
    Captured h s t := by
  induction calls generalizing content s h with
  | nil =>
    obtain ⟨rfl, _, rfl⟩ := returns.pure
    exact .nothing (fun d mem => by cases mem) _
  | cons call calls ih =>
    obtain ⟨result, u, h₁, _, rfl, executed, rest⟩ := returns.bind
    obtain ⟨rfl, d, rfl, tool, seen⟩ := executeResearchTool_returns executed
    obtain ⟨_, _, h₂, _, rfl, notified, rest⟩ := rest.bind
    obtain ⟨rfl, rfl⟩ := Returns.modify notified
    obtain ⟨_, _, h₃, _, rfl, later, rest⟩ := rest.bind
    obtain ⟨rfl, _, rfl⟩ := rest.pure
    have one : Captured [d] u (u ++ [⟨call.name, call.input, result⟩]) :=
      ⟨[_], rfl, by simpa [research, tool] using seen⟩
    simpa using one.trans (ih later)

theorem turns_captured {host : Host} {request : List Message → CompleteRequest} {left : Nat}
    {messages : List Message} {case : CaseFile} {s t : List ToolEvent} {h : History}
    (returns : Returns (turns host request (some captureToolCall) left messages) s h case t) :
    Captured h s t := by
  induction left generalizing messages s h with
  | zero => exact absurd returns Returns.throw
  | succ left ih =>
    obtain ⟨response, u, _, h₁, rfl, asked, rest⟩ := returns.bind
    obtain ⟨rfl, rfl⟩ := complete_returns asked
    have quiet : Captured [⟨.complete (request messages), .ok response⟩] u u :=
      .nothing (fun d mem => by rw [List.mem_singleton.mp mem]; rfl) u
    refine quiet.trans ?_
    split at rest
    · obtain ⟨rfl, _, rfl⟩ := rest.raising
      exact .nothing (fun d mem => by cases mem) _
    · split at rest
      · exact absurd rest Returns.throw
      · obtain ⟨_, _, h₂, h₃, rfl, executed, later⟩ := rest.bind
        exact (executeCalls_captured executed).trans (ih later)

end InvestigatorAgent

end VaultWatch.Agents
