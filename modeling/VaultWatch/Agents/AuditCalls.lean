import VaultWatch.Agents.Recording

/-! What a run asks of the audit client, whatever the client answers: one lemma for
each definition of `Orchestrator` on the way of a run that closes at stage 0. -/
namespace VaultWatch.Agents

open VaultWatch.Lib.Effects VaultWatch.Lib.Interleave

/-- A call of the audit client. -/
inductive AuditCall
  | append (subjectId : Value) (eventType : String)
  | verify

/-- The calls of the audit client in a history, in order. -/
def auditCalls (h : History) : List AuditCall :=
  h.filterMap fun
    | ⟨.append subjectId eventType _, _⟩ => some (.append subjectId eventType)
    | ⟨.verify, _⟩ => some .verify
    | _ => none

@[simp] theorem auditCalls_append (h₁ h₂ : History) :
    auditCalls (h₁ ++ h₂) = auditCalls h₁ ++ auditCalls h₂ :=
  List.filterMap_append

theorem auditCalls_unaudited {h : History} (quiet : ∀ d ∈ h, d.1.unaudited = true) :
    auditCalls h = [] := by
  refine List.filterMap_eq_nil_iff.mpr fun ⟨op, answer⟩ mem => ?_
  have unaudited := quiet _ mem
  cases op <;> first | rfl | cases unaudited

/-- The program makes these calls whenever it returns. -/
def Calling {σ α : Type} (m : Py σ α) (calls : List AuditCall) : Prop :=
  ∀ ⦃s h a t⦄, Returns m s h a t → auditCalls h = calls

namespace Calling

variable {σ α β : Type} {m : Py σ α} {calls calls' : List AuditCall}

theorem bind {f : α → Py σ β} (first : Calling m calls) (rest : ∀ a, Calling (f a) calls') :
    Calling (m >>= f) (calls ++ calls') := by
  intro s h b t returns
  obtain ⟨a, u, h₁, h₂, rfl, returned, ended⟩ := returns.bind
  rw [auditCalls_append, first returned, rest a ended]

theorem unaudited (only : Only (·.unaudited = true) m) : Calling m [] :=
  fun _ _ _ _ returns => auditCalls_unaudited (only returns)

theorem modify (f : σ → σ) : Calling (modify f) [] := .unaudited (.modify f)

theorem pure (a : α) : Calling (Pure.pure a : Py σ α) [] := .unaudited (.pure a)

theorem raising (a : Except Raised α) : Calling (Lib.Effects.raising a : Py σ α) [] :=
  .unaudited (.raising a)

/-- An operation that is none of the audit's. -/
theorem ask {op : Op} (own : op.unaudited = true) :
    Calling (Lib.Effects.ask op : Py σ op.Res) [] :=
  .unaudited (.ask own)

end Calling

variable {host : Host} {o : Orchestrator} {tx : Transaction}

/-! ## Verifying and deciding -/

theorem verifyAudit_calls {s t : PipelineResult} {h : History} {r : Except Raised Bool}
    (ends : Ends (verifyAudit host) s h r t) : auditCalls h = [.verify] := by
  obtain ⟨answer, _, rfl, asked⟩ := ends.askThen
  rcases asked.raisingThen with ⟨e, _, _, rfl, _⟩ | ⟨verification, _, rest⟩
  · rfl
  · obtain ⟨checkedAt, _, rfl, checked⟩ := rest.modifyThen.askThen
    rcases checked.modifyThen.raisingThen with ⟨e, _, _, rfl, _⟩ | ⟨valid, _, last⟩
    · rfl
    · obtain ⟨rfl, _⟩ := last.getThen.modifyThen.pure
      rfl

/-- The policy's decision is verified, unless it could not be appended. -/
theorem recordPolicy_calls {transactionId : Value} {event : Dict} {s t : PipelineResult}
    {h : History} {verified : Bool}
    (returns : Returns (recordPolicy host transactionId event) s h verified t)
    (appended : AppendsOk h) :
    auditCalls h = [.append transactionId "payment.policy", .verify] := by
  have calls : ∀ {u v : PipelineResult} {k : History} {r : Except Raised Bool} (answer),
      Ends (verifyAudit host) u k r v →
      auditCalls (⟨.append transactionId "payment.policy" event, answer⟩ :: k) =
        [.append transactionId "payment.policy", .verify] :=
    fun _ ends => congrArg (AuditCall.append transactionId "payment.policy" :: ·)
      (verifyAudit_calls ends)
  rcases returns.attempt with done | ⟨e, u, h₁, h₂, rfl, failed, handled⟩
  · obtain ⟨_, receipt, _, rfl, rfl, rest⟩ := done.request
    exact calls _ rest.modifyThen
  · obtain ⟨rfl, _⟩ := (exceptException_returns handled).modifyThen.modifyThen.pure
    rw [List.append_nil] at appended ⊢
    obtain ⟨answer, _, rfl, asked⟩ := failed.askThen
    obtain ⟨_, rfl, _, rfl, _⟩ | ⟨receipt, rfl, rest⟩ := asked.raisingThen
    · cases appended _ (List.mem_singleton.mpr rfl)
    · exact calls _ rest.modifyThen

theorem execute_calls (action : PaymentAction) (transaction : Dict) :
    Calling (execute host action transaction) [] := by
  intro s h execution t returns
  unfold execute at returns
  split at returns
  · obtain ⟨_, _, rfl, rest⟩ := returns.askThen
    obtain ⟨_, _, rest⟩ := rest.raisingThen
    obtain ⟨rfl, _⟩ := rest.pure
    rfl
  · obtain ⟨rfl, _⟩ := returns.pure
    rfl

/-- With an audit client the decision about the payment of `tx` is recorded. -/
theorem applyPaymentControl_calls {s t : PipelineResult} {h : History}
    (owner : s.transaction = tx.modelDump host)
    (returns : Returns (applyPaymentControl host true) s h () t) (appended : AppendsOk h) :
    auditCalls h = [.append (.str tx.id) "payment.policy", .verify] := by
  obtain ⟨decision, _, rest⟩ := returns.getThen.raisingThen
  obtain ⟨timestamp, h', rfl, asked⟩ := rest.askThen
  obtain ⟨transactionId, named, rest⟩ := asked.raisingThen
  obtain ⟨accountId, _, rest⟩ := rest.raisingThen
  rw [owner] at named
  cases named
  obtain ⟨verified, _, h₁, h₂, rfl, recorded, rest⟩ := rest.modifyThen.bind
  obtain ⟨execution, _, h₃, _, rfl, executed, rest⟩ := rest.bind
  obtain ⟨rfl, _⟩ := rest.modify
  have split : AppendsOk ([⟨.now, timestamp⟩] ++ (h₁ ++ (h₃ ++ []))) := appended
  rw [appendsOk_append, appendsOk_append] at split
  show auditCalls ([⟨.now, timestamp⟩] ++ (h₁ ++ (h₃ ++ []))) = _
  rw [auditCalls_append, auditCalls_append, auditCalls_append, execute_calls _ _ executed,
    recordPolicy_calls recorded split.2.1]
  rfl

namespace Orchestrator

variable (configured : o.audit = true)
include configured

/-! ## Appending -/

theorem record_calls (eventType : String) (payload : Dict) :
    Calling (record o tx eventType payload) [.append (.str tx.id) eventType] := by
  intro s h _ t returns
  unfold record at returns
  rw [if_pos configured] at returns
  rcases returns.attempt with done | ⟨e, u, h₁, h₂, rfl, failed, handled⟩
  · obtain ⟨_, receipt, _, _, rfl, rest⟩ := done.request
    obtain ⟨rfl, _⟩ := rest.modify
    rfl
  · obtain ⟨rfl, _⟩ := (exceptException_returns handled).modify
    obtain ⟨answer, _, rfl, asked⟩ := failed.askThen
    obtain ⟨_, _, _, rfl, _⟩ | ⟨receipt, _, rest⟩ := asked.raisingThen
    · rfl
    · obtain ⟨rfl, _⟩ := rest.modify
      rfl

theorem emit_calls (event : Event) :
    Calling (emit host o tx event) [.append (.str tx.id) event.eventType] := by
  refine .bind (.modify _) fun _ => .bind (record_calls configured _ _) fun _ => ?_
  split
  · exact .bind (.ask rfl) fun _ => .raising _
  · exact .pure _

theorem emitStage_calls (stage : PipelineStage) (label : String) (detail : Dict) :
    Calling (emitStage host o tx stage label detail)
      [.append (.str tx.id) ("pipeline." ++ stage.value)] :=
  .bind (.ask rfl) fun _ => emit_calls configured _

theorem openCase_calls (context : Option ScoringContext) (review : Option Dict) :
    Calling (openCase host o tx context review) [.append (.str tx.id) "case.opened"] := by
  have built : Calling (scoringContext tx context) [] := by
    cases context with
    | some ctx => exact .pure ctx
    | none => exact .bind (.ask rfl) fun _ => .raising _
  exact built.bind fun _ => .bind (.modify _) fun _ =>
    .bind (record_calls configured _ _) fun _ => .pure _

theorem scoreRules_calls (ctx : ScoringContext) :
    Calling (scoreRules host o tx ctx) [.append (.str tx.id) "pipeline.rules"] :=
  .bind (.ask rfl) fun _ => .bind (.raising _) fun _ => .bind (.modify _) fun _ =>
    .bind (emitStage_calls configured _ _ _) fun _ => .pure _

theorem scorePrefilter_calls (ctx : ScoringContext) :
    Calling (scorePrefilter host o tx ctx) [.append (.str tx.id) "pipeline.prefilter"] :=
  .bind (.ask rfl) fun _ => .bind (.raising _) fun _ => .bind (.modify _) fun _ =>
    .bind (emitStage_calls configured _ _ _) fun _ => .pure _

theorem verifyCase_calls : Calling (verifyCase host o) [.verify] := by
  intro s h _ t returns
  unfold verifyCase at returns
  rw [if_pos configured] at returns
  rcases returns.attempt with done | ⟨e, u, h₁, h₂, rfl, failed, handled⟩
  · obtain ⟨verified, _, h₁, _, rfl, ran, rest⟩ := done.bind
    obtain ⟨rfl, _⟩ := rest.pure
    rw [List.append_nil]
    exact verifyAudit_calls ran
  · obtain ⟨rfl, _⟩ := (exceptException_returns handled).modify
    rw [List.append_nil]
    obtain ⟨e, _, ran⟩ | ⟨_, _, _, _, _, _, returned⟩ := failed.bind
    · exact verifyAudit_calls ran
    · obtain ⟨_, same, _⟩ := returned.pure
      cases same

end Orchestrator

end VaultWatch.Agents
