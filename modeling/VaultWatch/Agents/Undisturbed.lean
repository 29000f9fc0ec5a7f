import VaultWatch.Agents.PaymentGate
import VaultWatch.Lib.Parts

/-! # Runs that nothing disturbs

What the pipeline does between its stages raises nothing: an append, a verification or a
payment that fails is dealt with where it fails. Only a cancelled audit call and an event sink
that raises get through. -/
namespace VaultWatch.Agents

open VaultWatch.Lib.Effects VaultWatch.Lib.Interleave

/-- No audit call is cancelled, and no security event is recent. -/
def Quiet : (o : Op) → o.Res → Prop
  | .append .., answer => answer ≠ .error .cancelled
  | .verify, answer => answer ≠ .error .cancelled
  | .recentSecurityEvents _, read => recentSecurityEvent read.1 read.2 = none
  | _, _ => True

/-- The event sink takes what it is sent. -/
def Accepted : (o : Op) → o.Res → Prop
  | .send _, answer => answer = .ok ()
  | _, _ => True

theorem Value.getItem_exception {v : Value} {key : String} {e : Raised}
    (failed : v.getItem key = .error e) : e ≠ .cancelled := by
  unfold Value.getItem Dict.getItem at failed
  split at failed
  · split at failed
    · cases failed
    · cases failed
      nofun
  · cases failed
    nofun

variable {host : Host} {o : Orchestrator} {tx : Transaction} {h : History}

/-- A `try` with an `except Exception` that both keep `I`. -/
theorem caught {σ α : Type} {I : σ → Prop} {body handler : Py σ α} {s : σ}
    (runs : Wherever h body s fun r t => r ≠ .error .cancelled ∧ I t)
    (handled : ∀ t, I t → Wherever h handler t (Returning fun _ => I)) :
    Wherever h (attempt body (exceptException handler)) s (Returning fun _ => I) := by
  refine .attempt runs (fun a t kept => ⟨a, rfl, kept.2⟩) fun e t ⟨raised, kept⟩ => ?_
  cases e with
  | exception name => exact handled t kept
  | cancelled => exact absurd rfl raised

theorem execute_kept (action : PaymentAction) (s : PipelineResult) :
    Wherever h (execute host action (tx.modelDump host)) s <| Returning fun _ t => t = s := by
  unfold execute
  split
  · exact .askThen fun _ _ => .raisingThen nofun fun _ _ => .pure ⟨_, rfl, rfl⟩
  · exact .pure ⟨_, rfl, rfl⟩

section
variable (quiet : ∀ d ∈ h, Quiet d.1 d.2)
include quiet

namespace Orchestrator

theorem record_kept (eventType : String) (payload : Dict) (s : PipelineResult) :
    Wherever h (record o tx eventType payload) s <| Returning fun _ t =>
      ∃ audit, t = { s with audit } := by
  unfold record
  split
  · refine caught (.askThen fun answer asked => ?_) ?_
    · refine .raisingThen (fun e failed => ⟨?_, s.audit, rfl⟩)
        fun receipt _ => .modify ⟨nofun, _, rfl⟩
      intro same
      cases same
      exact quiet _ asked failed
    · intro _ kept
      obtain ⟨audit, rfl⟩ := kept
      exact .modify ⟨(), rfl, _, rfl⟩
  · exact .pure ⟨(), rfl, s.audit, rfl⟩

theorem emit_kept (accepted : ∀ d ∈ h, Accepted d.1 d.2) (event : Event) (s : PipelineResult) :
    Wherever h (emit host o tx event) s <| Returning fun _ t =>
      ∃ audit, t = { s with events := s.events ++ [event.modelDump host], audit } := by
  refine .modifyThen <| .andThen (record_kept quiet _ _ _) ?_
  intro _ _ kept
  obtain ⟨audit, rfl⟩ := kept
  split
  · refine .askThen fun answer asked => .raising ?_
    obtain rfl : answer = .ok () := accepted _ asked
    exact ⟨(), rfl, audit, rfl⟩
  · exact .pure ⟨(), rfl, audit, rfl⟩

theorem emitStage_kept (accepted : ∀ d ∈ h, Accepted d.1 d.2) (stage : PipelineStage)
    (label : String) (detail : Dict) (s : PipelineResult) :
    Wherever h (emitStage host o tx stage label detail) s <| Returning fun _ t =>
      ∃ timestamp audit, t = { s with
        events := s.events ++
          [AgentEvent.modelDump host ⟨tx.id, tx.accountId, stage, label, detail, timestamp⟩]
        audit } := by
  refine .askThen fun timestamp _ => (emit_kept quiet accepted _ s).mono fun _ _ kept => ?_
  obtain ⟨_, rfl, audit, rfl⟩ := kept
  exact ⟨(), rfl, timestamp, audit, rfl⟩

end Orchestrator

theorem verifyAudit_kept (s : PipelineResult) :
    Wherever h (verifyAudit host) s fun r t =>
      r ≠ .error .cancelled ∧ ∃ audit, t = { s with audit } := by
  refine .askThen fun answer asked => .raisingThen (fun e failed => ⟨?_, s.audit, rfl⟩)
    fun verification _ => ?_
  · intro same
    cases same
    exact quiet _ asked failed
  · refine .modifyThen <| .askThen fun checkedAt _ => .modifyThen <|
      .raisingThen (fun e failed => ⟨?_, _, rfl⟩) fun valid _ =>
        .getThen <| .modifyThen <| .pure ⟨nofun, _, rfl⟩
    intro same
    cases same
    exact Value.getItem_exception failed rfl

theorem Orchestrator.verifyCase_kept (s : PipelineResult) :
    Wherever h (verifyCase host o) s <| Returning fun _ t => ∃ audit, t = { s with audit } := by
  unfold verifyCase
  split
  · refine caught (.bind (verifyAudit_kept quiet s) (fun e t kept => ?_) fun _ t kept => ?_) ?_
    · exact ⟨fun same => kept.1 (by cases same; rfl), kept.2⟩
    · exact .pure ⟨nofun, kept.2⟩
    · intro _ kept
      obtain ⟨audit, rfl⟩ := kept
      exact .modify ⟨(), rfl, _, rfl⟩
  · exact .pure ⟨(), rfl, s.audit, rfl⟩

theorem recordPolicy_kept (transactionId : Value) (event : Dict) (s : PipelineResult) :
    Wherever h (recordPolicy host transactionId event) s <| Returning fun _ t =>
      ∃ audit, t = { s with audit } := by
  refine caught (.askThen fun answer asked => ?_) ?_
  · refine .raisingThen (fun e failed => ⟨?_, s.audit, rfl⟩) fun receipt _ => ?_
    · intro same
      cases same
      exact quiet _ asked failed
    · exact .modifyThen (verifyAudit_kept quiet _)
  · intro _ kept
    obtain ⟨audit, rfl⟩ := kept
    exact .modifyThen <| .modifyThen <| .pure ⟨false, rfl, _, rfl⟩

theorem applyPaymentControl_kept (configured : Bool) {s : PipelineResult}
    (owner : s.transaction = tx.modelDump host) :
    Wherever h (applyPaymentControl host configured) s <| Returning fun _ t =>
      ∃ event audit payment, t = { s with
        events := s.events ++ [event]
        audit
        payment := some payment } := by
  obtain ⟨reasons, decided⟩ := paymentPolicy_asDict host s
  have named : s.transaction.getItem "id" = .ok (.str tx.id) := by
    rw [owner]
    rfl
  have owned : s.transaction.getItem "account_id" = .ok (.str tx.accountId) := by
    rw [owner]
    rfl
  have paid (action : PaymentAction) (u : PipelineResult) :
      Wherever h (execute host action s.transaction) u <| Returning fun _ t => t = u := by
    rw [owner]
    exact execute_kept action u
  unfold applyPaymentControl
  refine .getThen ?_
  rw [decided, named, owned]
  refine .raisingThen nofun fun decision _ => .askThen fun timestamp _ => ?_
  refine .raisingThen nofun fun transactionId _ => .raisingThen nofun fun accountId _ => ?_
  refine .modifyThen <| .andThen (R := fun _ t => ∃ event audit, t = { s with
    events := s.events ++ [event], audit }) ?_ ?_
  · split
    · refine (recordPolicy_kept quiet _ _ _).mono fun _ _ kept => ?_
      obtain ⟨verified, rfl, audit, rfl⟩ := kept
      exact ⟨verified, rfl, _, audit, rfl⟩
    · exact .pure ⟨false, rfl, _, s.audit, rfl⟩
  · intro verified _ kept
    obtain ⟨event, audit, rfl⟩ := kept
    refine .andThen (paid _ _) fun execution _ same => ?_
    obtain rfl := same
    exact .modify ⟨(), rfl, event, audit, _, rfl⟩

/-- The end of every run returns, with one more event. -/
theorem Orchestrator.finish_kept {s : PipelineResult} (owner : s.transaction = tx.modelDump host) :
    Wherever h (finish host o tx) s <| Returning fun _ t =>
      ∃ event audit payment, t = { s with
        events := s.events ++ [event]
        audit
        payment := some payment } := by
  refine .getThen <| .andThen (record_kept quiet _ _ s) ?_
  intro _ _ kept
  obtain ⟨opened, rfl⟩ := kept
  refine .andThen (verifyCase_kept quiet _) fun _ _ kept => ?_
  obtain ⟨verified, rfl⟩ := kept
  exact applyPaymentControl_kept quiet o.audit owner

end

end VaultWatch.Agents
