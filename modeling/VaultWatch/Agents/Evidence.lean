import VaultWatch.Agents.AuditStatus
import Mathlib.Data.List.Forall2

/-! # The evidence of a verified run

Every step of a run is recorded by one of three pieces of code, which swallow what
goes wrong and leave an audit error. A run without such an error holds one receipt
for each step, in order. -/
namespace VaultWatch.Agents

open VaultWatch.Lib.Effects VaultWatch.Lib.Interleave

/-! ## Receipts -/

/-- An event type and a payload. -/
abbrev Step := String × Dict

/-- An append of the transaction's step that succeeded with this receipt. -/
def AppendedAs (tx : Transaction) (h : History) (step : Step) (receipt : Value) : Prop :=
  ⟨.append (.str tx.id) step.1 step.2, .ok receipt⟩ ∈ h

/-- `h` adds no audit error, or one receipt for each of `steps`. -/
structure Documented (tx : Transaction) (h : History) (before after : AuditTrail)
    (steps : List Step) : Prop where
  errors : after.errors = [] → before.errors = []
  entries : after.errors = [] → ∃ receipts, after.entries = before.entries ++ receipts ∧
    List.Forall₂ (AppendedAs tx h) steps receipts

variable {host : Host} {o : Orchestrator} {tx : Transaction} {α β : Type}

theorem Documented.nothing (h : History) (a : AuditTrail) : Documented tx h a a [] :=
  ⟨id, fun _ => ⟨[], (List.append_nil _).symm, .nil⟩⟩

/-- An audit error leaves nothing to document. -/
theorem Documented.failed {h : History} {a b : AuditTrail} {steps : List Step}
    {errors : List String} {error : String} (left : b.errors = errors ++ [error]) :
    Documented tx h a b steps := by
  have some : b.errors ≠ [] := by
    rw [left]
    exact List.append_ne_nil_of_right_ne_nil _ (List.cons_ne_nil _ _)
  exact ⟨fun clean => absurd clean some, fun clean => absurd clean some⟩

theorem Documented.trans {h₁ h₂ : History} {a b c : AuditTrail} {first second : List Step}
    (one : Documented tx h₁ a b first) (two : Documented tx h₂ b c second) :
    Documented tx (h₁ ++ h₂) a c (first ++ second) where
  errors clean := one.errors (two.errors clean)
  entries clean := by
    obtain ⟨receipts₁, entries₁, each₁⟩ := one.entries (two.errors clean)
    obtain ⟨receipts₂, entries₂, each₂⟩ := two.entries clean
    refine ⟨receipts₁ ++ receipts₂, ?_, List.rel_append ?_ ?_⟩
    · rw [entries₂, entries₁, List.append_assoc]
    · exact each₁.imp fun _ _ mem => List.mem_append_left _ mem
    · exact each₂.imp fun _ _ mem => List.mem_append_right _ mem

/-- The payload of `case.opened`. -/
def PipelineResult.opening (result : PipelineResult) : Dict :=
  [("transaction", .dict result.transaction), ("context", .dict result.context),
    ("review", .dict result.review), ("model_mode", .str result.modelMode)]

/-- The payload of `case.completed`. -/
def PipelineResult.completion (result : PipelineResult) : Dict :=
  [("stage", .str result.stageReached.value),
    ("case", .ofOption (.dict ·.modelDump) result.case),
    ("compliance", .ofOption (.dict ·.modelDump) result.compliance)]

def Event.step (host : Host) (event : Event) : Step :=
  (event.eventType, event.modelDump host)

/-- From `s` to `t` the run emits `emitted`, each with its receipt. -/
structure Emitted (host : Host) (tx : Transaction) (h : History) (s t : PipelineResult)
    (emitted : List Event) : Prop where
  opening : t.opening = s.opening
  events : t.events = s.events ++ emitted.map (·.modelDump host)
  documented : Documented tx h s.audit t.audit (emitted.map (·.step host))

theorem Emitted.nothing (h : History) {s t : PipelineResult} (opening : t.opening = s.opening)
    (events : t.events = s.events) (audit : t.audit = s.audit) : Emitted host tx h s t [] where
  opening := opening
  events := by rw [events]; exact (List.append_nil _).symm
  documented := by rw [audit]; exact .nothing h _

theorem Emitted.trans {h₁ h₂ : History} {s t u : PipelineResult} {first second : List Event}
    (one : Emitted host tx h₁ s t first) (two : Emitted host tx h₂ t u second) :
    Emitted host tx (h₁ ++ h₂) s u (first ++ second) where
  opening := two.opening.trans one.opening
  events := by rw [two.events, one.events, List.map_append, List.append_assoc]
  documented := by
    rw [List.map_append]
    exact one.documented.trans two.documented

/-- A program that, when it returns, has emitted some events. -/
def Emitting (host : Host) (tx : Transaction) (m : Py PipelineResult α) : Prop :=
  ∀ ⦃s h a t⦄, Returns m s h a t → ∃ emitted, Emitted host tx h s t emitted

namespace Emitting

theorem pure (a : α) : Emitting host tx (Pure.pure a) := by
  intro s h _ t returns
  obtain ⟨rfl, _, rfl⟩ := returns.pure
  exact ⟨[], .nothing _ rfl rfl rfl⟩

theorem raising (a : Except Raised α) : Emitting host tx (Lib.Effects.raising a) := by
  intro s h _ t returns
  obtain ⟨rfl, _, rfl⟩ := returns.raising
  exact ⟨[], .nothing _ rfl rfl rfl⟩

theorem throw (e : Raised) : Emitting host tx (throw e : Py PipelineResult α) := by
  intro s h _ t returns
  exact absurd returns Returns.throw

theorem ask (op : Op) : Emitting host tx (Lib.Effects.ask op : Py PipelineResult op.Res) := by
  intro s h a t returns
  obtain ⟨_, _, rfl, rfl, same⟩ := returns
  cases same
  exact ⟨[], .nothing _ rfl rfl rfl⟩

theorem get : Emitting host tx (MonadState.get : Py PipelineResult PipelineResult) := by
  intro s h a t returns
  obtain ⟨rfl, same⟩ := returns
  cases same
  exact ⟨[], .nothing _ rfl rfl rfl⟩

/-- A verdict written into the result. -/
theorem modify {f : PipelineResult → PipelineResult} (opening : ∀ s, (f s).opening = s.opening)
    (events : ∀ s, (f s).events = s.events) (audit : ∀ s, (f s).audit = s.audit) :
    Emitting host tx (modify f) := by
  intro s h _ t returns
  obtain ⟨rfl, rfl⟩ := returns.modify
  exact ⟨[], .nothing _ (opening s) (events s) (audit s)⟩

theorem bind {m : Py PipelineResult α} {f : α → Py PipelineResult β} (first : Emitting host tx m)
    (rest : ∀ a, Emitting host tx (f a)) : Emitting host tx (m >>= f) := by
  intro s h b t returns
  obtain ⟨a, u, h₁, h₂, rfl, returned, ended⟩ := returns.bind
  obtain ⟨emitted, one⟩ := first returned
  obtain ⟨emitted', two⟩ := rest a ended
  exact ⟨emitted ++ emitted', one.trans two⟩

theorem forM {f : α → Py PipelineResult PUnit} (pass : ∀ a, Emitting host tx (f a))
    (as : List α) : Emitting host tx (as.forM f) := by
  induction as with
  | nil => exact .pure _
  | cons a as ih => exact .bind (pass a) fun _ => ih

/-- A program on an object of its own. -/
theorem withLocal {τ : Type} (l : τ) (m : Py τ α) :
    Emitting host tx (Lib.Effects.withLocal l m : Py PipelineResult (α × τ)) := by
  intro s h a t returns
  obtain ⟨a, l'⟩ := a
  obtain ⟨_, rfl⟩ := returns.withLocal
  exact ⟨[], .nothing _ rfl rfl rfl⟩

end Emitting

namespace Orchestrator

end Orchestrator

/-! ## Finishing -/

namespace Orchestrator

/-- A program that emits events and then finishes the case. -/
def Finishing (host : Host) (o : Orchestrator) (tx : Transaction) (m : Py PipelineResult Unit) :
    Prop :=
  ∀ ⦃s h t⦄, Returns m s h () t → ∃ h₁ h₂ u emitted, h = h₁ ++ h₂ ∧
    Emitted host tx h₁ s u emitted ∧ Returns (finish host o tx) u h₂ () t

theorem Finishing.finish : Finishing host o tx (finish host o tx) :=
  fun s h _ returns => ⟨[], h, s, [], rfl, .nothing _ rfl rfl rfl, returns⟩

theorem Finishing.bind {m : Py PipelineResult α} {f : α → Py PipelineResult Unit}
    (first : Emitting host tx m) (rest : ∀ a, Finishing host o tx (f a)) :
    Finishing host o tx (m >>= f) := by
  intro s h t returns
  obtain ⟨a, u, h₁, h₂, rfl, returned, ended⟩ := returns.bind
  obtain ⟨emitted, one⟩ := first returned
  obtain ⟨h₃, h₄, v, emitted', rfl, two, finished⟩ := rest a ended
  exact ⟨h₁ ++ h₃, h₄, v, emitted ++ emitted', (List.append_assoc ..).symm, one.trans two, finished⟩

end Orchestrator

/-! ## Complete evidence -/

/-- The steps of a run with what is recorded about each, in order. -/
def PipelineResult.steps (host : Host) (result : PipelineResult) (emitted : List Event)
    (payment : Dict) : List Step :=
  ("case.opened", result.opening) :: (emitted.map (·.step host) ++
    [("case.completed", result.completion), ("payment.policy", payment)])

end VaultWatch.Agents
