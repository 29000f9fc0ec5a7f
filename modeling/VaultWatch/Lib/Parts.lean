import VaultWatch.Lib.Effects

/-! What the parts of one run do. The whole history is fixed, and a program is judged wherever
it is run in it, whether it returns or raises. So an assumption may speak about the answers of
this run, or about all runs of a smaller program in it, and need not hold of any other. -/
namespace VaultWatch.Lib.Effects

open Interleave Interleave.Prog

variable {Op : Type} {Res : Op → Type} {σ τ ε α β : Type}

/-- Each part of `h` that is a run of `m` from `s` ends as `Q` says. -/
def Wherever (h : List (Done Op Res)) (m : Eff Op Res σ ε α) (s : σ)
    (Q : Except ε α → σ → Prop) : Prop :=
  ∀ ⦃part r t⦄, part <:+: h → Ends m s part r t → Q r t

/-- `m` returns, and `R` holds of what it returns. -/
def Returning (R : α → σ → Prop) (r : Except ε α) (t : σ) : Prop :=
  ∃ a, r = .ok a ∧ R a t

/-- `m` raises what `x` raises and else returns, with `R` between the two values. -/
def Mirroring (x : Except ε β) (R : β → α → σ → Prop) (r : Except ε α) (t : σ) : Prop :=
  match x with
  | .error e => r = .error e
  | .ok b => Returning (R b) r t

namespace Wherever

variable {h : List (Done Op Res)} {s : σ} {m : Eff Op Res σ ε α} {Q R : Except ε α → σ → Prop}

theorem whole {r : Except ε α} {t : σ} (all : Wherever h m s Q) (ends : Ends m s h r t) : Q r t :=
  all (List.infix_refl h) ends

theorem mono (all : Wherever h m s R) (weaker : ∀ r t, R r t → Q r t) : Wherever h m s Q :=
  fun _ r t within ends => weaker r t (all within ends)

theorem pure {a : α} (holds : Q (.ok a) s) : Wherever h (Pure.pure a) s Q := by
  intro part r t _ ends
  obtain ⟨_, rfl, rfl⟩ := ends.pure
  exact holds

theorem throw {e : ε} (holds : Q (.error e) s) : Wherever h (throw e) s Q := by
  intro part r t _ ends
  obtain ⟨_, rfl, rfl⟩ := ends.throw
  exact holds

theorem raising {a : Except ε α} (holds : Q a s) : Wherever h (Effects.raising a) s Q := by
  intro part r t _ ends
  obtain ⟨_, rfl, rfl⟩ := ends.raising
  exact holds

theorem modifyThen {f : σ → σ} {k : Unit → Eff Op Res σ ε α} (rest : Wherever h (k ()) (f s) Q) :
    Wherever h (modify f >>= k) s Q :=
  rest

theorem modify {Q : Except ε Unit → σ → Prop} {f : σ → σ} (holds : Q (.ok ()) (f s)) :
    Wherever h (modify f) s Q := by
  intro part r t _ ends
  obtain ⟨_, rfl, rfl⟩ := ends.modify
  exact holds

theorem getThen {k : σ → Eff Op Res σ ε α} (rest : Wherever h (k s) s Q) :
    Wherever h (MonadState.get >>= k) s Q :=
  rest

/-- The answer is one that the run got. -/
theorem askThen {o : Op} {k : Res o → Eff Op Res σ ε α}
    (rest : ∀ r, ⟨o, r⟩ ∈ h → Wherever h (k r) s Q) : Wherever h (ask o >>= k) s Q := by
  intro part r t within ends
  obtain ⟨answer, later, rfl, ended⟩ := ends.askThen
  refine rest answer (within.subset (.head _)) ?_ ended
  exact (List.suffix_cons _ later).isInfix.trans within

theorem raisingThen {a : Except ε β} {k : β → Eff Op Res σ ε α}
    (raised : ∀ e, a = .error e → Q (.error e) s)
    (rest : ∀ b, a = .ok b → Wherever h (k b) s Q) : Wherever h (Effects.raising a >>= k) s Q := by
  intro part r t within ends
  rcases ends.raisingThen with ⟨e, failed, rfl, _, rfl⟩ | ⟨b, viewed, ended⟩
  · exact raised e failed
  · exact rest b viewed within ended

theorem bind {R : Except ε β → σ → Prop} {m : Eff Op Res σ ε β} {f : β → Eff Op Res σ ε α}
    (first : Wherever h m s R) (raised : ∀ e t, R (.error e) t → Q (.error e) t)
    (rest : ∀ b t, R (.ok b) t → Wherever h (f b) t Q) : Wherever h (m >>= f) s Q := by
  intro part r t within ends
  rcases ends.bind with ⟨e, rfl, failed⟩ | ⟨b, u, h₁, h₂, rfl, returned, ended⟩
  · exact raised e t (first within failed)
  · have before := first ((List.prefix_append h₁ h₂).isInfix.trans within) returned
    exact rest b u before ((List.suffix_append h₁ h₂).isInfix.trans within) ended

/-- After a program that does not raise. -/
theorem andThen {R : β → σ → Prop} {m : Eff Op Res σ ε β} {f : β → Eff Op Res σ ε α}
    (first : Wherever h m s (Returning R)) (rest : ∀ b t, R b t → Wherever h (f b) t Q) :
    Wherever h (m >>= f) s Q := by
  refine bind first ?_ ?_
  · intro e t ⟨b, same, _⟩
    cases same
  · intro b t ⟨c, same, held⟩
    cases same
    exact rest b t held

/-- A program that ends as `x` and, when it returns, leaves the object as it was. -/
theorem mirrored {x : Except ε α} (ends : Wherever h m s fun r _ => r = x)
    (keeps : ∀ ⦃part a t⦄, Returns m s part a t → t = s) :
    Wherever h m s (Mirroring x fun b a t => a = b ∧ t = s) := by
  intro part r t within run
  obtain rfl : r = x := ends within run
  cases r with
  | error e => rfl
  | ok a => exact ⟨a, rfl, rfl, keeps run⟩

theorem mirroring {x : Except ε β} {R : β → α → σ → Prop} {k : β → Eff Op Res σ ε α}
    (rest : ∀ b, x = .ok b → Wherever h (k b) s (Returning (R b))) :
    Wherever h (Effects.raising x >>= k) s (Mirroring x R) := by
  cases x with
  | error e => exact .raisingThen (fun _ same => same ▸ rfl) nofun
  | ok b => exact .raisingThen nofun fun _ same => Except.ok.inj same ▸ rest b rfl

/-- After a program that mirrors `x`. -/
theorem mirrorThen {γ : Type} {x : Except ε γ} {R : γ → β → σ → Prop} {m : Eff Op Res σ ε β}
    {f : β → Eff Op Res σ ε α} (first : Wherever h m s (Mirroring x R))
    (raised : ∀ e t, x = .error e → Q (.error e) t)
    (rest : ∀ c b t, x = .ok c → R c b t → Wherever h (f b) t Q) :
    Wherever h (m >>= f) s Q := by
  cases x with
  | error e =>
    refine bind first ?_ ?_
    · intro e' t same
      cases same
      exact raised e t rfl
    · intro b t same
      cases same
  | ok c => exact andThen first fun b t held => rest c b t rfl held

/-- A program that mirrors `x`, then one that returns. -/
theorem mirrorOn {γ : Type} {x : Except ε γ} {R : γ → β → σ → Prop} {S : γ → α → σ → Prop}
    {m : Eff Op Res σ ε β} {f : β → Eff Op Res σ ε α} (first : Wherever h m s (Mirroring x R))
    (rest : ∀ c b t, R c b t → Wherever h (f b) t (Returning (S c))) :
    Wherever h (m >>= f) s (Mirroring x S) := by
  refine mirrorThen first ?_ ?_
  · intro e t same
    rw [same]
    rfl
  · intro c b t same held
    rw [same]
    exact rest c b t held

theorem attempt {handler : ε → Eff Op Res σ ε α} (body : Wherever h m s R)
    (returned : ∀ a t, R (.ok a) t → Q (.ok a) t)
    (handled : ∀ e t, R (.error e) t → Wherever h (handler e) t Q) :
    Wherever h (Effects.attempt m handler) s Q := by
  intro part r t within ends
  rcases ends.attempt with ⟨a, rfl, done⟩ | ⟨e, u, h₁, h₂, rfl, failed, ended⟩
  · exact returned a t (body within done)
  · have before := body ((List.prefix_append h₁ h₂).isInfix.trans within) failed
    exact handled e u before ((List.suffix_append h₁ h₂).isInfix.trans within) ended

theorem withLocal {l : τ} {m : Eff Op Res τ ε α} {R : Except ε α → τ → Prop}
    {Q : Except ε (α × τ) → σ → Prop} (own : Wherever h m l R)
    (out : ∀ r l', R r l' → Q (r.map (·, l')) s) : Wherever h (Effects.withLocal l m) s Q := by
  intro part r t within ends
  obtain ⟨r', l', ended, rfl, rfl⟩ := ends.withLocal
  exact out r' l' (own within ended)

end Wherever

end VaultWatch.Lib.Effects
