import VaultWatch.Lib.Effects

/-! What a program makes of its object, told by its history: a relation between the object
before, the history and the object after that holds of nothing done and composes along
histories holds of a program once it holds of its parts, however the program ends. -/
namespace VaultWatch.Lib.Effects

open Interleave Interleave.Prog

variable {Op : Type} {Res : Op → Type} {σ τ ε α β : Type}

structure Stepwise (R : List (Done Op Res) → σ → σ → Prop) : Prop where
  refl : ∀ s, R [] s s
  trans : ∀ {h₁ h₂ s t u}, R h₁ s t → R h₂ t u → R (h₁ ++ h₂) s u

/-- Wherever `m` ends, its object is `R`-related to the one it began with. -/
def Leaves (R : List (Done Op Res) → σ → σ → Prop) (m : Eff Op Res σ ε α) : Prop :=
  ∀ ⦃s h r t⦄, Ends m s h r t → R h s t

namespace Leaves

variable {R : List (Done Op Res) → σ → σ → Prop} (steps : Stepwise R)

theorem ask {o : Op} (asked : ∀ r s, R [⟨o, r⟩] s s) :
    Leaves R (Effects.ask o : Eff Op Res σ ε (Res o)) := by
  intro s h r t ends
  obtain ⟨a, _, rfl, rfl, same⟩ := ends
  cases same
  exact asked a s

theorem modify {f : σ → σ} (changed : ∀ s, R [] s (f s)) :
    Leaves R (modify f : Eff Op Res σ ε Unit) := by
  intro s h r t ends
  obtain ⟨rfl, _, rfl⟩ := ends.modify
  exact changed s

/-- A program on an object of its own does nothing to this one. -/
theorem withLocal {l : τ} {m : Eff Op Res τ ε α}
    (own : ∀ ⦃h r l'⦄, Ends m l h r l' → ∀ s, R h s s) :
    Leaves R (Effects.withLocal l m : Eff Op Res σ ε (α × τ)) := by
  intro s h r t ends
  obtain ⟨out, l', ended, _, rfl⟩ := ends.withLocal
  exact own ended t

theorem ite {c : Prop} [Decidable c] {m n : Eff Op Res σ ε α} (yes : Leaves R m)
    (no : Leaves R n) : Leaves R (if c then m else n) := by
  split
  · exact yes
  · exact no

include steps

theorem pure (a : α) : Leaves R (Pure.pure a : Eff Op Res σ ε α) := by
  intro s h r t ends
  obtain ⟨rfl, _, rfl⟩ := ends.pure
  exact steps.refl t

theorem raising (a : Except ε α) : Leaves R (Effects.raising a : Eff Op Res σ ε α) := by
  intro s h r t ends
  obtain ⟨rfl, _, rfl⟩ := ends.raising
  exact steps.refl t

theorem throw (e : ε) : Leaves R (throw e : Eff Op Res σ ε α) := by
  intro s h r t ends
  obtain ⟨rfl, _, rfl⟩ := ends.throw
  exact steps.refl t

theorem get : Leaves R (MonadState.get : Eff Op Res σ ε σ) := by
  intro s h r t ends
  obtain ⟨rfl, same⟩ := ends
  cases same
  exact steps.refl s

theorem bind {m : Eff Op Res σ ε α} {f : α → Eff Op Res σ ε β} (first : Leaves R m)
    (rest : ∀ a, Leaves R (f a)) : Leaves R (m >>= f) := by
  intro s h r t ends
  rcases ends.bind with ⟨e, _, raised⟩ | ⟨a, u, h₁, h₂, rfl, returned, ended⟩
  · exact first raised
  · exact steps.trans (first returned) (rest a ended)

theorem attempt {m : Eff Op Res σ ε α} {handler : ε → Eff Op Res σ ε α} (body : Leaves R m)
    (handled : ∀ e, Leaves R (handler e)) : Leaves R (Effects.attempt m handler) := by
  intro s h r t ends
  rcases ends.attempt with ⟨a, _, returned⟩ | ⟨e, u, h₁, h₂, rfl, raised, ended⟩
  · exact body returned
  · exact steps.trans (body raised) (handled e ended)

theorem forM {f : α → Eff Op Res σ ε PUnit} (pass : ∀ a, Leaves R (f a)) (as : List α) :
    Leaves R (as.forM f) := by
  induction as with
  | nil => exact .pure steps _
  | cons a as ih => exact .bind steps (pass a) fun _ => ih

end Leaves

end VaultWatch.Lib.Effects
