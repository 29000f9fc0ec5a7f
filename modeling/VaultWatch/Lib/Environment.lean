import VaultWatch.Lib.Effects

/-! What a program does in every environment that answers as assumed. An assumption
says which answers an operation may get; `Assured` goes through the program under
it, so it also says that the program ends well. It composes along `bind`, and
`Assured.runs` carries it over to the histories of runs. -/
namespace VaultWatch.Lib.Interleave.Prog

variable {Op : Type} {Res : Op → Type} {α β : Type} {E : (o : Op) → Res o → Prop}
  {Q R : α → Prop}

/-- Answered within `E`, the program returns something of which `Q` holds. -/
def Assured (E : (o : Op) → Res o → Prop) (Q : α → Prop) : Prog Op Res α → Prop
  | .ret a => Q a
  | .call o k => ∀ r, E o r → (k r).Assured E Q

theorem Assured.bind {Q : β → Prop} {p : Prog Op Res α} {f : α → Prog Op Res β}
    (first : p.Assured E R) (rest : ∀ a, R a → (f a).Assured E Q) : (p >>= f).Assured E Q := by
  induction p with
  | ret a => exact rest a first
  | call o k ih => exact fun r answered => ih r (first r answered)

theorem Assured.mono {p : Prog Op Res α} (assured : p.Assured E Q) (weaker : ∀ a, Q a → R a) :
    p.Assured E R := by
  induction p with
  | ret a => exact weaker a assured
  | call o k ih => exact fun r answered => ih r (assured r answered)

theorem Assured.runs {p : Prog Op Res α} {h : List (Done Op Res)} {a : α}
    (assured : p.Assured E Q) (run : p.Runs h a) (within : ∀ d ∈ h, E d.1 d.2) : Q a := by
  induction p generalizing h with
  | ret b =>
    obtain ⟨rfl, rfl⟩ := run
    exact assured
  | call o k ih =>
    obtain ⟨r, t, rfl, rest⟩ := run
    exact ih r (assured r (within _ (.head _))) rest fun d mem => within d (.tail _ mem)

end VaultWatch.Lib.Interleave.Prog

namespace VaultWatch.Lib.Effects

open Interleave Interleave.Prog

variable {Op : Type} {Res : Op → Type} {σ τ ε α β : Type} {E : (o : Op) → Res o → Prop}

/-- Answered within `E`, `m` does not raise from `s`, and `Q` holds of what it
returns and of what it makes of `s`. -/
def Assures (E : (o : Op) → Res o → Prop) (m : Eff Op Res σ ε α) (s : σ) (Q : α → σ → Prop) :
    Prop :=
  (m.run.run s).Assured E fun out => ∃ a, out.1 = .ok a ∧ Q a out.2

namespace Assures

variable {Q R : α → σ → Prop} {s : σ}

theorem mono {m : Eff Op Res σ ε α} (assured : Assures E m s Q) (weaker : ∀ a t, Q a t → R a t) :
    Assures E m s R := by
  refine Assured.mono assured fun out ends => ?_
  obtain ⟨a, ok, q⟩ := ends
  exact ⟨a, ok, weaker a out.2 q⟩

theorem pure {a : α} (holds : Q a s) : Assures E (Pure.pure a : Eff Op Res σ ε α) s Q :=
  ⟨a, rfl, holds⟩

theorem bind {Q : β → σ → Prop} {m : Eff Op Res σ ε α} {f : α → Eff Op Res σ ε β}
    (first : Assures E m s R) (rest : ∀ a t, R a t → Assures E (f a) t Q) :
    Assures E (m >>= f) s Q := by
  refine Assured.bind (p := m.run.run s) (f := fun x => (ExceptT.bindCont f x.1).run x.2) first ?_
  intro ⟨out, t⟩ ⟨a, ok, r⟩
  obtain rfl : out = .ok a := ok
  exact rest a t r

theorem askThen {Q : β → σ → Prop} {o : Op} {f : Res o → Eff Op Res σ ε β}
    (rest : ∀ r, E o r → Assures E (f r) s Q) : Assures E (Effects.ask o >>= f) s Q :=
  rest

theorem raising {a : α} (holds : Q a s) :
    Assures E (Effects.raising (.ok a) : Eff Op Res σ ε α) s Q :=
  ⟨a, rfl, holds⟩

theorem raisingThen {Q : β → σ → Prop} {r : Except ε α} {a : α} {f : α → Eff Op Res σ ε β}
    (ok : r = .ok a) (rest : Assures E (f a) s Q) : Assures E (Effects.raising r >>= f) s Q := by
  rw [ok]
  exact rest

theorem modifyThen {Q : β → σ → Prop} {f : σ → σ} {k : Unit → Eff Op Res σ ε β}
    (rest : Assures E (k ()) (f s) Q) : Assures E (modify f >>= k) s Q :=
  rest

theorem modify {Q : Unit → σ → Prop} {f : σ → σ} (holds : Q () (f s)) :
    Assures E (modify f : Eff Op Res σ ε Unit) s Q :=
  ⟨(), rfl, holds⟩

theorem getThen {Q : β → σ → Prop} {k : σ → Eff Op Res σ ε β} (rest : Assures E (k s) s Q) :
    Assures E (MonadState.get >>= k) s Q :=
  rest

/-- The handler of a `try` whose body does not raise is never run. -/
theorem attempt {m : Eff Op Res σ ε α} {handler : ε → Eff Op Res σ ε α}
    (body : Assures E m s Q) : Assures E (Effects.attempt m handler) s Q := by
  refine Assured.bind (p := m.run.run s) body ?_
  intro ⟨out, t⟩ ⟨a, ok, q⟩
  obtain rfl : out = .ok a := ok
  exact ⟨a, rfl, q⟩

theorem withLocal {m : Eff Op Res τ ε α} {l : τ} {Q : α → τ → Prop} (own : Assures E m l Q) :
    Assures E (Effects.withLocal l m : Eff Op Res σ ε (α × τ)) s fun out t =>
      Q out.1 out.2 ∧ t = s := by
  refine Assured.bind (p := m.run.run l) own ?_
  intro ⟨out, l'⟩ ⟨a, ok, q⟩
  obtain rfl : out = .ok a := ok
  exact ⟨(a, l'), rfl, q, rfl⟩

/-- A loop keeps what every pass keeps. -/
theorem forM {f : α → Eff Op Res σ ε PUnit} {I : σ → Prop}
    (pass : ∀ x s, I s → Assures E (f x) s fun _ t => I t) (xs : List α) (start : I s) :
    Assures E (xs.forM f) s fun _ t => I t := by
  induction xs generalizing s with
  | nil => exact .pure start
  | cons x xs ih => exact .bind (pass x s start) fun _ t kept => ih kept

end Assures

theorem onNew_assured {m : Eff Op Res σ ε Unit} {s : σ} {Q : σ → Prop}
    (assured : Assures E m s fun _ t => Q t) :
    (onNew s m).Assured E fun out => ∃ t, out = .ok t ∧ Q t := by
  refine Assured.bind (p := m.run.run s) assured ?_
  intro ⟨out, t⟩ ⟨a, ok, q⟩
  obtain rfl : out = .ok a := ok
  exact ⟨t, rfl, q⟩

end VaultWatch.Lib.Effects
