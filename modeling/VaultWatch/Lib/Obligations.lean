import VaultWatch.Lib.Contracts

/-! Contracts of programs with a mutable object and exceptions: what holds whenever they
ask an operation and wherever they end, given the history before them. A contract speaks
of every prefix of every run, so it holds of a thread of a pool at any moment. -/
namespace VaultWatch.Lib.Interleave.Prog

variable {Op Op' : Type} {Res : Op → Type} {Res' : Op' → Type} {α : Type}

theorem Meets.imp {A B : List (Done Op Res) → Op → Prop} {Q R : List (Done Op Res) → α → Prop}
    {p : Prog Op Res α} {h : List (Done Op Res)} (own : p.Meets A Q h)
    (asked : ∀ h' o, A h' o → B h' o) (ended : ∀ h' a, Q h' a → R h' a) : p.Meets B R h := by
  induction p generalizing h with
  | ret a => exact ended h a own
  | call o k ih => exact ⟨asked h o own.1, fun r => ih r (own.2 r)⟩

theorem Meets.mono {A : List (Done Op Res) → Op → Prop} {Q R : List (Done Op Res) → α → Prop}
    {p : Prog Op Res α} {h : List (Done Op Res)} (own : p.Meets A Q h)
    (weaker : ∀ h' a, Q h' a → R h' a) : p.Meets A R h :=
  own.imp (fun _ _ asked => asked) weaker

/-- Whatever was asked was allowed when it was asked. -/
theorem Meets.asked {A : List (Done Op Res) → Op → Prop} {Q : List (Done Op Res) → α → Prop}
    {p q : Prog Op Res α} {h before after : List (Done Op Res)} {d : Done Op Res}
    (own : p.Meets A Q []) (past : Past p h q) (split : h = before ++ d :: after) :
    A before d.1 := by
  induction past generalizing after with
  | nil => cases before <;> cases split
  | @snoc h o k past r ih =>
    rcases List.eq_nil_or_concat after with rfl | ⟨after, last, rfl⟩
    · obtain ⟨rfl, same⟩ := List.append_inj' split rfl
      obtain rfl := List.singleton_inj.mp same
      exact (own.past past).1
    · have whole : h ++ [⟨o, r⟩] = (before ++ d :: after) ++ [last] := by simpa using split
      obtain ⟨same, _⟩ := List.append_inj' whole rfl
      exact ih same

/-- A program of a component asks what it asks there, and its own run is in the history. -/
theorem Meets.translate {as : Op → Op'} {answer : ∀ o, Res' (as o) → Res o}
    {A : List (Done Op' Res') → Op' → Prop} {h : List (Done Op' Res')}
    (allowed : ∀ h o, A h (as o)) (p : Prog Op Res α) :
    (p.translate as answer).Meets A (fun h' a => ∃ own : List ((o : Op) × Res' (as o)),
      h' = h ++ own.map (fun d => ⟨as d.1, d.2⟩) ∧
      p.Runs (own.map fun d => ⟨d.1, answer d.1 d.2⟩) a) h := by
  induction p generalizing h with
  | ret a => exact ⟨[], (List.append_nil h).symm, rfl, rfl⟩
  | call o k ih =>
    refine ⟨allowed h o, fun r => ?_⟩
    have rest := ih (answer o r) (h := h ++ [⟨as o, r⟩])
    refine rest.mono fun h' a ended => ?_
    obtain ⟨own, rfl, run⟩ := ended
    exact ⟨⟨o, r⟩ :: own, by simp, _, _, rfl, run⟩

theorem exists_runs [∀ o, Nonempty (Res o)] (p : Prog Op Res α) : ∃ h a, p.Runs h a := by
  induction p with
  | ret a => exact ⟨[], a, rfl, rfl⟩
  | call o k ih =>
    obtain ⟨h, a, run⟩ := ih (Classical.arbitrary (Res o))
    exact ⟨_, a, _, h, rfl, run⟩

/-- What no run asks is asked nowhere. -/
theorem Meets.only [∀ o, Nonempty (Res o)] {P : Op → Prop} {A : List (Done Op Res) → Op → Prop}
    {p : Prog Op Res α} {h : List (Done Op Res)} (only : ∀ h a, p.Runs h a → ∀ d ∈ h, P d.1)
    (allowed : ∀ h o, P o → A h o) : p.Meets A (fun _ _ => True) h := by
  induction p generalizing h with
  | ret a => trivial
  | call o k ih =>
    have rest : ∀ r h a, (k r).Runs h a → ∀ d ∈ h, P d.1 := fun r h a run d mem =>
      only (⟨o, r⟩ :: h) a ⟨r, h, rfl, run⟩ d (.tail _ mem)
    obtain ⟨h', a, run⟩ := exists_runs (k (Classical.arbitrary (Res o)))
    have asked := only _ a ⟨_, h', rfl, run⟩ ⟨o, _⟩ (.head _)
    exact ⟨allowed h o asked, fun r => ih r (rest r)⟩

end VaultWatch.Lib.Interleave.Prog

namespace VaultWatch.Lib.Effects

open Interleave Interleave.Prog

variable {Op : Type} {Res : Op → Type} {σ τ ε α β : Type}

/-- After the history `h`, `m` on `s` asks only what `A` allows, and `Q` holds wherever it
ends, of the history by then, its result and what it makes of `s`. -/
def Owes (A : List (Done Op Res) → Op → Prop) (h : List (Done Op Res)) (m : Eff Op Res σ ε α)
    (s : σ) (Q : List (Done Op Res) → Except ε α → σ → Prop) : Prop :=
  (m.run.run s).Meets A (fun h' out => Q h' out.1 out.2) h

namespace Owes

variable {A : List (Done Op Res) → Op → Prop} {h : List (Done Op Res)} {s : σ}
  {Q R : List (Done Op Res) → Except ε α → σ → Prop}

theorem mono {m : Eff Op Res σ ε α} (own : Owes A h m s R)
    (weaker : ∀ h' r t, R h' r t → Q h' r t) : Owes A h m s Q :=
  Meets.mono own fun h' out => weaker h' out.1 out.2

theorem pure {a : α} (holds : Q h (.ok a) s) : Owes A h (Pure.pure a) s Q := holds

theorem throw {e : ε} (holds : Q h (.error e) s) : Owes A h (throw e) s Q := holds

theorem raising {a : Except ε α} (holds : Q h a s) : Owes A h (Effects.raising a) s Q := holds

theorem modify {Q : List (Done Op Res) → Except ε Unit → σ → Prop} {f : σ → σ}
    (holds : Q h (.ok ()) (f s)) : Owes A h (modify f) s Q := holds

theorem askThen {o : Op} {f : Res o → Eff Op Res σ ε α} (allowed : A h o)
    (rest : ∀ r, Owes A (h ++ [⟨o, r⟩]) (f r) s Q) : Owes A h (Effects.ask o >>= f) s Q :=
  ⟨allowed, rest⟩

theorem bind {R : List (Done Op Res) → Except ε β → σ → Prop} {m : Eff Op Res σ ε β}
    {f : β → Eff Op Res σ ε α} (first : Owes A h m s R)
    (raised : ∀ h' e t, R h' (.error e) t → Q h' (.error e) t)
    (rest : ∀ h' a t, R h' (.ok a) t → Owes A h' (f a) t Q) : Owes A h (m >>= f) s Q := by
  refine Meets.bind (p := m.run.run s) (f := fun x => (ExceptT.bindCont f x.1).run x.2) first ?_
  intro h' out ended
  obtain ⟨_ | a, t⟩ := out
  · exact raised h' _ t ended
  · exact rest h' a t ended

theorem attempt {m : Eff Op Res σ ε α} {handler : ε → Eff Op Res σ ε α} (body : Owes A h m s R)
    (returned : ∀ h' a t, R h' (.ok a) t → Q h' (.ok a) t)
    (handled : ∀ h' e t, R h' (.error e) t → Owes A h' (handler e) t Q) :
    Owes A h (Effects.attempt m handler) s Q := by
  refine Meets.bind (p := m.run.run s) body ?_
  intro h' out ended
  obtain ⟨_ | a, t⟩ := out
  · exact handled h' _ t ended
  · exact returned h' a t ended

theorem withLocal {l : τ} {m : Eff Op Res τ ε β}
    {Q : List (Done Op Res) → Except ε (β × τ) → σ → Prop}
    (own : Owes A h m l fun h' r l' => Q h' (r.map (·, l')) s) :
    Owes A h (Effects.withLocal l m) s Q := by
  refine Meets.bind (p := m.run.run l) own ?_
  intro h' out ended
  exact ended

/-- A program that asks only what is always allowed. -/
theorem only [∀ o, Nonempty (Res o)] {P : Op → Prop} {m : Eff Op Res σ ε α} (own : Only P m)
    (allowed : ∀ h o, P o → A h o) : Owes A h m s fun _ _ _ => True :=
  Meets.only (fun _ _ run => own run) allowed

end Owes

end VaultWatch.Lib.Effects
