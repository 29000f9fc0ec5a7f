import VaultWatch.Lib.Trace

/-! Contracts of programs: what holds whenever the program asks an operation and
when it returns, as predicates of the history so far. Contracts compose along
`bind`, and hold of every thread of every pool, whatever the others do. -/
namespace VaultWatch.Lib.Interleave.Prog

variable {Op Op' : Type} {Res : Op → Type} {Res' : Op' → Type} {α β : Type}
  {A : List (Done Op Res) → Op → Prop} {Q R : List (Done Op Res) → α → Prop}
  {h : List (Done Op Res)}

/-- After the history `h`, the program asks `o` only when `A` holds and returns
`a` only when `Q` does. -/
def Meets (A : List (Done Op Res) → Op → Prop) (Q : List (Done Op Res) → α → Prop) :
    List (Done Op Res) → Prog Op Res α → Prop
  | h, .ret a => Q h a
  | h, .call o k => A h o ∧ ∀ r, (k r).Meets A Q (h ++ [⟨o, r⟩])

theorem Meets.bind {Q : List (Done Op Res) → β → Prop} {p : Prog Op Res α}
    {f : α → Prog Op Res β} (first : p.Meets A R h)
    (rest : ∀ h' a, R h' a → (f a).Meets A Q h') : (p >>= f).Meets A Q h := by
  induction p generalizing h with
  | ret a => exact rest h a first
  | call o k ih =>
    obtain ⟨asked, answered⟩ := first
    exact ⟨asked, fun r => ih r (answered r)⟩

/-- An operation, and what follows each of its answers. -/
theorem Meets.op {Q : List (Done Op Res) → β → Prop} {o : Op} {f : Res o → Prog Op Res β}
    (asked : A h o) (rest : ∀ r, (f r).Meets A Q (h ++ [⟨o, r⟩])) :
    (Prog.op o >>= f).Meets A Q h :=
  ⟨asked, rest⟩

theorem Meets.map {Q : List (Done Op Res) → β → Prop} {f : α → β} {p : Prog Op Res α}
    (own : p.Meets A (fun h a => Q h (f a)) h) : (p.map f).Meets A Q h := by
  induction p generalizing h with
  | ret a => exact own
  | call o k ih => exact ⟨own.1, fun r => ih r (own.2 r)⟩

/-- A thread where it stands has kept its contract. -/
theorem Meets.past {p q : Prog Op Res α} (own : p.Meets A Q []) (past : Past p h q) :
    q.Meets A Q h := by
  induction past with
  | nil => exact own
  | snoc _ r ih => exact ih.2 r

end VaultWatch.Lib.Interleave.Prog
