import VaultWatch.Lib.Trace

/-! A program that runs alone. Each operation is answered in the state the last one
left, under a choice of its own, so a stream of choices is every behaviour of the
environment. -/
namespace VaultWatch.Lib.Interleave.Prog

variable {Op Op' : Type} {Res : Op → Type} {Res' : Op' → Type} {σ σ' χ χ' α β : Type}

/-- The program from `s` to its end, its `n`-th operation under the choice `c n`. -/
def execute (handle : χ → (o : Op) → σ → Res o × σ) :
    Prog Op Res α → (ℕ → χ) → σ → α × σ
  | .ret a, _, s => (a, s)
  | .call o k, c, s =>
    (k (handle (c 0) o s).1).execute handle (fun n => c (n + 1)) (handle (c 0) o s).2

variable {handle : χ → (o : Op) → σ → Res o × σ}

theorem execute_op (o : Op) (f : Res o → Prog Op Res α) (c : ℕ → χ) (s : σ) :
    (Prog.op o >>= f).execute handle c s =
      (f (handle (c 0) o s).1).execute handle (fun n => c (n + 1)) (handle (c 0) o s).2 := rfl

theorem execute_op_bind (o : Op) (k : Res o → Prog Op Res α) (f : α → Prog Op Res β) (c : ℕ → χ)
    (s : σ) : ((Prog.op o >>= k) >>= f).execute handle c s =
      (k (handle (c 0) o s).1 >>= f).execute handle (fun n => c (n + 1)) (handle (c 0) o s).2 :=
  rfl

theorem bind_assoc {γ : Type} (p : Prog Op Res α) (f : α → Prog Op Res β)
    (g : β → Prog Op Res γ) : (p >>= f) >>= g = p >>= fun a => f a >>= g := by
  induction p with
  | ret a => rfl
  | call o k ih => exact congrArg (Prog.call o) (funext ih)

theorem execute_then_pure (p : Prog Op Res α) (b : β) (c : ℕ → χ) (s : σ) :
    ((p >>= fun _ => Pure.pure b).execute handle c s).1 = b := by
  induction p generalizing c s with
  | ret a => rfl
  | call o k ih => exact ih _ _ _

theorem execute_map (f : α → β) (p : Prog Op Res α) (c : ℕ → χ) (s : σ) :
    (p.map f).execute handle c s = (f (p.execute handle c s).1, (p.execute handle c s).2) := by
  induction p generalizing c s with
  | ret a => rfl
  | call o k ih => exact ih _ _ _

/-- What a program returns depends only on what the operations read of the state. -/
theorem execute_congr {R : σ → σ → Prop}
    (step : ∀ c o s t, R s t → (handle c o s).1 = (handle c o t).1 ∧
      R (handle c o s).2 (handle c o t).2)
    (p : Prog Op Res α) (c : ℕ → χ) {s t : σ} (same : R s t) :
    (p.execute handle c s).1 = (p.execute handle c t).1 := by
  induction p generalizing c s t with
  | ret a => rfl
  | call o k ih =>
    obtain ⟨answer, next⟩ := step (c 0) o s t same
    refine (ih _ _ next).trans ?_
    rw [answer]
    rfl

/-- A program of a component runs in a larger one as in its own. -/
theorem execute_translate {as : Op → Op'} {answer : ∀ o, Res' (as o) → Res o}
    {handle' : χ' → (o : Op') → σ' → Res' o × σ'} {choose : χ' → χ} {part : σ' → σ}
    (step : ∀ c o s, answer o (handle' c (as o) s).1 = (handle (choose c) o (part s)).1 ∧
      part (handle' c (as o) s).2 = (handle (choose c) o (part s)).2)
    (p : Prog Op Res α) (c : ℕ → χ') (s : σ') :
    ((p.translate as answer).execute handle' c s).1 =
        (p.execute handle (fun n => choose (c n)) (part s)).1 ∧
      part ((p.translate as answer).execute handle' c s).2 =
        (p.execute handle (fun n => choose (c n)) (part s)).2 := by
  induction p generalizing c s with
  | ret a => exact ⟨rfl, rfl⟩
  | call o k ih =>
    obtain ⟨same, next⟩ := step (c 0) o s
    have later := ih (answer o (handle' (c 0) (as o) s).1) (fun n => c (n + 1))
      (handle' (c 0) (as o) s).2
    constructor
    · refine later.1.trans ?_
      rw [next, same]
      rfl
    · refine later.2.trans ?_
      rw [next, same]
      rfl

end VaultWatch.Lib.Interleave.Prog
