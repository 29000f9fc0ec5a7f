import Mathlib.Data.List.Basic

/-! Runs of a step function along a list of labels. A label says who moves and
what the environment answers, so quantifying over label lists quantifies over
every schedule and every outcome. `Along` states a condition on each step of
one run; `Along.invariant` is the induction every safety result uses. -/
namespace VaultWatch.Lib.Run

variable {σ α : Type*}

/-- The state after the labels. -/
def run (step : σ → α → σ) (s : σ) (as : List α) : σ := as.foldl step s

@[simp] theorem run_nil (step : σ → α → σ) (s : σ) : run step s [] = s := rfl

@[simp] theorem run_cons (step : σ → α → σ) (s : σ) (a : α) (as : List α) :
    run step s (a :: as) = run step (step s a) as := rfl

theorem run_append (step : σ → α → σ) (s : σ) (as bs : List α) :
    run step s (as ++ bs) = run step (run step s as) bs := List.foldl_append ..

/-- `P` holds of the state before each step and of that step's label. -/
def Along (step : σ → α → σ) (P : σ → α → Prop) : σ → List α → Prop
  | _, [] => True
  | s, a :: as => P s a ∧ Along step P (step s a) as

instance Along.decidable (step : σ → α → σ) (P : σ → α → Prop) [∀ s a, Decidable (P s a)] :
    ∀ s as, Decidable (Along step P s as)
  | _, [] => isTrue trivial
  | s, a :: as =>
    letI := Along.decidable step P (step s a) as
    inferInstanceAs (Decidable (P s a ∧ Along step P (step s a) as))

theorem Along.append {step : σ → α → σ} {P : σ → α → Prop} {s : σ} {as bs : List α} :
    Along step P s (as ++ bs) ↔ Along step P s as ∧ Along step P (run step s as) bs := by
  induction as generalizing s with
  | nil => simp [Along]
  | cons a as ih => simp [Along, ih, and_assoc]

theorem Along.and {step : σ → α → σ} {P Q : σ → α → Prop} {s : σ} {as : List α}
    (hp : Along step P s as) (hq : Along step Q s as) :
    Along step (fun s a => P s a ∧ Q s a) s as := by
  induction as generalizing s with
  | nil => trivial
  | cons a as ih => exact ⟨⟨hp.1, hq.1⟩, ih hp.2 hq.2⟩

theorem Along.imp {step : σ → α → σ} {P Q : σ → α → Prop} (h : ∀ s a, P s a → Q s a) {s : σ}
    {as : List α} (hp : Along step P s as) : Along step Q s as := by
  induction as generalizing s with
  | nil => trivial
  | cons a as ih => exact ⟨h s a hp.1, ih hp.2⟩

/-- A condition on the labels alone. -/
theorem Along.of_forall {step : σ → α → σ} {Q : α → Prop} {s : σ} {as : List α}
    (h : ∀ a ∈ as, Q a) : Along step (fun _ a => Q a) s as := by
  induction as generalizing s with
  | nil => trivial
  | cons a as ih =>
    obtain ⟨now, later⟩ := List.forall_mem_cons.mp h
    exact ⟨now, ih later⟩

/-- `P` holds of every state of the run, the last included. -/
def Throughout (step : σ → α → σ) (P : σ → Prop) : σ → List α → Prop
  | s, [] => P s
  | s, a :: as => P s ∧ Throughout step P (step s a) as

instance Throughout.decidable (step : σ → α → σ) (P : σ → Prop) [∀ s, Decidable (P s)] :
    ∀ s as, Decidable (Throughout step P s as)
  | s, [] => inferInstanceAs (Decidable (P s))
  | s, a :: as =>
    letI := Throughout.decidable step P (step s a) as
    inferInstanceAs (Decidable (P s ∧ Throughout step P (step s a) as))

theorem Throughout.head {step : σ → α → σ} {P : σ → Prop} {s : σ} {as : List α}
    (h : Throughout step P s as) : P s := by
  cases as with
  | nil => exact h
  | cons a as => exact h.1

theorem Throughout.along {step : σ → α → σ} {P : σ → Prop} {s : σ} {as : List α}
    (h : Throughout step P s as) : Along step (fun s a => P (step s a)) s as := by
  induction as generalizing s with
  | nil => trivial
  | cons a as ih => exact ⟨h.2.head, ih h.2⟩

/-- What holds at the start and survives each step meeting `P` holds at the
end of every run whose steps all meet `P`. -/
theorem Along.invariant {step : σ → α → σ} {P : σ → α → Prop} {I : σ → Prop}
    (hstep : ∀ s a, I s → P s a → I (step s a))
    {s : σ} {as : List α} (h : Along step P s as) (h0 : I s) : I (run step s as) := by
  induction as generalizing s with
  | nil => exact h0
  | cons a as ih => exact ih h.2 (hstep _ _ h0 h.1)

/-- The unconditional case: every run keeps what every step keeps. -/
theorem invariant {step : σ → α → σ} {I : σ → Prop} (hstep : ∀ s a, I s → I (step s a))
    {s : σ} (as : List α) (h0 : I s) : I (run step s as) := by
  induction as generalizing s with
  | nil => exact h0
  | cons a as ih => exact ih (hstep _ _ h0)

end VaultWatch.Lib.Run
