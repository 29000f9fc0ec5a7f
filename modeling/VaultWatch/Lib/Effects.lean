import VaultWatch.Lib.Interleave

/-! Programs with a mutable object and exceptions, over the atomic operations of
`Interleave`. What a program changed before an exception stays changed. A run is
told by its history, the operations with their answers, so a statement about
every run is one about every behaviour of the environment. A proof takes a run
apart with the inversion lemmas `Returns.bind`, `Returns.attempt` and so on, one
for each way programs are put together. -/
namespace VaultWatch.Lib.Interleave

namespace Prog

variable {Op : Type} {Res : Op → Type} {α β : Type}

/-- Answered as in `h`, the program returns `a`. -/
def Runs : Prog Op Res α → List (Done Op Res) → α → Prop
  | .ret a, h, b => h = [] ∧ a = b
  | .call o k, h, b => ∃ r t, h = ⟨o, r⟩ :: t ∧ (k r).Runs t b

theorem Runs.bind {p : Prog Op Res α} {f : α → Prog Op Res β} {h : List (Done Op Res)} {b : β}
    (run : (p >>= f).Runs h b) :
    ∃ a h₁ h₂, h = h₁ ++ h₂ ∧ p.Runs h₁ a ∧ (f a).Runs h₂ b := by
  induction p generalizing h with
  | ret a => exact ⟨a, [], h, rfl, ⟨rfl, rfl⟩, run⟩
  | call o k ih =>
    obtain ⟨r, t, rfl, rest⟩ := run
    obtain ⟨a, h₁, h₂, rfl, first, second⟩ := ih r rest
    exact ⟨a, ⟨o, r⟩ :: h₁, h₂, rfl, ⟨r, h₁, rfl, first⟩, second⟩

theorem Runs.append {p : Prog Op Res α} {f : α → Prog Op Res β} {h₁ h₂ : List (Done Op Res)}
    {a : α} {b : β} (first : p.Runs h₁ a) (rest : (f a).Runs h₂ b) :
    (p >>= f).Runs (h₁ ++ h₂) b := by
  induction p generalizing h₁ with
  | ret c =>
    obtain ⟨rfl, rfl⟩ := first
    exact rest
  | call o k ih =>
    obtain ⟨r, t, rfl, run⟩ := first
    exact ⟨r, t ++ h₂, rfl, ih r run⟩

/-- The run a given environment makes: `answer` knows what was asked before. -/
def play (answer : List (Done Op Res) → (o : Op) → Res o) :
    List (Done Op Res) → Prog Op Res α → List (Done Op Res) × α
  | _, .ret a => ([], a)
  | past, .call o k =>
    let r := answer past o
    let rest := (k r).play answer (past ++ [⟨o, r⟩])
    (⟨o, r⟩ :: rest.1, rest.2)

theorem play_runs (answer : List (Done Op Res) → (o : Op) → Res o) (past : List (Done Op Res))
    (p : Prog Op Res α) : p.Runs (p.play answer past).1 (p.play answer past).2 := by
  induction p generalizing past with
  | ret a => exact ⟨rfl, rfl⟩
  | call o k ih => exact ⟨answer past o, _, rfl, ih _ _⟩

/-- Whatever the run asked, the environment answered. -/
theorem play_answers (answer : List (Done Op Res) → (o : Op) → Res o) (past : List (Done Op Res))
    (p : Prog Op Res α) {d : Done Op Res} (mem : d ∈ (p.play answer past).1) :
    ∃ before, d.2 = answer before d.1 := by
  induction p generalizing past with
  | ret a => cases mem
  | call o k ih =>
    obtain rfl | rest := List.mem_cons.mp mem
    · exact ⟨past, rfl⟩
    · exact ih _ _ rest

end Prog

end VaultWatch.Lib.Interleave

namespace VaultWatch.Lib.Effects

open Interleave Interleave.Prog

/-- Programs that change an object of type `σ` and raise exceptions of type `ε`. -/
abbrev Eff (Op : Type) (Res : Op → Type) (σ ε : Type) : Type → Type :=
  ExceptT ε (StateT σ (Prog Op Res))

section
variable {Op : Type} {Res : Op → Type} {σ τ ε α β : Type}

/-- Ask the environment. -/
def ask (o : Op) : Eff Op Res σ ε (Res o) :=
  ExceptT.lift (StateT.lift (Prog.op o))

/-- An answer that may be an exception. -/
def raising (a : Except ε α) : Eff Op Res σ ε α :=
  ExceptT.mk (pure a)

/-- `try: m`, `except: handler`. -/
def attempt (m : Eff Op Res σ ε α) (handler : ε → Eff Op Res σ ε α) : Eff Op Res σ ε α :=
  ExceptT.tryCatch m handler

/-- Run `m` on an object of its own. -/
def withLocal (s : τ) (m : Eff Op Res τ ε α) : Eff Op Res σ ε (α × τ) :=
  ExceptT.mk fun outer => do
    let out ← m.run.run s
    pure (out.1.map (·, out.2), outer)

/-- Run `m` on a new object, which the caller gets when `m` returns. -/
def onNew (s : σ) (m : Eff Op Res σ ε Unit) : Prog Op Res (Except ε σ) := do
  let out ← m.run.run s
  pure (out.1.map fun _ => out.2)

/-- Answered as in `h`, `m` turns `s` into `t` and ends with `r`. -/
def Ends (m : Eff Op Res σ ε α) (s : σ) (h : List (Done Op Res)) (r : Except ε α) (t : σ) :
    Prop :=
  (m.run.run s).Runs h (r, t)

/-- Answered as in `h`, `m` turns `s` into `t` and returns `a`. -/
def Returns (m : Eff Op Res σ ε α) (s : σ) (h : List (Done Op Res)) (a : α) (t : σ) : Prop :=
  Ends m s h (.ok a) t

namespace Ends

theorem bind {m : Eff Op Res σ ε α} {f : α → Eff Op Res σ ε β} {s t : σ}
    {h : List (Done Op Res)} {r : Except ε β} (ends : Ends (m >>= f) s h r t) :
    (∃ e, r = .error e ∧ Ends m s h (.error e) t) ∨
    ∃ a u h₁ h₂, h = h₁ ++ h₂ ∧ Returns m s h₁ a u ∧ Ends (f a) u h₂ r t := by
  obtain ⟨⟨out, u⟩, h₁, h₂, rfl, first, second⟩ :=
    Runs.bind (p := m.run.run s) (f := fun x => (ExceptT.bindCont f x.1).run x.2) ends
  cases out with
  | error e =>
    obtain ⟨rfl, same⟩ := second
    cases same
    left
    rw [List.append_nil]
    exact ⟨e, rfl, first⟩
  | ok a => right; exact ⟨a, u, h₁, h₂, rfl, first, second⟩

theorem raising {a r : Except ε α} {s t : σ} {h : List (Done Op Res)}
    (ends : Ends (Effects.raising a : Eff Op Res σ ε α) s h r t) : h = [] ∧ a = r ∧ t = s := by
  obtain ⟨rfl, same⟩ := ends
  cases same
  exact ⟨rfl, rfl, rfl⟩

theorem modifyThen {f : σ → σ} {k : Unit → Eff Op Res σ ε β} {s t : σ}
    {h : List (Done Op Res)} {r : Except ε β}
    (ends : Ends (modify f >>= k) s h r t) :
    Ends (k ()) (f s) h r t :=
  ends

theorem getThen {k : σ → Eff Op Res σ ε β} {s t : σ} {h : List (Done Op Res)} {r : Except ε β}
    (ends : Ends (MonadState.get >>= k) s h r t) : Ends (k s) s h r t :=
  ends

theorem askThen {o : Op} {k : Res o → Eff Op Res σ ε β} {s t : σ} {h : List (Done Op Res)}
    {r : Except ε β} (ends : Ends (Effects.ask o >>= k) s h r t) :
    ∃ a rest, h = ⟨o, a⟩ :: rest ∧ Ends (k a) s rest r t :=
  ends

theorem raisingThen {a : Except ε α} {k : α → Eff Op Res σ ε β} {s t : σ}
    {h : List (Done Op Res)} {r : Except ε β} (ends : Ends (Effects.raising a >>= k) s h r t) :
    (∃ e, a = .error e ∧ r = .error e ∧ h = [] ∧ t = s) ∨ ∃ b, a = .ok b ∧ Ends (k b) s h r t := by
  cases a with
  | error e =>
    obtain ⟨rfl, same⟩ := ends
    cases same
    left
    exact ⟨e, rfl, rfl, rfl, rfl⟩
  | ok b => right; exact ⟨b, rfl, ends⟩

theorem pure {a : α} {s t : σ} {h : List (Done Op Res)} {r : Except ε α}
    (ends : Ends (Pure.pure a : Eff Op Res σ ε α) s h r t) : h = [] ∧ r = .ok a ∧ t = s := by
  obtain ⟨rfl, same⟩ := ends
  cases same
  exact ⟨rfl, rfl, rfl⟩

theorem modify {f : σ → σ} {s t : σ} {h : List (Done Op Res)} {r : Except ε Unit}
    (ends : Ends (modify f : Eff Op Res σ ε Unit) s h r t) : h = [] ∧ r = .ok () ∧ t = f s := by
  obtain ⟨rfl, same⟩ := ends
  cases same
  exact ⟨rfl, rfl, rfl⟩

theorem throw {e : ε} {r : Except ε α} {s t : σ} {h : List (Done Op Res)}
    (ends : Ends (throw e : Eff Op Res σ ε α) s h r t) : h = [] ∧ r = .error e ∧ t = s := by
  obtain ⟨rfl, same⟩ := ends
  cases same
  exact ⟨rfl, rfl, rfl⟩

/-- A `try`: its body returned, or the handler took over after the body raised. -/
theorem attempt {m : Eff Op Res σ ε α} {handler : ε → Eff Op Res σ ε α} {s t : σ}
    {h : List (Done Op Res)} {r : Except ε α} (ends : Ends (Effects.attempt m handler) s h r t) :
    (∃ a, r = .ok a ∧ Returns m s h a t) ∨
    ∃ e u h₁ h₂, h = h₁ ++ h₂ ∧ Ends m s h₁ (.error e) u ∧ Ends (handler e) u h₂ r t := by
  obtain ⟨⟨out, u⟩, h₁, h₂, rfl, first, second⟩ := Runs.bind (p := m.run.run s) ends
  cases out with
  | ok b =>
    obtain ⟨rfl, same⟩ := second
    cases same
    left
    rw [List.append_nil]
    exact ⟨b, rfl, first⟩
  | error e => right; exact ⟨e, u, h₁, h₂, rfl, first, second⟩

theorem withLocal {m : Eff Op Res τ ε α} {s t : σ} {l : τ} {h : List (Done Op Res)}
    {r : Except ε (α × τ)} (ends : Ends (Effects.withLocal l m : Eff Op Res σ ε (α × τ)) s h r t) :
    ∃ out l', Ends m l h out l' ∧ r = out.map (·, l') ∧ t = s := by
  obtain ⟨⟨out, own⟩, h₁, h₂, rfl, first, rfl, same⟩ := Runs.bind (p := m.run.run l) ends
  cases same
  rw [List.append_nil]
  exact ⟨out, own, first, rfl, rfl⟩

end Ends

namespace Returns

theorem bind {m : Eff Op Res σ ε α} {f : α → Eff Op Res σ ε β} {s t : σ}
    {h : List (Done Op Res)} {b : β} (returns : Returns (m >>= f) s h b t) :
    ∃ a u h₁ h₂, h = h₁ ++ h₂ ∧ Returns m s h₁ a u ∧ Returns (f a) u h₂ b t := by
  rcases Ends.bind returns with ⟨e, ok, _⟩ | split
  · cases ok
  · exact split

/-- A program that returns, then the next one. -/
theorem andThen {m : Eff Op Res σ ε α} {f : α → Eff Op Res σ ε β} {s t u : σ}
    {h₁ h₂ : List (Done Op Res)} {a : α} {r : Except ε β} (first : Returns m s h₁ a u)
    (rest : Ends (f a) u h₂ r t) : Ends (m >>= f) s (h₁ ++ h₂) r t :=
  Runs.append (p := m.run.run s) (f := fun x => (ExceptT.bindCont f x.1).run x.2) first rest

theorem pure {a b : α} {s t : σ} {h : List (Done Op Res)}
    (returns : Returns (Pure.pure a : Eff Op Res σ ε α) s h b t) : h = [] ∧ b = a ∧ t = s := by
  obtain ⟨rfl, same, rfl⟩ := Ends.pure returns
  cases same
  exact ⟨rfl, rfl, rfl⟩

theorem raising {r : Except ε α} {a : α} {s t : σ} {h : List (Done Op Res)}
    (returns : Returns (Effects.raising r : Eff Op Res σ ε α) s h a t) :
    h = [] ∧ r = .ok a ∧ t = s :=
  Ends.raising returns

theorem throw {e : ε} {a : α} {s t : σ} {h : List (Done Op Res)} :
    ¬ Returns (throw e : Eff Op Res σ ε α) s h a t := by
  intro returns
  obtain ⟨rfl, same⟩ := returns
  cases same

theorem modifyThen {f : σ → σ} {k : Unit → Eff Op Res σ ε β} {s t : σ}
    {h : List (Done Op Res)} {b : β}
    (returns : Returns (modify f >>= k) s h b t) :
    Returns (k ()) (f s) h b t :=
  returns

theorem getThen {k : σ → Eff Op Res σ ε β} {s t : σ} {h : List (Done Op Res)} {b : β}
    (returns : Returns (MonadState.get >>= k) s h b t) : Returns (k s) s h b t :=
  returns

theorem askThen {o : Op} {k : Res o → Eff Op Res σ ε β} {s t : σ} {h : List (Done Op Res)}
    {b : β} (returns : Returns (Effects.ask o >>= k) s h b t) :
    ∃ a rest, h = ⟨o, a⟩ :: rest ∧ Returns (k a) s rest b t :=
  returns

theorem raisingThen {a : Except ε α} {k : α → Eff Op Res σ ε β} {s t : σ}
    {h : List (Done Op Res)} {b : β} (returns : Returns (Effects.raising a >>= k) s h b t) :
    ∃ x, a = .ok x ∧ Returns (k x) s h b t := by
  obtain ⟨e, _, raised, _⟩ | viewed := Ends.raisingThen returns
  · cases raised
  · exact viewed

/-- An operation whose answer, read by `view`, may be an exception. -/
theorem request {o : Op} {view : Res o → Except ε α} {f : α → Eff Op Res σ ε β} {s t : σ}
    {h : List (Done Op Res)} {b : β}
    (returns : Returns (Effects.ask o >>= fun r => Effects.raising (view r) >>= f) s h b t) :
    ∃ r a rest, view r = .ok a ∧ h = ⟨o, r⟩ :: rest ∧ Returns (f a) s rest b t := by
  obtain ⟨r, rest, rfl, asked⟩ := askThen returns
  obtain ⟨a, viewed, last⟩ := raisingThen asked
  exact ⟨r, a, rest, viewed, rfl, last⟩

/-- A `try` that ends well: its body did, or the handler did after the body raised. -/
theorem attempt {m : Eff Op Res σ ε α} {handler : ε → Eff Op Res σ ε α} {s t : σ}
    {h : List (Done Op Res)} {a : α} (returns : Returns (Effects.attempt m handler) s h a t) :
    Returns m s h a t ∨
    ∃ e u h₁ h₂, h = h₁ ++ h₂ ∧ Ends m s h₁ (.error e) u ∧ Returns (handler e) u h₂ a t := by
  rcases Ends.attempt returns with ⟨b, same, done⟩ | handled
  · cases same
    exact .inl done
  · exact .inr handled

theorem withLocal {m : Eff Op Res τ ε α} {s t : σ} {l l' : τ} {h : List (Done Op Res)} {a : α}
    (returns : Returns (Effects.withLocal l m : Eff Op Res σ ε (α × τ)) s h (a, l') t) :
    Returns m l h a l' ∧ t = s := by
  obtain ⟨out, own, first, same, rfl⟩ := Ends.withLocal returns
  cases out with
  | error e => cases same
  | ok b =>
    cases same
    exact ⟨first, rfl⟩

theorem modify {f : σ → σ} {s t : σ} {h : List (Done Op Res)} {u : Unit}
    (returns : Returns (modify f : Eff Op Res σ ε Unit) s h u t) : h = [] ∧ t = f s := by
  obtain ⟨rfl, _, rfl⟩ := Ends.modify returns
  exact ⟨rfl, rfl⟩

end Returns

/-- The program asks only operations that satisfy `P`, however it ends. -/
def Only (P : Op → Prop) (m : Eff Op Res σ ε α) : Prop :=
  ∀ ⦃s h r t⦄, Ends m s h r t → ∀ d ∈ h, P d.1

namespace Only

variable {P : Op → Prop}

theorem bind {m : Eff Op Res σ ε α} {f : α → Eff Op Res σ ε β} (first : Only P m)
    (rest : ∀ a, Only P (f a)) : Only P (m >>= f) := by
  intro s h r t ends d mem
  rcases ends.bind with ⟨e, _, raised⟩ | ⟨a, u, h₁, h₂, rfl, returned, ended⟩
  · exact first raised d mem
  · rcases List.mem_append.mp mem with mem | mem
    · exact first returned d mem
    · exact rest a ended d mem

theorem pure (a : α) : Only P (Pure.pure a : Eff Op Res σ ε α) := by
  intro s h r t ends d mem
  rw [ends.1] at mem
  cases mem

theorem raising (a : Except ε α) : Only P (Effects.raising a : Eff Op Res σ ε α) := by
  intro s h r t ends d mem
  rw [ends.1] at mem
  cases mem

theorem throw (e : ε) : Only P (throw e : Eff Op Res σ ε α) := by
  intro s h r t ends d mem
  rw [ends.1] at mem
  cases mem

theorem get : Only P (MonadState.get : Eff Op Res σ ε σ) := by
  intro s h r t ends d mem
  rw [ends.1] at mem
  cases mem

theorem attempt {m : Eff Op Res σ ε α} {handler : ε → Eff Op Res σ ε α} (body : Only P m)
    (handled : ∀ e, Only P (handler e)) : Only P (Effects.attempt m handler) := by
  intro s h r t ends d mem
  rcases ends.attempt with ⟨a, _, returned⟩ | ⟨e, u, h₁, h₂, rfl, raised, ended⟩
  · exact body returned d mem
  · rcases List.mem_append.mp mem with mem | mem
    · exact body raised d mem
    · exact handled e ended d mem

theorem ask {o : Op} (asked : P o) : Only P (Effects.ask o : Eff Op Res σ ε (Res o)) := by
  intro s h r t ends d mem
  obtain ⟨a, rest, rfl, rfl, _⟩ := ends
  rw [List.mem_singleton.mp mem]
  exact asked

theorem ite {c : Prop} [Decidable c] {m n : Eff Op Res σ ε α} (yes : Only P m)
    (no : Only P n) : Only P (if c then m else n) := by
  split
  · exact yes
  · exact no

theorem modify (f : σ → σ) : Only P (modify f : Eff Op Res σ ε Unit) := by
  intro s h r t ends d mem
  rw [ends.1] at mem
  cases mem

end Only

theorem onNew_ends {m : Eff Op Res σ ε Unit} {s : σ} {h : List (Done Op Res)} {out : Except ε σ}
    (run : (onNew s m).Runs h out) : ∃ r t, Ends m s h r t ∧ out = r.map fun _ => t := by
  obtain ⟨⟨r, own⟩, h₁, h₂, rfl, first, rfl, same⟩ := Runs.bind (p := m.run.run s) run
  rw [List.append_nil]
  exact ⟨r, own, first, same.symm⟩

theorem onNew_returns {m : Eff Op Res σ ε Unit} {s t : σ} {h : List (Done Op Res)}
    (run : (onNew s m).Runs h (.ok t)) : Returns m s h () t := by
  obtain ⟨r, own, ends, same⟩ := onNew_ends run
  cases r with
  | error e => cases same
  | ok u =>
    cases same
    exact ends

end

end VaultWatch.Lib.Effects
