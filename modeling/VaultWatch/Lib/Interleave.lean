import VaultWatch.Lib.Run

/-! Programs over atomic operations, and pools of them running concurrently.
A `Prog` is a tree: an operation, then a continuation on its answer. A pool
shares one state between any number of threads; a step lets one thread execute
its next operation, with everything the environment decides in one value. Each
thread keeps the operations it has executed with their answers, so what a
thread knows is a fact about its own history (`Prog.Past`). -/
namespace VaultWatch.Lib.Interleave

open Run

inductive Prog (Op : Type) (Res : Op → Type) (α : Type) : Type
  | ret (a : α)
  | call (op : Op) (k : Res op → Prog Op Res α)

namespace Prog

variable {Op : Type} {Res : Op → Type} {α β : Type}

def bind : Prog Op Res α → (α → Prog Op Res β) → Prog Op Res β
  | .ret a, f => f a
  | .call op k, f => .call op fun r => (k r).bind f

instance : Monad (Prog Op Res) where
  pure := .ret
  bind := .bind

/-- One operation, answered. -/
def op (o : Op) : Prog Op Res (Res o) := .call o .ret

/-- What a program that has returned has returned. -/
def result? : Prog Op Res α → Option α
  | .ret a => some a
  | .call _ _ => none

theorem result?_eq_some {p : Prog Op Res α} {a : α} : p.result? = some a ↔ p = .ret a := by
  cases p <;> simp [result?]

/-- An executed operation with its answer. -/
abbrev Done (Op : Type) (Res : Op → Type) := (o : Op) × Res o

/-- `p.Past h q`: after the operations and answers `h`, `p` has become `q`. -/
inductive Past : Prog Op Res α → List (Done Op Res) → Prog Op Res α → Prop
  | nil (p : Prog Op Res α) : Past p [] p
  | snoc {p : Prog Op Res α} {h : List (Done Op Res)} {o : Op} {k : Res o → Prog Op Res α}
      (past : Past p h (.call o k)) (r : Res o) : Past p (h ++ [⟨o, r⟩]) (k r)

/-- `I` holds at every node of the program, given the history before it. -/
def Always (I : List (Done Op Res) → Prog Op Res α → Prop) :
    List (Done Op Res) → Prog Op Res α → Prop
  | h, .ret a => I h (.ret a)
  | h, .call o k => I h (.call o k) ∧ ∀ r, (k r).Always I (h ++ [⟨o, r⟩])

theorem Always.here {I : List (Done Op Res) → Prog Op Res α → Prop} {h : List (Done Op Res)}
    {p : Prog Op Res α} (hp : p.Always I h) : I h p := by
  cases p with
  | ret a => exact hp
  | call o k => exact hp.1

/-- What holds at every node holds of whatever the program has become. -/
theorem Always.past {I : List (Done Op Res) → Prog Op Res α → Prop} {p q : Prog Op Res α}
    {h : List (Done Op Res)} (hp : p.Always I []) (past : p.Past h q) : I h q := by
  suffices q.Always I h from this.here
  induction past with
  | nil => exact hp
  | snoc _ r ih => exact ih.2 r

end Prog

open Prog

/-- A running program: what is left to do, and what it has done. -/
structure Thread (Op : Type) (Res : Op → Type) (α : Type) where
  todo : Prog Op Res α
  done : List (Done Op Res) := []

structure Pool (ι σ : Type) (Op : Type) (Res : Op → Type) (α : Type) where
  shared : σ
  threads : ι → Thread Op Res α

section
variable {ι σ χ : Type} [DecidableEq ι] {Op : Type} {Res : Op → Type} {α : Type}

/-- Every program at its start. -/
def Pool.start (s : σ) (prog : ι → Prog Op Res α) : Pool ι σ Op Res α :=
  ⟨s, fun i => { todo := prog i }⟩

/-- Thread `i` executes its next operation under the environment's choice `c`;
a thread that has returned stays as it is. -/
def Pool.step (handle : χ → (o : Op) → σ → Res o × σ) (p : Pool ι σ Op Res α) (l : ι × χ) :
    Pool ι σ Op Res α :=
  match (p.threads l.1).todo with
  | .ret _ => p
  | .call o k =>
    let answer := handle l.2 o p.shared
    { shared := answer.2
      threads := Function.update p.threads l.1
        { todo := k answer.1, done := (p.threads l.1).done ++ [⟨o, answer.1⟩] } }

/-- A pool after a schedule. -/
abbrev Pool.run (handle : χ → (o : Op) → σ → Res o × σ) (p : Pool ι σ Op Res α)
    (schedule : List (ι × χ)) : Pool ι σ Op Res α :=
  Run.run (Pool.step handle) p schedule

theorem Pool.run_append (handle : χ → (o : Op) → σ → Res o × σ) (p : Pool ι σ Op Res α)
    (as bs : List (ι × χ)) : p.run handle (as ++ bs) = (p.run handle as).run handle bs :=
  Run.run_append ..

/-- What one step can do: nothing, or one operation of one thread. -/
theorem Pool.step_cases (handle : χ → (o : Op) → σ → Res o × σ) (p : Pool ι σ Op Res α)
    (i : ι) (c : χ) :
    p.step handle (i, c) = p ∨
    ∃ o k, (p.threads i).todo = .call o k ∧
      (p.step handle (i, c)).shared = (handle c o p.shared).2 ∧
      (p.step handle (i, c)).threads = Function.update p.threads i
        { todo := k (handle c o p.shared).1
          done := (p.threads i).done ++ [⟨o, (handle c o p.shared).1⟩] } := by
  unfold Pool.step
  cases h : (p.threads i).todo with
  | ret a => left; simp
  | call o k => right; exact ⟨o, k, rfl, rfl, rfl⟩

/-- The operations of a thread after one operation `d` of thread `i`. -/
theorem Pool.mem_done_update {p : Pool ι σ Op Res α} {i j : ι} {q : Prog Op Res α}
    {d x : Done Op Res} :
    x ∈ (Function.update p.threads i { todo := q, done := (p.threads i).done ++ [d] } j).done ↔
      x ∈ (p.threads j).done ∨ j = i ∧ x = d := by
  by_cases hij : j = i
  · subst hij; simp
  · simp [hij]

theorem Pool.head_done_update {p : Pool ι σ Op Res α} {i j : ι} {q : Prog Op Res α}
    {d x : Done Op Res}
    (h : (Function.update p.threads i
      { todo := q, done := (p.threads i).done ++ [d] } j).done.head? = some x) :
    (p.threads j).done.head? = some x ∨ j = i ∧ x = d := by
  by_cases hij : j = i
  · subst hij
    rw [Function.update_self] at h
    cases hd : (p.threads j).done with
    | nil => right; simpa [hd, eq_comm] using h
    | cons y rest => left; simpa [hd] using h
  · left; simpa [Function.update_of_ne hij] using h

/-- A condition on the pool, the environment's choice and the operation a
step is about to execute; a step of a returned thread meets it. -/
def Pool.Guarded (G : Pool ι σ Op Res α → χ → Op → Prop) (p : Pool ι σ Op Res α) (l : ι × χ) :
    Prop :=
  match (p.threads l.1).todo with
  | .ret _ => True
  | .call o _ => G p l.2 o

instance Pool.guardedDecidable (G : Pool ι σ Op Res α → χ → Op → Prop)
    [∀ p c o, Decidable (G p c o)] (p : Pool ι σ Op Res α) (l : ι × χ) :
    Decidable (p.Guarded G l) :=
  match h : (p.threads l.1).todo with
  | .ret _ => isTrue (by simp [Guarded, h])
  | .call o _ => decidable_of_iff (G p l.2 o) (by simp [Guarded, h])

/-- Every thread of the pool is at a node its program reaches. -/
def Pool.Reached (prog : ι → Prog Op Res α) (p : Pool ι σ Op Res α) : Prop :=
  ∀ i, (prog i).Past (p.threads i).done (p.threads i).todo

omit [DecidableEq ι] in
theorem Pool.reached_start (s : σ) (prog : ι → Prog Op Res α) :
    (Pool.start s prog).Reached prog := fun _ => .nil _

variable (handle : χ → (o : Op) → σ → Res o × σ)

theorem Pool.Reached.step {prog : ι → Prog Op Res α} {p : Pool ι σ Op Res α}
    (hp : p.Reached prog) (l : ι × χ) : (p.step handle l).Reached prog := by
  obtain ⟨j, c⟩ := l
  intro i
  rcases p.step_cases handle j c with heq | ⟨o, k, htodo, _, hth⟩
  · rw [heq]; exact hp i
  · rw [hth]
    by_cases hij : i = j
    · subst hij
      have past := hp i
      rw [htodo] at past
      simpa using past.snoc _
    · simpa [Function.update_of_ne hij] using hp i

theorem Pool.Reached.run {prog : ι → Prog Op Res α} {p : Pool ι σ Op Res α}
    (hp : p.Reached prog) (schedule : List (ι × χ)) : (p.run handle schedule).Reached prog :=
  Run.invariant (fun _ l h => h.step handle l) schedule hp

variable {handle}

/-- An invariant of a pool: each operation of each thread keeps it, knowing
where the threads are and that the step met its guard. -/
theorem Pool.invariant {prog : ι → Prog Op Res α} {G : Pool ι σ Op Res α → χ → Op → Prop}
    {I : Pool ι σ Op Res α → Prop}
    (hstep : ∀ (p : Pool ι σ Op Res α) (i : ι) (c : χ) (o : Op) (k : Res o → Prog Op Res α),
      p.Reached prog → I p → (p.threads i).todo = .call o k → G p c o →
      I ⟨(handle c o p.shared).2, Function.update p.threads i
        { todo := k (handle c o p.shared).1
          done := (p.threads i).done ++ [⟨o, (handle c o p.shared).1⟩] }⟩)
    {p : Pool ι σ Op Res α} {schedule : List (ι × χ)} (hp : p.Reached prog)
    (h : Along (Pool.step handle) (Pool.Guarded G) p schedule) (h0 : I p) :
    I (p.run handle schedule) := by
  refine (Along.invariant (I := fun p => p.Reached prog ∧ I p) ?_ h ⟨hp, h0⟩).2
  intro q l hq hguard
  obtain ⟨i, c⟩ := l
  obtain ⟨hreach, hinv⟩ := hq
  refine ⟨hreach.step handle _, ?_⟩
  cases htodo : (q.threads i).todo with
  | ret a => simpa [Pool.step, htodo] using hinv
  | call o k =>
    have hg : G q c o := by simpa [Pool.Guarded, htodo] using hguard
    simpa [Pool.step, htodo] using hstep q i c o k hreach hinv htodo hg

end

end VaultWatch.Lib.Interleave
