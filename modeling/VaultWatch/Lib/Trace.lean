import VaultWatch.Lib.Effects

/-! What a run of a pool executed, in order. The state of the pool and the
history of each thread are functions of it, so a statement about the order of
operations of different threads is one about the trace. What a thread that has
returned has done is a complete run of its program (`Past.runs`). Programs over
the operations of one component become programs over those of a larger one by
`translate`. -/
namespace VaultWatch.Lib.Interleave

open Run Prog

namespace Prog

variable {Op Op' : Type} {Res : Op → Type} {Res' : Op' → Type} {α β : Type}

/-- The same program, each operation as one of another kind. -/
def translate (as : Op → Op') (answer : ∀ o, Res' (as o) → Res o) :
    Prog Op Res α → Prog Op' Res' α
  | .ret a => .ret a
  | .call o k => .call (as o) fun r => (k (answer o r)).translate as answer

/-- The same program with another view of its result. -/
def map (f : α → β) : Prog Op Res α → Prog Op Res β
  | .ret a => .ret (f a)
  | .call o k => .call o fun r => (k r).map f

theorem translate_bind {as : Op → Op'} {answer : ∀ o, Res' (as o) → Res o} (p : Prog Op Res α)
    (f : α → Prog Op Res β) : (p >>= f).translate as answer =
      p.translate as answer >>= fun a => (f a).translate as answer := by
  induction p with
  | ret a => rfl
  | call o k ih => exact congrArg _ (funext fun r => ih (answer o r))

theorem translate_map {as : Op → Op'} {answer : ∀ o, Res' (as o) → Res o} (f : α → β)
    (p : Prog Op Res α) : (p.map f).translate as answer = (p.translate as answer).map f := by
  induction p with
  | ret a => rfl
  | call o k ih => exact congrArg _ (funext fun r => ih (answer o r))

theorem Runs.op {o : Op} {f : Res o → Prog Op Res α} {h : List (Done Op Res)} {a : α}
    (run : (Prog.op o >>= f).Runs h a) : ∃ r t, h = ⟨o, r⟩ :: t ∧ (f r).Runs t a :=
  run

theorem Runs.map {f : α → β} {p : Prog Op Res α} {h : List (Done Op Res)} {b : β}
    (run : (p.map f).Runs h b) : ∃ a, b = f a ∧ p.Runs h a := by
  induction p generalizing h with
  | ret a =>
    obtain ⟨rfl, rfl⟩ := run
    exact ⟨a, rfl, rfl, rfl⟩
  | call o k ih =>
    obtain ⟨r, t, rfl, rest⟩ := run
    obtain ⟨a, same, own⟩ := ih r rest
    exact ⟨a, same, r, t, rfl, own⟩

theorem Past.append {p q : Prog Op Res α} {h h' : List (Done Op Res)} {a : α}
    (past : Past p h q) (rest : q.Runs h' a) : p.Runs (h ++ h') a := by
  induction past generalizing h' with
  | nil => exact rest
  | snoc _ r ih =>
    rw [List.append_assoc]
    exact ih ⟨r, h', rfl, rest⟩

theorem Past.runs {p : Prog Op Res α} {h : List (Done Op Res)} {a : α}
    (past : Past p h (.ret a)) : p.Runs h a := by
  have run : p.Runs (h ++ []) a := past.append ⟨rfl, rfl⟩
  rwa [List.append_nil] at run

end Prog

/-- An operation that a step executed: by whom, under which choice, and its answer. -/
structure Entry (ι χ : Type) (Op : Type) (Res : Op → Type) where
  thread : ι
  choice : χ
  done : Done Op Res

section
variable {ι σ χ : Type} [DecidableEq ι] {Op : Type} {Res : Op → Type} {α : Type}
  (handle : χ → (o : Op) → σ → Res o × σ)

/-- What a step executes: nothing if the thread has returned. -/
def Pool.executes (p : Pool ι σ Op Res α) (l : ι × χ) : List (Entry ι χ Op Res) :=
  match (p.threads l.1).todo with
  | .ret _ => []
  | .call o _ => [⟨l.1, l.2, ⟨o, (handle l.2 o p.shared).1⟩⟩]

def Pool.trace (p : Pool ι σ Op Res α) : List (ι × χ) → List (Entry ι χ Op Res)
  | [] => []
  | l :: schedule => p.executes handle l ++ (p.step handle l).trace schedule

/-- The shared state after an executed operation. -/
def Entry.apply (s : σ) (e : Entry ι χ Op Res) : σ := (handle e.choice e.done.1 s).2

/-- The shared state is what the executed operations made of it. -/
theorem Pool.shared_run (p : Pool ι σ Op Res α) (schedule : List (ι × χ)) :
    (p.run handle schedule).shared = (p.trace handle schedule).foldl (Entry.apply handle)
      p.shared := by
  induction schedule generalizing p with
  | nil => rfl
  | cons l schedule ih =>
    have first : (p.step handle l).shared =
        (p.executes handle l).foldl (Entry.apply handle) p.shared := by
      unfold Pool.step Pool.executes
      cases (p.threads l.1).todo with
      | ret a => rfl
      | call o k => rfl
    show ((p.step handle l).run handle schedule).shared =
      (p.executes handle l ++ (p.step handle l).trace handle schedule).foldl _ _
    rw [ih, List.foldl_append, first]

/-- Each thread has done its part of the trace. -/
theorem Pool.done_run (p : Pool ι σ Op Res α) (schedule : List (ι × χ)) (i : ι) :
    ((p.run handle schedule).threads i).done =
      (p.threads i).done ++ ((p.trace handle schedule).filter (·.thread = i)).map (·.done) := by
  induction schedule generalizing p with
  | nil => simp [Pool.trace]
  | cons l schedule ih =>
    have first : ((p.step handle l).threads i).done =
        (p.threads i).done ++ ((p.executes handle l).filter (·.thread = i)).map (·.done) := by
      unfold Pool.step Pool.executes
      cases todo : (p.threads l.1).todo with
      | ret a => simp
      | call o k =>
        by_cases same : i = l.1
        · subst same
          simp
        · simp [Function.update_of_ne same, Ne.symm same]
    show (((p.step handle l).run handle schedule).threads i).done =
      _ ++ ((p.executes handle l ++ (p.step handle l).trace handle schedule).filter _).map _
    rw [ih, first, List.filter_append, List.map_append, List.append_assoc]

/-- An entry of the trace is a step of the run, and what precedes it is the trace
up to that step. -/
theorem Pool.trace_split {p : Pool ι σ Op Res α} {schedule : List (ι × χ)}
    {before after : List (Entry ι χ Op Res)} {e : Entry ι χ Op Res}
    (split : p.trace handle schedule = before ++ e :: after) :
    ∃ first last k, schedule = first ++ (e.thread, e.choice) :: last ∧
      p.trace handle first = before ∧
      ((p.run handle first).threads e.thread).todo = .call e.done.1 k ∧
      e.done.2 = (handle e.choice e.done.1 (p.run handle first).shared).1 := by
  induction schedule generalizing p before with
  | nil => cases before <;> cases split
  | cons l schedule ih =>
    have whole : p.executes handle l ++ (p.step handle l).trace handle schedule =
      before ++ e :: after := split
    unfold Pool.executes at whole
    cases todo : (p.threads l.1).todo with
    | ret a =>
      have still : p.step handle l = p := by simp [Pool.step, todo]
      have idle : p.executes handle l = [] := by simp [Pool.executes, todo]
      rw [todo, still] at whole
      obtain ⟨first, last, k, rfl, traced, next⟩ := ih whole
      refine ⟨l :: first, last, k, rfl, ?_, ?_⟩
      · show p.executes handle l ++ (p.step handle l).trace handle first = before
        rw [idle, still]
        exact traced
      · have same : p.run handle (l :: first) = p.run handle first :=
          congrArg (Pool.run handle · first) still
        rw [same]
        exact next
    | call o k =>
      have asked : p.executes handle l = [⟨l.1, l.2, ⟨o, (handle l.2 o p.shared).1⟩⟩] := by
        simp [Pool.executes, todo]
      rw [todo] at whole
      cases before with
      | nil =>
        obtain ⟨rfl, _⟩ := List.cons.inj whole
        exact ⟨[], schedule, k, rfl, rfl, todo, rfl⟩
      | cons d before =>
        obtain ⟨rfl, rest⟩ := List.cons.inj whole
        obtain ⟨first, last, k', rfl, traced, next⟩ := ih rest
        refine ⟨l :: first, last, k', rfl, ?_, next⟩
        show p.executes handle l ++ (p.step handle l).trace handle first = _
        rw [asked, traced]
        rfl

/-- An operation in the history of a thread is an entry of the trace. -/
theorem Entry.split_history {es : List (Entry ι χ Op Res)} {i : ι} {d : Done Op Res}
    {past future : List (Done Op Res)}
    (own : (es.filter (·.thread = i)).map (·.done) = past ++ d :: future) :
    ∃ before e after, es = before ++ e :: after ∧ e.thread = i ∧ e.done = d ∧
      (before.filter (·.thread = i)).map (·.done) = past ∧
      (after.filter (·.thread = i)).map (·.done) = future := by
  obtain ⟨own₁, own₂, filtered, earlier, rest⟩ := List.map_eq_append_iff.mp own
  obtain ⟨es₁, es₂, rfl, rfl, second⟩ := List.filter_eq_append_iff.mp filtered
  obtain ⟨e, own₃, rfl, same, later⟩ := List.map_eq_cons_iff.mp rest
  obtain ⟨skipped, after, rfl, others, thread, rfl⟩ := List.filter_eq_cons_iff.mp second
  refine ⟨es₁ ++ skipped, e, after, (List.append_assoc ..).symm, by simpa using thread, same, ?_,
    later⟩
  rw [List.filter_append, List.filter_eq_nil_iff.mpr others, List.append_nil]
  exact earlier

/-- The answer of an entry is the one its operation had in the state it met. -/
theorem Pool.trace_answer {p : Pool ι σ Op Res α} {schedule : List (ι × χ)}
    {before after : List (Entry ι χ Op Res)} {e : Entry ι χ Op Res}
    (split : p.trace handle schedule = before ++ e :: after) :
    e.done.2 = (handle e.choice e.done.1 (before.foldl (Entry.apply handle) p.shared)).1 := by
  obtain ⟨first, last, k, rfl, rfl, todo, answer⟩ := Pool.trace_split handle split
  rw [← Pool.shared_run]
  exact answer

/-- An entry was answered in some state. -/
theorem Pool.answered_of_mem {p : Pool ι σ Op Res α} {schedule : List (ι × χ)}
    {e : Entry ι χ Op Res} (mem : e ∈ p.trace handle schedule) :
    ∃ s, e.done.2 = (handle e.choice e.done.1 s).1 := by
  obtain ⟨before, after, split⟩ := List.append_of_mem mem
  exact ⟨_, Pool.trace_answer handle split⟩

/-- What a thread has done from its start is an entry of the trace. -/
theorem Pool.entry_of_done {s : σ} {prog : ι → Prog Op Res α} {schedule : List (ι × χ)} {i : ι}
    {d : Done Op Res} (mem : d ∈ (((Pool.start s prog).run handle schedule).threads i).done) :
    ∃ e ∈ (Pool.start s prog).trace handle schedule, e.thread = i ∧ e.done = d := by
  rw [Pool.done_run] at mem
  obtain ⟨e, own, rfl⟩ := List.mem_map.mp mem
  obtain ⟨traced, thread⟩ := List.mem_filter.mp own
  exact ⟨e, traced, of_decide_eq_true thread, rfl⟩

/-- A guard of the run holds where an entry of the trace was executed. -/
theorem Pool.trace_guarded {G : Pool ι σ Op Res α → χ → Op → Prop} {p : Pool ι σ Op Res α}
    {schedule : List (ι × χ)} (along : Along (Pool.step handle) (Pool.Guarded G) p schedule)
    {before after : List (Entry ι χ Op Res)} {e : Entry ι χ Op Res}
    (split : p.trace handle schedule = before ++ e :: after) :
    ∃ first, p.trace handle first = before ∧ G (p.run handle first) e.choice e.done.1 := by
  obtain ⟨first, last, k, rfl, traced, todo, _⟩ := Pool.trace_split handle split
  obtain ⟨guarded, _⟩ := (Along.append.mp along).2
  refine ⟨first, traced, ?_⟩
  unfold Pool.Guarded at guarded
  dsimp only at guarded
  rwa [todo] at guarded

/-- The choices of the executed operations are those of the schedule, in order. -/
theorem Pool.trace_choices (p : Pool ι σ Op Res α) (schedule : List (ι × χ)) :
    ((p.trace handle schedule).map fun e => (e.thread, e.choice)).Sublist schedule := by
  induction schedule generalizing p with
  | nil => exact List.Sublist.refl _
  | cons l schedule ih =>
    show ((p.executes handle l ++ (p.step handle l).trace handle schedule).map _).Sublist _
    unfold Pool.executes
    cases (p.threads l.1).todo with
    | ret a => exact (ih _).cons l
    | call o k => exact (ih _).cons_cons l

end

end VaultWatch.Lib.Interleave
