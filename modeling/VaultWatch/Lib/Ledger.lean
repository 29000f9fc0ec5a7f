import VaultWatch.Lib.Interleave

/-! A shared list of records that only grows, and the threads that write to it. An answer
tells its thread of the records it wrote, or of some of them when the news is lost on the
way. The records of one thread are then what it has been told of, whatever the others
write in between. -/
namespace VaultWatch.Lib.Interleave

open Run Prog

section
variable {ι σ χ Op E V α : Type} {Res : Op → Type} [DecidableEq ι]

/-- The operations append to the records what `wrote` says, and an answer tells of no more
than its operation wrote. -/
structure Ledger (handle : χ → (o : Op) → σ → Res o × σ) (records : σ → List E) (view : E → V)
    (told : Done Op Res → List V) where
  wrote : χ → Op → σ → List E
  grows : ∀ c o s, records (handle c o s).2 = records s ++ wrote c o s
  tells : ∀ c o s, (told ⟨o, (handle c o s).1⟩).Sublist ((wrote c o s).map view)

/-- Thread `i` writes its own records only, and no other thread's record is its own. -/
structure Ledger.Owned {handle : χ → (o : Op) → σ → Res o × σ} {records : σ → List E}
    {view : E → V} {told : Done Op Res → List V} (ledger : Ledger handle records view told)
    (prog : ι → Prog Op Res α) (mine : ι → E → Bool) : Prop where
  own : ∀ i h o k, Past (prog i) h (.call o k) → ∀ c s, ∀ e ∈ ledger.wrote c o s, mine i e = true
  apart : ∀ i j e, i ≠ j → mine i e = true → mine j e = false

namespace Ledger

variable {handle : χ → (o : Op) → σ → Res o × σ} {records : σ → List E} {view : E → V}
  {told : Done Op Res → List V} (ledger : Ledger handle records view told)

include ledger in
/-- No step takes a record away. -/
theorem prefix_run (p : Pool ι σ Op Res α) (schedule : List (ι × χ)) :
    records p.shared <+: records (p.run handle schedule).shared := by
  induction schedule generalizing p with
  | nil => exact List.prefix_rfl
  | cons l schedule ih =>
    refine List.IsPrefix.trans ?_ (ih (p.step handle l))
    rcases p.step_cases handle l.1 l.2 with same | ⟨o, k, _, shared, _⟩
    · exact same.symm ▸ List.prefix_rfl
    · rw [shared, ledger.grows]
      exact List.prefix_append _ _

include ledger in
/-- What is true of all records at the end is so of the records before each step. -/
theorem along {P : E → Prop} {p : Pool ι σ Op Res α} {schedule : List (ι × χ)}
    (final : ∀ e ∈ records (p.run handle schedule).shared, P e) :
    Along (Pool.step handle) (fun q _ => ∀ e ∈ records q.shared, P e) p schedule := by
  induction schedule generalizing p with
  | nil => trivial
  | cons l schedule ih =>
    exact ⟨fun e mem => final e ((ledger.prefix_run p (l :: schedule)).subset mem), ih final⟩

variable {ledger} {prog : ι → Prog Op Res α} {mine : ι → E → Bool}
  (owned : ledger.Owned prog mine)
include owned

/-- What a step of thread `j` adds to the records of thread `i`. -/
theorem Owned.added {p : Pool ι σ Op Res α} (reached : p.Reached prog) {j : ι} {c : χ} {o : Op}
    {k : Res o → Prog Op Res α} (todo : (p.threads j).todo = .call o k) (i : ι) :
    (ledger.wrote c o p.shared).filter (mine i) =
      if i = j then ledger.wrote c o p.shared else [] := by
  have past := reached j
  rw [todo] at past
  have own := owned.own j _ o k past c p.shared
  split
  · rename_i same
    subst same
    exact List.filter_eq_self.mpr own
  · rename_i other
    refine List.filter_eq_nil_iff.mpr fun e mem => ?_
    rw [owned.apart j i e (Ne.symm other) (own e mem)]
    exact Bool.false_ne_true

/-- Whatever a thread has been told of is in the records, in the order it was told. -/
theorem Owned.told_sublist (s : σ) (schedule : List (ι × χ)) (i : ι) :
    let pool := (Pool.start s prog).run handle schedule
    ((pool.threads i).done.flatMap told).Sublist
      (((records pool.shared).filter (mine i)).map view) := by
  refine (Run.invariant (I := fun p : Pool ι σ Op Res α => p.Reached prog ∧
    ((p.threads i).done.flatMap told).Sublist (((records p.shared).filter (mine i)).map view))
    (fun p l kept => ⟨kept.1.step handle l, ?_⟩) schedule
    ⟨Pool.reached_start s prog, List.nil_sublist _⟩).2
  obtain ⟨reached, sub⟩ := kept
  rcases p.step_cases handle l.1 l.2 with same | ⟨o, k, todo, shared, threads⟩
  · exact same.symm ▸ sub
  · rw [shared, threads, ledger.grows, List.filter_append, owned.added reached todo i,
      List.map_append]
    by_cases same : i = l.1
    · subst same
      rw [if_pos rfl, Function.update_self, List.flatMap_append, List.flatMap_singleton]
      exact sub.append (ledger.tells l.2 o p.shared)
    · rw [if_neg same, Function.update_of_ne same]
      exact sub.trans (List.sublist_append_left _ _)

/-- A thread that has lost no news has been told of all its records. -/
theorem Owned.told_all {clean : Done Op Res → Prop}
    (complete : ∀ c o s, clean ⟨o, (handle c o s).1⟩ →
      told ⟨o, (handle c o s).1⟩ = (ledger.wrote c o s).map view)
    {s : σ} {i : ι} (fresh : ∀ e ∈ records s, mine i e = false) (schedule : List (ι × χ)) :
    let pool := (Pool.start s prog).run handle schedule
    (∀ d ∈ (pool.threads i).done, clean d) →
      (pool.threads i).done.flatMap told =
        ((records pool.shared).filter (mine i)).map view := by
  refine (Run.invariant (I := fun p : Pool ι σ Op Res α => p.Reached prog ∧
    ((∀ d ∈ (p.threads i).done, clean d) →
      (p.threads i).done.flatMap told = ((records p.shared).filter (mine i)).map view))
    (fun p l kept => ⟨kept.1.step handle l, ?_⟩) schedule
    ⟨Pool.reached_start s prog, fun _ => ?_⟩).2
  · obtain ⟨reached, all⟩ := kept
    rcases p.step_cases handle l.1 l.2 with same | ⟨o, k, todo, shared, threads⟩
    · exact same.symm ▸ all
    · rw [shared, threads, ledger.grows, List.filter_append, owned.added reached todo i,
        List.map_append]
      by_cases same : i = l.1
      · subst same
        rw [if_pos rfl, Function.update_self, List.flatMap_append, List.flatMap_singleton]
        intro kept
        have before := all fun d mem => kept d (List.mem_append_left _ mem)
        have last := kept _ (List.mem_append_right _ (List.mem_singleton_self _))
        rw [before, complete l.2 o p.shared last]
      · rw [if_neg same, Function.update_of_ne same, List.map_nil, List.append_nil]
        exact all
  · have none : (records s).filter (mine i) = [] :=
      List.filter_eq_nil_iff.mpr fun e mem => by rw [fresh e mem]; exact Bool.false_ne_true
    show [] = ((records s).filter (mine i)).map view
    rw [none]
    rfl

end Ledger

end

end VaultWatch.Lib.Interleave
