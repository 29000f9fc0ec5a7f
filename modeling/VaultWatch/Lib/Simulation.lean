import VaultWatch.Lib.Trace

/-! Two environments that answer alike: a pool over the one does what it does over the
other, and their states stay related. So what one environment is known to answer holds of
the history of every thread over the other. -/
namespace VaultWatch.Lib.Interleave

open Run Prog

variable {ι σ τ χ Op α : Type} {Res : Op → Type} [DecidableEq ι]

/-- Related states answer each operation alike and stay related, under the choices that `G`
allows in the state. -/
def Alike (G : χ → σ → Prop) (R : σ → τ → Prop) (handle : χ → (o : Op) → σ → Res o × σ)
    (handle' : χ → (o : Op) → τ → Res o × τ) : Prop :=
  ∀ c o s t, G c s → R s t →
    (handle c o s).1 = (handle' c o t).1 ∧ R (handle c o s).2 (handle' c o t).2

variable {G : χ → σ → Prop} {R : σ → τ → Prop} {handle : χ → (o : Op) → σ → Res o × σ}
  {handle' : χ → (o : Op) → τ → Res o × τ}

theorem Alike.run (alike : Alike G R handle handle') {schedule : List (ι × χ)}
    {p : Pool ι σ Op Res α} {q : Pool ι τ Op Res α}
    (allowed : Along (Pool.step handle) (fun p l => G l.2 p.shared) p schedule)
    (same : p.threads = q.threads) (related : R p.shared q.shared) :
    (p.run handle schedule).threads = (q.run handle' schedule).threads ∧
      R (p.run handle schedule).shared (q.run handle' schedule).shared := by
  induction schedule generalizing p q with
  | nil => exact ⟨same, related⟩
  | cons l schedule ih =>
    obtain ⟨now, later⟩ := allowed
    refine ih later ?_ ?_
    · rw [Pool.step, Pool.step, same]
      cases (q.threads l.1).todo with
      | ret a => exact same
      | call o k =>
        dsimp only
        rw [(alike l.2 o _ _ now related).1]
    · rw [Pool.step, Pool.step, same]
      cases (q.threads l.1).todo with
      | ret a => exact related
      | call o k => exact (alike l.2 o _ _ now related).2

/-- What a thread has done was answered under a choice of the schedule. -/
theorem Pool.done_answered {s : σ} {prog : ι → Prog Op Res α} {schedule : List (ι × χ)} {i : ι}
    {d : Done Op Res} (mem : d ∈ (((Pool.start s prog).run handle schedule).threads i).done) :
    ∃ c t, (i, c) ∈ schedule ∧ d.2 = (handle c d.1 t).1 := by
  obtain ⟨e, traced, rfl, rfl⟩ := Pool.entry_of_done handle mem
  obtain ⟨t, answer⟩ := Pool.answered_of_mem handle traced
  exact ⟨e.choice, t, (Pool.trace_choices handle _ schedule).subset
    (List.mem_map.mpr ⟨e, traced, rfl⟩), answer⟩

end VaultWatch.Lib.Interleave
