import VaultWatch.Lib.Contracts

/-! Credentials in a shared state. An operation that puts one in, or that relies on one, does
so on what its thread has seen: a proof of the subject, or a credential that was there. Then
every subject goes back to a proof, whoever gave it and however many hands the credentials
have passed through. -/
namespace VaultWatch.Lib.Interleave

open Run Prog

section
variable {ι σ χ Op A α : Type} {Res : Op → Type} [DecidableEq ι]

/-- Credentials of subjects `A`: which ones a state holds, which operations put one in, and
which answers show one. The answers are honest in a sound state. -/
structure Credentials (handle : χ → (o : Op) → σ → Res o × σ) (A : Type) where
  holds : σ → A → Prop
  deposits : Op → A → Prop
  shows : Done Op Res → A → Prop
  sound : σ → Prop
  honest : Done Op Res → Prop
  keeps : ∀ c o s, sound s → sound (handle c o s).2
  answers : ∀ c o s, sound s → honest ⟨o, (handle c o s).1⟩
  held : ∀ c o s a, holds (handle c o s).2 a → holds s a ∨ deposits o a
  shown : ∀ c o s a, shows ⟨o, (handle c o s).1⟩ a → holds s a

variable {handle : χ → (o : Op) → σ → Res o × σ}

/-- The history proves the subject, or shows a credential of it. -/
def Credentials.Seen (cs : Credentials handle A) (proves : Done Op Res → A → Prop)
    (h : List (Done Op Res)) (a : A) : Prop :=
  ∃ d ∈ h, proves d a ∨ cs.shows d a

/-- What a thread deposits or `uses` is of a subject it has seen, as far as its answers
were honest. -/
def Credentials.Careful (cs : Credentials handle A) (proves : Done Op Res → A → Prop)
    (uses : Op → A → Prop) (h : List (Done Op Res)) (o : Op) : Prop :=
  (∀ d ∈ h, cs.honest d) → ∀ a, cs.deposits o a ∨ uses o a → cs.Seen proves h a

/-- Some thread has proved the subject. -/
def Pool.Proved (proves : ι → Done Op Res → A → Prop) (p : Pool ι σ Op Res α) (a : A) : Prop :=
  ∃ i, ∃ d ∈ (p.threads i).done, proves i d a

/-- Whatever the state holds and the threads have been shown is proved. -/
structure Credentials.Traced (cs : Credentials handle A) (proves : ι → Done Op Res → A → Prop)
    (p : Pool ι σ Op Res α) : Prop where
  sound : cs.sound p.shared
  honest : ∀ i, ∀ d ∈ (p.threads i).done, cs.honest d
  held : ∀ a, cs.holds p.shared a → p.Proved proves a
  shown : ∀ i, ∀ d ∈ (p.threads i).done, ∀ a, cs.shows d a → p.Proved proves a

theorem Pool.Proved.step {proves : ι → Done Op Res → A → Prop} {p : Pool ι σ Op Res α} {a : A}
    (proved : p.Proved proves a) (l : ι × χ) : (p.step handle l).Proved proves a := by
  obtain ⟨i, d, mem, proof⟩ := proved
  rcases p.step_cases handle l.1 l.2 with same | ⟨o, k, _, _, threads⟩
  · exact ⟨i, d, same.symm ▸ mem, proof⟩
  · refine ⟨i, d, ?_, proof⟩
    rw [threads]
    exact Pool.mem_done_update.mpr (.inl mem)

variable {cs : Credentials handle A} {proves : ι → Done Op Res → A → Prop}
  {uses : Op → A → Prop} {prog : ι → Prog Op Res α}

omit [DecidableEq ι] in
/-- A subject that a thread has seen is proved. -/
theorem Credentials.Traced.proved {p : Pool ι σ Op Res α} (traced : cs.Traced proves p) {i : ι}
    {a : A} (seen : cs.Seen (proves i) (p.threads i).done a) : p.Proved proves a := by
  obtain ⟨d, mem, proof | shown⟩ := seen
  · exact ⟨i, d, mem, proof⟩
  · exact traced.shown i d mem a shown

theorem Credentials.Traced.step {p : Pool ι σ Op Res α} (traced : cs.Traced proves p)
    (careful : ∀ i, (prog i).Meets (cs.Careful (proves i) uses) (fun _ _ => True) [])
    (reached : p.Reached prog) (l : ι × χ) : cs.Traced proves (p.step handle l) := by
  obtain ⟨j, c⟩ := l
  have kept : ∀ a, p.Proved proves a → (p.step handle (j, c)).Proved proves a :=
    fun a proved => proved.step (j, c)
  rcases p.step_cases handle j c with same | ⟨o, k, todo, shared, threads⟩
  · exact same.symm ▸ traced
  · have past := reached j
    rw [todo] at past
    have asked := ((careful j).past past).1 (traced.honest j)
    constructor
    · rw [shared]
      exact cs.keeps c o p.shared traced.sound
    · intro i d mem
      rw [threads] at mem
      rcases Pool.mem_done_update.mp mem with old | ⟨_, rfl⟩
      · exact traced.honest i d old
      · exact cs.answers c o p.shared traced.sound
    · intro a holds
      rw [shared] at holds
      rcases cs.held c o p.shared a holds with old | deposited
      · exact kept a (traced.held a old)
      · exact kept a (traced.proved (asked a (.inl deposited)))
    · intro i d mem a shown
      rw [threads] at mem
      rcases Pool.mem_done_update.mp mem with old | ⟨_, rfl⟩
      · exact kept a (traced.shown i d old a shown)
      · exact kept a (traced.held a (cs.shown c o p.shared a shown))

omit [DecidableEq ι] in
theorem Credentials.Traced.start {s : σ} (sound : cs.sound s) (none : ∀ a, ¬ cs.holds s a) :
    cs.Traced proves (Pool.start s prog) where
  sound := sound
  honest i d mem := by cases mem
  held a holds := absurd holds (none a)
  shown i d mem := by cases mem

/-- **Every use goes back to a proof**: whatever the interleaving, before an operation uses a
subject some thread has proved it. -/
theorem Credentials.proved_before
    (careful : ∀ i, (prog i).Meets (cs.Careful (proves i) uses) (fun _ _ => True) [])
    {s : σ} (sound : cs.sound s) (none : ∀ a, ¬ cs.holds s a) {schedule : List (ι × χ)}
    {before after : List (Entry ι χ Op Res)} {e : Entry ι χ Op Res}
    (split : (Pool.start s prog).trace handle schedule = before ++ e :: after) {a : A}
    (used : uses e.done.1 a) : ∃ proof ∈ before, proves proof.thread proof.done a := by
  obtain ⟨first, last, k, rfl, rfl, todo, _⟩ := Pool.trace_split handle split
  obtain ⟨reached, traced⟩ := Run.invariant
    (I := fun p : Pool ι σ Op Res α => p.Reached prog ∧ cs.Traced proves p)
    (fun p l kept => ⟨kept.1.step handle l, kept.2.step careful kept.1 l⟩) first
    ⟨Pool.reached_start s prog, .start sound none⟩
  have past := reached e.thread
  rw [todo] at past
  have asked := ((careful e.thread).past past).1 (traced.honest e.thread)
  obtain ⟨i, d, mem, proof⟩ := traced.proved (asked a (.inr used))
  obtain ⟨entry, member, rfl, rfl⟩ := Pool.entry_of_done handle mem
  exact ⟨entry, member, proof⟩

end

end VaultWatch.Lib.Interleave
