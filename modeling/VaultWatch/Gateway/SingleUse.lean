import VaultWatch.Gateway.RefreshCalls

/-! # When a refresh token is single-use

`Refresh` checks `UsedAt` on the copy that `Get` returned and then marks the
token unconditionally, so two calls can both pass the check. A token is
exchanged at most once in the runs in which no `MarkUsed` executes on a token
already marked; `refresh_exchanged_twice` is a run in which one does. -/
namespace VaultWatch.Gateway

open VaultWatch.Gateway.Store VaultWatch.Lib.Run VaultWatch.Lib.Interleave AuthService

section
variable {b : Backend} {ι : Type} [DecidableEq ι]

/-- The call returned a new token pair. -/
def Issued (p : Calls b ι) (i : ι) : Prop :=
  ∃ pair, (p.threads i).todo = .ret (.ok pair)

/-- `MarkUsed` executes on a token whose `UsedAt` is still unset, and no new
token is saved with the hash of the presented one. -/
def FirstMark (hash : String) (p : Calls b ι) (c : Choice) : Op → Prop
  | .markUsed hash' _ => c.fault ≠ some .notExecuted →
    ((b.stored p.shared hash').bind (·.usedAt)) = none
  | .save rt => c.fault ≠ some .notExecuted → rt.hash ≠ hash
  | _ => True

instance (hash : String) (p : Calls b ι) (c : Choice) : ∀ o, Decidable (FirstMark hash p c o)
  | .markUsed hash' _ => inferInstanceAs (Decidable (c.fault ≠ some .notExecuted →
    (b.stored p.shared hash').bind _ = none))
  | .save rt => inferInstanceAs (Decidable (c.fault ≠ some .notExecuted → rt.hash ≠ hash))
  | .get _ | .getUserByID _ | .revokeFamily _ | .now | .issueAccessToken _ _
  | .generateRefreshToken | .publish _ => isTrue trivial

/-- At most one call has marked the token, and then the store says so. -/
structure MarkedOnce (hash : String) (p : Calls b ι) : Prop where
  stored : ∀ i rt, Presented hash rt (p.threads i).done → (b.stored p.shared hash).isSome
  marked : ∀ i, Marked hash (p.threads i).done →
    ∃ rt, b.stored p.shared hash = some rt ∧ rt.usedAt.isSome
  unique : ∀ i j, Marked hash (p.threads i).done → Marked hash (p.threads j).done → i = j

omit [DecidableEq ι] in
/-- The presented token stays stored, and stays used. -/
theorem stored_kept {hash : String} {p : Calls b ι} {c : Choice} {o : Op} {rt : RefreshToken}
    (hg : FirstMark hash p c o) (h : b.stored p.shared hash = some rt) :
    ∃ rt', b.stored (handle b.store c o p.shared).2 hash = some rt' ∧
      (rt.usedAt.isSome → rt'.usedAt.isSome) := by
  by_cases lost : c.fault = some .notExecuted
  · rw [stored_notExecuted o lost]
    exact ⟨rt, h, id⟩
  rcases handle_tokens o with he | ⟨hash', now, rfl, he⟩ | ⟨new, stored, rfl, -, he⟩ |
    ⟨familyID, rfl, he⟩ <;> rw [he]
  · exact ⟨rt, h, id⟩
  · by_cases hh : hash = hash'
    · subst hh
      exact ⟨used (b.column now) rt, by simp [h], fun _ => rfl⟩
    · exact ⟨rt, by rw [Function.update_of_ne hh, h], id⟩
  · exact ⟨rt, by rw [Function.update_of_ne (Ne.symm (hg lost)), h], id⟩
  · refine ⟨revokedIn familyID rt, by simp [h], fun hu => ?_⟩
    unfold revokedIn
    split <;> exact hu

variable {s : AuthService} {plain : String}

/-- A mark that was not there before this step is this step's. -/
theorem MarkedOnce.fresh {p : Calls b ι} {i j : ι} {c : Choice} {o : Op}
    {k : Res o → RefreshProg (Except AuthError TokenPair)}
    (hreach : p.Reached fun _ => s.refresh plain)
    (h : MarkedOnce (s.hashRefreshToken plain) p) (htodo : (p.threads i).todo = .call o k)
    (hg : FirstMark (s.hashRefreshToken plain) p c o)
    (hmarked : Marked (s.hashRefreshToken plain) (Function.update p.threads i
      { todo := k (handle b.store c o p.shared).1
        done := (p.threads i).done ++ [⟨o, (handle b.store c o p.shared).1⟩] } j).done) :
    Marked (s.hashRefreshToken plain) (p.threads j).done ∨ j = i ∧
      ∃ rt, b.stored p.shared (s.hashRefreshToken plain) = some rt ∧ rt.usedAt = none ∧
        ∃ rt', b.stored (handle b.store c o p.shared).2 (s.hashRefreshToken plain) = some rt' ∧
          rt'.usedAt.isSome := by
  obtain ⟨now, hm⟩ := hmarked
  rcases Pool.mem_done_update.mp hm with hold | ⟨rfl, hd⟩
  · exact .inl ⟨now, hold⟩
  · cases o with
    | markUsed hash' now' =>
      injection hd with ho hr
      cases ho
      obtain ⟨-, rt₀, hp⟩ := ((refresh_known s plain).past (hreach j)).marking _ _ _ htodo
      obtain ⟨rt, hrt⟩ := Option.isSome_iff_exists.mp (h.stored _ _ hp)
      have unset := hg fun lost => by simp [handle, writing, lost] at hr
      refine .inr ⟨rfl, rt, hrt, by simpa [hrt] using unset, ?_⟩
      refine ⟨used (b.column now) rt, ?_, rfl⟩
      rw [handle_markUsed hr.symm]
      simp [hrt]
    | _ => cases hd

theorem MarkedOnce.step {p : Calls b ι} {i : ι} {c : Choice} {o : Op}
    {k : Res o → RefreshProg (Except AuthError TokenPair)}
    (hreach : p.Reached fun _ => s.refresh plain)
    (h : MarkedOnce (s.hashRefreshToken plain) p) (htodo : (p.threads i).todo = .call o k)
    (hg : FirstMark (s.hashRefreshToken plain) p c o) :
    MarkedOnce (s.hashRefreshToken plain)
      ⟨(handle b.store c o p.shared).2, Function.update p.threads i
        { todo := k (handle b.store c o p.shared).1
          done := (p.threads i).done ++ [⟨o, (handle b.store c o p.shared).1⟩] }⟩ := by
  constructor
  · intro j rt hp
    rcases Pool.head_done_update hp with hold | ⟨rfl, hd⟩
    · obtain ⟨rt₀, hrt⟩ := Option.isSome_iff_exists.mp (h.stored _ _ hold)
      obtain ⟨rt', hrt', -⟩ := stored_kept hg hrt
      simp [hrt']
    · cases o with
      | get hash' =>
        injection hd with ho hr
        cases ho
        obtain ⟨rt', hrt', -⟩ := stored_kept hg (handle_get hr.symm)
        simp [hrt']
      | _ => cases hd
  · intro j hm
    rcases h.fresh hreach htodo hg hm with hold | ⟨-, -, -, -, hnew⟩
    · obtain ⟨rt, hrt, hu⟩ := h.marked j hold
      obtain ⟨rt', hrt', hu'⟩ := stored_kept hg hrt
      exact ⟨rt', hrt', hu' hu⟩
    · exact hnew
  · intro j j' hm hm'
    rcases h.fresh hreach htodo hg hm with hold | ⟨rfl, rt, hrt, hu, -⟩ <;>
      rcases h.fresh hreach htodo hg hm' with hold' | ⟨rfl, rt', hrt', hu', -⟩
    · exact h.unique j j' hold hold'
    · obtain ⟨rt, hrt, hu⟩ := h.marked j hold
      rw [hrt] at hrt'
      cases hrt'
      simp [hu'] at hu
    · obtain ⟨rt', hrt', hu'⟩ := h.marked j' hold'
      rw [hrt] at hrt'
      cases hrt'
      simp [hu] at hu'
    · rfl

/-- Calls presenting the tokens `plain`, none of them started. -/
def refreshing (s : AuthService) (plain : ι → String) (g : Shared b.State) : Calls b ι :=
  Pool.start g fun i => s.refresh (plain i)

/-- Any number of calls that all present one token. -/
abbrev presenting (s : AuthService) (plain : String) (g : Shared b.State) : Calls b ι :=
  refreshing s (fun _ => plain) g

omit [DecidableEq ι] in
theorem MarkedOnce.start (hash : String) (g : Shared b.State) :
    MarkedOnce hash (presenting s plain g : Calls b ι) where
  stored i rt hp := by cases hp
  marked i hm := by obtain ⟨_, hm⟩ := hm; cases hm
  unique i j hm := by obtain ⟨_, hm⟩ := hm; cases hm

/-- **A refresh token is single-use** in every run in which `MarkUsed` only
ever executes on a token not yet marked: at most one of the calls that present
it returns a new token pair. -/
theorem refresh_single_use (s : AuthService) (plain : String) (g : Shared b.State)
    (schedule : List (ι × Choice))
    (h : Along (Pool.step (handle b.store)) (Pool.Guarded (FirstMark (s.hashRefreshToken plain)))
      (presenting s plain g) schedule) :
    ∀ i j, Issued ((presenting s plain g).run (handle b.store) schedule) i →
      Issued ((presenting s plain g).run (handle b.store) schedule) j → i = j := by
  have hreach := Pool.reached_start g fun _ : ι => s.refresh plain
  have hinv : MarkedOnce (s.hashRefreshToken plain)
      ((presenting s plain g).run (handle b.store) schedule) := by
    exact Pool.invariant (fun p i c o k hr hp htodo hg => hp.step hr htodo hg) hreach h
      (.start _ g)
  intro i j hpair hpair'
  obtain ⟨pair, hi⟩ := hpair
  obtain ⟨pair', hj⟩ := hpair'
  have known := fun i => (refresh_known s plain).past (hreach.run (handle b.store) schedule i)
  exact hinv.unique i j ((known i).issued pair hi).1 ((known j).issued pair' hj).1

end

/-! ## Two calls that both read before either marks -/

/-- SHA-256 in hex, of the tokens below. -/
def sampleHash (plain : String) : String :=
  if plain = "rt-a" then "ba2fd7183518f57b1418d9245c09fae16df3c23b99c69353b660b991ee3a6d16"
  else if plain = "rt-b" then "2823ef31b6c4802a5cb21f0fbd10802a7091c380fb068c8ebe534e3ead5fc78f"
  else if plain = "rt-c" then "8ce2922e46e757309c8a82f64a00281dca028b957279c54f797f7bedf3e816a6"
  else plain

def sampleService : AuthService := { hashRefreshToken := sampleHash }

def sampleUser : User := { id := "u-1", email := "dana@example.com", passwordHash := "" }

/-- One user with one live token, the hash of `rt-a`, in family `f-1`. -/
def sampleToken : RefreshToken :=
  { hash := sampleHash "rt-a", userID := "u-1", familyID := "f-1", expiresAt := 1 }

def sampleStore : (b : Backend) → Shared b.State
  | .memory => { store := {
      objects := [sampleUser]
      users := Function.update (fun _ => none) "dana@example.com" (some 0)
      byID := Function.update (fun _ => none) "u-1" (some 0)
      tokens := Function.update (fun _ => none) sampleToken.hash (some sampleToken) } }
  | .postgres => { store := { users := [sampleUser], refreshTokens := [sampleToken] } }

/-- Call `i` draws its own new token. -/
def sampleChoice (i : Fin 2) : Choice :=
  { accessToken := some "jwt", refreshToken := some (if i = 0 then "rt-b" else "rt-c") }

/-- The nine operations of an exchange. -/
def exchange (i : Fin 2) : List (Fin 2 × Choice) := List.replicate 9 (i, sampleChoice i)

/-- The two calls take turns, operation by operation. -/
def inStep : List (Fin 2 × Choice) :=
  (exchange 0).flatMap fun l => [l, (1, sampleChoice 1)]

/-- One after the other, the second call is refused. -/
theorem refresh_single_use_sequential :
    (∀ i j, Issued ((presenting sampleService "rt-a" (sampleStore .memory)).run
        (handle Backend.memory.store) (exchange 0 ++ exchange 1)) i →
      Issued ((presenting sampleService "rt-a" (sampleStore .memory)).run
        (handle Backend.memory.store) (exchange 0 ++ exchange 1)) j → i = j) ∧
    Issued ((presenting sampleService "rt-a" (sampleStore .memory)).run
      (handle Backend.memory.store) (exchange 0 ++ exchange 1)) 0 :=
  ⟨refresh_single_use sampleService "rt-a" (sampleStore .memory) (exchange 0 ++ exchange 1)
    (by decide), ⟨⟨"jwt", "rt-b"⟩, rfl⟩⟩

/-- In step, both calls pass the `UsedAt` check before either marks the token,
and both return a new pair, on either store. -/
theorem refresh_exchanged_twice :
    (∃ p : Calls .memory (Fin 2),
      p = (presenting sampleService "rt-a" (sampleStore .memory)).run
        (handle Backend.memory.store) inStep ∧ Issued p 0 ∧ Issued p 1) ∧
    ∃ p : Calls .postgres (Fin 2),
      p = (presenting sampleService "rt-a" (sampleStore .postgres)).run
        (handle Backend.postgres.store) inStep ∧ Issued p 0 ∧ Issued p 1 :=
  ⟨⟨_, rfl, ⟨⟨"jwt", "rt-b"⟩, rfl⟩, ⟨⟨"jwt", "rt-c"⟩, rfl⟩⟩,
    ⟨_, rfl, ⟨⟨"jwt", "rt-b"⟩, rfl⟩, ⟨⟨"jwt", "rt-c"⟩, rfl⟩⟩⟩

end VaultWatch.Gateway
