import Mathlib.Data.Fintype.Basic
import VaultWatch.Gateway.SingleUse

/-! # When the revocation of a family is final

The sweep revokes the tokens stored at that moment, and its error is discarded.
A rotation that has passed its checks can still save a live token into the
family, and a failed sweep revokes nothing. Without these two, no call that
starts after a reported reuse gets a pair for the family. -/
namespace VaultWatch.Gateway

open VaultWatch.Gateway.Store VaultWatch.Lib.Run VaultWatch.Lib.Interleave AuthService

section
variable {b : Backend} {ι : Type} [DecidableEq ι]

/-- The token the call presented was of the family. -/
def OfFamily (familyID : String) (p : Calls b ι) (i : ι) : Prop :=
  ∃ hash rt, Presented hash rt (p.threads i).done ∧ rt.familyID = familyID

/-- The call returned `ErrTokenReuse` for a token of the family. -/
def ReuseReported (familyID : String) (p : Calls b ι) (i : ι) : Prop :=
  (p.threads i).todo = .ret (.error .tokenReuse) ∧ OfFamily familyID p i

/-- Every sweep reaches the store, and no token is saved into a family after a
sweep of it has executed. -/
def SweepFirst (p : Calls b ι) (c : Choice) : Op → Prop
  | .revokeFamily _ => c.fault ≠ some .notExecuted
  | .save rt => c.fault ≠ some .notExecuted → ∀ i, ¬ Swept rt.familyID (p.threads i).done
  | _ => True

instance [Fintype ι] (p : Calls b ι) (c : Choice) : ∀ o, Decidable (SweepFirst p c o)
  | .revokeFamily _ => inferInstanceAs (Decidable (c.fault ≠ some .notExecuted))
  | .save rt => inferInstanceAs (Decidable (c.fault ≠ some .notExecuted →
    ∀ i, ¬ Swept rt.familyID (p.threads i).done))
  | .get _ | .getUserByID _ | .markUsed _ _ | .now | .issueAccessToken _ _
  | .generateRefreshToken | .publish _ => isTrue trivial

def AllRevoked (familyID : String) (stored : String → Option RefreshToken) : Prop :=
  ∀ hash rt, stored hash = some rt → rt.familyID = familyID → rt.revoked = true

/-- Only a save into the family can end its revocation. -/
theorem AllRevoked.handle {familyID : String} {c : Choice} {o : Op} {g : Shared b.State}
    (h : AllRevoked familyID (b.stored g))
    (ho : ∀ rt, o = .save rt → c.fault ≠ some .notExecuted → rt.familyID ≠ familyID) :
    AllRevoked familyID (b.stored (handle b.store c o g).2) := by
  by_cases lost : c.fault = some .notExecuted
  · rwa [stored_notExecuted o lost]
  rcases handle_tokens o with he | ⟨hash', now, rfl, he⟩ | ⟨new, stored, rfl, hf, he⟩ |
    ⟨family', rfl, he⟩ <;> rw [he] <;> intro hash rt hrt hfam
  · exact h hash rt hrt hfam
  · by_cases hh : hash = hash'
    · subst hh
      rw [Function.update_self] at hrt
      obtain ⟨rt₀, hrt₀, rfl⟩ := Option.map_eq_some_iff.mp hrt
      exact h hash rt₀ hrt₀ hfam
    · rw [Function.update_of_ne hh] at hrt
      exact h hash rt hrt hfam
  · by_cases hh : hash = new.hash
    · subst hh
      rw [Function.update_self] at hrt
      cases hrt
      exact (ho new rfl lost (hf ▸ hfam)).elim
    · rw [Function.update_of_ne hh] at hrt
      exact h hash rt hrt hfam
  · obtain ⟨rt₀, hrt₀, rfl⟩ := Option.map_eq_some_iff.mp hrt
    unfold revokedIn at hfam ⊢
    split at hfam
    · simp_all
    next hne => simpa [hne] using h hash rt₀ hrt₀ hfam

/-- Whatever family some call has swept is revoked. -/
def SweptRevoked (p : Calls b ι) : Prop :=
  ∀ familyID i, Swept familyID (p.threads i).done → AllRevoked familyID (b.stored p.shared)

theorem SweptRevoked.step {p : Calls b ι} {i : ι} {c : Choice} {o : Op}
    {q : RefreshProg (Except AuthError TokenPair)} (h : SweptRevoked p) (hg : SweepFirst p c o) :
    SweptRevoked ⟨(handle b.store c o p.shared).2, Function.update p.threads i
      { todo := q, done := (p.threads i).done ++ [⟨o, (handle b.store c o p.shared).1⟩] }⟩ := by
  intro familyID j hswept
  obtain ⟨d, hd, hop⟩ := hswept
  rcases Pool.mem_done_update.mp hd with hold | ⟨rfl, rfl⟩
  · refine (h familyID j ⟨d, hold, hop⟩).handle fun rt ho executed hfam => ?_
    subst ho
    exact hg executed j (hfam ▸ ⟨d, hold, hop⟩)
  · cases hop
    intro hash rt hrt hfam
    rw [handle_revokeFamily hg] at hrt
    obtain ⟨rt₀, hrt₀, rfl⟩ := Option.map_eq_some_iff.mp hrt
    unfold revokedIn at hfam ⊢
    split at hfam
    next he => simp [he]
    next hne => exact (hne hfam).elim

variable {s : AuthService} {plain : ι → String}

omit [DecidableEq ι] in
theorem SweptRevoked.start (g : Shared b.State) :
    SweptRevoked (refreshing s plain g : Calls b ι) := by
  intro familyID i hswept
  obtain ⟨d, hd, -⟩ := hswept
  cases hd

/-- The family is swept, and call `i` has not read one of its tokens unrevoked. -/
structure TooLate (familyID : String) (i : ι) (p : Calls b ι) : Prop where
  revoked : SweptRevoked p
  swept : ∃ j, Swept familyID (p.threads j).done
  read : ∀ hash rt, Presented hash rt (p.threads i).done → rt.familyID = familyID →
    rt.revoked = true

theorem TooLate.step {familyID : String} {i j : ι} {p : Calls b ι} {c : Choice} {o : Op}
    {q : RefreshProg (Except AuthError TokenPair)} (h : TooLate familyID i p)
    (hg : SweepFirst p c o) :
    TooLate familyID i ⟨(handle b.store c o p.shared).2, Function.update p.threads j
      { todo := q, done := (p.threads j).done ++ [⟨o, (handle b.store c o p.shared).1⟩] }⟩ where
  revoked := h.revoked.step hg
  swept := by
    obtain ⟨j', d, hd, hop⟩ := h.swept
    exact ⟨j', d, Pool.mem_done_update.mpr (.inl hd), hop⟩
  read hash rt hp hfam := by
    rcases Pool.head_done_update hp with hold | ⟨-, hd⟩
    · exact h.read hash rt hold hfam
    · cases o with
      | get hash' =>
        injection hd with ho hr
        cases ho
        obtain ⟨j', hj'⟩ := h.swept
        exact h.revoked familyID j' hj' hash rt (handle_get hr.symm) hfam
      | _ => cases hd

/-- **Family revocation is final** in every run in which each sweep reaches the
store and no token is saved into a family already swept: once a call has
returned `ErrTokenReuse` for a token of the family, no call that starts
afterwards with a token of the family returns a new pair. -/
theorem family_revocation_final (s : AuthService) (plain : ι → String) (g : Shared b.State)
    (before after : List (ι × Choice)) (familyID : String)
    (h : Along (Pool.step (handle b.store)) (Pool.Guarded SweepFirst) (refreshing s plain g)
      (before ++ after)) (j : ι)
    (hj : ReuseReported familyID ((refreshing s plain g).run (handle b.store) before) j) (i : ι)
    (hi : (((refreshing s plain g).run (handle b.store) before).threads i).done = [])
    (hof : OfFamily familyID ((refreshing s plain g).run (handle b.store) (before ++ after)) i) :
    ¬ Issued ((refreshing s plain g).run (handle b.store) (before ++ after)) i := by
  obtain ⟨hbefore, hafter⟩ := Along.append.mp h
  have hreach := Pool.reached_start g fun i => s.refresh (plain i)
  have hmid := hreach.run (handle b.store) before
  have hswept : SweptRevoked ((refreshing s plain g).run (handle b.store) before) :=
    Pool.invariant (fun p i c o k _ hp _ hg => hp.step hg) hreach hbefore (.start g)
  -- the reporting call has swept the family it reports
  obtain ⟨hret, hash, rt, hp, rfl⟩ := hj
  obtain ⟨rt', hp', hsw⟩ := ((refresh_known s (plain j)).past (hmid j)).reused hret
  obtain rfl := hp'.unique hp
  have hlate : TooLate rt'.familyID i
      (((refreshing s plain g).run (handle b.store) before).run (handle b.store) after) := by
    refine Pool.invariant (fun p i c o k _ hp _ hg => hp.step hg) hmid hafter ⟨hswept, ⟨j, hsw⟩, ?_⟩
    intro hash rt hp
    rw [Presented, hi] at hp
    cases hp
  rw [Pool.run_append] at hof ⊢
  intro hpaired
  obtain ⟨pair, hpair⟩ := hpaired
  obtain ⟨-, rt₁, hp₁, hr₁, -⟩ :=
    ((refresh_known s (plain i)).past (hmid.run (handle b.store) after i)).issued pair hpair
  obtain ⟨hash₂, rt₂, hp₂, hf₂⟩ := hof
  have hr₂ := hlate.read hash₂ rt₂ hp₂ hf₂
  rw [hp₂.unique hp₁, hr₁] at hr₂
  cases hr₂

end

/-! ## A sweep overtaken by a save, and a sweep that fails -/

/-- Call 0 exchanges `rt-a`, call 1 presents `rt-a` again, call 2 presents the
token call 0 was given. -/
def samplePlain : Fin 3 → String
  | 0 => "rt-a"
  | 1 => "rt-a"
  | 2 => "rt-b"

def sampleCall (i : Fin 3) : Choice :=
  { accessToken := some "jwt", refreshToken := some (if i = 0 then "rt-b" else "rt-c") }

def turns (i : Fin 3) (n : Nat) : List (Fin 3 × Choice) := List.replicate n (i, sampleCall i)

/-- `rt-a` once exchanged, and the token call 0 draws. -/
def sampleSpent : RefreshToken := { sampleToken with usedAt := some 0 }

def sampleNext : RefreshToken :=
  { sampleToken with hash := sampleHash "rt-b", expiresAt := sampleService.refreshTTL }

/-- With the exchange finished before the replay, the new token is refused. -/
theorem family_revocation_final_sequential :
    ¬ Issued ((refreshing sampleService samplePlain (sampleStore .memory)).run
      (handle Backend.memory.store) ((turns 0 9 ++ turns 1 4) ++ turns 2 9)) 2 :=
  family_revocation_final sampleService samplePlain (sampleStore .memory)
    (turns 0 9 ++ turns 1 4) (turns 2 9) "f-1" (by decide) 1
    ⟨rfl, sampleHash "rt-a", sampleSpent, rfl, rfl⟩ 2 rfl
    ⟨sampleHash "rt-b", { sampleNext with revoked := true }, rfl, rfl⟩

/-- The replay's sweep runs just before the exchange saves its new token. -/
def overtaken : List (Fin 3 × Choice) := turns 0 8 ++ turns 1 4

/-- The exchange is over; the replay's sweep fails and its error is discarded. -/
def sweepFails : List (Fin 3 × Choice) :=
  turns 0 9 ++ [(1, sampleCall 1), (1, { sampleCall 1 with fault := some .notExecuted })] ++
    turns 1 2

/-- In both runs the replay has returned `ErrTokenReuse`, and call 2, started
afterwards with a token of the same family, returns a new pair. -/
theorem refresh_after_reported_reuse :
    (∃ p q : Calls .memory (Fin 3),
      p = (refreshing sampleService samplePlain (sampleStore .memory)).run
        (handle Backend.memory.store) overtaken ∧
      q = p.run (handle Backend.memory.store) (turns 0 1 ++ turns 2 9) ∧
      ReuseReported "f-1" p 1 ∧ (p.threads 2).done = [] ∧ OfFamily "f-1" q 2 ∧ Issued q 2) ∧
    ∃ p q : Calls .postgres (Fin 3),
      p = (refreshing sampleService samplePlain (sampleStore .postgres)).run
        (handle Backend.postgres.store) sweepFails ∧
      q = p.run (handle Backend.postgres.store) (turns 2 9) ∧
      ReuseReported "f-1" p 1 ∧ (p.threads 2).done = [] ∧ OfFamily "f-1" q 2 ∧ Issued q 2 :=
  ⟨⟨_, _, rfl, rfl, ⟨rfl, sampleHash "rt-a", sampleSpent, rfl, rfl⟩, rfl,
      ⟨sampleHash "rt-b", sampleNext, rfl, rfl⟩, ⟨⟨"jwt", "rt-c"⟩, rfl⟩⟩,
    ⟨_, _, rfl, rfl, ⟨rfl, sampleHash "rt-a", sampleSpent, rfl, rfl⟩, rfl,
      ⟨sampleHash "rt-b", sampleNext, rfl, rfl⟩, ⟨⟨"jwt", "rt-c"⟩, rfl⟩⟩⟩

end VaultWatch.Gateway
