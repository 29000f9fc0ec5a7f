import VaultWatch.Gateway.Accounts
import VaultWatch.Lib.Sequential

/-! Calls of the service that run alone: what they return and leave, and how far
the choices of each part lie from the start of the call. -/
namespace VaultWatch.Gateway

open VaultWatch.Gateway.Store VaultWatch.Lib.Interleave

/-- What a call returns and leaves, its `n`-th operation under the choice `c n`. -/
def Call.runAlone {σ : Type} (S : AuthStore σ) (s : LoginService) (call : Call)
    (c : ℕ → AuthChoice) (g : AuthShared σ) : Reply × AuthShared σ :=
  (call.prog s).execute (handleAuth S) c g

theorem execute_based {σ α : Type} (S : AuthStore σ) (p : RefreshProg α) (c : ℕ → AuthChoice)
    (g : AuthShared σ) :
    ((based p).execute (handleAuth S) c g).1 =
        (p.execute (handle S) (fun n => (c n).toChoice) g.toShared).1 ∧
      ((based p).execute (handleAuth S) c g).2.toShared =
        (p.execute (handle S) (fun n => (c n).toChoice) g.toShared).2 :=
  Prog.execute_translate (fun _ _ _ => ⟨rfl, rfl⟩) p c g

/-- A `Refresh` knows of the state only the store. -/
theorem Call.refresh_runAlone {σ : Type} (S : AuthStore σ) (s : LoginService) (plain : String)
    (c : ℕ → AuthChoice) (g : AuthShared σ) :
    ((Call.refresh plain).runAlone S s c g).1 = .refreshed
        ((s.refresh plain).execute (handle S) (fun n => (c n).toChoice) g.toShared).1 ∧
      ((Call.refresh plain).runAlone S s c g).2.toShared =
        ((s.refresh plain).execute (handle S) (fun n => (c n).toChoice) g.toShared).2 := by
  obtain ⟨result, shared⟩ := execute_based S (s.refresh plain) c g
  unfold Call.runAlone Call.prog
  rw [Prog.execute_map]
  exact ⟨congrArg Reply.refreshed result, shared⟩

section
variable {σ : Type} (S : AuthStore σ) (s : AuthService) (userID email familyID : String)
  (c : ℕ → Choice)

/-- The record of a drawn token. -/
def AuthService.record (plain : String) (now : Time) : RefreshToken :=
  { hash := s.hashRefreshToken plain, userID, familyID, expiresAt := now + s.refreshTTL }

/-- The access token is signed and the refresh token drawn. -/
def Draws (plain : String) : Prop :=
  (c 0).accessToken.isSome ∧ (c 1).refreshToken = some plain

theorem issueTokenPair_undrawn (undrawn : ∀ plain, ¬ Draws c plain) (g : Shared σ) :
    ∃ e, e ≠ .tokenReuse ∧
      (s.issueTokenPair userID email familyID).execute (handle S) c g = (.error e, g) := by
  cases signed : (c 0).accessToken with
  | none =>
    refine ⟨.accessToken, by simp, ?_⟩
    simp only [AuthService.issueTokenPair, Prog.execute_op, handle, signed]
    rfl
  | some access =>
    cases drawn : (c 1).refreshToken with
    | none =>
      refine ⟨.randomSource, by simp, ?_⟩
      simp only [AuthService.issueTokenPair, Prog.execute_op, handle, signed, drawn]
      rfl
    | some plain => exact (undrawn plain ⟨by rw [signed]; rfl, drawn⟩).elim

variable {c} in
theorem issueTokenPair_drawn {plain : String} (draws : Draws c plain) (g : Shared σ) :
    ∃ access, (s.issueTokenPair userID email familyID).execute (handle S) c g =
      let saved := writing (c 3).fault (S.save (s.record userID familyID plain (c 2).now)) g
      ((saved.1.mapError .store).map fun _ => ⟨access, plain⟩, saved.2) := by
  obtain ⟨signed, drawn⟩ := draws
  obtain ⟨access, signed⟩ := Option.isSome_iff_exists.mp signed
  refine ⟨access, ?_⟩
  simp only [AuthService.issueTokenPair, Prog.execute_op, handle, signed, drawn]
  unfold AuthService.record
  generalize writing (c 3).fault (S.save _) g = saved
  obtain ⟨_ | _, g'⟩ := saved
  · rfl
  · rfl

end

section
variable (s : LoginService) (req : LoginRequest) (user : User) (c : ℕ → AuthChoice)

/-- How many operations the comparison with the last login takes. -/
def comparisonSteps (now : Time) : Nat :=
  match user.lastLoginAt, user.lastLoginLat, user.lastLoginLon with
  | some last, some lat, some lon =>
    if (checkImpossibleTravel s.trig ⟨lat, lon, last⟩ ⟨req.lat, req.lon, now⟩).impossible then 3
    else 1
  | _, _, _ => 0

variable {s req user c} in
theorem checkTravel_execute {σ α : Type} (S : AuthStore σ) (f : Unit → AuthProg α)
    (g : AuthShared σ) :
    ∃ g', (s.checkTravel req user >>= f).execute (handleAuth S) c g =
        (f ()).execute (handleAuth S) (fun n => c (n + comparisonSteps s req user (c 0).now)) g' ∧
      g'.store = g.store := by
  unfold LoginService.checkTravel
  split
  · rename_i last lat lon hasAt hasLat hasLon
    rw [Prog.execute_op_bind]
    simp only [comparisonSteps, hasAt, hasLat, hasLon]
    show ∃ g', Prog.execute _ ((if (checkImpossibleTravel s.trig ⟨lat, lon, last⟩
      ⟨req.lat, req.lon, (c 0).now⟩).impossible = true then _ else _) >>= f) _ _ = _ ∧ _
    split
    · exact ⟨_, rfl, rfl⟩
    · exact ⟨_, rfl, rfl⟩
  · rename_i other
    have none : comparisonSteps s req user (c 0).now = 0 := by
      unfold comparisonSteps
      split
      · rename_i last lat lon hasAt hasLat hasLon
        exact (other last lat lon hasAt hasLat hasLon).elim
      · rfl
    rw [none]
    exact ⟨_, rfl, rfl⟩

variable {s req user c} in
/-- What precedes the update leaves the store alone. -/
theorem accept_execute {σ : Type} (S : AuthStore σ) (g : AuthShared σ) :
    ∃ g', (s.accept req user).execute (handleAuth S) c g = (s.enter req user).execute
        (handleAuth S) (fun n => c (n + comparisonSteps s req user (c 2).now + 2)) g' ∧
      g'.store = g.store := by
  unfold LoginService.accept
  rw [Prog.execute_op, Prog.execute_op]
  exact checkTravel_execute S (fun _ => s.enter req user)
    (handleAuth S (c 1) (.reset .account (accountKey req.email))
      (handleAuth S (c 0) (.reset .ip (ipKey req.ip)) g).2).2

theorem countFailure_execute {σ α : Type} (S : AuthStore σ) (counter : Counter) (key : String)
    (event : ℕ → SecurityEvent) (f : Unit → AuthProg α) (g : AuthShared σ) :
    ∃ n g', (LoginService.countFailure counter key event >>= f).execute (handleAuth S) c g =
        (f ()).execute (handleAuth S) (fun k => c (k + n)) g' ∧ g'.store = g.store := by
  have kept : (handleAuth S (c 0) (.recordFailure counter key) g).2.store = g.store := by
    cases counter <;> rfl
  unfold LoginService.countFailure
  rw [Prog.execute_op_bind]
  split
  · exact ⟨3, _, rfl, kept⟩
  · exact ⟨1, _, rfl, kept⟩

/-- A refused login leaves the store alone. -/
theorem refuse_execute {σ : Type} (S : AuthStore σ) (g : AuthShared σ) :
    ((LoginService.refuse req).execute (handleAuth S) c g).1 = .error .invalidCredentials ∧
      ((LoginService.refuse req).execute (handleAuth S) c g).2.store = g.store := by
  refine ⟨Prog.execute_then_pure _ _ c g, ?_⟩
  unfold LoginService.refuse LoginService.recordFailure
  rw [Prog.bind_assoc]
  obtain ⟨n, g₁, first, kept₁⟩ := countFailure_execute c S .ip (ipKey req.ip)
    (LoginService.bruteForceIP (ipKey req.ip)) (fun _ => LoginService.countFailure .account
      (accountKey req.email) (LoginService.bruteForceAccount req.email) >>= fun _ =>
        (Pure.pure (.error .invalidCredentials) : AuthProg (Except LoginError TokenPair))) g
  rw [first]
  obtain ⟨_, g₂, second, kept₂⟩ := countFailure_execute (fun k => c (k + n)) S .account
    (accountKey req.email) (LoginService.bruteForceAccount req.email) (fun _ =>
      (Pure.pure (.error .invalidCredentials) : AuthProg (Except LoginError TokenPair))) g₁
  rw [second]
  exact kept₂.trans kept₁

end

end VaultWatch.Gateway
