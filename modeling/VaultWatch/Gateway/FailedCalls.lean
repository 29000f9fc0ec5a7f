import VaultWatch.Gateway.CredentialStuffing
import VaultWatch.Gateway.SoloCalls

/-! # When a call that fails leaves the stores as they were

`Login` writes the place of the login before it issues tokens, and `Refresh` marks
the presented token used before it issues its successor. A failure after such a
write leaves it behind: the token of a refresh that failed counts as replayed when
it is presented again. -/
namespace VaultWatch.Gateway

open VaultWatch.Gateway.Store VaultWatch.Lib.Interleave

/-- An error other than `ErrInvalidCredentials` and `ErrTokenReuse`. -/
def Reply.Failed : Reply → Prop
  | .loggedIn (.error (.service e)) => e ≠ .tokenReuse
  | .refreshed (.error e) => e ≠ .tokenReuse
  | _ => False

theorem Reply.loggedIn_failed (r : Except LoginError TokenPair) :
    (Reply.loggedIn r).Failed ↔ ∃ e, e ≠ .tokenReuse ∧ r = .error (.service e) := by
  match r with
  | .ok _ => exact ⟨False.elim, fun ⟨_, _, same⟩ => by cases same⟩
  | .error .invalidCredentials => exact ⟨False.elim, fun ⟨_, _, same⟩ => by cases same⟩
  | .error (.service e) => exact ⟨fun other => ⟨e, other, rfl⟩, fun ⟨_, other, same⟩ => by
      cases same
      exact other⟩

theorem Reply.refreshed_failed (r : Except AuthError TokenPair) :
    (Reply.refreshed r).Failed ↔ ∃ e, e ≠ .tokenReuse ∧ r = .error e := by
  match r with
  | .ok _ => exact ⟨False.elim, fun ⟨_, _, same⟩ => by cases same⟩
  | .error e => exact ⟨fun other => ⟨e, other, rfl⟩, fun ⟨_, other, same⟩ => by
      cases same
      exact other⟩

/-- A call that fails leaves the users and the tokens as they were, and its token
counts as replayed in a second attempt only if it did before the first. -/
def FailsCleanly {σ : Type} (S : AuthStore σ) (s : LoginService) (call : Call)
    (c : ℕ → AuthChoice) (g : AuthShared σ) : Prop :=
  (call.runAlone S s c g).1.Failed →
    (call.runAlone S s c g).2.store = g.store ∧
    ∀ plain c', call = .refresh plain →
      (call.runAlone S s c' (call.runAlone S s c g).2).1 = .refreshed (.error .tokenReuse) →
        (call.runAlone S s c' g).1 = .refreshed (.error .tokenReuse)

/-! ## The end of both calls -/

section
variable (b : Backend) (s : AuthService) (userID email familyID : String) (c : ℕ → Choice)

/-- A pair is drawn and its token saved. -/
def Issues (st : b.State) : Prop :=
  ∃ plain, Draws c plain ∧ (c 3).fault = none ∧
    (b.store.save (s.record userID familyID plain (c 2).now) st).1 = .ok ()

/-- A pair is drawn, and a `Save` without acknowledgement makes `st'` of `st`. -/
def SavesSilently (st st' : b.State) : Prop :=
  ∃ plain, Draws c plain ∧ (c 3).fault = some .unacknowledged ∧
    (b.store.save (s.record userID familyID plain (c 2).now) st).2 = st'

/-- What a call that issues nothing leaves of `st`: the same, or what a `Save` without
acknowledgement makes of it. -/
def Leaves (st st' : b.State) : Prop :=
  (st' = st ∧ ∀ st'', ¬ SavesSilently b s userID familyID c st st'') ∨
    SavesSilently b s userID familyID c st st'

/-- What a `Save` of the token changes: the entry of its hash, or the rows by a new one
that refers to a user. -/
def Backend.Adds : (b : Backend) → RefreshToken → b.State → Prop
  | .memory, rt, st => st.tokens rt.hash ≠ some rt
  | .postgres, rt, st =>
    (∀ r ∈ st.refreshTokens, r.hash ≠ rt.hash) ∧ ∃ u ∈ st.users, u.id = rt.userID

/-- A pair is drawn, and the acknowledgement of a `Save` that adds its token is lost. -/
def AddsSilently (st : b.State) : Prop :=
  ∃ plain, Draws c plain ∧ (c 3).fault = some .unacknowledged ∧
    b.Adds (s.record userID familyID plain (c 2).now) st

theorem Backend.save_ne_iff {b : Backend} {rt : RefreshToken} {st : b.State} :
    (b.store.save rt st).2 ≠ st ↔ b.Adds rt st := by
  cases b with
  | memory =>
    refine not_congr ⟨fun same => ?_, fun stored => ?_⟩
    · have entry := congrFun (congrArg MemoryStore.tokens same) rt.hash
      exact entry.symm.trans (Function.update_self _ _ _)
    · show { st with tokens := Function.update st.tokens rt.hash (some rt) } = st
      rw [← stored, Function.update_eq_self]
  | postgres =>
    simp only [Backend.store, postgresStore, PostgresStore.save, Backend.Adds]
    split
    · rename_i taken
      simp only [List.any_eq_true, decide_eq_true_eq] at taken
      obtain ⟨r, mem, same⟩ := taken
      exact ⟨fun changed => absurd rfl changed, fun adds => absurd same (adds.1 r mem)⟩
    · split
      · rename_i unknown
        simp only [List.all_eq_true, decide_eq_true_eq] at unknown
        refine ⟨fun changed => absurd rfl changed, fun adds => ?_⟩
        obtain ⟨_, u, mem, same⟩ := adds
        exact absurd same (unknown u mem)
      · rename_i free known
        refine ⟨fun _ => ⟨by simpa using free, by simpa using known⟩, fun _ back => ?_⟩
        have rows := congrArg (fun st => st.refreshTokens.length) back
        simp at rows

variable {b s userID familyID c} in
theorem SavesSilently.adds {st st' : b.State}
    (silent : SavesSilently b s userID familyID c st st') :
    st' ≠ st ↔ AddsSilently b s userID familyID c st := by
  obtain ⟨plain, draws, unheard, rfl⟩ := silent
  rw [Backend.save_ne_iff]
  refine ⟨fun adds => ⟨plain, draws, unheard, adds⟩, fun ⟨plain', draws', _, adds⟩ => ?_⟩
  rwa [Option.some.inj (draws.2.symm.trans draws'.2)]

variable {b s userID familyID c} in
theorem SavesSilently.unique {st st₁ st₂ : b.State}
    (first : SavesSilently b s userID familyID c st st₁)
    (second : SavesSilently b s userID familyID c st st₂) : st₁ = st₂ := by
  obtain ⟨plain, ⟨_, drawn⟩, _, rfl⟩ := first
  obtain ⟨plain', ⟨_, drawn'⟩, _, rfl⟩ := second
  rw [drawn] at drawn'
  cases drawn'
  rfl

/-- A store leaves out a token it refuses. -/
theorem Backend.save_error {b : Backend} {rt : RefreshToken} {st : b.State} {e : StoreError}
    (refused : (b.store.save rt st).1 = .error e) : (b.store.save rt st).2 = st := by
  rcases b.tokenStore.save rt st with same | ⟨ok, _⟩
  · rw [same]
  · rw [ok] at refused
    cases refused

/-- Either the pair is issued, or the call fails. -/
theorem issueTokenPair_execute (g : Shared b.State) :
    let out := (s.issueTokenPair userID email familyID).execute (handle b.store) c g
    (Issues b s userID familyID c g.store ∧ ∃ pair, out.1 = .ok pair) ∨
    ∃ e, e ≠ .tokenReuse ∧ out.1 = .error e ∧ ¬ Issues b s userID familyID c g.store ∧
      Leaves b s userID familyID c g.store out.2.store := by
  by_cases drawn : ∃ plain, Draws c plain
  · obtain ⟨plain, draws⟩ := drawn
    obtain ⟨access, out⟩ := issueTokenPair_drawn b.store s userID email familyID draws g
    have same : ∀ {plain'}, Draws c plain' → plain' = plain := by
      intro plain' draws'
      exact Option.some.inj (draws'.2.symm.trans draws.2)
    rw [out]
    unfold writing
    split
    · rename_i executed
      cases saved : (b.store.save (s.record userID familyID plain (c 2).now) g.store).1 with
      | ok u =>
        left
        exact ⟨⟨plain, draws, executed, saved⟩, ⟨access, plain⟩, rfl⟩
      | error e =>
        right
        refine ⟨.store e, by simp, rfl, ?_, .inl ⟨Backend.save_error saved, ?_⟩⟩
        · rintro ⟨plain', draws', _, ok⟩
          rw [same draws', saved] at ok
          cases ok
        · rintro st' ⟨_, _, silent, _⟩
          rw [executed] at silent
          cases silent
    · rename_i skipped
      right
      refine ⟨.store .other, by simp, rfl, ?_, .inl ⟨rfl, ?_⟩⟩
      · rintro ⟨_, _, executed, _⟩
        rw [skipped] at executed
        cases executed
      · rintro st' ⟨_, _, silent, _⟩
        rw [skipped] at silent
        cases silent
    · rename_i silent
      right
      refine ⟨.store .other, by simp, rfl, ?_, .inr ⟨plain, draws, silent, rfl⟩⟩
      rintro ⟨_, _, executed, _⟩
      rw [silent] at executed
      cases executed
  · have undrawn : ∀ plain, ¬ Draws c plain := fun plain draws => drawn ⟨plain, draws⟩
    obtain ⟨e, other, out⟩ := issueTokenPair_undrawn b.store s userID email familyID c undrawn g
    right
    rw [out]
    refine ⟨e, other, rfl, ?_, .inl ⟨rfl, ?_⟩⟩
    · rintro ⟨plain, draws, _⟩
      exact undrawn plain draws
    · rintro st' ⟨plain, draws, _⟩
      exact undrawn plain draws

end

/-! ## Refresh -/

section
variable (b : Backend) (s : AuthService) (hash : String) (rt : RefreshToken) (c : ℕ → Choice)

/-- The store after `MarkUsed`. -/
abbrev marked (now : Time) (st : b.State) : b.State := (b.store.markUsed hash now st).2

/-- The exchange has marked the token and found its user. -/
def Acknowledged (st : b.State) (user : User) : Prop :=
  (c 1).fault = none ∧ (b.store.markUsed hash (c 0).now st).1 = .ok () ∧
    (c 2).fault = none ∧ b.store.getUserByID rt.userID (marked b hash (c 0).now st) = .ok user

/-- A map's `Save` whose acknowledgement is lost writes the presented token again. -/
def PutsBack (userID : String) : Prop :=
  b = .memory ∧ ∃ plain, Draws c plain ∧ (c 3).fault = some .unacknowledged ∧
    s.record userID rt.familyID plain (c 2).now = rt ∧ rt.hash = hash

/-- The exchange marks the token used and then does not finish. A `Save` that puts
back the presented token undoes the mark. -/
def RotateSpends (st : b.State) : Prop :=
  (c 1).fault ≠ some .notExecuted ∧ ∀ user, Acknowledged b hash rt c st user →
    ¬ Issues b s user.id rt.familyID (fun n => c (n + 3)) (marked b hash (c 0).now st) ∧
    ¬ PutsBack b s hash rt (fun n => c (n + 3)) user.id

/-- The call fails, not for a reused token, and the store is not as it was. -/
def Loses {α : Type} (st : b.State) (out : Except AuthError α × Shared b.State) : Prop :=
  (∃ e, e ≠ .tokenReuse ∧ out.1 = .error e) ∧ out.2.store ≠ st

variable {b hash rt} in
/-- Marking a fresh token changes the store. -/
theorem marked_ne {st : b.State} (stored : b.tokens st hash = some rt) (unused : rt.usedAt = none)
    (now : Time) : marked b hash now st ≠ st := by
  intro same
  have tokens := b.tokenStore.markUsed hash now st
  rw [marked] at same
  rw [same] at tokens
  have own := congrFun tokens hash
  rw [Function.update_self, stored] at own
  have mark := congrArg RefreshToken.usedAt (Option.some.inj own)
  rw [unused] at mark
  cases mark

variable {b hash rt s c} in
theorem putsBack_iff {st : b.State} (stored : b.tokens st hash = some rt)
    (unused : rt.usedAt = none) (now : Time) (userID : String) :
    SavesSilently b s userID rt.familyID c (marked b hash now st) st ↔
      PutsBack b s hash rt c userID := by
  cases b with
  | memory =>
    have marking : (marked .memory hash now st).tokens =
        Function.update st.tokens hash (some { rt with usedAt := some now }) := by
      refine (memoryStore_tokens.markUsed hash now st).trans ?_
      rw [show st.tokens hash = some rt from stored]
      rfl
    constructor
    · rintro ⟨plain, draws, unheard, back⟩
      have entry := congrFun (congrArg MemoryStore.tokens back) hash
      simp only [Backend.store, memoryStore, MemoryStore.save, marking] at entry
      rw [show st.tokens hash = some rt from stored] at entry
      by_cases own : hash = (s.record userID rt.familyID plain (c 2).now).hash
      · rw [own, Function.update_self] at entry
        have again := Option.some.inj entry
        exact ⟨rfl, plain, draws, unheard, again,
          (congrArg RefreshToken.hash again).symm.trans own.symm⟩
      · rw [Function.update_of_ne own, Function.update_self] at entry
        have mark := congrArg RefreshToken.usedAt (Option.some.inj entry)
        rw [unused] at mark
        cases mark
    · rintro ⟨_, plain, draws, unheard, again, rfl⟩
      refine ⟨plain, draws, unheard, ?_⟩
      rw [again]
      show { marked .memory rt.hash now st with
        tokens := Function.update (marked .memory rt.hash now st).tokens rt.hash (some rt) } = st
      rw [marking, Function.update_idem, ← show st.tokens rt.hash = some rt from stored,
        Function.update_eq_self]
      simp only [marked, Backend.store, memoryStore, MemoryStore.markUsed]
      split <;> rfl
  | postgres =>
    refine ⟨fun silent => ?_, fun again => by cases again.1⟩
    obtain ⟨plain, _, _, back⟩ := silent
    -- a refused token leaves the mark, and another one adds a row
    have rows : (marked .postgres hash now st).refreshTokens.length = st.refreshTokens.length :=
      List.length_map _
    have changed := marked_ne stored unused now
    simp only [Backend.store, postgresStore, PostgresStore.save] at back
    split at back
    · exact absurd back changed
    · split at back
      · exact absurd back changed
      · have more := congrArg (fun st => st.refreshTokens.length) back
        rw [List.length_append, rows] at more
        simp at more

variable {b hash rt c} in
theorem Acknowledged.unique {st : b.State} {user user' : User}
    (ack : Acknowledged b hash rt c st user) (ack' : Acknowledged b hash rt c st user') :
    user' = user :=
  Except.ok.inj (ack'.2.2.2.symm.trans ack.2.2.2)

variable {b s hash rt c} in
/-- An exchange that found its user and issued nothing. -/
theorem rotate_unissued_iff {st st' : b.State} {user : User}
    (ack : Acknowledged b hash rt c st user) (stored : b.tokens st hash = some rt)
    (unused : rt.usedAt = none)
    (unissued : ¬ Issues b s user.id rt.familyID (fun n => c (n + 3))
      (marked b hash (c 0).now st))
    (effect : Leaves b s user.id rt.familyID (fun n => c (n + 3)) (marked b hash (c 0).now st)
      st') : st' ≠ st ↔ RotateSpends b s hash rt c st := by
  have changed := marked_ne stored unused (c 0).now
  have undoes := putsBack_iff (s := s) (c := fun n => c (n + 3)) stored unused (c 0).now user.id
  constructor
  · intro lost
    refine ⟨by simp [ack.1], fun user' ack' => ?_⟩
    rw [ack.unique ack']
    refine ⟨unissued, fun back => ?_⟩
    have undone := undoes.mpr back
    rcases effect with ⟨_, never⟩ | silent
    · exact never _ undone
    · exact lost (silent.unique undone)
  · intro spends back
    rw [back] at effect
    rcases effect with ⟨still, _⟩ | silent
    · exact changed still.symm
    · exact (spends.2 user ack).2 (undoes.mp silent)

variable {b hash rt} in
theorem rotate_loses_iff {g : Shared b.State} (stored : b.tokens g.store hash = some rt)
    (unused : rt.usedAt = none) :
    Loses b g.store ((s.rotate hash rt).execute (handle b.store) c g) ↔
      RotateSpends b s hash rt c g.store := by
  have changed := marked_ne stored unused (c 0).now
  simp only [AuthService.rotate, Prog.execute_op, handle]
  cases executed : (c 1).fault with
  | some f =>
    have unacknowledged : ∀ user, ¬ Acknowledged b hash rt c g.store user := by
      intro user ack
      rw [Acknowledged, executed] at ack
      cases ack.1
    cases f with
    | notExecuted =>
      refine ⟨fun lost => absurd rfl lost.2, fun spends => absurd executed spends.1⟩
    | unacknowledged =>
      refine ⟨fun _ => ⟨by simp [executed], fun user ack => (unacknowledged user ack).elim⟩,
        fun _ => ⟨⟨.store .other, by simp, rfl⟩, changed⟩⟩
  | none =>
    have began : (c 1).fault ≠ some .notExecuted := by
      rw [executed]
      exact (Option.some_ne_none _).symm
    simp only [writing]
    cases took : (b.store.markUsed hash (c 0).now g.store).1 with
    | error e =>
      refine ⟨fun _ => ⟨began, fun user ack => ?_⟩, fun _ => ⟨⟨.store e, by simp, rfl⟩, changed⟩⟩
      rw [ack.2.1] at took
      cases took
    | ok u =>
      simp only [Prog.execute_op, handle]
      cases found : reading (c 2).fault (b.store.getUserByID rt.userID
        (b.store.markUsed hash (c 0).now g.store).2) with
      | error e =>
        refine ⟨fun _ => ⟨began, fun user ack => ?_⟩, fun _ => ⟨⟨.store e, by simp, rfl⟩, changed⟩⟩
        obtain ⟨_, _, unfaulted, known⟩ := ack
        rw [reading, if_pos unfaulted, known] at found
        cases found
      | ok user =>
        have ack : Acknowledged b hash rt c g.store user := by
          refine ⟨executed, took, ?_, reading_ok found⟩
          unfold reading at found
          split at found
          · assumption
          · cases found
        show Loses b g.store ((s.issueTokenPair user.id user.email rt.familyID).execute
          (handle b.store) (fun n => c (n + 3)) _) ↔ _
        obtain ⟨issues, pair, ok⟩ | ⟨e, other, failed, unissued, effect⟩ :=
          issueTokenPair_execute b s user.id user.email rt.familyID (fun n => c (n + 3))
            { g with store := marked b hash (c 0).now g.store }
        · constructor
          · intro lost
            obtain ⟨e, _, failed⟩ := lost.1
            cases ok.symm.trans failed
          · intro spends
            exact absurd issues (spends.2 user ack).1
        · rw [← rotate_unissued_iff ack stored unused unissued effect]
          exact ⟨And.right, fun lost => ⟨⟨e, other, failed⟩, lost⟩⟩

/-- A `Refresh` marks the presented token used and then does not finish. -/
def RefreshSpends (plain : String) (st : b.State) : Prop :=
  ∃ rt, (c 0).fault = none ∧ b.tokens st (s.hashRefreshToken plain) = some rt ∧
    rt.revoked = false ∧ rt.usedAt = none ∧ (c 1).now ≤ rt.expiresAt ∧
    RotateSpends b s (s.hashRefreshToken plain) rt (fun n => c (n + 2)) st

theorem refresh_loses_iff (plain : String) (g : Shared b.State) :
    Loses b g.store ((s.refresh plain).execute (handle b.store) c g) ↔
      RefreshSpends b s c plain g.store := by
  simp only [AuthService.refresh, Prog.execute_op, handle]
  cases found : reading (c 0).fault (b.store.get (s.hashRefreshToken plain) g.store) with
  | error e =>
    refine ⟨fun lost => absurd rfl lost.2, fun spends => ?_⟩
    obtain ⟨rt, executed, stored, _⟩ := spends
    rw [reading, if_pos executed, b.tokenStore.get, stored] at found
    cases found
  | ok rt =>
    have stored : b.tokens g.store (s.hashRefreshToken plain) = some rt := handle_get found
    have executed : (c 0).fault = none := by
      unfold reading at found
      split at found
      · assumption
      · cases found
    have spends_iff : RefreshSpends b s c plain g.store ↔ (rt.revoked = false ∧ rt.usedAt = none) ∧
        (c 1).now ≤ rt.expiresAt ∧
        RotateSpends b s (s.hashRefreshToken plain) rt (fun n => c (n + 2)) g.store := by
      constructor
      · rintro ⟨rt', _, stored', revoked, unused, inTime, spends⟩
        rw [stored] at stored'
        cases stored'
        exact ⟨⟨revoked, unused⟩, inTime, spends⟩
      · rintro ⟨⟨revoked, unused⟩, inTime, spends⟩
        exact ⟨rt, executed, stored, revoked, unused, inTime, spends⟩
    rw [spends_iff]
    dsimp only
    split
    · rename_i spent
      constructor
      · rintro ⟨⟨e, other, failed⟩, _⟩
        exact absurd (Except.error.inj (failed.symm.trans rfl)) other
      · rintro ⟨⟨revoked, unused⟩, _⟩
        rw [revoked, unused] at spent
        cases spent
    · rename_i live
      simp only [Prog.execute_op, handle, Nat.zero_add]
      by_cases expired : rt.expiresAt < (c 1).now
      · rw [if_pos expired]
        refine ⟨fun lost => absurd rfl lost.2, fun spends => ?_⟩
        exact absurd expired (not_lt.mpr spends.2.1)
      · rw [if_neg expired]
        obtain ⟨revoked, unused⟩ : rt.revoked = false ∧ rt.usedAt = none := by simpa using live
        refine (rotate_loses_iff s (fun n => c (n + 2)) stored unused).trans ?_
        exact ⟨fun spends => ⟨⟨revoked, unused⟩, not_lt.mp expired, spends⟩,
          fun spends => spends.2.2⟩

end

/-! ## Login -/

section
variable (b : Backend) (s : LoginService) (req : LoginRequest) (user : User) (c : ℕ → AuthChoice)

/-- The store after `UpdateLastLogin`. -/
abbrev moved (now : Time) (st : b.State) : b.State :=
  (b.store.updateLastLogin user.id req.lat req.lon now st).2

/-- The stored users of an id. -/
def Backend.Holds : (b : Backend) → b.State → String → User → Prop
  | .memory, st, id, u => st.deref (st.byID id) = some u
  | .postgres, st, id, u => u ∈ st.users ∧ u.id = id

/-- A stored user of the login has another last login than this one. -/
def Moves (now : Time) (st : b.State) : Prop :=
  ∃ u, b.Holds st user.id u ∧ (u.lastLoginLat, u.lastLoginLon, u.lastLoginAt) ≠
    (some req.lat, some req.lon, some (b.column now))

/-- The place of the login is recorded. -/
def Updated (st : b.State) : Prop :=
  (c 1).fault = none ∧
    (b.store.updateLastLogin user.id req.lat req.lon (c 0).now st).1 = .ok ()

/-- The login changes the user, or saves a token without acknowledgement, and then
does not finish. -/
def EnterSpends (st : b.State) : Prop :=
  ¬ (Updated b req user c st ∧ Issues b s.toAuthService user.id (c 2).uuid
      (fun n => (c (n + 3)).toChoice) (moved b req user (c 0).now st)) ∧
    (((c 1).fault ≠ some .notExecuted ∧ Moves b req user (c 0).now st) ∨
      Updated b req user c st ∧
        AddsSilently b s.toAuthService user.id (c 2).uuid (fun n => (c (n + 3)).toChoice) st)

/-- The call fails, not for its credentials, and the store is not as it was. -/
def LosesLogin {α : Type} (st : b.State) (out : Except LoginError α × AuthShared b.State) :
    Prop :=
  (∃ e, e ≠ .tokenReuse ∧ out.1 = .error (.service e)) ∧ out.2.store ≠ st

/-- A user with its last login written is the user exactly if the login was its last. -/
theorem lastLogin_eq_iff (u : User) (lat lon : ℚ) (at' : Time) :
    { u with lastLoginLat := some lat, lastLoginLon := some lon, lastLoginAt := some at' } = u ↔
      (u.lastLoginLat, u.lastLoginLon, u.lastLoginAt) = (some lat, some lon, some at') := by
  cases u
  simp [eq_comm]

theorem modify_eq_self_iff {α : Type} {l : List α} {f : α → α} {i : ℕ} :
    l.modify i f = l ↔ ∀ a, l[i]? = some a → f a = a := by
  constructor
  · intro same a stored
    have entry := congrArg (·[i]?) same
    simpa [stored] using entry
  · intro fixed
    refine List.ext_getElem? fun j => ?_
    rw [List.getElem?_modify]
    by_cases own : i = j
    · subst own
      cases stored : l[i]? with
      | none => rfl
      | some a => simp [fixed a stored]
    · simp [own]

variable {b req user} in
theorem moved_ne_iff {st : b.State} {now : Time} :
    moved b req user now st ≠ st ↔ Moves b req user now st := by
  have moves : Moves b req user now st ↔ ¬ ∀ u, b.Holds st user.id u →
      { u with lastLoginLat := some req.lat, lastLoginLon := some req.lon,
               lastLoginAt := some (b.column now) } = u := by
    simp only [lastLogin_eq_iff, Moves]
    exact ⟨fun ⟨u, held, other⟩ all => other (all u held), fun other => by
      simpa only [not_forall, exists_prop] using other⟩
  rw [moves]
  refine not_congr ?_
  cases b with
  | memory =>
    simp only [moved, Backend.store, memoryStore, MemoryStore.updateLastLogin, Backend.Holds,
      MemoryStore.deref, Backend.column, id]
    cases found : st.byID user.id with
    | none => simp
    | some a =>
      refine Iff.trans ?_ modify_eq_self_iff
      exact ⟨fun same => congrArg MemoryStore.objects same, fun same => by
        show { st with objects := _ } = st
        rw [same]⟩
  | postgres =>
    have rows : moved .postgres req user now st = st ↔ st.users.map (fun r =>
        if r.id = user.id then { r with lastLoginLat := some req.lat, lastLoginLon := some req.lon,
                                        lastLoginAt := some (timestamptz now) }
        else r) = st.users.map id := by
      rw [List.map_id]
      exact ⟨fun same => congrArg PostgresStore.users same, fun same => by
        show { st with users := _ } = st
        rw [same]⟩
    rw [rows, List.map_inj_left]
    refine forall_congr' fun u => ?_
    simp only [id, ite_eq_right_iff, Backend.Holds, Backend.column, and_imp]

variable {b req user} in
/-- No saved token makes up for a changed user. -/
theorem save_moved_ne {st : b.State} {now : Time} (changed : moved b req user now st ≠ st)
    (rt : RefreshToken) : (b.store.save rt (moved b req user now st)).2 ≠ st := by
  intro back
  refine changed ?_
  cases b with
  | memory =>
    have tokens : (moved .memory req user now st).tokens = st.tokens := by
      simp only [moved, Backend.store, memoryStore, MemoryStore.updateLastLogin]
      split <;> rfl
    -- a save changes neither the objects nor the maps to them
    have objects := congrArg MemoryStore.objects back
    have users := congrArg MemoryStore.users back
    have byID := congrArg MemoryStore.byID back
    simp only [Backend.store, memoryStore, MemoryStore.save] at objects users byID
    generalize moved .memory req user now st = m at tokens objects users byID
    cases m
    cases st
    simp_all
  | postgres =>
    have tokens : (moved .postgres req user now st).refreshTokens = st.refreshTokens := rfl
    have users : (moved .postgres req user now st).users = st.users := by
      have same := congrArg PostgresStore.users back
      refine Eq.trans ?_ same
      simp only [Backend.store, postgresStore, PostgresStore.save]
      split
      · rfl
      · split <;> rfl
    generalize moved .postgres req user now st = m at tokens users
    cases m
    cases st
    simp_all

section
variable {b s req user c} {st st' : b.State}

/-- Of a login that is not recorded, only the update can have changed the store. -/
theorem enterSpends_unrecorded (unrecorded : ¬ Updated b req user c st) :
    EnterSpends b s req user c st ↔
      (c 1).fault ≠ some .notExecuted ∧ Moves b req user (c 0).now st := by
  constructor
  · intro spends
    rcases spends.2 with changed | ⟨recorded, _⟩
    · exact changed
    · exact absurd recorded unrecorded
  · exact fun changed => ⟨fun done => unrecorded done.1, .inl changed⟩

/-- A login that is recorded and issues nothing. -/
theorem enter_unissued_iff (recorded : Updated b req user c st)
    (unissued : ¬ Issues b s.toAuthService user.id (c 2).uuid (fun n => (c (n + 3)).toChoice)
      (moved b req user (c 0).now st))
    (effect : Leaves b s.toAuthService user.id (c 2).uuid (fun n => (c (n + 3)).toChoice)
      (moved b req user (c 0).now st) st') : st' ≠ st ↔ EnterSpends b s req user c st := by
  constructor
  · intro lost
    refine ⟨fun done => unissued done.2, ?_⟩
    by_cases same : moved b req user (c 0).now st = st
    · right
      rcases effect with ⟨still, _⟩ | silent
      · exact absurd (still.trans same) lost
      · rw [same] at silent
        exact ⟨recorded, silent.adds.mp lost⟩
    · exact .inl ⟨by simp [recorded.1], moved_ne_iff.mp same⟩
  · intro spends
    by_cases same : moved b req user (c 0).now st = st
    · -- only the save can have changed the store
      rw [same] at effect
      rcases spends.2 with ⟨_, changed⟩ | ⟨_, adds⟩
      · exact absurd same (moved_ne_iff.mpr changed)
      · rcases effect with ⟨_, never⟩ | silent
        · obtain ⟨plain, draws, unheard, _⟩ := adds
          exact absurd ⟨plain, draws, unheard, rfl⟩ (never _)
        · exact silent.adds.mpr adds
    · rcases effect with ⟨still, _⟩ | ⟨plain, _, _, saved⟩
      · rw [still]
        exact same
      · rw [← saved]
        exact save_moved_ne same _

end

variable {b req user c} in
theorem enter_loses_iff (g : AuthShared b.State) :
    LosesLogin b g.store ((s.enter req user).execute (handleAuth b.store) c g) ↔
      EnterSpends b s req user c g.store := by
  have same : g.setShared g.toShared = g := rfl
  simp only [LoginService.enter, Prog.execute_op, handleAuth, handle, Nat.zero_add, same]
  cases executed : (c 1).fault with
  | some f =>
    have unrecorded : ¬ Updated b req user c g.store := by
      intro recorded
      rw [Updated, executed] at recorded
      cases recorded.1
    rw [enterSpends_unrecorded unrecorded, executed]
    cases f with
    | notExecuted => exact ⟨fun lost => absurd rfl lost.2, fun began => absurd rfl began.1⟩
    | unacknowledged =>
      exact ⟨fun lost => ⟨by simp, moved_ne_iff.mp lost.2⟩,
        fun began => ⟨⟨.store .other, by simp, rfl⟩, moved_ne_iff.mpr began.2⟩⟩
  | none =>
    simp only [writing]
    cases took : (b.store.updateLastLogin user.id req.lat req.lon (c 0).now g.store).1 with
    | error e =>
      have unrecorded : ¬ Updated b req user c g.store := by
        intro recorded
        rw [Updated, took] at recorded
        cases recorded.2
      rw [enterSpends_unrecorded unrecorded, executed]
      exact ⟨fun lost => ⟨by simp, moved_ne_iff.mp lost.2⟩,
        fun began => ⟨⟨.store e, by simp, rfl⟩, moved_ne_iff.mpr began.2⟩⟩
    | ok u =>
      have recorded : Updated b req user c g.store := ⟨executed, took⟩
      simp only [Prog.execute_op, handleAuth, Prog.execute_map]
      let after : AuthShared b.State := g.setShared { store := moved b req user (c 0).now g.store
                                                      published := g.published }
      show LosesLogin b g.store (Except.mapError LoginError.service
        ((based (s.issueTokenPair user.id user.email (c 2).uuid)).execute (handleAuth b.store)
          (fun n => c (n + 3)) after).1, ((based (s.issueTokenPair user.id user.email
            (c 2).uuid)).execute (handleAuth b.store) (fun n => c (n + 3)) after).2) ↔ _
      obtain ⟨result, shared⟩ := execute_based b.store
        (s.issueTokenPair user.id user.email (c 2).uuid) (fun n => c (n + 3)) after
      unfold LosesLogin
      dsimp only
      rw [result, congrArg Shared.store shared]
      obtain ⟨issues, pair, ok⟩ | ⟨e, other, failed, unissued, effect⟩ :=
        issueTokenPair_execute b s.toAuthService user.id user.email (c 2).uuid
          (fun n => (c (n + 3)).toChoice) after.toShared
      · rw [ok]
        constructor
        · intro lost
          obtain ⟨e, _, failed⟩ := lost.1
          cases failed
        · intro spends
          exact absurd ⟨recorded, issues⟩ spends.1
      · rw [failed, ← enter_unissued_iff recorded unissued effect]
        exact ⟨And.right, fun lost => ⟨⟨e, other, rfl⟩, lost⟩⟩

/-- A login finds its user, and then does not finish what it began to write. -/
def LoginSpends (st : b.State) : Prop :=
  ∃ user, (c 0).fault = none ∧ b.store.getUserByEmail req.email st = .ok user ∧
    s.verifyPassword user.passwordHash req.password = some true ∧
    EnterSpends b s req user (fun n => c (n + comparisonSteps s req user (c 3).now + 3)) st

theorem refuse_not_loses (g : AuthShared b.State) (st : b.State) :
    ¬ LosesLogin b st ((LoginService.refuse req).execute (handleAuth b.store) c g) := by
  rintro ⟨⟨e, _, failed⟩, _⟩
  rw [(refuse_execute req c b.store g).1] at failed
  cases failed

theorem login_loses_iff (g : AuthShared b.State) :
    LosesLogin b g.store ((s.login req).execute (handleAuth b.store) c g) ↔
      LoginSpends b s req c g.store := by
  simp only [LoginService.login, Prog.execute_op, handleAuth]
  cases found : reading (c 0).fault (b.store.getUserByEmail req.email g.store) with
  | error e =>
    refine ⟨fun lost => absurd lost (refuse_not_loses b req _ g g.store), fun spends => ?_⟩
    obtain ⟨user, executed, known, _⟩ := spends
    rw [reading, if_pos executed, known] at found
    cases found
  | ok user =>
    have known := reading_ok found
    have executed : (c 0).fault = none := by
      unfold reading at found
      split at found
      · assumption
      · cases found
    dsimp only
    split
    · rename_i verified
      obtain ⟨g', accepted, same⟩ := accept_execute b.store g
      rw [accepted, ← same, enter_loses_iff, same]
      constructor
      · intro spends
        exact ⟨user, executed, known, verified, spends⟩
      · rintro ⟨user', _, known', _, spends⟩
        rw [known] at known'
        cases known'
        exact spends
    · rename_i wrong
      refine ⟨fun lost => absurd lost (refuse_not_loses b req _ g g.store), fun spends => ?_⟩
      obtain ⟨user', _, known', verified, _⟩ := spends
      rw [known] at known'
      cases known'
      exact absurd verified wrong

end

/-! ## Both calls -/

/-- The call begins to write and does not finish. -/
def Call.Spends (b : Backend) (s : LoginService) (c : ℕ → AuthChoice) (st : b.State) :
    Call → Prop
  | .register _ _ => False
  | .login req => LoginSpends b s req c st
  | .refresh plain => RefreshSpends b s.toAuthService (fun n => (c n).toChoice) plain st

theorem handle_same_store {σ : Type} (S : AuthStore σ) (c : Choice) (o : Op) (g h : Shared σ)
    (same : g.store = h.store) :
    (handle S c o g).1 = (handle S c o h).1 ∧
      (handle S c o g).2.store = (handle S c o h).2.store := by
  have wrote : ∀ {α : Type} (method : σ → Except StoreError α × σ),
      (writing c.fault method g).1 = (writing c.fault method h).1 ∧
        (writing c.fault method g).2.store = (writing c.fault method h).2.store := by
    intro α method
    unfold writing
    split
    · simp only [same, and_self]
    · exact ⟨rfl, same⟩
    · simp only [same, and_self]
  cases o with
  | get hash => exact ⟨by simp only [handle, same], same⟩
  | getUserByID id => exact ⟨by simp only [handle, same], same⟩
  | markUsed hash now => exact wrote _
  | save rt => exact wrote _
  | revokeFamily familyID => exact wrote _
  | _ => exact ⟨rfl, same⟩

/-- A second attempt in an unchanged store is the first one again. -/
theorem Call.refresh_again {σ : Type} (S : AuthStore σ) (s : LoginService) (plain : String)
    (c : ℕ → AuthChoice) {g h : AuthShared σ} (same : g.store = h.store) :
    ((Call.refresh plain).runAlone S s c g).1 = ((Call.refresh plain).runAlone S s c h).1 := by
  rw [(Call.refresh_runAlone S s plain c g).1, (Call.refresh_runAlone S s plain c h).1]
  exact congrArg Reply.refreshed (Prog.execute_congr (handle_same_store S) _ _ same)

/-- **A call that fails leaves the stores intact** exactly if it does not stop after
it began to write: a `Refresh` after its `MarkUsed`, a `Login` after its
`UpdateLastLogin`, or either after a `Save` whose acknowledgement was lost. -/
theorem fails_cleanly_iff (b : Backend) (s : LoginService) (call : Call) (c : ℕ → AuthChoice)
    (g : AuthShared b.State) :
    FailsCleanly b.store s call c g ↔ ¬ call.Spends b s c g.store := by
  have clean_iff : FailsCleanly b.store s call c g ↔
      ¬ ((call.runAlone b.store s c g).1.Failed ∧
        (call.runAlone b.store s c g).2.store ≠ g.store) := by
    constructor
    · rintro clean ⟨failed, changed⟩
      exact changed (clean failed).1
    · intro intact failed
      have same : (call.runAlone b.store s c g).2.store = g.store := by
        by_contra changed
        exact intact ⟨failed, changed⟩
      refine ⟨same, fun plain c' refreshing reuse => ?_⟩
      subst refreshing
      rwa [Call.refresh_again b.store s plain c' same] at reuse
  rw [clean_iff]
  refine not_congr ?_
  cases call with
  | register email password =>
    refine ⟨fun ⟨failed, _⟩ => ?_, False.elim⟩
    unfold Call.runAlone Call.prog at failed
    rw [Prog.execute_map] at failed
    exact failed
  | login req =>
    refine Iff.trans ?_ (login_loses_iff b s req c g)
    unfold Call.runAlone Call.prog LosesLogin
    rw [Prog.execute_map]
    exact and_congr_left' (Reply.loggedIn_failed _)
  | refresh plain =>
    refine Iff.trans ?_ (refresh_loses_iff b s.toAuthService (fun n => (c n).toChoice) plain
      g.toShared)
    obtain ⟨result, shared⟩ := Call.refresh_runAlone b.store s plain c g
    unfold Loses
    rw [result, congrArg Shared.store shared]
    exact and_congr_left' (Reply.refreshed_failed _)

/-! ## A refresh whose save fails -/

def ownToken : RefreshToken :=
  { hash := "sha256:rt", userID := "u-own", familyID := "f-1", expiresAt := 100 }

/-- The account with a session. -/
def ownSession : AuthShared MemoryStore where
  store := { ownAccount.store with
    tokens := Function.update (fun _ => none) "sha256:rt" (some ownToken) }

/-- Everything succeeds but the save, which does not reach the store. -/
def saveFails : ℕ → AuthChoice := fun n =>
  { accessToken := some "jwt", refreshToken := some "rt-b"
    fault := if n = 8 then some .notExecuted else none }

/-- The refresh returns the store's error, its token is marked used, and a second
attempt counts as a replay and revokes the family. -/
theorem failed_refresh_spends_token :
    ∃ out : Reply × AuthShared MemoryStore,
      out = (Call.refresh "rt").runAlone memoryStore sampleLoginService saveFails ownSession ∧
      out.1 = .refreshed (.error (.store .other)) ∧
      out.2.store.tokens "sha256:rt" = some { ownToken with usedAt := some 0 } ∧
      ((Call.refresh "rt").runAlone memoryStore sampleLoginService (fun _ => {}) out.2).1 =
        .refreshed (.error .tokenReuse) ∧
      ((Call.refresh "rt").runAlone memoryStore sampleLoginService (fun _ => {})
        out.2).2.store.tokens "sha256:rt" =
          some { ownToken with usedAt := some 0, revoked := true } ∧
      ¬ FailsCleanly memoryStore sampleLoginService (.refresh "rt") saveFails ownSession := by
  refine ⟨_, rfl, rfl, rfl, rfl, rfl, fun clean => ?_⟩
  have failed : ((Call.refresh "rt").runAlone memoryStore sampleLoginService saveFails
      ownSession).1.Failed := nofun
  have kept := congrFun (congrArg MemoryStore.tokens (clean failed).1) "sha256:rt"
  cases kept

end VaultWatch.Gateway
