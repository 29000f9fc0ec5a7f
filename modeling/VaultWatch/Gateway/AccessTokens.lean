import VaultWatch.Gateway.CredentialStuffing
import VaultWatch.Gateway.Server
import VaultWatch.Lib.Obligations
import VaultWatch.Lib.Provenance

/-! # Who gets through to the engine

A request reaches the engine with an access token only. Access tokens are issued to users
whose password has verified, or against refresh tokens, which are themselves issued so. -/
namespace VaultWatch.Gateway

open VaultWatch.Gateway.Store VaultWatch.Lib.Run VaultWatch.Lib.Interleave

/-! ## Users by id -/

/-- An id in memory leads to a user of that id. -/
def OwnIDs : (b : Backend) → b.State → Prop
  | .memory, m => ∀ id a, m.byID id = some a → ∃ u, m.objects[a]? = some u ∧ u.id = id
  | .postgres, _ => True

theorem OwnIDs.found : ∀ {b : Backend} {st : b.State}, OwnIDs b st → ∀ {id : String} {u : User},
    b.store.getUserByID id st = .ok u → u.id = id
  | .memory, m, own, id, u, found => by
    obtain ⟨a, link, object⟩ := MemoryStore.getUserByID_ok.mp found
    obtain ⟨v, same, named⟩ := own id a link
    rw [object] at same
    cases same
    exact named
  | .postgres, st, _, id, u, found => by
    have row : orNotFound (st.users.find? fun r => r.id = id) = .ok u := found
    cases present : st.users.find? fun r => r.id = id with
    | none =>
      rw [present] at row
      cases row
    | some v =>
      rw [present] at row
      cases row
      simpa using List.find?_some present

theorem OwnIDs.of_accounts {m m' : MemoryStore} (own : OwnIDs .memory m)
    (same : m'.accounts = m.accounts) : OwnIDs .memory m' := by
  obtain ⟨objects, _, byID⟩ : m'.objects = m.objects ∧ m'.users = m.users ∧ m'.byID = m.byID := by
    simpa [MemoryStore.accounts] using same
  intro id a link
  rw [byID] at link
  rw [objects]
  exact own id a link

theorem OwnIDs.createUser {m : MemoryStore} (own : OwnIDs .memory m)
    (id email passwordHash : String) :
    OwnIDs .memory (m.createUser id email passwordHash).2 := by
  intro id' a link
  by_cases same : id' = id
  · subst same
    obtain rfl : m.objects.length = a := by simpa [MemoryStore.createUser] using link
    exact ⟨_, List.getElem?_concat_length, rfl⟩
  · have old : m.byID id' = some a := (Function.update_of_ne same ..).symm.trans link
    obtain ⟨u, object, named⟩ := own id' a old
    refine ⟨u, ?_, named⟩
    exact (List.getElem?_append_left (List.getElem?_eq_some_iff.mp object).1).trans object

theorem OwnIDs.updateLastLogin {m : MemoryStore} (own : OwnIDs .memory m) (id : String)
    (lat lon : ℚ) (now : Time) : OwnIDs .memory (m.updateLastLogin id lat lon now).2 := by
  cases link : m.byID id with
  | none =>
    have still : (m.updateLastLogin id lat lon now).2 = m := by
      simp only [MemoryStore.updateLastLogin, link]
    rwa [still]
  | some a =>
    intro id' b known
    rw [(MemoryStore.updateLastLogin_maps id lat lon now m).2] at known
    obtain ⟨u, object, named⟩ := own id' b known
    refine ⟨_, MemoryStore.updateLastLogin_object link object lat lon now, ?_⟩
    split <;> exact named

theorem OwnIDs.handleAuth : ∀ {b : Backend} {g : AuthShared b.State}, OwnIDs b g.store →
    ∀ (c : AuthChoice) (o : AuthOp), OwnIDs b (handleAuth b.store c o g).2.store
  | .postgres, _, _, _, _ => trivial
  | .memory, g, own, c, o => by
    cases o with
    | createUser email passwordHash =>
      rcases writing_cases c.fault (memoryStore.createUser c.uuid email passwordHash) g.toShared
        with same | wrote
      · exact own.of_accounts (congrArg (·.store.accounts) same)
      · exact (own.createUser c.uuid email passwordHash).of_accounts
          (congrArg MemoryStore.accounts wrote)
    | updateLastLogin id lat lon now =>
      rcases writing_cases c.fault (memoryStore.updateLastLogin id lat lon now) g.toShared
        with same | wrote
      · exact own.of_accounts (congrArg (·.store.accounts) same)
      · exact (own.updateLastLogin id lat lon now).of_accounts
          (congrArg MemoryStore.accounts wrote)
    | _ =>
      refine own.of_accounts (handleAuth_accounts ?_ c g)
      trivial

/-! ## Refresh tokens as credentials -/

/-- The user a saved refresh token is of. -/
def ServerOp.savesFor : ServerOp → Option String
  | .auth (.base (.save rt)) => some rt.userID
  | _ => none

/-- The user an access token is issued to. -/
def ServerOp.issuesTo : ServerOp → Option String
  | .auth (.base (.issueAccessToken userID _)) => some userID
  | _ => none

/-- The user of a refresh token that was read. -/
def readFor : Prog.Done ServerOp ServerRes → Option String
  | ⟨.auth (.base (.get _)), .ok rt⟩ => some rt.userID
  | _ => none

/-- A user read by id has it. -/
def HonestUser : Prog.Done ServerOp ServerRes → Prop
  | ⟨.auth (.base (.getUserByID id)), .ok u⟩ => u.id = id
  | _ => True

/-- Some stored token is the user's. -/
def Backend.HoldsFor (b : Backend) (st : b.State) (userID : String) : Prop :=
  ∃ hash rt, b.tokens st hash = some rt ∧ rt.userID = userID

section
variable {b : Backend}

/-- Accounts come and change without a token. -/
theorem Backend.createUser_tokens : ∀ {b : Backend} (st : b.State) (id email hash : String),
    b.tokens (b.store.createUser id email hash st).2 = b.tokens st
  | .memory, _, _, _, _ => rfl
  | .postgres, st, id, email, hash => by
    show PostgresStore.tokens (PostgresStore.createUser id email hash st).2 = _
    unfold PostgresStore.createUser
    dsimp only
    split <;> rfl

theorem Backend.updateLastLogin_tokens : ∀ {b : Backend} (st : b.State) (id : String)
    (lat lon : ℚ) (now : Time), b.tokens (b.store.updateLastLogin id lat lon now st).2 = b.tokens st
  | .memory, m, id, lat, lon, now => MemoryStore.updateLastLogin_tokens id lat lon now m
  | .postgres, _, _, _, _, _ => rfl

/-- A token of a store after some of its rows changed was one of the user's before. -/
theorem Backend.HoldsFor.of_map {st st' : b.State} {f : String → RefreshToken → RefreshToken}
    (owner : ∀ h rt, (f h rt).userID = rt.userID)
    (mapped : ∀ h, b.tokens st' h = (b.tokens st h).map (f h)) {userID : String}
    (holds : b.HoldsFor st' userID) : b.HoldsFor st userID := by
  obtain ⟨h, rt, stored, rfl⟩ := holds
  rw [mapped] at stored
  obtain ⟨old, was, rfl⟩ := Option.map_eq_some_iff.mp stored
  exact ⟨h, old, was, (owner h old).symm⟩

theorem Backend.HoldsFor.of_eq {st st' : b.State} (same : b.tokens st' = b.tokens st)
    {userID : String} (holds : b.HoldsFor st' userID) : b.HoldsFor st userID := by
  obtain ⟨h, rt, stored, owner⟩ := holds
  exact ⟨h, rt, same ▸ stored, owner⟩

/-- A write that happened or did not. -/
theorem Backend.HoldsFor.writing {α : Type} {f : Option Fault}
    {method : b.State → Except StoreError α × b.State} {g : Shared b.State} {userID : String}
    {P : Prop} (holds : b.HoldsFor (writing f method g).2.store userID)
    (wrote : b.HoldsFor (method g.store).2 userID → b.HoldsFor g.store userID ∨ P) :
    b.HoldsFor g.store userID ∨ P := by
  rcases writing_cases f method g with same | written
  · rw [same] at holds
    exact .inl holds
  · rw [written] at holds
    exact wrote holds

theorem handle_holdsFor {c : Choice} {o : Op} {g : Shared b.State} {userID : String}
    (holds : b.HoldsFor (handle b.store c o g).2.store userID) :
    b.HoldsFor g.store userID ∨ ∃ rt, o = .save rt ∧ rt.userID = userID := by
  cases o with
  | save rt =>
    refine holds.writing fun wrote => ?_
    rcases b.tokenStore.save rt g.store with refused | ⟨_, saved⟩
    · rw [refused] at wrote
      exact .inl wrote
    · obtain ⟨h, t, stored, rfl⟩ := wrote
      rw [saved] at stored
      by_cases same : h = rt.hash
      · rw [same, Function.update_self] at stored
        obtain rfl := Option.some.inj stored
        exact .inr ⟨rt, rfl, rfl⟩
      · rw [Function.update_of_ne same] at stored
        exact .inl ⟨h, t, stored, rfl⟩
  | markUsed hash now =>
    refine holds.writing fun wrote => .inl ?_
    refine wrote.of_map (f := fun h rt =>
      if h = hash then { rt with usedAt := some (b.column now) } else rt) ?_ fun h => ?_
    · intro h rt
      split <;> rfl
    · rw [b.tokenStore.markUsed]
      by_cases same : h = hash
      · rw [same, Function.update_self]
        simp only [if_true]
      · rw [Function.update_of_ne same]
        simp only [if_neg same, Option.map_id']
  | revokeFamily familyID =>
    refine holds.writing fun wrote => .inl ?_
    refine wrote.of_map (f := fun _ rt =>
      if rt.familyID = familyID then { rt with revoked := true } else rt) ?_ fun h => ?_
    · intro h rt
      split <;> rfl
    · rw [(b.tokenStore.revokeFamily familyID g.store).2]
  | _ => exact .inl holds

theorem handleAuth_holdsFor {c : AuthChoice} {o : AuthOp} {g : AuthShared b.State}
    {userID : String} (holds : b.HoldsFor (handleAuth b.store c o g).2.store userID) :
    b.HoldsFor g.store userID ∨ ∃ rt, o = .base (.save rt) ∧ rt.userID = userID := by
  cases o with
  | base o =>
    rcases handle_holdsFor (c := c.toChoice) (o := o) (g := g.toShared) holds with
      old | ⟨rt, rfl, owner⟩
    · exact .inl old
    · exact .inr ⟨rt, rfl, owner⟩
  | createUser email passwordHash =>
    have held : b.HoldsFor (writing c.fault (b.store.createUser c.uuid email passwordHash)
      g.toShared).2.store userID := holds
    exact held.writing fun wrote => .inl (wrote.of_eq (Backend.createUser_tokens ..))
  | updateLastLogin id lat lon now =>
    have held : b.HoldsFor (writing c.fault (b.store.updateLastLogin id lat lon now)
      g.toShared).2.store userID := holds
    exact held.writing fun wrote => .inl (wrote.of_eq (Backend.updateLastLogin_tokens ..))
  | recordFailure counter key => cases counter <;> exact .inl holds
  | reset counter key => cases counter <;> exact .inl holds
  | _ => exact .inl holds

theorem handleServer_honest {server : Server} {c : ServerChoice} {g : ServerShared b.State}
    (own : OwnIDs b g.store) (o : ServerOp) :
    HonestUser ⟨o, (handleServer b.store server c o g).1⟩ := by
  cases o with
  | auth o =>
    cases o with
    | base o =>
      cases o with
      | getUserByID id =>
        show HonestUser ⟨.auth (.base (.getUserByID id)),
          reading c.fault (b.store.getUserByID id g.store)⟩
        cases read : reading c.fault (b.store.getUserByID id g.store) with
        | error e => trivial
        | ok u => exact own.found (reading_ok read)
      | _ => trivial
    | _ => trivial
  | _ => trivial

theorem handleServer_readFor {server : Server} {c : ServerChoice} {o : ServerOp}
    {g : ServerShared b.State} {userID : String}
    (shown : readFor ⟨o, (handleServer b.store server c o g).1⟩ = some userID) :
    b.HoldsFor g.store userID := by
  cases o with
  | auth o =>
    cases o with
    | base o =>
      cases o with
      | get hash =>
        have told : readFor ⟨.auth (.base (.get hash)),
          reading c.fault (b.store.get hash g.store)⟩ = some userID := shown
        cases read : reading c.fault (b.store.get hash g.store) with
        | error e =>
          rw [read] at told
          cases told
        | ok rt =>
          rw [read] at told
          have found := reading_ok read
          rw [b.tokenStore.get] at found
          refine ⟨hash, rt, ?_, Option.some.inj told⟩
          cases stored : b.tokens g.store hash with
          | none =>
            rw [stored] at found
            cases found
          | some t =>
            rw [stored] at found
            exact congrArg some (Except.ok.inj found)
      | _ => cases shown
    | _ => cases shown
  | _ => cases shown

/-- The refresh tokens of the store, as credentials of their users. -/
def refreshCredentials (b : Backend) (server : Server) :
    Credentials (handleServer b.store server) String where
  holds g userID := b.HoldsFor g.store userID
  deposits o userID := o.savesFor = some userID
  shows d userID := readFor d = some userID
  sound g := OwnIDs b g.store
  honest := HonestUser
  keeps c o g own := by
    cases o with
    | auth o => exact own.handleAuth _ o
    | _ => exact own
  answers _ o _ own := handleServer_honest own o
  held c o g userID holds := by
    cases o with
    | auth o =>
      rcases handleAuth_holdsFor (o := o) holds with old | ⟨rt, rfl, owner⟩
      · exact .inl old
      · exact .inr (congrArg some owner)
    | _ => exact .inl holds
  shown _ _ _ _ shown := handleServer_readFor shown

/-! ## What a request relies on -/

/-- The password of a login verifies against the user it has read. -/
def Server.Proves (server : Server) : Routed → Prog.Done ServerOp ServerRes → String → Prop
  | .login r, ⟨.auth (.getUserByEmail email), .ok user⟩, userID =>
    ∃ body, server.decodeLogin r.body = some body ∧ body.email = email ∧
      server.authSvc.verifyPassword user.passwordHash body.password = some true ∧
      user.id = userID
  | _, _, _ => False

abbrev ServerHistory := List (Prog.Done ServerOp ServerRes)

variable {server : Server} {request : Routed} {h : ServerHistory} {α β : Type}

/-- The history accounts for the user. -/
abbrev Server.SeenUser (b : Backend) (server : Server) (request : Routed) (h : ServerHistory)
    (userID : String) : Prop :=
  (refreshCredentials b server).Seen (server.Proves request) h userID

/-- The operation is of a user that the history accounts for. -/
abbrev Server.Careful (b : Backend) (server : Server) (request : Routed) :
    ServerHistory → ServerOp → Prop :=
  (refreshCredentials b server).Careful (server.Proves request)
    fun o userID => o.issuesTo = some userID

/-- The access token was issued in the history. -/
def IssuedIn (h : ServerHistory) (access : String) : Prop :=
  ∃ userID email,
    (⟨.auth (.base (.issueAccessToken userID email)), some access⟩ :
      Prog.Done ServerOp ServerRes) ∈ h

/-- A token pair is answered with an access token that was issued in the history. -/
def PairIssued {ε : Type} (h : ServerHistory) (r : Except ε TokenPair) : Prop :=
  ∀ pair, r = .ok pair → IssuedIn h pair.accessToken

theorem PairIssued.error {ε : Type} (e : ε) : PairIssued h (.error e : Except ε TokenPair) :=
  fun _ same => by cases same

/-- The program is careful, and `Q` holds where it ends. -/
abbrev Server.Relies (b : Backend) (server : Server) (request : Routed) (h : ServerHistory)
    (p : AuthProg α) (Q : ServerHistory → α → Prop) : Prop :=
  (serving p).Meets (server.Careful b request) Q h

theorem Server.SeenUser.snoc {userID : String} (seen : server.SeenUser b request h userID)
    (d : Prog.Done ServerOp ServerRes) : server.SeenUser b request (h ++ [d]) userID := by
  obtain ⟨d', mem, evidence⟩ := seen
  exact ⟨d', List.mem_append_left _ mem, evidence⟩

/-- An operation that neither saves nor issues a token. -/
theorem Server.Careful.idle {o : ServerOp} (saves : o.savesFor = none)
    (issues : o.issuesTo = none) : server.Careful b request h o := by
  intro _ userID relied
  rcases relied with saved | issued
  · have : o.savesFor = some userID := saved
    rw [saves] at this
    cases this
  · rw [issues] at issued
    cases issued

namespace Server.Relies

theorem pure {Q : ServerHistory → α → Prop} (a : α) (holds : Q h a) :
    server.Relies b request h (Pure.pure a) Q := holds

theorem idle {Q : ServerHistory → α → Prop} {o : AuthOp} {f : AuthRes o → AuthProg α}
    (quiet : (ServerOp.auth o).savesFor = none ∧ (ServerOp.auth o).issuesTo = none)
    (rest : ∀ r, server.Relies b request (h ++ [⟨.auth o, r⟩]) (f r) Q) :
    server.Relies b request h (perform o >>= f) Q :=
  ⟨.idle quiet.1 quiet.2, rest⟩

theorem bind {R : ServerHistory → α → Prop} {Q : ServerHistory → β → Prop} {p : AuthProg α}
    {f : α → AuthProg β} (first : server.Relies b request h p R)
    (rest : ∀ h' a, R h' a → server.Relies b request h' (f a) Q) :
    server.Relies b request h (p >>= f) Q := by
  unfold Server.Relies serving
  rw [Prog.translate_bind]
  exact Prog.Meets.bind first rest

theorem map {Q : ServerHistory → β → Prop} {p : AuthProg α} {f : α → β}
    (own : server.Relies b request h p fun h' a => Q h' (f a)) :
    server.Relies b request h (p.map f) Q := by
  unfold Server.Relies serving
  rw [Prog.translate_map]
  exact Prog.Meets.map own

end Server.Relies

/-- A token pair of a user the history accounts for. -/
theorem issueTokenPair_relies (s : AuthService) {userID : String} (email familyID : String)
    (seen : (∀ d ∈ h, HonestUser d) → server.SeenUser b request h userID) :
    server.Relies b request h (based (s.issueTokenPair userID email familyID)) PairIssued := by
  have owned : ∀ {h' : ServerHistory} {o : ServerOp},
      ((∀ d ∈ h', HonestUser d) → server.SeenUser b request h' userID) →
      (∀ userID', o.savesFor = some userID' ∨ o.issuesTo = some userID' → userID' = userID) →
      server.Careful b request h' o := by
    intro h' o seen own honest userID' relied
    obtain rfl := own userID' relied
    exact seen honest
  have later : ∀ {h' : ServerHistory} (d : Prog.Done ServerOp ServerRes),
      ((∀ d ∈ h', HonestUser d) → server.SeenUser b request h' userID) →
      (∀ d' ∈ h' ++ [d], HonestUser d') → server.SeenUser b request (h' ++ [d]) userID :=
    fun d seen honest => (seen fun d' mem => honest d' (List.mem_append_left _ mem)).snoc d
  refine ⟨owned seen fun userID' relied => ?_, fun access => ?_⟩
  · rcases relied with saved | issued
    · cases saved
    · exact (Option.some.inj issued).symm
  have seen := later ⟨.auth (.base (.issueAccessToken userID email)), access⟩ seen
  cases access with
  | none => exact .error _
  | some access =>
    refine ⟨.idle rfl rfl, fun plain => ?_⟩
    have seen := later ⟨.auth (.base .generateRefreshToken), plain⟩ seen
    cases plain with
    | none => exact .error _
    | some plain =>
      refine ⟨.idle rfl rfl, fun now => ?_⟩
      have seen := later ⟨.auth (.base .now), now⟩ seen
      refine ⟨owned seen fun userID' relied => ?_, fun saved => ?_⟩
      · rcases relied with saved | issued
        · exact (Option.some.inj saved).symm
        · cases issued
      · cases saved with
        | error e => exact .error _
        | ok u =>
          intro pair same
          obtain rfl := Except.ok.inj same
          exact ⟨userID, email, by simp⟩

/-- A refresh relies on the token it has read. -/
theorem refresh_relies (s : AuthService) (plainToken : String) :
    server.Relies b request [] (based (s.refresh plainToken)) PairIssued := by
  refine .idle ⟨rfl, rfl⟩ fun got => ?_
  cases got with
  | error e => exact .pure _ (.error _)
  | ok rt =>
    show server.Relies b request _ (based (if rt.revoked || rt.usedAt.isSome then _ else _)) _
    split
    · exact .idle ⟨rfl, rfl⟩ fun _ => .idle ⟨rfl, rfl⟩ fun _ => .idle ⟨rfl, rfl⟩ fun _ =>
        .pure _ (.error _)
    · refine .idle ⟨rfl, rfl⟩ fun now => ?_
      show server.Relies b request _ (based (if rt.expiresAt < now then _ else _)) _
      split
      · exact .pure _ (.error _)
      · refine .idle ⟨rfl, rfl⟩ fun now => .idle ⟨rfl, rfl⟩ fun marked => ?_
        cases marked with
        | error e => exact .pure _ (.error _)
        | ok u =>
          refine .idle ⟨rfl, rfl⟩ fun owner => ?_
          cases owner with
          | error e => exact .pure _ (.error _)
          | ok user =>
            refine issueTokenPair_relies s user.email rt.familyID fun honest => ?_
            have own : user.id = rt.userID := honest
              ⟨.auth (.base (.getUserByID rt.userID)), .ok user⟩ (by simp)
            exact ⟨⟨.auth (.base (.get (s.hashRefreshToken plainToken))), .ok rt⟩, by simp,
              .inr (congrArg some own.symm)⟩

/-- A login relies on the password that verified. -/
theorem enter_relies (s : LoginService) (req : LoginRequest) (user : User)
    (seen : server.SeenUser b request h user.id) :
    server.Relies b request h (s.enter req user) PairIssued := by
  refine .idle ⟨rfl, rfl⟩ fun now => .idle ⟨rfl, rfl⟩ fun updated => ?_
  cases updated with
  | error e => exact .pure _ (.error _)
  | ok u =>
    refine .idle ⟨rfl, rfl⟩ fun familyID => .map ?_
    refine Prog.Meets.mono (issueTokenPair_relies _ user.email familyID fun _ =>
      ((seen.snoc _).snoc _).snoc _) fun h' r issued pair same => ?_
    cases r with
    | error e => cases same
    | ok own => exact issued pair (congrArg Except.ok (Except.ok.inj same))

theorem checkTravel_relies (s : LoginService) (req : LoginRequest) (user : User)
    (seen : server.SeenUser b request h user.id) :
    server.Relies b request h (s.checkTravel req user)
      fun h' _ => server.SeenUser b request h' user.id := by
  unfold LoginService.checkTravel
  split
  · refine .idle ⟨rfl, rfl⟩ fun now => ?_
    dsimp only
    split
    · exact .idle ⟨rfl, rfl⟩ fun _ => .idle ⟨rfl, rfl⟩ fun _ =>
        .pure _ (((seen.snoc _).snoc _).snoc _)
    · exact .pure _ (seen.snoc _)
  · exact .pure _ seen

theorem countFailure_relies (counter : Counter) (key : String) (event : Nat → SecurityEvent) :
    server.Relies b request h (LoginService.countFailure counter key event) fun _ _ => True := by
  refine .idle ⟨rfl, rfl⟩ fun counted => ?_
  split
  · exact .idle ⟨rfl, rfl⟩ fun _ => .idle ⟨rfl, rfl⟩ fun _ => .pure _ trivial
  · exact .pure _ trivial

theorem refuse_relies (req : LoginRequest) :
    server.Relies b request h (LoginService.refuse req) PairIssued := by
  refine .bind (R := fun _ _ => True) ?_ fun _ _ _ => .pure _ (.error _)
  refine .bind (R := fun _ _ => True) (countFailure_relies ..) fun _ _ _ => ?_
  exact countFailure_relies ..

theorem login_relies {r : HttpRequest} {body : LoginBody}
    (decoded : server.decodeLogin r.body = some body) :
    server.Relies b (.login r) h (server.authSvc.login (Server.loginRequest r body))
      PairIssued := by
  refine .idle ⟨rfl, rfl⟩ fun found => ?_
  cases found with
  | error e => exact refuse_relies _
  | ok user =>
    show server.Relies b _ _ (if _ then _ else _) _
    split
    · rename_i verified
      have seen : server.SeenUser b (.login r)
          (h ++ [⟨.auth (.getUserByEmail body.email), .ok user⟩]) user.id :=
        ⟨_, List.mem_append_right _ (.head _), .inl ⟨body, decoded, rfl, verified, rfl⟩⟩
      refine .idle ⟨rfl, rfl⟩ fun _ => .idle ⟨rfl, rfl⟩ fun _ => ?_
      have later := (seen.snoc ⟨.auth (.reset .ip (ipKey (clientIP r))), ()⟩).snoc
        ⟨.auth (.reset .account (accountKey body.email)), ()⟩
      exact .bind (checkTravel_relies _ _ user later) fun _ _ seen => enter_relies _ _ user seen
    · exact refuse_relies _

theorem register_relies (email password : String) :
    server.Relies b request h (LoginService.register email password) fun _ _ => True := by
  refine .idle ⟨rfl, rfl⟩ fun found => ?_
  cases found with
  | ok user => exact .pure _ trivial
  | error e =>
    refine .idle ⟨rfl, rfl⟩ fun hashed => ?_
    cases hashed with
    | none => exact .pure _ trivial
    | some hash =>
      refine .idle ⟨rfl, rfl⟩ fun created => ?_
      cases created <;> exact .pure _ trivial

/-- The requests that a token pair answers. -/
def Routed.Enters : Routed → Prop
  | .login _ | .refresh _ => True
  | _ => False

theorem writeError_ne_writePair {status : Nat} (failed : status ≠ 200) (message : String)
    (pair : TokenPair) : writeError status message ≠ writePair pair :=
  fun same => failed (congrArg Response.status same)

theorem writePair_injective {pair pair' : TokenPair} (same : writePair pair = writePair pair') :
    pair = pair' := by
  obtain ⟨access, refresh⟩ := pair
  obtain ⟨access', refresh'⟩ := pair'
  simpa [writePair] using same

/-- What answers a request that enters was issued for it. -/
def ResponseIssued (request : Routed) (h : ServerHistory) (response : Response) : Prop :=
  request.Enters → ∀ pair, response = writePair pair → IssuedIn h pair.accessToken

theorem ResponseIssued.refused {status : Nat} (failed : status ≠ 200) (message : String) :
    ResponseIssued request h (writeError status message) :=
  fun _ pair same => absurd same (writeError_ne_writePair failed message pair)

theorem ResponseIssued.of_other (other : ¬ request.Enters) (response : Response) :
    ResponseIssued request h response :=
  fun enters => absurd enters other

theorem ResponseIssued.writePairOr {ε : Type} {r : Except ε TokenPair} {f : ε → Response}
    (issued : PairIssued h r) (refused : ∀ e pair, f e ≠ writePair pair) :
    ResponseIssued request h (writePairOr f r) := by
  intro _ pair same
  cases r with
  | error e => exact absurd same (refused e pair)
  | ok own =>
    obtain rfl := writePair_injective same
    exact issued own rfl

namespace Server

variable (b server)

theorem register_careful (r : HttpRequest) : (server.register r).Meets
    (server.Careful b (.register r)) (ResponseIssued (.register r)) [] := by
  have other : ¬ (Routed.register r).Enters := id
  unfold Server.register
  cases server.decodeRegister r.body with
  | none => exact .of_other other _
  | some body =>
    dsimp only
    split
    · exact .of_other other _
    · refine Prog.Meets.map (Prog.Meets.mono (register_relies body.email body.password) ?_)
      exact fun _ _ _ => .of_other other _

theorem login_careful (r : HttpRequest) : (server.login r).Meets
    (server.Careful b (.login r)) (ResponseIssued (.login r)) [] := by
  refine ⟨.idle rfl rfl, fun allowed => ?_⟩
  cases allowed with
  | false => exact .refused (by decide) _
  | true =>
    simp only [Prog.bind, Bool.not_true, Bool.false_eq_true, if_false]
    cases decoded : server.decodeLogin r.body with
    | none => exact .refused (by decide) _
    | some body =>
      refine Prog.Meets.map (Prog.Meets.mono (login_relies decoded) fun _ _ issued => ?_)
      exact .writePairOr issued fun _ => writeError_ne_writePair (by decide) _

theorem refresh_careful (r : HttpRequest) : (server.refresh r).Meets
    (server.Careful b (.refresh r)) (ResponseIssued (.refresh r)) [] := by
  unfold Server.refresh
  cases server.decodeRefresh r.body with
  | none => exact .refused (by decide) _
  | some plainToken =>
    refine Prog.Meets.map (Prog.Meets.mono (refresh_relies _ plainToken) fun _ _ issued => ?_)
    exact .writePairOr issued fun _ => writeError_ne_writePair (by decide) _

theorem score_careful (r : HttpRequest) : (Server.score r).Meets
    (server.Careful b (.score r)) (ResponseIssued (.score r)) [] := by
  have other : ¬ (Routed.score r).Enters := id
  unfold Server.score
  cases bearerToken (r.headerGet "Authorization") with
  | none => exact .of_other other _
  | some tokenString =>
    refine ⟨.idle rfl rfl, fun parsed => ?_⟩
    cases parsed with
    | none => exact .of_other other _
    | some claims => exact ⟨.idle rfl rfl, fun _ => ResponseIssued.of_other other _⟩

end Server

/-- Whoever a request saves or issues a token for, it has evidence for. -/
theorem handler_careful (b : Backend) (server : Server) : ∀ request : Routed,
    (server.handler request).Meets (server.Careful b request) (ResponseIssued request) []
  | .healthz => .of_other id _
  | .register r => server.register_careful b r
  | .login r => server.login_careful b r
  | .refresh r => server.refresh_careful b r
  | .score r => server.score_careful b r

/-! ## Requests to the engine -/

/-- The history is the parse of the request's bearer token, and it succeeded. -/
def Authorized (r : HttpRequest) (h : ServerHistory) : Prop :=
  ∃ tokenString claims, bearerToken (r.headerGet "Authorization") = some tokenString ∧
    h = [⟨.parseAccessToken tokenString, some claims⟩]

/-- What `requireAuth` answers a request with a bearer token, by what the parse found. -/
def GateAnswered (r : HttpRequest) (h : ServerHistory) (response : Response) : Prop :=
  ∀ tokenString, bearerToken (r.headerGet "Authorization") = some tokenString →
    h = [⟨.parseAccessToken tokenString, none⟩] ∧
        response = writeError 401 "invalid or expired token" ∨
      ∃ claims, h = [⟨.parseAccessToken tokenString, some claims⟩, ⟨.serveEngine r, response⟩]

theorem score_forwards (r : HttpRequest) :
    (Server.score r).Meets (fun h o => ∀ r', o = .serveEngine r' → r' = r ∧ Authorized r h)
      (GateAnswered r) [] := by
  unfold Server.score
  cases bearer : bearerToken (r.headerGet "Authorization") with
  | none =>
    intro tokenString same
    rw [bearer] at same
    cases same
  | some tokenString =>
    have own : ∀ tokenString', bearerToken (r.headerGet "Authorization") = some tokenString' →
        tokenString' = tokenString := fun tokenString' same =>
      Option.some.inj (same.symm.trans bearer)
    refine ⟨fun _ same => (by cases same), fun parsed => ?_⟩
    cases parsed with
    | none =>
      intro tokenString' same
      obtain rfl := own tokenString' same
      exact .inl ⟨rfl, rfl⟩
    | some claims =>
      refine ⟨fun r' same => ?_, fun response tokenString' same => ?_⟩
      · cases same
        exact ⟨rfl, tokenString, claims, bearer, rfl⟩
      · obtain rfl := own tokenString' same
        exact .inr ⟨claims, rfl⟩

/-- Only an authorized request is served by the engine. -/
theorem handler_forwards (server : Server) (request : Routed) :
    (server.handler request).Meets
      (fun h o => ∀ r, o = .serveEngine r → request = .score r ∧ Authorized r h)
      (fun _ _ => True) [] := by
  have service : ∀ {h : ServerHistory} {α : Type} (p : AuthProg α), (serving p).Meets
      (fun h o => ∀ r, o = .serveEngine r → request = .score r ∧ Authorized r h)
      (fun _ _ => True) h := fun p =>
    (Prog.Meets.translate (fun _ _ _ same => by cases same) p).mono fun _ _ _ => trivial
  cases request with
  | healthz => trivial
  | register r =>
    show (server.register r).Meets _ _ _
    unfold Server.register
    cases server.decodeRegister r.body with
    | none => trivial
    | some body =>
      dsimp only
      split
      · trivial
      · exact Prog.Meets.map (service _)
  | login r =>
    refine ⟨fun _ same => (by cases same), fun allowed => ?_⟩
    cases allowed with
    | false => trivial
    | true =>
      simp only [Prog.bind, Bool.not_true, Bool.false_eq_true, if_false]
      cases server.decodeLogin r.body with
      | none => trivial
      | some body => exact Prog.Meets.map (service _)
  | refresh r =>
    show (server.refresh r).Meets _ _ _
    unfold Server.refresh
    cases server.decodeRefresh r.body with
    | none => trivial
    | some plainToken => exact Prog.Meets.map (service _)
  | score r =>
    refine Prog.Meets.imp (score_forwards r) (fun h o served r' same => ?_) fun _ _ _ => trivial
    obtain ⟨rfl, authorized⟩ := served r' same
    exact ⟨rfl, authorized⟩

end

/-! ## Runs -/

section
variable {ι : Type} [DecidableEq ι] {b : Backend} {server : Server} {request : ι → Routed}
  {g : ServerShared b.State} {schedule : List (ι × ServerChoice)}

/-- Claims that verify when a request presents them were signed for some user before. -/
def Unforged (server : Server) (es : List (Entry ι ServerChoice ServerOp ServerRes)) : Prop :=
  ∀ before e after tokenString claims, es = before ++ e :: after →
    e.done.1 = .parseAccessToken tokenString →
    server.tokens.signedClaims server.jwt tokenString = some claims →
    ∃ issue ∈ before, ∃ userID email,
      issue.done.1 = .auth (.base (.issueAccessToken userID email)) ∧
        server.tokens.claims userID email issue.choice.now = claims

omit [DecidableEq ι] in
/-- One user's claims only, signed before any are presented. -/
theorem Unforged.of_issued {server : Server} {es : List (Entry ι ServerChoice ServerOp ServerRes)}
    {issue : Entry ι ServerChoice ServerOp ServerRes} {userID email : String}
    {first rest : List (Entry ι ServerChoice ServerOp ServerRes)}
    (split : es = first ++ issue :: rest)
    (asked : issue.done.1 = .auth (.base (.issueAccessToken userID email)))
    (quiet : ∀ e ∈ first, ∀ tokenString, e.done.1 ≠ .parseAccessToken tokenString)
    (only : ∀ tokenString claims, server.tokens.signedClaims server.jwt tokenString = some claims →
      claims = server.tokens.claims userID email issue.choice.now) : Unforged server es := by
  intro before e after tokenString claims split' parsed signed
  refine ⟨issue, ?_, userID, email, asked, (only tokenString claims signed).symm⟩
  rcases List.append_eq_append_iff.mp (split.symm.trans split') with
    ⟨between, rfl, same⟩ | ⟨between, rfl, same⟩
  · cases between with
    | nil =>
      obtain ⟨rfl, _⟩ := List.cons.inj same
      rw [asked] at parsed
      cases parsed
    | cons d between =>
      obtain ⟨rfl, _⟩ := List.cons.inj same
      exact List.mem_append_right _ (.head _)
  · cases between with
    | nil =>
      obtain ⟨rfl, _⟩ := List.cons.inj same
      rw [asked] at parsed
      cases parsed
    | cons d between =>
      obtain ⟨rfl, _⟩ := List.cons.inj same
      exact absurd parsed (quiet e (by simp) tokenString)

/-- The instant of a truncated date is not later. -/
theorem dateTime_le (t : Time) : dateTime (numericDate t) ≤ t :=
  Int.ediv_mul_le t (by decide)

theorem parseAccessToken_eq_some {t : TokenIssuer} {jwt : Jwt} {tokenString : String} {now : Time}
    {claims : Claims} : t.parseAccessToken jwt tokenString now = some claims ↔
      t.signedClaims jwt tokenString = some claims ∧ claims.valid now = true := by
  unfold TokenIssuer.parseAccessToken
  exact Option.filter_eq_some_iff

/-- The claims of an issuer are valid until their lifetime is over. -/
theorem claims_valid {t : TokenIssuer} {userID email : String} {issued now : Time} :
    (t.claims userID email issued).valid now = true ↔
      now < dateTime (numericDate (issued + t.accessTTL)) := by
  simp [Claims.valid, TokenIssuer.claims]

/-- The parse of its token precedes what is forwarded to the engine. -/
theorem parsed_before_forwarded {before after : List (Entry ι ServerChoice ServerOp ServerRes)}
    {e : Entry ι ServerChoice ServerOp ServerRes}
    (split : (arriving server request g).trace (handleServer b.store server) schedule =
      before ++ e :: after) {r : HttpRequest} (forwarded : e.done.1 = .serveEngine r) :
    ∃ tokenString claims before₁ parse before₂,
      bearerToken (r.headerGet "Authorization") = some tokenString ∧
      before = before₁ ++ parse :: before₂ ∧ parse.thread = e.thread ∧
      parse.done = ⟨.parseAccessToken tokenString, some claims⟩ ∧
      server.tokens.signedClaims server.jwt tokenString = some claims ∧
      claims.valid parse.choice.now = true := by
  obtain ⟨first, last, k, _, traced, todo, _⟩ := Pool.trace_split _ split
  have past := (Pool.reached_start g fun i => server.handler (request i)).run
    (handleServer b.store server) first e.thread
  rw [todo] at past
  obtain ⟨_, tokenString, claims, bearer, history⟩ :=
    ((handler_forwards server (request e.thread)).past past).1 r forwarded
  have known := Pool.done_run (handleServer b.store server) (arriving server request g) first
    e.thread
  rw [traced, history] at known
  obtain ⟨before₁, parse, before₂, rfl, thread, parsed, _, _⟩ :=
    Entry.split_history (known.symm.trans (List.nil_append _).symm)
  rw [List.append_assoc, List.cons_append] at split
  have answer := Pool.trace_answer _ split
  obtain ⟨parser, choice, o, found⟩ := parse
  cases parsed
  obtain ⟨signed, valid⟩ := parseAccessToken_eq_some.mp answer.symm
  exact ⟨tokenString, claims, before₁, _, before₂, bearer, rfl, thread, rfl, signed, valid⟩

/-- The login of its user precedes an access token. -/
theorem login_before_issued (own : OwnIDs b g.store) (none : ∀ id, ¬ b.HoldsFor g.store id)
    {before after : List (Entry ι ServerChoice ServerOp ServerRes)}
    {issue : Entry ι ServerChoice ServerOp ServerRes}
    (split : (arriving server request g).trace (handleServer b.store server) schedule =
      before ++ issue :: after) {userID email : String}
    (asked : issue.done.1 = .auth (.base (.issueAccessToken userID email))) :
    ∃ login ∈ before, server.Proves (request login.thread) login.done userID := by
  have careful : ∀ i, (server.handler (request i)).Meets (server.Careful b (request i))
      (fun _ _ => True) [] := fun i =>
    (handler_careful b server (request i)).mono fun _ _ _ => trivial
  have used : issue.done.1.issuesTo = some userID := congrArg ServerOp.issuesTo asked
  exact (refreshCredentials b server).proved_before careful own none split used

/-- **Whoever reaches the engine has logged in**: in any interleaving of requests, over either
store and with any failures, a request that the proxy forwards carries an access token that
was issued less than its lifetime ago, to a user for whom a login had verified the password. -/
theorem forwarded_after_login (own : OwnIDs b g.store) (none : ∀ id, ¬ b.HoldsFor g.store id)
    {before after : List (Entry ι ServerChoice ServerOp ServerRes)}
    {e : Entry ι ServerChoice ServerOp ServerRes}
    (split : (arriving server request g).trace (handleServer b.store server) schedule =
      before ++ e :: after)
    (unforged : Unforged server (before ++ e :: after)) {r : HttpRequest}
    (forwarded : e.done.1 = .serveEngine r) :
    ∃ tokenString userID email login issue parse,
      bearerToken (r.headerGet "Authorization") = some tokenString ∧
      [login, issue, parse].Sublist before ∧
      server.Proves (request login.thread) login.done userID ∧
      issue.done.1 = .auth (.base (.issueAccessToken userID email)) ∧
      parse.thread = e.thread ∧
      parse.done = ⟨.parseAccessToken tokenString,
        some (server.tokens.claims userID email issue.choice.now)⟩ ∧
      parse.choice.now < issue.choice.now + server.tokens.accessTTL := by
  obtain ⟨tokenString, claims, before₁, parse, before₂, bearer, rfl, thread, parsed, signed,
    valid⟩ := parsed_before_forwarded split forwarded
  obtain ⟨issue, within, userID, email, asked, same⟩ := unforged before₁ parse
    (before₂ ++ e :: after) tokenString claims (by rw [List.append_assoc, List.cons_append])
    (by rw [parsed]) signed
  obtain ⟨before₃, before₄, rfl⟩ := List.append_of_mem within
  rw [List.append_assoc, List.append_assoc, List.cons_append] at split
  obtain ⟨login, mem, proof⟩ := login_before_issued own none split asked
  subst same
  refine ⟨tokenString, userID, email, login, issue, parse, bearer, ?_, proof, asked, thread,
    parsed, (claims_valid.mp valid).trans_le (dateTime_le _)⟩
  have earlier : [login, issue].Sublist (before₃ ++ issue :: before₄) :=
    (List.singleton_sublist.mpr mem).append (List.singleton_sublist.mpr (.head _))
  exact earlier.append (List.singleton_sublist.mpr (.head _))

/-! ## How long a session lasts -/

/-- A date that survives the JSON number it is written as. -/
def ExactDate (date : Int) : Prop := |date| ≤ 2 ^ 53

instance ExactDate.decidable (date : Int) : Decidable (ExactDate date) :=
  inferInstanceAs (Decidable (|date| ≤ 2 ^ 53))

/-- What the library signs it reads back, and it verifies. -/
structure Jwt.Lawful (jwt : Jwt) : Prop where
  signed : ∀ secret claims tokenString, jwt.signedString secret claims = some tokenString →
    (∀ date ∈ claims.issuedAt, ExactDate date) → (∀ date ∈ claims.expiresAt, ExactDate date) →
    (∀ date ∈ claims.notBefore, ExactDate date) →
    jwt.parseUnverified tokenString = some (.hs256, claims) ∧
      jwt.verify .hs256 tokenString secret = true

theorem signedClaims_issued {t : TokenIssuer} {jwt : Jwt} (lawful : jwt.Lawful)
    {userID email access : String} {now : Time} (issued : ExactDate (numericDate now))
    (expires : ExactDate (numericDate (now + t.accessTTL)))
    (made : t.issueAccessToken jwt userID email now = some access) :
    t.signedClaims jwt access = some (t.claims userID email now) := by
  obtain ⟨parsed, verified⟩ := lawful.signed _ _ _ made
    (fun date same => by obtain rfl := Option.mem_some_iff.mp same; exact issued)
    (fun date same => by obtain rfl := Option.mem_some_iff.mp same; exact expires) nofun
  unfold TokenIssuer.signedClaims
  rw [parsed]
  simp [SigningMethod.isHMAC, verified]

/-- A parse of a token that was issued succeeds until the token's lifetime is over. -/
theorem parsed_until {j : ι} {access userID email : String} {issued : Time}
    {found : Option Claims} (signed : server.tokens.signedClaims server.jwt access =
      some (server.tokens.claims userID email issued))
    (mem : (⟨.parseAccessToken access, found⟩ : Prog.Done ServerOp ServerRes) ∈
      (((arriving server request g).run (handleServer b.store server) schedule).threads j).done) :
    ∃ parse ∈ (arriving server request g).trace (handleServer b.store server) schedule,
      parse.thread = j ∧ parse.done.1 = .parseAccessToken access ∧
      (found.isSome ↔
        parse.choice.now < dateTime (numericDate (issued + server.tokens.accessTTL))) := by
  obtain ⟨⟨_, choice, _⟩, within, rfl, rfl⟩ := Pool.entry_of_done _ mem
  obtain ⟨_, answer⟩ := Pool.answered_of_mem _ within
  refine ⟨_, within, rfl, rfl, ?_⟩
  have filtered : found = (server.tokens.signedClaims server.jwt access).filter
    (·.valid choice.now) := answer
  rw [filtered, signed, ← @claims_valid server.tokens userID email]
  cases valid : (server.tokens.claims userID email issued).valid choice.now <;>
    simp [Option.filter, valid]

/-- **A session lasts its lifetime**: an access token that a login or a refresh was answered
gets a request through to the engine, and its answer back, until the second in which its
lifetime ends, and no longer, whatever becomes of the session in between. -/
theorem session_lasts (lawful : server.jwt.Lawful)
    (clock : ∀ l ∈ schedule, ExactDate (numericDate l.2.now) ∧
      ExactDate (numericDate (l.2.now + server.tokens.accessTTL)))
    {i j : ι} (enters : (request i).Enters) {access refresh : String}
    (entered : (((arriving server request g).run (handleServer b.store server)
      schedule).threads i).todo = .ret (writePair ⟨access, refresh⟩))
    {r : HttpRequest} (scores : request j = .score r)
    (bearer : bearerToken (r.headerGet "Authorization") = some access)
    {response : Response}
    (answered : (((arriving server request g).run (handleServer b.store server)
      schedule).threads j).todo = .ret response) :
    ∃ issue parse, issue.thread = i ∧ parse.thread = j ∧
      parse ∈ (arriving server request g).trace (handleServer b.store server) schedule ∧
      issue ∈ (arriving server request g).trace (handleServer b.store server) schedule ∧
      (∃ userID email, issue.done = ⟨.auth (.base (.issueAccessToken userID email)),
        some access⟩) ∧
      parse.done.1 = .parseAccessToken access ∧
      if parse.choice.now < dateTime (numericDate (issue.choice.now + server.tokens.accessTTL)) then
        (⟨.serveEngine r, response⟩ : Prog.Done ServerOp ServerRes) ∈
          (((arriving server request g).run (handleServer b.store server) schedule).threads j).done
      else response = writeError 401 "invalid or expired token" := by
  have reached := (Pool.reached_start g fun i => server.handler (request i)).run
    (handleServer b.store server) schedule
  have past := reached i
  rw [entered] at past
  obtain ⟨userID, email, made⟩ := (handler_careful b server (request i)).past past enters _ rfl
  obtain ⟨⟨_, issued, _⟩, member, rfl, rfl⟩ := Pool.entry_of_done _ made
  obtain ⟨_, signed⟩ := Pool.answered_of_mem _ member
  have within := (Pool.trace_choices _ _ _).subset (List.mem_map_of_mem member)
  obtain ⟨exact₁, exact₂⟩ := clock _ within
  have claims := signedClaims_issued lawful exact₁ exact₂ signed.symm
  have past : (server.handler (request j)).Past _ _ := reached j
  rw [answered, scores] at past
  rcases (score_forwards r).past past access bearer with
    ⟨history, refused⟩ | ⟨claims', history⟩
  · have mem : (⟨.parseAccessToken access, none⟩ : Prog.Done ServerOp ServerRes) ∈
        [⟨.parseAccessToken access, none⟩] := .head _
    obtain ⟨parse, mem, thread, asked, inTime⟩ := parsed_until claims (history ▸ mem)
    refine ⟨_, parse, rfl, thread, mem, member, ⟨userID, email, rfl⟩, asked, ?_⟩
    rw [if_neg (fun early => by cases inTime.mpr early)]
    exact refused
  · have mem : (⟨.parseAccessToken access, some claims'⟩ : Prog.Done ServerOp ServerRes) ∈
        [⟨.parseAccessToken access, some claims'⟩, ⟨.serveEngine r, response⟩] := .head _
    obtain ⟨parse, mem, thread, asked, inTime⟩ := parsed_until claims (history ▸ mem)
    refine ⟨_, parse, rfl, thread, mem, member, ⟨userID, email, rfl⟩, asked, ?_⟩
    rw [if_pos (inTime.mp rfl), history]
    exact .tail _ (.head _)

end

/-! A login, and a request with its access token a minute later. -/

def noon : Time := 1772366400000000000

/-- Its header, payload and signature. -/
def sampleAccessToken : String :=
  "eyJhbGciOiJIUzI1NiIsInR5cCI6IkpXVCJ9." ++
    "eyJzdWIiOiJ1XzEiLCJlbWFpbCI6ImRhbmFAZXhhbXBsZS5jb20iLCJpc3MiOiJ2YXV" ++
    "sdHdhdGNoLWdhdGV3YXkiLCJleHAiOjE3NzIzNjczMDAsImlhdCI6MTc3MjM2NjQwMH0." ++
    "qUZM15zD6SXTUL23rCSoiVWryP_bDZOOY25YO1WkyWg"

def sampleIssuer : TokenIssuer := { secret := "test-secret", accessTTL := 900000000000 }

def sampleJwt : Jwt where
  signedString secret claims :=
    if secret = "test-secret" ∧ claims = sampleIssuer.claims "u_1" "dana@example.com" noon then
      some sampleAccessToken
    else none
  parseUnverified tokenString :=
    if tokenString = sampleAccessToken then
      some (.hs256, sampleIssuer.claims "u_1" "dana@example.com" noon)
    else none
  verify method _ secret := method = .hs256 && secret = "test-secret"

def sampleLoginBody : String :=
  "\x7b\"email\": \"dana@example.com\", \"password\": \"correct horse\", " ++
    "\"lat\": 53.3, \"lon\": -6.3\x7d"

def sampleServer : Server where
  authSvc := sampleLoginService
  tokens := sampleIssuer
  jwt := sampleJwt
  decodeRegister _ := none
  decodeLogin text :=
    if text = sampleLoginBody then some ⟨"dana@example.com", "correct horse", 533 / 10, -63 / 10⟩
    else none
  decodeRefresh _ := none
  texts := ⟨"", "", "", ""⟩

def sampleScore : HttpRequest :=
  ⟨"203.0.113.7:40001", [("Authorization", "Bearer " ++ sampleAccessToken)], ""⟩

def sampleRequest (scoring : Bool) : Routed :=
  if scoring then .score sampleScore else .login ⟨"203.0.113.7:40000", [], sampleLoginBody⟩

def sampleShared : ServerShared Backend.memory.State where
  store := (MemoryStore.createUser "u_1" "dana@example.com" "correct horse" {}).2

@[irreducible]
def sampleSchedule : List (Bool × ServerChoice) :=
  List.replicate 11 (false, { now := noon, uuid := "f_1", refreshToken := some "r_1" }) ++
    List.replicate 2 (true, { now := noon + 60000000000, engine := ⟨200, [("risk", "low")]⟩ })

abbrev sampleTrace : List (Entry Bool ServerChoice ServerOp ServerRes) :=
  (arriving sampleServer sampleRequest sampleShared).trace
    (handleServer Backend.memory.store sampleServer) sampleSchedule

/-- An access token is issued, or one is parsed. -/
def concernsToken (e : Entry Bool ServerChoice ServerOp ServerRes) : Bool :=
  match e.done.1 with
  | .auth (.base (.issueAccessToken ..)) | .parseAccessToken _ => true
  | _ => false

/-- The token of the sample is issued. -/
def issuesSample (e : Entry Bool ServerChoice ServerOp ServerRes) : Bool :=
  match e.done.1 with
  | .auth (.base (.issueAccessToken userID email)) =>
    userID = "u_1" && email = "dana@example.com" && e.choice.now = noon
  | _ => false

def reachesEngine (e : Entry Bool ServerChoice ServerOp ServerRes) : Bool :=
  match e.done.1 with
  | .serveEngine _ => true
  | _ => false

theorem sampleRun :
    (((arriving sampleServer sampleRequest sampleShared).run
        (handleServer Backend.memory.store sampleServer) sampleSchedule).threads
          false).todo.result? = some (writePair ⟨sampleAccessToken, "r_1"⟩) ∧
      (((arriving sampleServer sampleRequest sampleShared).run
        (handleServer Backend.memory.store sampleServer) sampleSchedule).threads
          true).todo.result? = some ⟨200, [("risk", "low")]⟩ ∧
      (sampleTrace.find? concernsToken).any issuesSample = true ∧
      sampleTrace.any reachesEngine = true := by
  decide +kernel

theorem bearerToken_bearer (tokenString : String) :
    bearerToken ("Bearer " ++ tokenString) = some tokenString := by
  simp [bearerToken, String.toList_append]

theorem sample_claims {tokenString : String} {claims : Claims}
    (signed : sampleIssuer.signedClaims sampleJwt tokenString = some claims) :
    claims = sampleIssuer.claims "u_1" "dana@example.com" noon := by
  unfold TokenIssuer.signedClaims sampleJwt at signed
  by_cases same : tokenString = sampleAccessToken
  · simpa [same, eq_comm, SigningMethod.isHMAC, sampleIssuer] using signed
  · simp [same] at signed

theorem sample_unforged : Unforged sampleServer sampleTrace := by
  obtain ⟨_, _, found, _⟩ := sampleRun
  cases first : sampleTrace.find? concernsToken with
  | none =>
    rw [first] at found
    cases found
  | some issue =>
    rw [first] at found
    obtain ⟨_, before, after, split, quiet⟩ := List.find?_eq_some_iff_append.mp first
    have issued : issuesSample issue = true := found
    obtain ⟨thread, choice, ⟨o, answer⟩⟩ := issue
    unfold issuesSample at issued
    dsimp only at issued
    split at issued
    · rename_i userID email _
      obtain ⟨⟨rfl, rfl⟩, at_noon⟩ : (userID = "u_1" ∧ email = "dana@example.com") ∧
          choice.now = noon := by simpa using issued
      refine .of_issued split rfl (fun e mem tokenString parsed => ?_) fun tokenString claims => ?_
      · have other := quiet e mem
        simp [concernsToken, parsed] at other
      · rw [at_noon]
        exact sample_claims
    · cases issued

theorem sampleJwt_lawful : sampleJwt.Lawful where
  signed secret claims tokenString made _ _ _ := by
    unfold sampleJwt at made ⊢
    dsimp only at made ⊢
    split at made
    · rename_i signed
      obtain ⟨rfl, rfl⟩ := signed
      obtain rfl := Option.some.inj made
      exact ⟨if_pos rfl, rfl⟩
    · cases made

theorem sample_bearer :
    bearerToken (sampleScore.headerGet "Authorization") = some sampleAccessToken := by
  simp [sampleScore, HttpRequest.headerGet, bearerToken_bearer]

theorem sample_own : OwnIDs .memory sampleShared.store :=
  OwnIDs.createUser (m := {}) (fun id a link => by cases link) _ _ _

theorem forwarded_after_login_sample :
    ∃ userID login issue parse, [login, issue, parse].Sublist sampleTrace ∧
      sampleServer.Proves (sampleRequest login.thread) login.done userID ∧
      parse.choice.now < issue.choice.now + 900000000000 := by
  obtain ⟨e, mem, served⟩ := List.any_eq_true.mp sampleRun.2.2.2
  obtain ⟨before, after, split⟩ := List.append_of_mem mem
  have forwarded : ∃ r, e.done.1 = .serveEngine r := by
    obtain ⟨_, _, ⟨o, _⟩⟩ := e
    cases o with
    | serveEngine r => exact ⟨r, rfl⟩
    | _ => cases served
  obtain ⟨r, forwarded⟩ := forwarded
  have empty : ∀ id, ¬ Backend.memory.HoldsFor sampleShared.store id := by
    intro id holds
    obtain ⟨_, _, stored, _⟩ := holds
    cases stored
  obtain ⟨_, userID, _, login, issue, parse, _, order, proof, _, _, _, inTime⟩ :=
    forwarded_after_login sample_own empty split (split ▸ sample_unforged) forwarded
  exact ⟨userID, login, issue, parse, split ▸ order.trans (List.sublist_append_left _ _), proof,
    inTime⟩

theorem session_lasts_sample :
    ∃ issue parse, issue ∈ sampleTrace ∧ parse ∈ sampleTrace ∧
      parse.choice.now < dateTime (numericDate (issue.choice.now + 900000000000)) ∧
      (⟨.serveEngine sampleScore, ⟨200, [("risk", "low")]⟩⟩ : Prog.Done ServerOp ServerRes) ∈
        (((arriving sampleServer sampleRequest sampleShared).run
          (handleServer Backend.memory.store sampleServer) sampleSchedule).threads true).done := by
  have clock : ∀ l ∈ sampleSchedule, ExactDate (numericDate l.2.now) ∧
      ExactDate (numericDate (l.2.now + 900000000000)) := by
    intro l mem
    unfold sampleSchedule at mem
    rcases List.mem_append.mp mem with login | score
    · obtain rfl := List.eq_of_mem_replicate login
      exact ⟨by decide, by decide⟩
    · obtain rfl := List.eq_of_mem_replicate score
      exact ⟨by decide, by decide⟩
  have entered := Prog.result?_eq_some.mp sampleRun.1
  have answered := Prog.result?_eq_some.mp sampleRun.2.1
  obtain ⟨issue, parse, _, _, parsed, issued, _, _, lasted⟩ :=
    @session_lasts Bool _ .memory sampleServer sampleRequest sampleShared sampleSchedule
      sampleJwt_lawful clock false true trivial sampleAccessToken "r_1" entered sampleScore rfl
      sample_bearer ⟨200, [("risk", "low")]⟩ answered
  refine ⟨issue, parse, issued, parsed, ?_⟩
  split at lasted
  · exact ⟨by assumption, lasted⟩
  · cases congrArg Response.status lasted

end VaultWatch.Gateway
