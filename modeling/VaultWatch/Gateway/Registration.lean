import VaultWatch.Gateway.CredentialStuffing
import VaultWatch.Gateway.SoloCalls
import Mathlib.Data.List.Nodup

/-! # When an email is registered once

`Register` looks the email up and creates the user in a later operation. The unique
column of the Postgres store refuses the second of two registrations that both looked
before either wrote; the in-memory store overwrites the first, and both succeed. -/
namespace VaultWatch.Gateway

open VaultWatch.Gateway.Store VaultWatch.Lib.Run VaultWatch.Lib.Interleave LoginService

/-! ## What a registration knows -/

/-- A registration asks its three operations in turn, creates a user only with a hash of
its password, and returns the user it has created. -/
structure RegisterKnown (email password : String) (h : List (Prog.Done AuthOp AuthRes))
    (q : AuthProg Reply) : Prop where
  asks : ∀ o k, q = .call o k → o = .getUserByEmail email ∨ o = .hashPassword password ∨
    ∃ hash, o = .createUser email hash ∧
      (⟨.hashPassword password, some hash⟩ : Prog.Done AuthOp AuthRes) ∈ h
  returned : ∀ u, q = .ret (.registered (.ok u)) ↔
    ∃ hash, (⟨.createUser email hash, .ok u⟩ : Prog.Done AuthOp AuthRes) ∈ h

theorem register_known (s : LoginService) (email password : String) :
    ((Call.register email password).prog s).Always (RegisterKnown email password) [] := by
  refine ⟨⟨fun o k node => .inl (by cases node; rfl), fun u => by simp⟩, fun found => ?_⟩
  cases found with
  | ok user => exact ⟨fun o k node => (by cases node), fun u => by simp⟩
  | error e =>
    refine ⟨⟨fun o k node => .inr (.inl (by cases node; rfl)), fun u => by simp⟩,
      fun hashed => ?_⟩
    cases hashed with
    | none => exact ⟨fun o k node => (by cases node), fun u => by simp⟩
    | some hash =>
      refine ⟨⟨fun o k node => .inr (.inr ⟨hash, by cases node; rfl, by simp⟩),
        fun u => by simp⟩, fun created => ?_⟩
      cases created with
      | error e => exact ⟨fun o k node => (by cases node), fun u => by simp⟩
      | ok user => exact ⟨fun o k node => (by cases node), fun u => by simp [eq_comm]⟩

/-! ## The accounts of a store -/

/-- In memory each id leads to an account that is its email's too, and each email to an
account whose id is known; in the table the emails are distinct. -/
def Consistent : (b : Backend) → b.State → Prop
  | .memory, m =>
    (∀ id a, m.byID id = some a →
      ∃ u, m.objects[a]? = some u ∧ u.id = id ∧ m.users u.email = some a) ∧
    ∀ email a, m.users email = some a →
      ∃ u, m.objects[a]? = some u ∧ u.email = email ∧ (m.byID u.id).isSome
  | .postgres, st => (st.users.map User.email).Nodup

/-- What a user is found by: a pointer in memory, a row of the table. -/
theorem memory_found {m : MemoryStore} {email : String} {u : User} :
    m.getUserByEmail email = .ok u ↔ ∃ a, m.users email = some a ∧ m.objects[a]? = some u := by
  unfold MemoryStore.getUserByEmail MemoryStore.deref
  cases link : m.users email with
  | none => simp [orNotFound]
  | some a =>
    cases object : m.objects[a]? with
    | none => simp [orNotFound, object]
    | some v => simp [orNotFound, object, eq_comm]

theorem memory_notFound {m : MemoryStore} (consistent : Consistent .memory m) {email : String} :
    m.getUserByEmail email = .error .notFound ↔ m.users email = none := by
  constructor
  · intro missing
    cases link : m.users email with
    | none => rfl
    | some a =>
      obtain ⟨u, object, -⟩ := consistent.2 email a link
      rw [memory_found.mpr ⟨a, link, object⟩] at missing
      cases missing
  · intro missing
    simp [MemoryStore.getUserByEmail, MemoryStore.deref, missing, orNotFound]

theorem table_found {st : PostgresStore} {p : User → Bool} {u : User}
    (found : orNotFound (st.users.find? p) = .ok u) : u ∈ st.users ∧ p u = true := by
  cases row : st.users.find? p with
  | none =>
    rw [row] at found
    cases found
  | some v =>
    rw [row] at found
    cases found
    exact ⟨List.mem_of_find?_eq_some row, List.find?_some row⟩

/-- The row that has an email is the one that is found. -/
theorem table_row {rows : List User} (distinct : (rows.map User.email).Nodup) {u : User}
    (mem : u ∈ rows) : (rows.find? fun r => r.email = u.email) = some u := by
  cases row : rows.find? fun r => r.email = u.email with
  | none =>
    have := List.find?_eq_none.mp row u mem
    simp at this
  | some v =>
    have same : v.email = u.email := by simpa using List.find?_some row
    rw [List.inj_on_of_nodup_map distinct (List.mem_of_find?_eq_some row) mem same]

theorem orNotFound_cases {α : Type} (row : Option α) :
    orNotFound row = .error .notFound ∨ ∃ a, orNotFound row = .ok a := by
  cases row with
  | none => exact .inl rfl
  | some a => exact .inr ⟨a, rfl⟩

theorem Backend.lookup (email : String) : ∀ (b : Backend) (st : b.State),
    b.store.getUserByEmail email st = .error .notFound ∨
      ∃ u, b.store.getUserByEmail email st = .ok u
  | .memory, m => orNotFound_cases (m.deref (m.users email))
  | .postgres, st => orNotFound_cases (st.users.find? fun r : User => r.email = email)

/-- A user reachable by id is the one found by its email. -/
theorem Consistent.found : ∀ {b : Backend} {st : b.State}, Consistent b st →
    ∀ {id : String} {u : User}, b.store.getUserByID id st = .ok u →
      b.store.getUserByEmail u.email st = .ok u
  | .memory, m, consistent, id, u, found => by
    obtain ⟨a, link, object⟩ := MemoryStore.getUserByID_ok.mp found
    obtain ⟨v, same, -, name⟩ := consistent.1 id a link
    cases object.symm.trans same
    exact memory_found.mpr ⟨a, name, object⟩
  | .postgres, st, consistent, id, u, found => by
    have row := table_row consistent (table_found found).1
    show orNotFound (st.users.find? _) = _
    rw [row]
    rfl

/-- The new pointer is the id's and the email's, and the email had none. -/
theorem Consistent.created {m : MemoryStore} (consistent : Consistent .memory m) {email : String}
    (missing : m.users email = none) (id hash : String) :
    Consistent .memory (m.createUser id email hash).2 := by
  have kept : ∀ {a : ℕ} {u : User}, m.objects[a]? = some u →
      (m.createUser id email hash).2.objects[a]? = some u := fun object =>
    (List.getElem?_append_left (List.getElem?_eq_some_iff.mp object).1).trans object
  constructor
  · intro id' a link
    by_cases own : id' = id
    · subst own
      obtain rfl : m.objects.length = a := by
        simpa [MemoryStore.createUser] using link
      exact ⟨_, List.getElem?_concat_length, rfl, Function.update_self ..⟩
    · have known : m.byID id' = some a := (Function.update_of_ne own ..).symm.trans link
      obtain ⟨u, object, same, name⟩ := consistent.1 id' a known
      have other : u.email ≠ email := by
        intro clash
        rw [clash, missing] at name
        cases name
      exact ⟨u, kept object, same, (Function.update_of_ne other ..).trans name⟩
  · intro email' a name
    by_cases own : email' = email
    · subst own
      obtain rfl : m.objects.length = a := by
        simpa [MemoryStore.createUser] using name
      refine ⟨_, List.getElem?_concat_length, rfl, ?_⟩
      simp [MemoryStore.createUser]
    · have held : m.users email' = some a := (Function.update_of_ne own ..).symm.trans name
      obtain ⟨u, object, same, known⟩ := consistent.2 email' a held
      refine ⟨u, kept object, same, ?_⟩
      show (Function.update m.byID id _ u.id).isSome
      by_cases clash : u.id = id
      · simp [clash]
      · simpa [Function.update_of_ne clash] using known

/-- A row whose email no other row has is the one found by it. -/
theorem table_created {rows : List User} (distinct : (rows.map User.email).Nodup) (row : User)
    (new : ∀ r ∈ rows, r.email ≠ row.email) :
    (rows.find? fun r => r.email = row.email) = none ∧
      ((rows ++ [row]).find? fun r => r.email = row.email) = some row ∧
      ((rows ++ [row]).map User.email).Nodup := by
  have free : (rows.find? fun r => r.email = row.email) = none := by
    simpa [List.find?_eq_none] using new
  refine ⟨free, ?_, ?_⟩
  · rw [List.find?_append, free]
    simp
  · rw [List.map_append]
    refine List.nodup_append.mpr ⟨distinct, by simp, fun e mem e' own => ?_⟩
    obtain ⟨r, held, rfl⟩ := List.mem_map.mp mem
    obtain rfl : e' = row.email := by simpa using own
    exact new r held

/-- What `CreateUser` does: it refuses and changes nothing, or the email was free and is
the new user's. In memory it has to be free. -/
theorem Consistent.createUser : ∀ {b : Backend} {st : b.State}, Consistent b st →
    ∀ {email : String}, (b = .memory → b.store.getUserByEmail email st = .error .notFound) →
    ∀ id hash : String,
    (∃ e, b.store.createUser id email hash st = (.error e, st)) ∨
    ∃ u, (b.store.createUser id email hash st).1 = .ok u ∧ u.passwordHash = hash ∧
      b.store.getUserByEmail email st = .error .notFound ∧
      b.store.getUserByEmail email (b.store.createUser id email hash st).2 = .ok u ∧
      Consistent b (b.store.createUser id email hash st).2
  | .memory, m, consistent, email, alone, id, hash => by
    have missing := (memory_notFound consistent).mp (alone rfl)
    exact .inr ⟨{ id, email, passwordHash := hash }, rfl, rfl, alone rfl,
      memory_found.mpr ⟨m.objects.length, Function.update_self .., List.getElem?_concat_length⟩,
      consistent.created missing id hash⟩
  | .postgres, st, consistent, email, _, id, hash => by
    show (∃ e, PostgresStore.createUser id email hash st = (.error e, st)) ∨ _
    by_cases taken : (st.users.any fun r => r.id = id || r.email = email) = true
    · exact .inl ⟨.other, if_pos taken⟩
    · have new : ∀ r ∈ st.users, r.email ≠ email := by
        intro r mem clash
        exact taken (List.any_eq_true.mpr ⟨r, mem, by simp [clash]⟩)
      have stored : PostgresStore.createUser id email hash st = _ := if_neg taken
      obtain ⟨free, found, distinct⟩ :=
        table_created consistent { id, email, passwordHash := hash } new
      show _ ∨ ∃ u, (PostgresStore.createUser id email hash st).1 = .ok u ∧ _ ∧
        orNotFound (st.users.find? _) = _ ∧ orNotFound
        ((PostgresStore.createUser id email hash st).2.users.find? _) = .ok u ∧
          ((PostgresStore.createUser id email hash st).2.users.map User.email).Nodup
      rw [stored, free]
      refine .inr ⟨{ id, email, passwordHash := hash }, rfl, rfl, rfl, ?_, distinct⟩
      show orNotFound ((st.users ++ _).find? _) = _
      rw [found]
      rfl

/-! ## A login by itself -/

section
variable (s : LoginService) (b : Backend)

/-- A login alone on the store returns a token pair. -/
def LogsIn (req : LoginRequest) (c : ℕ → AuthChoice) (g : AuthShared b.State) : Prop :=
  ∃ pair, ((Call.login req).runAlone b.store s c g).1 = .loggedIn (.ok pair)

/-- No operation fails, and a drawn refresh token is not a stored one. -/
structure Answers (c : ℕ → AuthChoice) (st : b.State) : Prop where
  faultless : ∀ n, (c n).fault = none
  signed : ∀ n, (c n).accessToken.isSome
  drawn : ∀ n, ∃ plain, (c n).refreshToken = some plain ∧
    b.store.get (s.hashRefreshToken plain) st = .error .notFound

variable {s b} {req : LoginRequest} {c : ℕ → AuthChoice} {g : AuthShared b.State}

/-- Whatever happens, only a password that verifies logs in. -/
theorem LogsIn.verified (entered : LogsIn s b req c g) :
    ∃ u, b.store.getUserByEmail req.email g.store = .ok u ∧
      s.verifyPassword u.passwordHash req.password = some true := by
  obtain ⟨pair, returned⟩ := entered
  unfold Call.runAlone Call.prog at returned
  rw [Prog.execute_map] at returned
  have result := Reply.loggedIn.inj returned
  unfold LoginService.login at result
  rw [Prog.execute_op] at result
  have refused : ∀ c g, ((refuse req).execute (handleAuth b.store) c g).1 ≠ .ok pair := by
    intro c g same
    rw [(refuse_execute req c b.store g).1] at same
    cases same
  cases read : reading (c 0).fault (b.store.getUserByEmail req.email g.store) with
  | error e =>
    simp only [handleAuth, read] at result
    exact (refused _ _ result).elim
  | ok u =>
    simp only [handleAuth, read] at result
    split at result
    · exact ⟨u, reading_ok read, by assumption⟩
    · exact (refused _ _ result).elim

end

/-- The update and the save of a login find the user that the login has read. -/
theorem Consistent.enters : ∀ {b : Backend} {st : b.State}, Consistent b st →
    ∀ {email : String} {u : User}, b.store.getUserByEmail email st = .ok u →
    ∀ (lat lon : ℚ) (now : Time) (rt : RefreshToken), rt.userID = u.id →
      b.store.get rt.hash st = .error .notFound →
      (b.store.updateLastLogin u.id lat lon now st).1 = .ok () ∧
        (b.store.save rt (b.store.updateLastLogin u.id lat lon now st).2).1 = .ok ()
  | .memory, m, consistent, email, u, found, lat, lon, now, rt, _, _ => by
    obtain ⟨a, name, object⟩ := memory_found.mp found
    obtain ⟨v, same, -, known⟩ := consistent.2 email a name
    cases object.symm.trans same
    obtain ⟨p, link⟩ := Option.isSome_iff_exists.mp known
    refine ⟨?_, rfl⟩
    show (MemoryStore.updateLastLogin u.id lat lon now m).1 = .ok ()
    simp only [MemoryStore.updateLastLogin, link]
  | .postgres, st, _, email, u, found, lat, lon, now, rt, own, fresh => by
    refine ⟨rfl, ?_⟩
    have unused : st.refreshTokens.any (fun r => r.hash = rt.hash) = false := by
      cases row : st.refreshTokens.find? fun r => r.hash = rt.hash with
      | none => simpa [List.find?_eq_none] using row
      | some r =>
        have stored : orNotFound (st.refreshTokens.find? fun r => r.hash = rt.hash) = _ := fresh
        rw [row] at stored
        cases stored
    have row := (table_found found).1
    show (PostgresStore.save rt _).1 = .ok ()
    have held : ((PostgresStore.updateLastLogin u.id lat lon now st).2.users.all
        fun r => r.id ≠ rt.userID) = false := by
      rw [List.all_eq_false]
      refine ⟨_, List.mem_map.mpr ⟨u, row, rfl⟩, ?_⟩
      simp [own]
    unfold PostgresStore.save
    exact congrArg Prod.fst ((if_neg (Bool.eq_false_iff.mp unused)).trans
      (if_neg (Bool.eq_false_iff.mp held)))

section
variable {s : LoginService} {b : Backend} {req : LoginRequest} {c : ℕ → AuthChoice}
  {g : AuthShared b.State}

theorem Answers.later {st : b.State} (answers : Answers s b c st) (m : ℕ) :
    Answers s b (fun n => c (n + m)) st where
  faultless n := answers.faultless (n + m)
  signed n := answers.signed (n + m)
  drawn n := answers.drawn (n + m)

theorem Consistent.enter_ok (consistent : Consistent b g.store)
    (answers : Answers s b c g.store) {email : String} {u : User}
    (found : b.store.getUserByEmail email g.store = .ok u) :
    ∃ pair, ((s.enter req u).execute (handleAuth b.store) c g).1 = .ok pair := by
  obtain ⟨plain, drawn, fresh⟩ := answers.drawn 4
  obtain ⟨updated, saved⟩ := consistent.enters found req.lat req.lon (c 0).now
    (s.record u.id (c 2).uuid plain (c 5).now) rfl fresh
  have write : writing (c 1).fault (b.store.updateLastLogin u.id req.lat req.lon (c 0).now)
      g.toShared = (.ok (), { g.toShared with
        store := (b.store.updateLastLogin u.id req.lat req.lon (c 0).now g.store).2 }) := by
    rw [answers.faultless]
    exact Prod.ext updated rfl
  unfold LoginService.enter
  rw [Prog.execute_op, Prog.execute_op]
  simp only [handleAuth, handle, zero_add, AuthShared.setShared_toShared, write]
  rw [Prog.execute_op, Prog.execute_map, (execute_based ..).1]
  obtain ⟨access, issued⟩ := issueTokenPair_drawn (c := fun n => (c (n + 3)).toChoice) b.store
    s.toAuthService u.id u.email (c 2).uuid ⟨answers.signed 3, drawn⟩ { g.toShared with
      store := (b.store.updateLastLogin u.id req.lat req.lon (c 0).now g.store).2 }
  refine ⟨⟨access, plain⟩, (congrArg (fun r => Except.mapError LoginError.service r.1)
    issued).trans ?_⟩
  have unfailing : (c 6).fault = none := answers.faultless 6
  simp only [unfailing, writing, saved]
  rfl

/-- A password that verifies logs in when nothing fails. -/
theorem Consistent.logsIn (consistent : Consistent b g.store) (answers : Answers s b c g.store)
    {u : User} (found : b.store.getUserByEmail req.email g.store = .ok u)
    (verified : s.verifyPassword u.passwordHash req.password = some true) :
    LogsIn s b req c g := by
  have read : reading (c 0).fault (b.store.getUserByEmail req.email g.store) = .ok u := by
    rw [answers.faultless, found]
    rfl
  unfold LogsIn Call.runAlone Call.prog
  rw [Prog.execute_map]
  unfold LoginService.login
  rw [Prog.execute_op]
  simp only [handleAuth, read, verified, if_true]
  obtain ⟨g', entering, kept⟩ := @accept_execute s req u (fun n => c (n + 1)) b.State
    b.store g
  rw [entering]
  rw [← kept] at consistent answers found
  obtain ⟨pair, returned⟩ := consistent.enter_ok
    ((answers.later 1).later (comparisonSteps s req u (c 3).now + 2)) found
  exact ⟨pair, congrArg Reply.loggedIn returned⟩

end

/-! ## Registrations of one email -/

/-- The hash verifies the password and no other. -/
def LoginService.VerifiesOnly (s : LoginService) (hash password : String) : Prop :=
  ∀ q, s.verifyPassword hash q = some true ↔ q = password

section
variable {ι : Type}

/-- `HashPassword` answers hashes that verify their password only. -/
def Hashes (s : LoginService) {σ : Type} (_ : AuthPool σ ι) (c : AuthChoice) : AuthOp → Prop
  | .hashPassword password => ∀ hash, c.passwordHash = some hash → s.VerifiesOnly hash password
  | _ => True

/-- In memory no user has the email when `CreateUser` executes. -/
def Unclaimed (b : Backend) (p : AuthPool b.State ι) (c : AuthChoice) : AuthOp → Prop
  | .createUser email _ => b = .memory → c.fault ≠ some .notExecuted →
    b.store.getUserByEmail email p.shared.store = .error .notFound
  | _ => True

/-- The service learns of every user that `CreateUser` stores. -/
def CreationAcknowledged {σ : Type} (_ : AuthPool σ ι) (c : AuthChoice) : AuthOp → Prop
  | .createUser _ _ => c.fault ≠ some .unacknowledged
  | _ => True

/-- The thread has created the user. -/
def Created {σ : Type} (email : String) (p : AuthPool σ ι) (i : ι) (u : User) : Prop :=
  ∃ hash, (⟨.createUser email hash, .ok u⟩ : Prog.Done AuthOp AuthRes) ∈ (p.threads i).done

/-- What holds between the operations of the registrations: the email is free and nobody
has created a user, or it has one user, whom one thread has created with its password; a
creation that is not `acknowledged` to a thread leaves a user of none. -/
structure OneUser (s : LoginService) (b : Backend) (email : String) (password : ι → String)
    (acknowledged : Prop) (p : AuthPool b.State ι) : Prop where
  consistent : Consistent b p.shared.store
  hashed : ∀ i hash, (⟨.hashPassword (password i), some hash⟩ : Prog.Done AuthOp AuthRes) ∈
    (p.threads i).done → s.VerifiesOnly hash (password i)
  account : (b.store.getUserByEmail email p.shared.store = .error .notFound ∧
      ∀ i u, ¬ Created email p i u) ∨
    ∃ u, b.store.getUserByEmail email p.shared.store = .ok u ∧
      (∀ i v, Created email p i v → s.VerifiesOnly u.passwordHash (password i)) ∧
      (∀ i j v w, Created email p i v → Created email p j w → i = j) ∧
      (acknowledged → ∃ i v, Created email p i v)

/-- What `CreateUser` answers, with the faults of its operation. -/
theorem create_cases {b : Backend} {g : AuthShared b.State} (consistent : Consistent b g.store)
    {email : String} (c : AuthChoice) (alone : b = .memory → c.fault ≠ some .notExecuted →
      b.store.getUserByEmail email g.store = .error .notFound) (hash : String) :
    ((∃ e, (handleAuth b.store c (.createUser email hash) g).1 = .error e) ∧
      (handleAuth b.store c (.createUser email hash) g).2.store = g.store) ∨
    ∃ u, u.passwordHash = hash ∧ b.store.getUserByEmail email g.store = .error .notFound ∧
      b.store.getUserByEmail email (handleAuth b.store c (.createUser email hash) g).2.store
        = .ok u ∧
      Consistent b (handleAuth b.store c (.createUser email hash) g).2.store ∧
      ((handleAuth b.store c (.createUser email hash) g).1 = .ok u ∨
        (handleAuth b.store c (.createUser email hash) g).1 = .error .other ∧
          c.fault = some .unacknowledged) := by
  unfold handleAuth writing
  cases fault : c.fault with
  | none =>
    rcases consistent.createUser (fun memory => alone memory (by simp [fault])) c.uuid hash with
      ⟨e, refused⟩ | ⟨u, created, own, rest⟩
    · exact .inl ⟨⟨e, congrArg Prod.fst refused⟩, congrArg Prod.snd refused⟩
    · exact .inr ⟨u, own, rest.1, rest.2.1, rest.2.2, .inl created⟩
  | some f =>
    cases f with
    | notExecuted => exact .inl ⟨⟨_, rfl⟩, rfl⟩
    | unacknowledged =>
      rcases consistent.createUser (fun memory => alone memory (by simp [fault])) c.uuid hash with
        ⟨e, refused⟩ | ⟨u, created, own, rest⟩
      · exact .inl ⟨⟨_, rfl⟩, congrArg Prod.snd refused⟩
      · exact .inr ⟨u, own, rest.1, rest.2.1, rest.2.2, .inr ⟨rfl, rfl⟩⟩

/-! ## The run -/

variable [DecidableEq ι] {s : LoginService} {b : Backend} {email : String} {password : ι → String}
  {acknowledged : Prop}

/-- In the table an email is free or the creation is refused. -/
theorem unclaimed_postgres (p : AuthPool (Backend.State .postgres) ι)
    (schedule : List (ι × AuthChoice)) :
    Along (Pool.step (handleAuth (Backend.store .postgres))) (Pool.Guarded (Unclaimed .postgres))
      p schedule := by
  induction schedule generalizing p with
  | nil => trivial
  | cons l rest ih =>
    refine ⟨?_, ih _⟩
    unfold Pool.Guarded Unclaimed
    split
    · trivial
    · split
      · nofun
      · trivial

/-- Concurrent registrations of one email. -/
abbrev registering {σ : Type} (s : LoginService) (email : String) (password : ι → String)
    (g : AuthShared σ) : AuthPool σ ι :=
  calling s (fun i => .register email (password i)) g

/-- Who has created a user after one more operation `d` of thread `i`. -/
theorem created_update {σ : Type} {p : AuthPool σ ι} {g : AuthShared σ} {i j : ι}
    {q : AuthProg Reply} {d : Prog.Done AuthOp AuthRes} {u : User} :
    Created email (⟨g, Function.update p.threads i
        { todo := q, done := (p.threads i).done ++ [d] }⟩ : AuthPool σ ι) j u ↔
      Created email p j u ∨ j = i ∧ ∃ hash, ⟨.createUser email hash, .ok u⟩ = d := by
  unfold Created
  simp only [Pool.mem_done_update, exists_or, exists_and_left]

/-- An operation that creates nobody and leaves the store. -/
theorem OneUser.kept {p : AuthPool b.State ι} {i : ι} {g : AuthShared b.State}
    {q : AuthProg Reply} {d : Prog.Done AuthOp AuthRes}
    (one : OneUser s b email password acknowledged p) (store : g.store = p.shared.store)
    (nobody : ∀ hash u, (⟨.createUser email hash, .ok u⟩ : Prog.Done AuthOp AuthRes) ≠ d)
    (hashed : ∀ hash, ⟨.hashPassword (password i), some hash⟩ = d →
      s.VerifiesOnly hash (password i)) :
    OneUser s b email password acknowledged ⟨g, Function.update p.threads i
        { todo := q, done := (p.threads i).done ++ [d] }⟩ := by
  have same : ∀ j u, Created email (⟨g, Function.update p.threads i
      { todo := q, done := (p.threads i).done ++ [d] }⟩ : AuthPool b.State ι) j u ↔
        Created email p j u := by
    intro j u
    simp [created_update, nobody]
  constructor
  · exact store ▸ one.consistent
  · intro j hash mem
    rcases Pool.mem_done_update.mp mem with old | ⟨rfl, new⟩
    · exact one.hashed j hash old
    · exact hashed hash new
  · simpa only [same, store] using one.account

/-- The one creation, of the user whom the email now finds. -/
theorem OneUser.inserted {p : AuthPool b.State ι} {i : ι} {g : AuthShared b.State}
    {q : AuthProg Reply} {hash : String} {answer : Except StoreError User} {u : User}
    (one : OneUser s b email password acknowledged p) (nobody : ∀ j v, ¬ Created email p j v)
    (consistent : Consistent b g.store)
    (hashed : (⟨.hashPassword (password i), some hash⟩ : Prog.Done AuthOp AuthRes) ∈
      (p.threads i).done)
    (found : b.store.getUserByEmail email g.store = .ok u) (own : u.passwordHash = hash)
    (told : acknowledged → answer = .ok u) :
    OneUser s b email password acknowledged ⟨g, Function.update p.threads i
        { todo := q, done := (p.threads i).done ++ [⟨.createUser email hash, answer⟩] }⟩ := by
  have sole : ∀ j w, Created email (⟨g, Function.update p.threads i { todo := q, done :=
      (p.threads i).done ++ [⟨.createUser email hash, answer⟩] }⟩ : AuthPool b.State ι) j w →
        j = i := by
    intro j w creator
    rcases created_update.mp creator with old | ⟨same, -⟩
    · exact (nobody j w old).elim
    · exact same
  refine ⟨consistent, ?_, .inr ⟨u, found, ?_, ?_, fun acked => ?_⟩⟩
  · intro j hash' mem
    rcases Pool.mem_done_update.mp mem with old | ⟨-, new⟩
    · exact one.hashed j hash' old
    · cases new
  · intro j w creator
    obtain rfl := sole j w creator
    exact own ▸ one.hashed j hash hashed
  · intro j j' w w' creator creator'
    exact (sole j w creator).trans (sole j' w' creator').symm
  · exact ⟨i, u, created_update.mpr (.inr ⟨rfl, hash, by rw [told acked]⟩)⟩

theorem OneUser.step {p : AuthPool b.State ι} {i : ι} {c : AuthChoice} {o : AuthOp}
    {k : AuthRes o → AuthProg Reply}
    (reached : p.Reached fun i => (Call.register email (password i)).prog s)
    (one : OneUser s b email password acknowledged p) (todo : (p.threads i).todo = .call o k)
    (hashes : Hashes s p c o) (unclaimed : Unclaimed b p c o)
    (told : acknowledged → CreationAcknowledged p c o) :
    OneUser s b email password acknowledged ⟨(handleAuth b.store c o p.shared).2,
      Function.update p.threads i
        { todo := k (handleAuth b.store c o p.shared).1
          done := (p.threads i).done ++ [⟨o, (handleAuth b.store c o p.shared).1⟩] }⟩ := by
  have known := (register_known s email (password i)).past (reached i)
  rcases known.asks o k todo with rfl | rfl | ⟨hash, rfl, hashed⟩
  · exact one.kept rfl (fun _ _ new => by cases new) fun _ new => by cases new
  · exact one.kept rfl (fun _ _ new => by cases new) fun hash new =>
      hashes hash (eq_of_heq (Sigma.mk.inj new).2).symm
  · rcases create_cases one.consistent c unclaimed hash with ⟨⟨e, refused⟩, still⟩ | created
    · refine one.kept still (fun _ u new => ?_) fun _ new => by cases new
      rw [refused] at new
      cases new
    · obtain ⟨u, own, free, found, consistent, answer⟩ := created
      rcases one.account with ⟨-, nobody⟩ | ⟨v, taken, -⟩
      · refine one.inserted nobody consistent hashed found own fun acked => ?_
        rcases answer with success | ⟨-, lost⟩
        · exact success
        · exact (told acked lost).elim
      · rw [free] at taken
        cases taken

/-- The invariant along a run whose every step meets its conditions. -/
theorem OneUser.run {g : AuthShared b.State} {schedule : List (ι × AuthChoice)}
    (consistent : Consistent b g.store)
    (free : acknowledged → b.store.getUserByEmail email g.store = .error .notFound)
    (hashes : Along (Pool.step (handleAuth b.store)) (Pool.Guarded (Hashes s))
      (registering s email password g) schedule)
    (unclaimed : Along (Pool.step (handleAuth b.store)) (Pool.Guarded (Unclaimed b))
      (registering s email password g) schedule)
    (told : acknowledged →
      Along (Pool.step (handleAuth b.store)) (Pool.Guarded CreationAcknowledged)
      (registering s email password g) schedule) :
    OneUser s b email password acknowledged
      ((registering s email password g).run (handleAuth b.store) schedule) := by
  have nobody : ∀ i u, ¬ Created email (registering s email password g) i u := by
    rintro i u ⟨hash, mem⟩
    cases mem
  have met : Along (Pool.step (handleAuth b.store)) (Pool.Guarded fun p c o => Hashes s p c o ∧
      Unclaimed b p c o ∧ (acknowledged → CreationAcknowledged p c o))
        (registering s email password g) schedule := by
    by_cases acked : acknowledged
    · refine ((hashes.and unclaimed).and (told acked)).imp fun p l ⟨⟨own, alone⟩, heard⟩ => ?_
      unfold Pool.Guarded at own alone heard ⊢
      split
      · trivial
      · simp_all
    · refine (hashes.and unclaimed).imp fun p l ⟨own, alone⟩ => ?_
      unfold Pool.Guarded at own alone ⊢
      split
      · trivial
      · simp_all
  have start : OneUser s b email password acknowledged (registering s email password g) := by
    refine ⟨consistent, fun i hash mem => (by cases mem), ?_⟩
    rcases b.lookup email g.store with missing | ⟨u, found⟩
    · exact .inl ⟨missing, nobody⟩
    · refine .inr ⟨u, found, fun i v creator => (nobody i v creator).elim,
        fun i _ v _ creator => (nobody i v creator).elim, fun acked => ?_⟩
      rw [free acked] at found
      cases found
  exact Pool.invariant (fun p i c o k reached one todo met =>
    one.step reached todo met.1 met.2.1 met.2.2) (Pool.reached_start g _) met start

/-- The registration has returned with success. -/
def Registered {σ : Type} (p : AuthPool σ ι) (i : ι) : Prop :=
  ∃ u, (p.threads i).todo = .ret (.registered (.ok u))

omit [DecidableEq ι] in
theorem registered_iff {σ : Type} {p : AuthPool σ ι}
    (reached : p.Reached fun i => (Call.register email (password i)).prog s) (i : ι) :
    Registered p i ↔ ∃ u, Created email p i u :=
  exists_congr ((register_known s email (password i)).past (reached i)).returned

omit [DecidableEq ι] in
/-- The account of a registration that succeeded. -/
theorem OneUser.registered {b : Backend} {acknowledged : Prop} {p : AuthPool b.State ι}
    (one : OneUser s b email password acknowledged p)
    (reached : p.Reached fun i => (Call.register email (password i)).prog s) {i : ι}
    (success : Registered p i) :
    ∃ u, b.store.getUserByEmail email p.shared.store = .ok u ∧
      s.VerifiesOnly u.passwordHash (password i) ∧ ∀ j, Registered p j → i = j := by
  obtain ⟨v, creator⟩ := (registered_iff reached i).mp success
  rcases one.account with ⟨-, nobody⟩ | ⟨u, found, verifies, unique, -⟩
  · exact (nobody i v creator).elim
  · refine ⟨u, found, verifies i v creator, fun j other => ?_⟩
    obtain ⟨w, creator'⟩ := (registered_iff reached j).mp other
    exact unique i j v w creator creator'

/-- One registration of an email succeeds, a user reachable by id is found by its email,
and the password of the registration is the one that logs in. Without a registration that
succeeded none does, if the email was free and no creation went unacknowledged. -/
theorem one_registration (s : LoginService) (b : Backend) (email : String) (password : ι → String)
    {g : AuthShared b.State} {schedule : List (ι × AuthChoice)}
    (consistent : Consistent b g.store)
    (hashes : Along (Pool.step (handleAuth b.store)) (Pool.Guarded (Hashes s))
      (registering s email password g) schedule)
    (unclaimed : Along (Pool.step (handleAuth b.store)) (Pool.Guarded (Unclaimed b))
      (registering s email password g) schedule) :
    let p := (registering s email password g).run (handleAuth b.store) schedule
    (∀ i j, Registered p i → Registered p j → i = j) ∧
    (∀ id u, b.store.getUserByID id p.shared.store = .ok u →
      b.store.getUserByEmail u.email p.shared.store = .ok u) ∧
    (∀ i, Registered p i → ∀ (req : LoginRequest) (c : ℕ → AuthChoice), req.email = email →
      (LogsIn s b req c p.shared → req.password = password i) ∧
      (Answers s b c p.shared.store → req.password = password i → LogsIn s b req c p.shared)) ∧
    (b.store.getUserByEmail email g.store = .error .notFound →
      Along (Pool.step (handleAuth b.store)) (Pool.Guarded CreationAcknowledged)
        (registering s email password g) schedule →
      (∀ i, ¬ Registered p i) → ∀ (req : LoginRequest) (c : ℕ → AuthChoice), req.email = email →
        ¬ LogsIn s b req c p.shared) := by
  intro p
  have reached : p.Reached fun i => (Call.register email (password i)).prog s :=
    (Pool.reached_start g _).run (handleAuth b.store) schedule
  have one : OneUser s b email password False p :=
    .run consistent (fun h => h.elim) hashes unclaimed fun h => h.elim
  refine ⟨fun i j success other => ?_, fun id u => one.consistent.found, ?_, ?_⟩
  · obtain ⟨u, -, -, unique⟩ := one.registered reached success
    exact unique j other
  · intro i success req c own
    subst own
    obtain ⟨u, found, verifies, -⟩ := one.registered reached success
    refine ⟨fun entered => ?_, fun answers right => ?_⟩
    · obtain ⟨v, found', verified⟩ := entered.verified
      rw [found] at found'
      cases found'
      exact (verifies req.password).mp verified
    · exact one.consistent.logsIn answers found ((verifies req.password).mpr right)
  · intro free told none req c own entered
    have told : OneUser s b email password True p :=
      .run consistent (fun _ => free) hashes unclaimed fun _ => told
    obtain ⟨v, found, -⟩ := entered.verified
    rw [own] at found
    rcases told.account with ⟨missing, -⟩ | ⟨u, -, -, -, creator⟩
    · rw [found] at missing
      cases missing
    · obtain ⟨i, w, creator⟩ := creator trivial
      exact none i ((registered_iff reached i).mpr ⟨w, creator⟩)

end

/-! ## Two registrations that overlap -/

inductive Registrant
  | first | second
  deriving DecidableEq

def Registrant.password : Registrant → String
  | first => "first"
  | second => "second"

def Registrant.row (r : Registrant) : AuthChoice :=
  { uuid := if r = first then "u-0" else "u-1", passwordHash := some r.password }

/-- Both look the email up, both hash their password, both create the user. -/
def overlappingRegistrations : List (Registrant × AuthChoice) :=
  [(.first, Registrant.first.row), (.second, Registrant.second.row),
    (.first, Registrant.first.row), (.second, Registrant.second.row),
    (.first, Registrant.first.row), (.second, Registrant.second.row)]

abbrev bothRegistering {σ : Type} (store : σ) : AuthPool σ Registrant :=
  registering sampleLoginService "a@example.com" Registrant.password { store }

/-- A login of the two. -/
def loginWith (password : String) : LoginRequest :=
  { email := "a@example.com", password, lat := 0, lon := 0, ip := "9.9.9.9" }

theorem Registrant.row_hashes (r : Registrant) : ∀ hash, r.row.passwordHash = some hash →
    sampleLoginService.VerifiesOnly hash r.password := by
  intro hash answered q
  cases answered
  simp [sampleLoginService, eq_comm]

/-- Postgres refuses the second creation. -/
theorem one_registration_overlapping :
    ∃ p : AuthPool PostgresStore Registrant,
      p = (bothRegistering {}).run (handleAuth postgresStore) overlappingRegistrations ∧
      Registered p .first ∧ ¬ Registered p .second ∧
      LogsIn sampleLoginService .postgres (loginWith "first") (fun _ => {}) p.shared ∧
      ¬ LogsIn sampleLoginService .postgres (loginWith "second") (fun _ => {}) p.shared := by
  obtain ⟨unique, -, login, -⟩ := @one_registration Registrant _ sampleLoginService .postgres
    "a@example.com" Registrant.password { store := {} } overlappingRegistrations List.nodup_nil
    (show Along (Pool.step (handleAuth postgresStore)) _ _ _ from
      ⟨trivial, trivial, Registrant.row_hashes .first, Registrant.row_hashes .second,
        trivial, trivial, trivial⟩)
    (unclaimed_postgres (bothRegistering {}) overlappingRegistrations)
  have success : Registered ((bothRegistering {}).run (handleAuth postgresStore)
      overlappingRegistrations) .first := ⟨_, rfl⟩
  have login := login .first success
  refine ⟨_, rfl, success, fun other => ?_, ?_, fun entered => ?_⟩
  · cases unique .first .second success other
  · refine (login (loginWith "first") (fun _ => {}) rfl).2 ⟨fun _ => rfl, fun _ => rfl, ?_⟩ rfl
    exact fun _ => ⟨"", rfl, rfl⟩
  · exact absurd ((login (loginWith "second") (fun _ => {}) rfl).1 entered) (by decide)

/-- In memory both registrations succeed, the first user is reachable only by its id, and
the first password does not log in. -/
theorem both_registered :
    ∃ p : AuthPool MemoryStore Registrant,
      p = (bothRegistering {}).run (handleAuth memoryStore) overlappingRegistrations ∧
      Registered p .first ∧ Registered p .second ∧
      (∃ u, memoryStore.getUserByID "u-0" p.shared.store = .ok u ∧
        memoryStore.getUserByEmail u.email p.shared.store ≠ .ok u) ∧
      ¬ LogsIn sampleLoginService .memory (loginWith "first") (fun _ => {}) p.shared := by
  refine ⟨_, rfl, ⟨_, rfl⟩, ⟨_, rfl⟩, ⟨_, rfl, ?_⟩, ?_⟩
  · intro same
    have other := congrArg User.id (Except.ok.inj same)
    simp [Registrant.row] at other
  · intro entered
    obtain ⟨u, found, verified⟩ := entered.verified
    cases found
    cases verified

end VaultWatch.Gateway
