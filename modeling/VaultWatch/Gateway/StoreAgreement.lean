import VaultWatch.Gateway.Accounts
import VaultWatch.Lib.Machines

/-! Where the in-memory store stands for the Postgres one. Given the same operations the
two hold the same rows, the tables with their times cut to microseconds, until one of
them refuses what the other takes. -/
namespace VaultWatch.Gateway.Store

open VaultWatch.Lib.Run VaultWatch.Lib.Machines

/-- The methods of `UserStore` and `RefreshStore`, with their arguments; a created user
comes with the id that is generated for it. -/
inductive StoreOp
  | createUser (id email passwordHash : String)
  | getUserByEmail (email : String)
  | getUserByID (id : String)
  | updateLastLogin (userID : String) (lat lon : ℚ) (now : Time)
  | save (rt : RefreshToken)
  | get (hash : String)
  | markUsed (hash : String) (now : Time)
  | revokeFamily (familyID : String)

/-- What a caller gets back. Of an error only that it is one. -/
inductive StoreAnswer
  | error
  | done
  | user (u : User)
  | token (rt : RefreshToken)
  deriving DecidableEq

def answerOf {α : Type} (value : α → StoreAnswer) : Except StoreError α → StoreAnswer
  | .error _ => .error
  | .ok a => value a

/-- One operation on a store. -/
def AuthStore.apply {σ : Type} (S : AuthStore σ) : StoreOp → σ → StoreAnswer × σ
  | .createUser id email passwordHash, s =>
    let r := S.createUser id email passwordHash s
    (answerOf .user r.1, r.2)
  | .getUserByEmail email, s => (answerOf .user (S.getUserByEmail email s), s)
  | .getUserByID id, s => (answerOf .user (S.getUserByID id s), s)
  | .updateLastLogin userID lat lon now, s =>
    let r := S.updateLastLogin userID lat lon now s
    (answerOf (fun _ => .done) r.1, r.2)
  | .save rt, s =>
    let r := S.save rt s
    (answerOf (fun _ => .done) r.1, r.2)
  | .get hash, s => (answerOf .token (S.get hash s), s)
  | .markUsed hash now, s =>
    let r := S.markUsed hash now s
    (answerOf (fun _ => .done) r.1, r.2)
  | .revokeFamily familyID, s =>
    let r := S.revokeFamily familyID s
    (answerOf (fun _ => .done) r.1, r.2)

/-! ## What the tables make of a row -/

def User.stored (u : User) : User := { u with lastLoginAt := u.lastLoginAt.map timestamptz }

def RefreshToken.stored (rt : RefreshToken) : RefreshToken :=
  { rt with usedAt := rt.usedAt.map timestamptz, expiresAt := timestamptz rt.expiresAt }

/-- Every time of the row is a whole number of microseconds. -/
def User.Whole (u : User) : Prop := u.stored = u

def RefreshToken.Whole (rt : RefreshToken) : Prop := rt.stored = rt

/-- The tables hold the rows of the maps, in the order in which they were created. -/
structure SameRows (m : MemoryStore) (s : PostgresStore) : Prop where
  rows : s.users = m.objects.map User.stored
  users : ∀ email, m.users email = (m.objects.map User.email).findIdx? fun e => e = email
  byID : ∀ id, m.byID id = (m.objects.map User.id).findIdx? fun i => i = id
  distinct : (m.objects.map User.id).Nodup
  tokens : ∀ hash, s.tokens hash = (m.tokens hash).map RefreshToken.stored

/-- What the two stores treat alike, in the state of the maps. A new account has a new
email and id; a login and a mark are of a row that is there; a token is new and its user
is there; and a row that is read has its times in whole microseconds. -/
def Alike (m : MemoryStore) : StoreOp → Prop
  | .createUser id email _ => m.users email = none ∧ m.byID id = none
  | .getUserByEmail email => ∀ u, m.deref (m.users email) = some u → u.Whole
  | .getUserByID id => ∀ u, m.deref (m.byID id) = some u → u.Whole
  | .updateLastLogin userID _ _ _ => m.byID userID ≠ none
  | .save rt => m.tokens rt.hash = none ∧ m.byID rt.userID ≠ none
  | .get hash => ∀ rt, m.tokens hash = some rt → rt.Whole
  | .markUsed hash _ => m.tokens hash ≠ none
  | .revokeFamily _ => True

variable {m : MemoryStore} {s : PostgresStore}

theorem SameRows.empty : SameRows {} {} where
  rows := rfl
  users _ := rfl
  byID _ := rfl
  distinct := List.nodup_nil
  tokens _ := rfl

/-- A row is read alike from both exactly when the columns keep its times. -/
theorem read_same_iff {α : Type} {value : α → StoreAnswer}
    (injective : ∀ a b, value a = value b → a = b) {stored : α → α} (row : Option α) :
    answerOf value (orNotFound row) = answerOf value (orNotFound (row.map stored)) ↔
      ∀ a, row = some a → stored a = a := by
  cases row with
  | none => simp
  | some a =>
    rw [Option.map_some]
    constructor
    · intro read b own
      obtain rfl := Option.some.inj own
      exact (injective _ _ read).symm
    · exact fun kept => congrArg value (kept a rfl).symm

/-- The pointer a map holds leads to the first row with the key. -/
theorem deref_find {key : User → String} {k : String} {p : Option ℕ}
    (points : p = (m.objects.map key).findIdx? fun i => i = k) :
    m.deref p = m.objects.find? fun u => key u = k := by
  rw [MemoryStore.deref, points, List.findIdx?_map, List.find?_eq_bind_findIdx?_getElem?]
  rfl

theorem findIdx_append_new {xs : List String} {x : String}
    (new : (xs.findIdx? fun y => y = x) = none) (k : String) :
    ((xs ++ [x]).findIdx? fun y => y = k) =
      Function.update (fun k => xs.findIdx? fun y => y = k) x (some xs.length) k := by
  rw [List.findIdx?_append]
  by_cases own : k = x
  · subst own
    simp [new]
  · rw [Function.update_of_ne own]
    simp [Ne.symm own]

theorem findIdx_none {xs : List String} {x : String} :
    (xs.findIdx? fun y => y = x) = none ↔ x ∉ xs := by
  rw [List.findIdx?_eq_none_iff]
  constructor
  · intro differ mem
    simpa using differ x mem
  · intro new y mem
    simp only [decide_eq_false_iff_not]
    rintro rfl
    exact new mem

/-- An update of the row that the key points to is one of every row with that key. -/
theorem modify_eq_map {f : User → User} {id : String} {a : ℕ} {rows : List User}
    (distinct : (rows.map User.id).Nodup)
    (points : ((rows.map User.id).findIdx? fun i => i = id) = some a) :
    rows.modify a f = rows.map fun r => if r.id = id then f r else r := by
  obtain ⟨within, own, -⟩ := List.findIdx?_eq_some_iff_getElem.mp points
  have at_id : (rows.map User.id)[a] = id := by simpa using own
  refine List.ext_getElem? fun j => ?_
  rw [List.getElem?_modify, List.getElem?_map]
  cases found : rows[j]? with
  | none => rfl
  | some r =>
    have at_j : (rows.map User.id)[j]? = some r.id := by rw [List.getElem?_map, found]; rfl
    by_cases here : a = j
    · subst here
      have own_id : r.id = id := by
        rw [List.getElem?_eq_getElem within, at_id] at at_j
        exact (Option.some.inj at_j).symm
      simp [own_id]
    · have other : r.id ≠ id := by
        intro clash
        refine here ((List.getElem?_inj within distinct).mp ?_)
        rw [at_j, List.getElem?_eq_getElem within, at_id, clash]
      simp [here, other]

namespace SameRows

variable (same : SameRows m s)

include same

theorem find {key : User → String} (kept : ∀ u, key (User.stored u) = key u) {k : String}
    {p : Option ℕ} (points : p = (m.objects.map key).findIdx? fun i => i = k) :
    (s.users.find? fun u => key u = k) = (m.deref p).map User.stored := by
  rw [same.rows, List.find?_map, deref_find points]
  simp only [Function.comp_def, kept]

theorem email (email : String) :
    (s.users.find? fun u => u.email = email) = (m.deref (m.users email)).map User.stored :=
  same.find (fun _ => rfl) (same.users email)

theorem id (id : String) :
    (s.users.find? fun u => u.id = id) = (m.deref (m.byID id)).map User.stored :=
  same.find (fun _ => rfl) (same.byID id)

theorem mem_email {email : String} :
    m.users email = none ↔ ∀ u ∈ m.objects, u.email ≠ email := by
  rw [same.users, findIdx_none]
  simp

theorem mem_id {id : String} : m.byID id = none ↔ ∀ u ∈ m.objects, u.id ≠ id := by
  rw [same.byID, findIdx_none]
  simp

/-- The unique columns refuse exactly what the maps would overwrite. -/
theorem taken {id email : String} : (s.users.any fun r => r.id = id || r.email = email) = false ↔
    m.users email = none ∧ m.byID id = none := by
  rw [same.mem_email, same.mem_id, same.rows, List.any_map, List.any_eq_false]
  constructor
  · intro free
    exact ⟨fun u mem clash => free u mem (by simp [User.stored, clash]),
      fun u mem clash => free u mem (by simp [User.stored, clash])⟩
  · rintro ⟨email, id⟩ u mem clash
    rcases Bool.or_eq_true_iff.mp clash with own | own
    · exact id u mem (of_decide_eq_true own)
    · exact email u mem (of_decide_eq_true own)

theorem createUser {id email : String} (free : m.users email = none ∧ m.byID id = none)
    (passwordHash : String) :
    (s.createUser id email passwordHash).1 = .ok { id, email, passwordHash } ∧
      SameRows (m.createUser id email passwordHash).2 (s.createUser id email passwordHash).2 := by
  have taken := same.taken.mpr free
  have made : s.createUser id email passwordHash =
      (.ok { id, email, passwordHash },
        { s with users := s.users ++ [{ id, email, passwordHash }] }) := by
    simp [PostgresStore.createUser, taken]
  rw [made]
  refine ⟨rfl, ?_, fun email' => ?_, fun id' => ?_, ?_, same.tokens⟩
  · simp [MemoryStore.createUser, same.rows, User.stored]
  · show Function.update m.users email (some m.objects.length) email' = _
    rw [MemoryStore.createUser, List.map_append, List.map_singleton,
      findIdx_append_new (by rw [← same.users]; exact free.1), List.length_map,
      ← funext same.users]
  · show Function.update m.byID id (some m.objects.length) id' = _
    rw [MemoryStore.createUser, List.map_append, List.map_singleton,
      findIdx_append_new (by rw [← same.byID]; exact free.2), List.length_map,
      ← funext same.byID]
  · have new := same.mem_id.mp free.2
    simp only [MemoryStore.createUser, List.map_append, List.map_singleton]
    refine List.nodup_append.mpr ⟨same.distinct, by simp, ?_⟩
    intro i mem j own
    obtain ⟨u, held, rfl⟩ := List.mem_map.mp mem
    rw [List.mem_singleton.mp own]
    exact new u held

theorem updateLastLogin {userID : String} (held : m.byID userID ≠ none) (lat lon : ℚ)
    (now : Time) : (m.updateLastLogin userID lat lon now).1 = .ok () ∧
      SameRows (m.updateLastLogin userID lat lon now).2
        (s.updateLastLogin userID lat lon now).2 := by
  obtain ⟨a, points⟩ := Option.ne_none_iff_exists'.mp held
  have made : m.updateLastLogin userID lat lon now = (.ok (), { m with
      objects := m.objects.modify a fun u => u.seenAt lat lon now }) := by
    simp [MemoryStore.updateLastLogin, points]
  have rows := modify_eq_map (f := fun u => u.seenAt lat lon now) same.distinct
    ((same.byID userID).symm.trans points)
  have column {key : User → String} (kept : ∀ u, key (User.seenAt u lat lon now) = key u) :
      (m.objects.modify a fun u => u.seenAt lat lon now).map key = m.objects.map key := by
    rw [rows, List.map_map]
    refine List.map_congr_left fun u _ => ?_
    simp only [Function.comp_apply]
    split
    · exact kept u
    · rfl
  rw [made]
  refine ⟨rfl, ?_, fun email => ?_, fun id => ?_, ?_, same.tokens⟩
  · simp only [PostgresStore.updateLastLogin, same.rows, rows, List.map_map]
    refine List.map_congr_left fun u _ => ?_
    simp only [Function.comp_apply]
    by_cases own : u.id = userID
    · simp [own, User.stored]
    · simp [own, User.stored]
  · rw [column fun _ => rfl]
    exact same.users email
  · rw [column fun _ => rfl]
    exact same.byID id
  · rw [column fun _ => rfl]
    exact same.distinct

/-- Operations on tokens leave the accounts. -/
theorem of_tokens {m' : MemoryStore} {s' : PostgresStore} (accounts : m'.accounts = m.accounts)
    (users : s'.users = s.users)
    (tokens : ∀ hash, s'.tokens hash = (m'.tokens hash).map RefreshToken.stored) :
    SameRows m' s' := by
  obtain ⟨objects, byEmail, byID⟩ :
      m'.objects = m.objects ∧ m'.users = m.users ∧ m'.byID = m.byID := by
    simpa [MemoryStore.accounts] using accounts
  refine ⟨?_, ?_, ?_, ?_, tokens⟩
  · rw [users, objects]
    exact same.rows
  · rw [byEmail, objects]
    exact same.users
  · rw [byID, objects]
    exact same.byID
  · rw [objects]
    exact same.distinct

/-- The key and the reference refuse a token that is there, or whose user is not. -/
theorem save_ok (rt : RefreshToken) : (s.save rt).1 = .ok () ↔
    m.tokens rt.hash = none ∧ m.byID rt.userID ≠ none := by
  have new : (s.refreshTokens.any fun r => r.hash = rt.hash) = false ↔ m.tokens rt.hash = none := by
    have stored := same.tokens rt.hash
    rw [PostgresStore.tokens] at stored
    rw [← Option.map_eq_none_iff (f := RefreshToken.stored), ← stored, List.find?_eq_none,
      List.any_eq_false]
  have known : (s.users.all fun r => r.id ≠ rt.userID) = true ↔ m.byID rt.userID = none := by
    rw [same.mem_id, same.rows, List.all_map, List.all_eq_true]
    exact forall₂_congr fun u _ => decide_eq_true_iff
  rw [← new, ne_eq, ← known]
  unfold PostgresStore.save
  cases (s.refreshTokens.any fun r => decide (r.hash = rt.hash)) <;>
    cases (s.users.all fun r => decide (r.id ≠ rt.userID)) <;> simp

theorem save {rt : RefreshToken} (fresh : m.tokens rt.hash = none ∧ m.byID rt.userID ≠ none) :
    SameRows (m.save rt).2 (s.save rt).2 := by
  have taken := (same.save_ok rt).mpr fresh
  have users : (s.save rt).2.users = s.users := by
    unfold PostgresStore.save
    split_ifs <;> rfl
  refine same.of_tokens rfl users fun hash => ?_
  rcases postgresStore_tokens.save rt s with refused | ⟨-, tokens⟩
  · rw [show s.save rt = (.error .other, s) from refused] at taken
    cases taken
  · refine (congrFun tokens hash).trans ?_
    show _ = (Function.update m.tokens rt.hash (some rt) hash).map RefreshToken.stored
    by_cases own : hash = rt.hash
    · subst own
      simp [RefreshToken.stored]
    · rw [Function.update_of_ne own, Function.update_of_ne own, same.tokens]

theorem markUsed {hash : String} (held : m.tokens hash ≠ none) (now : Time) :
    (m.markUsed hash now).1 = .ok () ∧
      SameRows (m.markUsed hash now).2 (s.markUsed hash now).2 := by
  obtain ⟨rt, found⟩ := Option.ne_none_iff_exists'.mp held
  refine ⟨by simp [MemoryStore.markUsed, found], same.of_tokens ?_ rfl fun hash' => ?_⟩
  · simp [MemoryStore.markUsed, found, MemoryStore.accounts]
  · refine (congrFun (postgresStore_tokens.markUsed hash now s) hash').trans ?_
    refine Eq.trans ?_ (congrArg (Option.map RefreshToken.stored)
      (congrFun (memoryStore_tokens.markUsed hash now m) hash')).symm
    by_cases own : hash' = hash
    · subst own
      rw [Function.update_self, Function.update_self, same.tokens, Option.map_map, Option.map_map]
      rfl
    · rw [Function.update_of_ne own, Function.update_of_ne own, same.tokens]

theorem revokeFamily (familyID : String) :
    SameRows (m.revokeFamily familyID).2 (s.revokeFamily familyID).2 := by
  refine same.of_tokens rfl rfl fun hash => ?_
  refine (congrFun (postgresStore_tokens.revokeFamily familyID s).2 hash).trans ?_
  show _ = ((m.tokens hash).map _).map RefreshToken.stored
  rw [same.tokens, Option.map_map, Option.map_map]
  refine congrArg (Option.map · (m.tokens hash)) (funext fun rt => ?_)
  simp only [Function.comp_apply, RefreshToken.stored]
  by_cases own : rt.familyID = familyID
  · simp [own]
  · simp [own]

/-! ## A step of both -/

/-- A step that the stores treat alike. -/
theorem agree (op : StoreOp) (alike : Alike m op) :
    (memoryStore.apply op m).1 = (postgresStore.apply op s).1 ∧
      SameRows (memoryStore.apply op m).2 (postgresStore.apply op s).2 := by
  cases op with
  | createUser id email passwordHash =>
    obtain ⟨answer, next⟩ := same.createUser alike passwordHash
    exact ⟨congrArg (answerOf .user) answer.symm, next⟩
  | getUserByEmail email =>
    refine ⟨?_, same⟩
    show answerOf .user _ = answerOf .user (orNotFound (s.users.find? _))
    rw [same.email]
    exact (read_same_iff (fun _ _ => StoreAnswer.user.inj) _).mpr alike
  | getUserByID id =>
    refine ⟨?_, same⟩
    show answerOf .user _ = answerOf .user (orNotFound (s.users.find? _))
    rw [same.id]
    exact (read_same_iff (fun _ _ => StoreAnswer.user.inj) _).mpr alike
  | updateLastLogin userID lat lon now =>
    obtain ⟨answer, next⟩ := same.updateLastLogin alike lat lon now
    exact ⟨congrArg (answerOf _) answer, next⟩
  | save rt =>
    refine ⟨?_, same.save alike⟩
    show StoreAnswer.done = answerOf _ (s.save rt).1
    rw [(same.save_ok rt).mpr alike]
    rfl
  | get hash =>
    refine ⟨?_, same⟩
    show answerOf .token _ = answerOf .token (orNotFound (s.tokens hash))
    rw [same.tokens]
    exact (read_same_iff (fun _ _ => StoreAnswer.token.inj) _).mpr alike
  | markUsed hash now =>
    obtain ⟨answer, next⟩ := same.markUsed alike now
    exact ⟨congrArg (answerOf _) answer, next⟩
  | revokeFamily familyID => exact ⟨rfl, same.revokeFamily familyID⟩

/-- A step that they do not treat alike is answered differently at once. -/
theorem differ (op : StoreOp) (unlike : ¬ Alike m op) :
    (memoryStore.apply op m).1 ≠ (postgresStore.apply op s).1 := by
  cases op with
  | createUser id email passwordHash =>
    have taken := mt same.taken.mp unlike
    have refused : s.createUser id email passwordHash = (.error .other, s) :=
      if_pos (Bool.not_eq_false _ ▸ taken)
    show StoreAnswer.user _ ≠ answerOf .user (s.createUser id email passwordHash).1
    rw [refused]
    exact StoreAnswer.noConfusion
  | getUserByEmail email =>
    show answerOf .user _ ≠ answerOf .user (orNotFound (s.users.find? _))
    rw [same.email]
    exact mt (read_same_iff (fun _ _ => StoreAnswer.user.inj) _).mp unlike
  | getUserByID id =>
    show answerOf .user _ ≠ answerOf .user (orNotFound (s.users.find? _))
    rw [same.id]
    exact mt (read_same_iff (fun _ _ => StoreAnswer.user.inj) _).mp unlike
  | updateLastLogin userID lat lon now =>
    have missing : m.byID userID = none := not_not.mp unlike
    show answerOf _ (m.updateLastLogin userID lat lon now).1 ≠ .done
    simp [MemoryStore.updateLastLogin, missing, answerOf]
  | save rt =>
    show StoreAnswer.done ≠ answerOf _ (s.save rt).1
    intro taken
    refine unlike ((same.save_ok rt).mp ?_)
    cases saved : (s.save rt).1 with
    | error e => rw [saved] at taken; cases taken
    | ok u => rfl
  | get hash =>
    show answerOf .token _ ≠ answerOf .token (orNotFound (s.tokens hash))
    rw [same.tokens]
    exact mt (read_same_iff (fun _ _ => StoreAnswer.token.inj) _).mp unlike
  | markUsed hash now =>
    have missing : m.tokens hash = none := not_not.mp unlike
    show answerOf _ (m.markUsed hash now).1 ≠ .done
    simp [MemoryStore.markUsed, missing, answerOf]
  | revokeFamily familyID => exact absurd trivial unlike

end SameRows

/-- From empty stores, with the same ids generated: the two stores succeed and fail alike
and return the same rows, in every sequence of operations, exactly when each of its
operations is one they treat alike. -/
theorem stores_agree_iff (ops : List StoreOp) :
    outputs memoryStore.apply {} ops = outputs postgresStore.apply {} ops ↔
      Along (fun m op => (memoryStore.apply op m).2) Alike {} ops :=
  outputs_eq_iff (fun _ _ op same alike => same.agree op alike)
    (fun _ _ op same unlike => same.differ op unlike) SameRows.empty ops

/-- A second account under one email: the map is overwritten, the unique column refuses. -/
theorem second_account_differs :
    outputs memoryStore.apply {} [
      .createUser "0b7f6a52-8d3c-4f6e-9a41-2c5d7e8f9a10" "own@example.com" "hash-1",
      .createUser "7c1e9d34-5b2a-4c8f-8e60-1f3a5b7c9d21" "own@example.com" "hash-2"] ≠
    outputs postgresStore.apply {} [
      .createUser "0b7f6a52-8d3c-4f6e-9a41-2c5d7e8f9a10" "own@example.com" "hash-1",
      .createUser "7c1e9d34-5b2a-4c8f-8e60-1f3a5b7c9d21" "own@example.com" "hash-2"] := by
  decide

end VaultWatch.Gateway.Store
