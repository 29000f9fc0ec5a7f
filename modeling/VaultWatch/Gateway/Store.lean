import Mathlib.Data.Rat.Defs
import Mathlib.Logic.Function.Basic

/-! The gateway's persistence layer (`internal/store`): the two interfaces, the
in-memory maps and the Postgres tables behind them. Every method is one atomic
function of the store, as the mutex or the single SQL statement makes it. What
the authentication service relies on is stated once, over the stored tokens by
hash (`TokenStore`), and proved of both implementations. -/
namespace VaultWatch.Gateway.Store

/-- Nanoseconds since the Unix epoch. -/
abbrev Time := Int

structure User where
  id : String
  email : String
  passwordHash : String
  lastLoginLat : Option ℚ := none
  lastLoginLon : Option ℚ := none
  lastLoginAt : Option Time := none
  deriving DecidableEq

structure RefreshToken where
  hash : String
  userID : String
  familyID : String
  revoked : Bool := false
  usedAt : Option Time := none
  expiresAt : Time
  deriving DecidableEq

inductive StoreError
  | notFound
  /-- Any error of the driver or the database. -/
  | other
  deriving DecidableEq

/-- `UserStore` and `RefreshStore`. The id that `CreateUser` draws is an
argument; a method that only reads returns no store. -/
structure AuthStore (σ : Type) where
  createUser (id email passwordHash : String) : σ → Except StoreError User × σ
  getUserByEmail (email : String) : σ → Except StoreError User
  getUserByID (id : String) : σ → Except StoreError User
  updateLastLogin (userID : String) (lat lon : ℚ) (now : Time) : σ → Except StoreError Unit × σ
  save (rt : RefreshToken) : σ → Except StoreError Unit × σ
  get (hash : String) : σ → Except StoreError RefreshToken
  markUsed (hash : String) (now : Time) : σ → Except StoreError Unit × σ
  revokeFamily (familyID : String) : σ → Except StoreError Unit × σ

def orNotFound {α : Type} : Option α → Except StoreError α
  | some a => .ok a
  | none => .error .notFound

/-! ## The maps -/

/-- `users` and `byID` hold pointers into `objects`: the same `*User` is
reachable by email and by id. -/
structure MemoryStore where
  objects : List User := []
  users : String → Option Nat := fun _ => none
  byID : String → Option Nat := fun _ => none
  tokens : String → Option RefreshToken := fun _ => none

namespace MemoryStore

def deref (m : MemoryStore) (p : Option Nat) : Option User := p.bind fun a => m.objects[a]?

def createUser (id email passwordHash : String) (m : MemoryStore) :
    Except StoreError User × MemoryStore :=
  let u : User := { id, email, passwordHash }
  (.ok u, { m with
    objects := m.objects ++ [u]
    users := Function.update m.users email (some m.objects.length)
    byID := Function.update m.byID id (some m.objects.length) })

def getUserByEmail (email : String) (m : MemoryStore) : Except StoreError User :=
  orNotFound (m.deref (m.users email))

def getUserByID (id : String) (m : MemoryStore) : Except StoreError User :=
  orNotFound (m.deref (m.byID id))

def updateLastLogin (userID : String) (lat lon : ℚ) (now : Time) (m : MemoryStore) :
    Except StoreError Unit × MemoryStore :=
  match m.byID userID with
  | none => (.error .notFound, m)
  | some a => (.ok (), { m with objects := m.objects.modify a fun u =>
      { u with lastLoginLat := some lat, lastLoginLon := some lon, lastLoginAt := some now } })

def save (rt : RefreshToken) (m : MemoryStore) : Except StoreError Unit × MemoryStore :=
  (.ok (), { m with tokens := Function.update m.tokens rt.hash (some rt) })

def get (hash : String) (m : MemoryStore) : Except StoreError RefreshToken :=
  orNotFound (m.tokens hash)

def markUsed (hash : String) (now : Time) (m : MemoryStore) : Except StoreError Unit × MemoryStore :=
  match m.tokens hash with
  | none => (.error .notFound, m)
  | some rt => (.ok (), { m with
      tokens := Function.update m.tokens hash (some { rt with usedAt := some now }) })

def revokeFamily (familyID : String) (m : MemoryStore) : Except StoreError Unit × MemoryStore :=
  (.ok (), { m with tokens := fun h => (m.tokens h).map fun rt =>
    if rt.familyID = familyID then { rt with revoked := true } else rt })

end MemoryStore

def memoryStore : AuthStore MemoryStore where
  createUser := MemoryStore.createUser
  getUserByEmail := MemoryStore.getUserByEmail
  getUserByID := MemoryStore.getUserByID
  updateLastLogin := MemoryStore.updateLastLogin
  save := MemoryStore.save
  get := MemoryStore.get
  markUsed := MemoryStore.markUsed
  revokeFamily := MemoryStore.revokeFamily

/-! ## The tables -/

/-- A `TIMESTAMPTZ` column keeps microseconds. -/
def timestamptz (t : Time) : Time := t / 1000 * 1000

/-- The rows of `users` and `refresh_tokens`; ids are UUIDs in the text form
`uuid.NewString` gives them, which the columns return unchanged. -/
structure PostgresStore where
  users : List User := []
  refreshTokens : List RefreshToken := []

namespace PostgresStore

/-- `users.id` is the primary key and `users.email` is unique. -/
def createUser (id email passwordHash : String) (s : PostgresStore) :
    Except StoreError User × PostgresStore :=
  let u : User := { id, email, passwordHash }
  if s.users.any fun r => r.id = id || r.email = email then (.error .other, s)
  else (.ok u, { s with users := s.users ++ [u] })

def getUserByEmail (email : String) (s : PostgresStore) : Except StoreError User :=
  orNotFound (s.users.find? fun r => r.email = email)

def getUserByID (id : String) (s : PostgresStore) : Except StoreError User :=
  orNotFound (s.users.find? fun r => r.id = id)

/-- An `UPDATE` that matches no row is not an error. -/
def updateLastLogin (userID : String) (lat lon : ℚ) (now : Time) (s : PostgresStore) :
    Except StoreError Unit × PostgresStore :=
  (.ok (), { s with users := s.users.map fun r => if r.id = userID then
      { r with lastLoginLat := some lat, lastLoginLon := some lon,
               lastLoginAt := some (timestamptz now) }
    else r })

/-- `refresh_tokens.hash` is the primary key and `user_id` refers to a user. -/
def save (rt : RefreshToken) (s : PostgresStore) : Except StoreError Unit × PostgresStore :=
  if s.refreshTokens.any fun r => r.hash = rt.hash then (.error .other, s)
  else if s.users.all fun r => r.id ≠ rt.userID then (.error .other, s)
  else (.ok (), { s with refreshTokens := s.refreshTokens ++ [{ rt with
      usedAt := rt.usedAt.map timestamptz
      expiresAt := timestamptz rt.expiresAt }] })

def get (hash : String) (s : PostgresStore) : Except StoreError RefreshToken :=
  orNotFound (s.refreshTokens.find? fun r => r.hash = hash)

def markUsed (hash : String) (now : Time) (s : PostgresStore) :
    Except StoreError Unit × PostgresStore :=
  (.ok (), { s with refreshTokens := s.refreshTokens.map fun r =>
    if r.hash = hash then { r with usedAt := some (timestamptz now) } else r })

def revokeFamily (familyID : String) (s : PostgresStore) : Except StoreError Unit × PostgresStore :=
  (.ok (), { s with refreshTokens := s.refreshTokens.map fun r =>
    if r.familyID = familyID then { r with revoked := true } else r })

end PostgresStore

def postgresStore : AuthStore PostgresStore where
  createUser := PostgresStore.createUser
  getUserByEmail := PostgresStore.getUserByEmail
  getUserByID := PostgresStore.getUserByID
  updateLastLogin := PostgresStore.updateLastLogin
  save := PostgresStore.save
  get := PostgresStore.get
  markUsed := PostgresStore.markUsed
  revokeFamily := PostgresStore.revokeFamily

/-! ## The stored tokens by hash -/

/-- What the methods do to the stored tokens, whichever store holds them:
`tokens` reads them by hash, `column` is what a column makes of a time. -/
structure TokenStore {σ : Type} (S : AuthStore σ) (tokens : σ → String → Option RefreshToken)
    (column : Time → Time) : Prop where
  get : ∀ hash s, S.get hash s = orNotFound (tokens s hash)
  save : ∀ rt s, S.save rt s = (.error .other, s) ∨
    (S.save rt s).1 = .ok () ∧ tokens (S.save rt s).2 = Function.update (tokens s) rt.hash
      (some { rt with usedAt := rt.usedAt.map column, expiresAt := column rt.expiresAt })
  markUsed : ∀ hash now s, tokens (S.markUsed hash now s).2 = Function.update (tokens s) hash
    ((tokens s hash).map fun rt => { rt with usedAt := some (column now) })
  revokeFamily : ∀ familyID s, (S.revokeFamily familyID s).1 = .ok () ∧
    tokens (S.revokeFamily familyID s).2 = fun h => (tokens s h).map fun rt =>
      if rt.familyID = familyID then { rt with revoked := true } else rt

theorem memoryStore_tokens : TokenStore memoryStore MemoryStore.tokens id where
  get hash s := rfl
  save rt s := .inr ⟨rfl, by simp [memoryStore, MemoryStore.save]⟩
  markUsed hash now s := by
    simp only [memoryStore, MemoryStore.markUsed]
    cases h : s.tokens hash with
    | none => exact (Function.update_eq_self_iff.mpr (by rw [h]; rfl)).symm
    | some rt => rfl
  revokeFamily familyID s := ⟨rfl, rfl⟩

/-- The row of a hash. -/
def PostgresStore.tokens (s : PostgresStore) (hash : String) : Option RefreshToken :=
  s.refreshTokens.find? fun r => r.hash = hash

/-- An `UPDATE` that leaves the key column alone updates each key's row. -/
theorem find?_map_of_hash {f : RefreshToken → RefreshToken} (hf : ∀ r, (f r).hash = r.hash)
    (rows : List RefreshToken) (hash : String) :
    ((rows.map f).find? fun r => r.hash = hash) = (rows.find? fun r => r.hash = hash).map f := by
  rw [List.find?_map]
  simp only [Function.comp_def, hf]

theorem PostgresStore.tokens_hash {s : PostgresStore} {hash : String} {rt : RefreshToken}
    (h : s.tokens hash = some rt) : rt.hash = hash := by
  simpa using List.find?_some h

theorem postgresStore_tokens :
    TokenStore postgresStore PostgresStore.tokens timestamptz where
  get hash s := rfl
  save rt s := by
    simp only [postgresStore, PostgresStore.save]
    split
    · exact .inl rfl
    next hnew =>
      split
      · exact .inl rfl
      · refine .inr ⟨rfl, ?_⟩
        funext h
        by_cases hh : h = rt.hash
        · subst hh
          have habsent : s.refreshTokens.find? (fun r => r.hash = rt.hash) = none := by
            simpa [List.find?_eq_none] using hnew
          simp [PostgresStore.tokens, List.find?_append, habsent]
        · simp [PostgresStore.tokens, List.find?_append, Function.update_of_ne hh, Ne.symm hh]
  markUsed hash now s := by
    funext h
    have hrow : ∀ r : RefreshToken, (if r.hash = hash then
        { r with usedAt := some (timestamptz now) } else r).hash = r.hash := by
      intro r; split <;> rfl
    refine (find?_map_of_hash hrow s.refreshTokens h).trans ?_
    show (s.tokens h).map _ = _
    by_cases hh : h = hash
    · subst hh
      rw [Function.update_self]
      cases hf : s.tokens h with
      | none => rfl
      | some rt => simp [PostgresStore.tokens_hash hf]
    · rw [Function.update_of_ne hh]
      cases hf : s.tokens h with
      | none => rfl
      | some rt => simp [PostgresStore.tokens_hash hf, hh]
  revokeFamily familyID s := by
    refine ⟨rfl, funext fun h => ?_⟩
    simp only [postgresStore, PostgresStore.revokeFamily, PostgresStore.tokens]
    exact find?_map_of_hash (fun r => by split <;> rfl) _ _

end VaultWatch.Gateway.Store
