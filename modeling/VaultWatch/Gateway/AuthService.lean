import VaultWatch.Gateway.Store
import VaultWatch.Lib.Interleave

/-! `AuthService.Refresh` (`internal/service/auth_service.go`) as a program over
atomic operations: the store methods, the clock, the token issuer, the random
source and the event publisher. Calls of one service run concurrently as a pool
of such programs over one store; what the environment decides at each
operation (a store failure, a clock reading, a drawn token) is a `Choice`. -/
namespace VaultWatch.Gateway

open VaultWatch.Gateway.Store VaultWatch.Lib.Interleave

/-- The values of an event's detail map. -/
inductive DetailValue
  | text (s : String)
  | count (n : Nat)
  | number (q : ℚ)
  | instant (t : Time)
  deriving DecidableEq

structure SecurityEvent where
  type : String
  accountID : String := ""
  severity : String
  detail : List (String × DetailValue)
  timestamp : Time := 0
  deriving DecidableEq

inductive AuthError
  | tokenReuse
  | invalidRefresh
  | store (e : StoreError)
  | accessToken
  | randomSource
  deriving DecidableEq

structure TokenPair where
  accessToken : String
  refreshToken : String
  deriving DecidableEq

inductive Op
  | get (hash : String)
  | markUsed (hash : String) (now : Time)
  | getUserByID (id : String)
  | save (rt : RefreshToken)
  | revokeFamily (familyID : String)
  | now
  /-- `Tokens.IssueAccessToken`: an access token, unless signing fails. -/
  | issueAccessToken (userID email : String)
  /-- The plaintext of `auth.GenerateRefreshToken`, unless the random source fails. -/
  | generateRefreshToken
  | publish (event : SecurityEvent)
  deriving DecidableEq

@[reducible] def Res : Op → Type
  | .get _ => Except StoreError RefreshToken
  | .markUsed _ _ => Except StoreError Unit
  | .getUserByID _ => Except StoreError User
  | .save _ => Except StoreError Unit
  | .revokeFamily _ => Except StoreError Unit
  | .now => Time
  | .issueAccessToken _ _ => Option String
  | .generateRefreshToken => Option String
  | .publish _ => Unit

abbrev RefreshProg := Prog Op Res

/-- One operation, answered. -/
abbrev exec (o : Op) : RefreshProg (Res o) := Prog.op o

/-- `hashRefreshToken` is `auth.HashRefreshToken`, SHA-256 in hex. -/
structure AuthService where
  hashRefreshToken : String → String
  refreshTTL : Time := 7 * 24 * 3600 * 1000000000

namespace AuthService

def publish (event : SecurityEvent) : RefreshProg Unit := do
  let now ← exec .now
  exec (.publish { event with timestamp := now })

def issueTokenPair (s : AuthService) (userID email familyID : String) :
    RefreshProg (Except AuthError TokenPair) := do
  match ← exec (.issueAccessToken userID email) with
  | none => return .error .accessToken
  | some access =>
    match ← exec .generateRefreshToken with
    | none => return .error .randomSource
    | some plain =>
      let now ← exec .now
      match ← exec (.save { hash := s.hashRefreshToken plain, userID, familyID,
                               expiresAt := now + s.refreshTTL }) with
      | .error e => return .error (.store e)
      | .ok () => return .ok ⟨access, plain⟩

/-- A used or revoked token is presented: the family is burnt. -/
def reuse (rt : RefreshToken) : RefreshProg (Except AuthError TokenPair) := do
  let _ ← exec (.revokeFamily rt.familyID)  -- the error is discarded
  publish { type := "refresh_token_reuse", accountID := rt.userID, severity := "critical",
            detail := [("family_id", .text rt.familyID)] }
  return .error .tokenReuse

/-- A live token is exchanged. -/
def rotate (s : AuthService) (hash : String) (rt : RefreshToken) :
    RefreshProg (Except AuthError TokenPair) := do
  let now ← exec .now
  match ← exec (.markUsed hash now) with
  | .error e => return .error (.store e)
  | .ok () =>
    match ← exec (.getUserByID rt.userID) with
    | .error e => return .error (.store e)
    | .ok user => s.issueTokenPair user.id user.email rt.familyID

def refresh (s : AuthService) (plainToken : String) :
    RefreshProg (Except AuthError TokenPair) := do
  let hash := s.hashRefreshToken plainToken
  match ← exec (.get hash) with
  | .error _ => return .error .invalidRefresh
  | .ok rt =>
    if rt.revoked || rt.usedAt.isSome then reuse rt
    else
      let now ← exec .now
      if rt.expiresAt < now then return .error .invalidRefresh
      else s.rotate hash rt

end AuthService

/-! ## The environment -/

/-- How a store operation can fail. -/
inductive Fault
  | notExecuted
  /-- It took effect, but its acknowledgement was lost. -/
  | unacknowledged
  deriving DecidableEq

/-- What the environment decides when an operation executes. -/
structure Choice where
  fault : Option Fault := none
  now : Time := 0
  accessToken : Option String := some ""
  refreshToken : Option String := some ""
  deriving DecidableEq

/-- What concurrent calls share: the store, and the events published so far. -/
structure Shared (σ : Type) where
  store : σ
  published : List SecurityEvent := []

def reading {α : Type} (f : Option Fault) (answer : Except StoreError α) : Except StoreError α :=
  if f = none then answer else .error .other

def writing {σ α : Type} (f : Option Fault) (method : σ → Except StoreError α × σ)
    (g : Shared σ) : Except StoreError α × Shared σ :=
  match f with
  | none => ((method g.store).1, { g with store := (method g.store).2 })
  | some .notExecuted => (.error .other, g)
  | some .unacknowledged => (.error .other, { g with store := (method g.store).2 })

def handle {σ : Type} (S : AuthStore σ) (c : Choice) : (o : Op) → Shared σ → Res o × Shared σ
  | .get hash, g => (reading c.fault (S.get hash g.store), g)
  | .markUsed hash now, g => writing c.fault (S.markUsed hash now) g
  | .getUserByID id, g => (reading c.fault (S.getUserByID id g.store), g)
  | .save rt, g => writing c.fault (S.save rt) g
  | .revokeFamily familyID, g => writing c.fault (S.revokeFamily familyID) g
  | .now, g => (c.now, g)
  | .issueAccessToken _ _, g => (c.accessToken, g)
  | .generateRefreshToken, g => (c.refreshToken, g)
  | .publish event, g => ((), { g with published := g.published ++ [event] })

/-- The store `cmd/gateway` chooses: Postgres when a database is configured,
the in-memory one otherwise. -/
inductive Backend
  | memory
  | postgres

namespace Backend

@[reducible] def State : Backend → Type
  | .memory => MemoryStore
  | .postgres => PostgresStore

def store : (b : Backend) → AuthStore b.State
  | .memory => memoryStore
  | .postgres => postgresStore

def tokens : (b : Backend) → b.State → String → Option RefreshToken
  | .memory => MemoryStore.tokens
  | .postgres => PostgresStore.tokens

def column : Backend → Time → Time
  | .memory => id
  | .postgres => timestamptz

theorem tokenStore : ∀ b : Backend, TokenStore b.store b.tokens b.column
  | .memory => memoryStore_tokens
  | .postgres => postgresStore_tokens

end Backend

/-- Concurrent `Refresh` calls over a store of backend `b`. -/
abbrev Calls (b : Backend) (ι : Type) :=
  Pool ι (Shared b.State) Op Res (Except AuthError TokenPair)

end VaultWatch.Gateway
