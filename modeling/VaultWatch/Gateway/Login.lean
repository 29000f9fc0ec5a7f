import VaultWatch.Gateway.AuthService
import VaultWatch.Gateway.BruteForce
import VaultWatch.Gateway.Travel
import VaultWatch.Lib.Trace
import Mathlib.Algebra.Order.Field.Rat

/-! `AuthService.Register` and `Login` (`internal/service/auth_service.go`) beside
`Refresh`: the operations they add, the programs, and the environment. A call is
one of the three, and calls of one service run concurrently as a pool. -/
namespace VaultWatch.Gateway

open VaultWatch.Gateway.Store VaultWatch.Lib.Interleave VaultWatch.Lib.Exact

structure LoginRequest where
  email : String
  password : String
  lat : ℚ
  lon : ℚ
  ip : String
  deriving DecidableEq

/-- The two trackers of the service. -/
inductive Counter
  | ip | account
  deriving DecidableEq

inductive AuthOp
  /-- An operation of `Refresh`. -/
  | base (o : Op)
  | getUserByEmail (email : String)
  | createUser (email passwordHash : String)
  | updateLastLogin (userID : String) (lat lon : ℚ) (now : Time)
  /-- `auth.HashPassword`, unless the random source fails. -/
  | hashPassword (password : String)
  | newUUID
  | recordFailure (counter : Counter) (key : String)
  | reset (counter : Counter) (key : String)
  deriving DecidableEq

@[reducible] def AuthRes : AuthOp → Type
  | .base o => Res o
  | .getUserByEmail _ => Except StoreError User
  | .createUser _ _ => Except StoreError User
  | .updateLastLogin _ _ _ _ => Except StoreError Unit
  | .hashPassword _ => Option String
  | .newUUID => String
  | .recordFailure _ _ => Bool × Nat
  | .reset _ _ => Unit

abbrev AuthProg := Prog AuthOp AuthRes

/-- One operation, answered. -/
abbrev perform (o : AuthOp) : AuthProg (AuthRes o) := Prog.op o

/-- A program of `Refresh` among the operations of the whole service. -/
abbrev based {α : Type} (p : RefreshProg α) : AuthProg α := p.translate .base fun _ r => r

inductive RegisterError
  | emailTaken
  | passwordHash
  | store (e : StoreError)
  deriving DecidableEq

inductive LoginError
  | invalidCredentials
  | service (e : AuthError)
  deriving DecidableEq

/-- `verifyPassword` is `auth.VerifyPassword` of a hash and a password, `none` for
an error; `trig` are the functions of package `math`. -/
structure LoginService extends AuthService where
  verifyPassword : String → String → Option Bool
  trig : Trig ℚ

def ipKey (ip : String) : String := "ip:" ++ ip

def accountKey (email : String) : String := "account:" ++ email

namespace LoginService

def publish (event : SecurityEvent) : AuthProg Unit := based (AuthService.publish event)

def register (email password : String) : AuthProg (Except RegisterError User) := do
  match ← perform (.getUserByEmail email) with
  | .ok _ => return .error .emailTaken
  | .error _ =>
    match ← perform (.hashPassword password) with
    | none => return .error .passwordHash
    | some hash =>
      match ← perform (.createUser email hash) with
      | .error e => return .error (.store e)
      | .ok user => return .ok user

/-- Counts a failure and publishes it if that reaches the threshold. -/
def countFailure (counter : Counter) (key : String) (event : Nat → SecurityEvent) :
    AuthProg Unit := do
  let counted ← perform (.recordFailure counter key)
  if counted.1 then publish (event counted.2) else return

def bruteForceIP (key : String) (count : Nat) : SecurityEvent where
  type := "brute_force_ip"
  severity := "critical"
  detail := [("ip_key", .text key), ("failure_count", .count count)]

def bruteForceAccount (email : String) (count : Nat) : SecurityEvent where
  type := "brute_force_account"
  severity := "critical"
  detail := [("email", .text email), ("failure_count", .count count)]

def recordFailure (req : LoginRequest) : AuthProg Unit := do
  countFailure .ip (ipKey req.ip) (bruteForceIP (ipKey req.ip))
  countFailure .account (accountKey req.email) (bruteForceAccount req.email)

def refuse (req : LoginRequest) : AuthProg (Except LoginError TokenPair) := do
  recordFailure req
  return .error .invalidCredentials

variable (s : LoginService)

def impossibleTravel (user : User) (last : Time) (result : TravelResult ℚ) : SecurityEvent where
  type := "impossible_travel"
  accountID := user.id
  severity := "high"
  detail := [("speed_kmh", .number result.speedKmh), ("distance_km", .number result.distanceKm),
    ("prior_login", .instant last)]

/-- Compares the login with the last one the user copy remembers. -/
def checkTravel (req : LoginRequest) (user : User) : AuthProg Unit :=
  match user.lastLoginAt, user.lastLoginLat, user.lastLoginLon with
  | some last, some lat, some lon => do
    let now ← perform (.base .now)
    let result := checkImpossibleTravel s.trig ⟨lat, lon, last⟩ ⟨req.lat, req.lon, now⟩
    if result.impossible then publish (impossibleTravel user last result) else return
  | _, _, _ => return

/-- From the update of the last login on. -/
def enter (req : LoginRequest) (user : User) : AuthProg (Except LoginError TokenPair) := do
  let now ← perform (.base .now)
  match ← perform (.updateLastLogin user.id req.lat req.lon now) with
  | .error e => return .error (.service (.store e))
  | .ok () =>
    let familyID ← perform .newUUID
    (based (s.issueTokenPair user.id user.email familyID)).map (·.mapError .service)

/-- The password was right. -/
def accept (req : LoginRequest) (user : User) : AuthProg (Except LoginError TokenPair) := do
  perform (.reset .ip (ipKey req.ip))
  perform (.reset .account (accountKey req.email))
  checkTravel s req user
  enter s req user

def login (req : LoginRequest) : AuthProg (Except LoginError TokenPair) := do
  match ← perform (.getUserByEmail req.email) with
  | .error _ => refuse req
  | .ok user =>
    if s.verifyPassword user.passwordHash req.password = some true then accept s req user
    else refuse req

end LoginService

/-! ## Calls -/

inductive Call
  | register (email password : String)
  | login (req : LoginRequest)
  | refresh (plainToken : String)

inductive Reply
  | registered (r : Except RegisterError User)
  | loggedIn (r : Except LoginError TokenPair)
  | refreshed (r : Except AuthError TokenPair)

def Call.prog (s : LoginService) : Call → AuthProg Reply
  | .register email password => (LoginService.register email password).map .registered
  | .login req => (s.login req).map .loggedIn
  | .refresh plainToken => (based (s.refresh plainToken)).map .refreshed

/-! ## The environment -/

/-- What the environment decides when an operation executes: the id a user or a
family gets, and the hash of a password, besides what `Refresh` knows. -/
structure AuthChoice extends Choice where
  uuid : String := ""
  passwordHash : Option String := some ""
  deriving DecidableEq

/-- What concurrent calls share: the trackers too. -/
structure AuthShared (σ : Type) extends Shared σ where
  byIP : BruteForceTracker := { window := 300000000000, threshold := 5 }
  byAccount : BruteForceTracker := { window := 900000000000, threshold := 8 }

namespace AuthShared

variable {σ : Type}

def tracker (g : AuthShared σ) : Counter → BruteForceTracker
  | .ip => g.byIP
  | .account => g.byAccount

def setTracker (g : AuthShared σ) (b : BruteForceTracker) : Counter → AuthShared σ
  | .ip => { g with byIP := b }
  | .account => { g with byAccount := b }

def setShared (g : AuthShared σ) (shared : Shared σ) : AuthShared σ :=
  { g with toShared := shared }

@[simp] theorem setShared_toShared (g : AuthShared σ) (shared : Shared σ) :
    (g.setShared shared).toShared = shared := rfl

end AuthShared

def handleAuth {σ : Type} (S : AuthStore σ) (c : AuthChoice) :
    (o : AuthOp) → AuthShared σ → AuthRes o × AuthShared σ
  | .base o, g =>
    let r := handle S c.toChoice o g.toShared
    (r.1, g.setShared r.2)
  | .getUserByEmail email, g => (reading c.fault (S.getUserByEmail email g.store), g)
  | .createUser email passwordHash, g =>
    let r := writing c.fault (S.createUser c.uuid email passwordHash) g.toShared
    (r.1, g.setShared r.2)
  | .updateLastLogin userID lat lon now, g =>
    let r := writing c.fault (S.updateLastLogin userID lat lon now) g.toShared
    (r.1, g.setShared r.2)
  | .hashPassword _, g => (c.passwordHash, g)
  | .newUUID, g => (c.uuid, g)
  | .recordFailure counter key, g =>
    let r := (g.tracker counter).recordFailure key c.now
    (r.1, g.setTracker r.2 counter)
  | .reset counter key, g => ((), g.setTracker ((g.tracker counter).reset key) counter)

theorem writing_published {σ α : Type} (f : Option Fault)
    (method : σ → Except StoreError α × σ) (g : Shared σ) :
    (writing f method g).2.published = g.published := by
  unfold writing
  split <;> rfl

/-- The event that an operation publishes. -/
def AuthOp.published : AuthOp → List SecurityEvent
  | .base (.publish event) => [event]
  | _ => []

/-- Only `publish` changes what is published. -/
theorem handleAuth_published {σ : Type} (S : AuthStore σ) (c : AuthChoice) (o : AuthOp)
    (g : AuthShared σ) : (handleAuth S c o g).2.published = g.published ++ o.published := by
  cases o with
  | base o =>
    cases o with
    | publish event => rfl
    | markUsed hash now => exact (writing_published ..).trans (List.append_nil _).symm
    | save rt => exact (writing_published ..).trans (List.append_nil _).symm
    | revokeFamily familyID => exact (writing_published ..).trans (List.append_nil _).symm
    | _ => exact (List.append_nil _).symm
  | createUser email passwordHash => exact (writing_published ..).trans (List.append_nil _).symm
  | updateLastLogin userID lat lon now =>
    exact (writing_published ..).trans (List.append_nil _).symm
  | recordFailure counter key => cases counter <;> exact (List.append_nil _).symm
  | reset counter key => cases counter <;> exact (List.append_nil _).symm
  | _ => exact (List.append_nil _).symm

/-- Concurrent calls of the service over a store. -/
abbrev AuthPool (σ ι : Type) := Pool ι (AuthShared σ) AuthOp AuthRes Reply

/-- The calls, none of them started. -/
abbrev calling {σ ι : Type} (s : LoginService) (call : ι → Call) (g : AuthShared σ) :
    AuthPool σ ι :=
  Pool.start g fun i => (call i).prog s

end VaultWatch.Gateway
