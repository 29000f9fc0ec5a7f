import VaultWatch.Gateway.LoginEndpoint
import VaultWatch.Lib.Sequential

/-! `auth.TokenIssuer` (`internal/auth/jwt.go`) and the handlers of `cmd/gateway/main.go`
as programs: requests run concurrently over one service, one limiter and one engine behind
the proxy. The JWT library is a parameter. -/
namespace VaultWatch.Gateway

open VaultWatch.Gateway.Store (Time AuthStore StoreError)

open VaultWatch.Lib.Interleave

/-! ## Access tokens -/

/-- The payload of an access token, with the registered claims that are set or checked. A
date is a `NumericDate`, in seconds. -/
structure Claims where
  userID : String
  email : String
  issuer : String := ""
  issuedAt : Option Int := none
  expiresAt : Option Int := none
  notBefore : Option Int := none
  deriving DecidableEq

/-- `jwt.NewNumericDate`. -/
def numericDate (t : Time) : Int := t / 1000000000

/-- The instant of a `NumericDate`. -/
def dateTime (date : Int) : Time := date * 1000000000

/-- What `Validate` checks without options. -/
def Claims.valid (claims : Claims) (now : Time) : Bool :=
  claims.expiresAt.all (fun date => now < dateTime date) &&
    claims.notBefore.all (fun date => dateTime date ≤ now)

inductive SigningMethod
  | hs256 | hs384 | hs512 | other
  deriving DecidableEq

/-- The type test for `*jwt.SigningMethodHMAC`. -/
def SigningMethod.isHMAC : SigningMethod → Bool
  | other => false
  | _ => true

/-- `signedString` is `SignedString` of a token of HS256, `parseUnverified` reads the method
and the claims of a token string, and `verify` checks its signature against a secret. -/
structure Jwt where
  signedString : (secret : String) → Claims → Option String
  parseUnverified : String → Option (SigningMethod × Claims)
  verify : SigningMethod → (tokenString secret : String) → Bool

structure TokenIssuer where
  secret : String
  accessTTL : Time

namespace TokenIssuer

variable (t : TokenIssuer) (jwt : Jwt)

def claims (userID email : String) (now : Time) : Claims where
  userID := userID
  email := email
  issuer := "vaultwatch-gateway"
  issuedAt := some (numericDate now)
  expiresAt := some (numericDate (now + t.accessTTL))

def issueAccessToken (userID email : String) (now : Time) : Option String :=
  jwt.signedString t.secret (t.claims userID email now)

/-- The claims of a token string whose method the key function accepts and whose signature
verifies. -/
def signedClaims (tokenString : String) : Option Claims :=
  match jwt.parseUnverified tokenString with
  | none => none
  | some (method, claims) =>
    if method.isHMAC && jwt.verify method tokenString t.secret then some claims else none

/-- Every error is `ErrInvalidToken`. -/
def parseAccessToken (tokenString : String) (now : Time) : Option Claims :=
  (t.signedClaims jwt tokenString).filter (·.valid now)

end TokenIssuer

/-- `strings.SplitN(header, " ", 2)` into "Bearer" and a token. -/
def bearerToken (header : String) : Option String :=
  let cs := header.toList
  if ' ' ∈ cs ∧ cs.takeWhile (· ≠ ' ') = ['B', 'e', 'a', 'r', 'e', 'r'] then
    some (String.ofList ((cs.dropWhile (· ≠ ' ')).drop 1))
  else none

example : bearerToken "Bearer a b" = some "a b" ∧ bearerToken "bearer a" = none := by decide

/-! ## Operations of the handlers -/

inductive ServerOp
  /-- An operation of the service. -/
  | auth (o : AuthOp)
  /-- `limiter.Allow`. -/
  | allow (key : String)
  /-- `ParseAccessToken`, which reads the clock. -/
  | parseAccessToken (tokenString : String)
  /-- The proxy to the engine. -/
  | serveEngine (r : HttpRequest)

@[reducible] def ServerRes : ServerOp → Type
  | .auth o => AuthRes o
  | .allow _ => Bool
  | .parseAccessToken _ => Option Claims
  | .serveEngine _ => Response

abbrev ServerProg := Prog ServerOp ServerRes

abbrev calls (o : ServerOp) : ServerProg (ServerRes o) := Prog.op o

/-- A program of the service. -/
abbrev serving {α : Type} (p : AuthProg α) : ServerProg α := p.translate .auth fun _ r => r

/-- `Error()` of the errors that are not the gateway's own. -/
structure ErrorTexts where
  store : String
  passwordHash : String
  accessToken : String
  randomSource : String

def ErrorTexts.ofStore (texts : ErrorTexts) : StoreError → String
  | .notFound => "not found"
  | .other => texts.store

def ErrorTexts.ofRegister (texts : ErrorTexts) : RegisterError → String
  | .emailTaken => "email already registered"
  | .passwordHash => texts.passwordHash
  | .store e => texts.ofStore e

def ErrorTexts.ofRefresh (texts : ErrorTexts) : AuthError → String
  | .tokenReuse => "refresh token reuse detected, session revoked"
  | .invalidRefresh => "invalid or expired refresh token"
  | .store e => texts.ofStore e
  | .accessToken => texts.accessToken
  | .randomSource => texts.randomSource

structure RegisterBody where
  email : String
  password : String

/-- What `main` builds its handlers from; the decoders are `json.NewDecoder(r.Body).Decode`. -/
structure Server where
  authSvc : LoginService
  tokens : TokenIssuer
  jwt : Jwt
  decodeRegister : String → Option RegisterBody
  decodeLogin : String → Option LoginBody
  decodeRefresh : String → Option String
  texts : ErrorTexts

def writePair (pair : TokenPair) : Response :=
  ⟨200, [("access_token", pair.accessToken), ("refresh_token", pair.refreshToken)]⟩

/-- The answer of a handler that issues tokens. -/
def writePairOr {ε : Type} (refused : ε → Response) : Except ε TokenPair → Response
  | .error e => refused e
  | .ok pair => writePair pair

/-! ## Handlers -/

namespace Server

variable (server : Server) (r : HttpRequest)

/-- `len` of a password is in bytes. -/
def register : ServerProg Response := do
  match server.decodeRegister r.body with
  | none => return writeError 400 "invalid request body"
  | some body =>
    if body.password.utf8ByteSize < 10 then
      return writeError 400 "password must be at least 10 characters"
    else
      (serving (LoginService.register body.email body.password)).map fun
        | .error e => writeError 409 (server.texts.ofRegister e)
        | .ok user => ⟨201, [("id", user.id), ("email", user.email)]⟩

/-- The request that `Login` gets. -/
def loginRequest (body : LoginBody) : LoginRequest where
  email := body.email
  password := body.password
  lat := body.lat
  lon := body.lon
  ip := clientIP r

def login : ServerProg Response := do
  let allowed ← calls (.allow (loginKey (clientIP r)))
  if !allowed then return writeError 429 "too many login attempts, slow down"
  else
    match server.decodeLogin r.body with
    | none => return writeError 400 "invalid request body"
    | some body =>
      (serving (server.authSvc.login (loginRequest r body))).map
        (writePairOr fun _ => writeError 401 "invalid credentials")

def refresh : ServerProg Response := do
  match server.decodeRefresh r.body with
  | none => return writeError 400 "invalid request body"
  | some plainToken =>
    (serving (based (server.authSvc.refresh plainToken))).map
      (writePairOr fun e => writeError 401 (server.texts.ofRefresh e))

/-- `requireAuth` in front of the proxy. -/
def score : ServerProg Response :=
  match bearerToken (r.headerGet "Authorization") with
  | none => return writeError 401 "missing bearer token"
  | some tokenString => do
    match ← calls (.parseAccessToken tokenString) with
    | none => return writeError 401 "invalid or expired token"
    | some _ => calls (.serveEngine r)

end Server

/-- A request, by the pattern of the mux that it matches. -/
inductive Routed
  | healthz
  | register (r : HttpRequest)
  | login (r : HttpRequest)
  | refresh (r : HttpRequest)
  | score (r : HttpRequest)

def Server.handler (server : Server) : Routed → ServerProg Response
  | .healthz => return ⟨200, [("status", "ok")]⟩
  | .register r => server.register r
  | .login r => server.login r
  | .refresh r => server.refresh r
  | .score r => score r

/-! ## The environment -/

/-- What the engine answers, besides what the environment of the service decides. -/
structure ServerChoice extends AuthChoice where
  engine : Response := ⟨200, []⟩

structure ServerShared (σ : Type) extends AuthShared σ where
  limiter : Limiter := { capacity := 10, refillPerSec := 1 / 2 }

/-- An access token is the one the issuer signs. -/
def Server.choose (server : Server) (c : AuthChoice) : AuthOp → AuthChoice
  | .base (.issueAccessToken userID email) =>
    { c with accessToken := server.tokens.issueAccessToken server.jwt userID email c.now }
  | _ => c

def handleServer {σ : Type} (S : AuthStore σ) (server : Server) (c : ServerChoice) :
    (o : ServerOp) → ServerShared σ → ServerRes o × ServerShared σ
  | .auth o, g =>
    let answer := handleAuth S (server.choose c.toAuthChoice o) o g.toAuthShared
    (answer.1, { g with toAuthShared := answer.2 })
  | .allow key, g =>
    let allowed := g.limiter.allow key c.now
    (allowed.1, { g with limiter := allowed.2 })
  | .parseAccessToken tokenString, g =>
    (server.tokens.parseAccessToken server.jwt tokenString c.now, g)
  | .serveEngine _, g => (c.engine, g)

/-- Requests to the gateway, none of them handled yet. -/
abbrev arriving {σ ι : Type} (server : Server) (request : ι → Routed) (g : ServerShared σ) :
    Pool ι (ServerShared σ) ServerOp ServerRes Response :=
  Pool.start g fun i => server.handler (request i)

/-- The handler as a program answers what `loginHandler` does. -/
theorem Server.login_execute {σ : Type} (S : AuthStore σ) (server : Server) (r : HttpRequest)
    (c : ℕ → ServerChoice) (g : ServerShared σ) :
    let handled := loginHandler server.decodeLogin r (c 0).now g.limiter
    ((server.login r).execute (handleServer S server) c g).1 = handled.1.response fun req =>
      ((serving (server.authSvc.login req)).execute (handleServer S server)
        (fun n => c (n + 1)) { g with limiter := handled.2 }).1 := by
  intro handled
  unfold Server.login
  rw [Prog.execute_op]
  cases allowed : (g.limiter.allow (loginKey (clientIP r)) (c 0).now).1 with
  | false =>
    simp only [handled, loginHandler, handleServer, allowed, Handled.response, Bool.not_false,
      if_true]
    rfl
  | true =>
    cases decoded : server.decodeLogin r.body with
    | none =>
      simp only [handled, loginHandler, handleServer, allowed, decoded, Handled.response,
        Bool.not_true, Bool.false_eq_true, if_false]
      rfl
    | some body =>
      simp only [handled, loginHandler, handleServer, allowed, decoded, Handled.response,
        Bool.not_true, Bool.false_eq_true, if_false, Prog.execute_map, loginRequest]
      generalize (serving _).execute _ _ _ = out
      cases out.1 <;> rfl

end VaultWatch.Gateway
