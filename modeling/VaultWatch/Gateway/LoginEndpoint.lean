import VaultWatch.Gateway.Login
import VaultWatch.Gateway.RateLimit
import VaultWatch.Lib.Run

/-! `POST /auth/login` (`cmd/gateway/main.go`): the limiter in front of `Login`,
and the client address it is keyed by. A forwarded address takes precedence over
the peer's own, so the limit binds the addresses that clients name. -/
namespace VaultWatch.Gateway

open VaultWatch.Gateway.Store (Time)

open VaultWatch.Lib.Run

/-! ## The client address -/

/-- The header keys are in their canonical form. -/
structure HttpRequest where
  remoteAddr : String
  header : List (String × String)
  body : String

/-- `Header.Get`. -/
def HttpRequest.headerGet (r : HttpRequest) (key : String) : String :=
  ((r.header.find? fun h => h.1 = key).map (·.2)).getD ""

/-- `unicode.IsSpace`. -/
def isSpace (c : Char) : Bool :=
  [0x09, 0x0A, 0x0B, 0x0C, 0x0D, 0x20, 0x85, 0xA0, 0x1680, 0x2000, 0x2001, 0x2002, 0x2003, 0x2004,
    0x2005, 0x2006, 0x2007, 0x2008, 0x2009, 0x200A, 0x2028, 0x2029, 0x202F, 0x205F,
    0x3000].contains c.toNat

/-- `strings.TrimSpace`. -/
def trimSpace (cs : List Char) : List Char :=
  ((cs.dropWhile isSpace).reverse.dropWhile isSpace).reverse

/-- `strings.Split(s, ",")[0]`. -/
def firstField (cs : List Char) : List Char := cs.takeWhile (· ≠ ',')

/-- `net.SplitHostPort`, without the texts of its errors. -/
def splitHostPort (hostport : List Char) : Option (List Char × List Char) :=
  match hostport.reverse.idxOf? ':' with
  | none => none  -- missing port
  | some fromEnd =>
    let i := hostport.length - 1 - fromEnd
    let port := hostport.drop (i + 1)
    if hostport.head? = some '[' then
      match hostport.idxOf? ']' with
      | none => none
      | some close =>
        let host := (hostport.take close).drop 1
        if close + 1 ≠ i then none
        else if '[' ∈ hostport.drop 1 ∨ ']' ∈ hostport.drop (close + 1) then none
        else some (host, port)
    else
      let host := hostport.take i
      if ':' ∈ host then none  -- too many colons
      else if '[' ∈ hostport ∨ ']' ∈ hostport then none
      else some (host, port)

def clientIP (r : HttpRequest) : String :=
  let fwd := r.headerGet "X-Forwarded-For"
  if fwd ≠ "" then String.ofList (trimSpace (firstField fwd.toList))
  else
    match splitHostPort r.remoteAddr.toList with
    | none => r.remoteAddr
    | some (host, _) => String.ofList host

example : clientIP ⟨"[2001:db8::1]:443", [], ""⟩ = "2001:db8::1" := by decide

/-! ## The handler -/

structure LoginBody where
  email : String
  password : String
  lat : ℚ
  lon : ℚ

structure Response where
  status : Nat
  body : List (String × String)
  deriving DecidableEq

def writeError (status : Nat) (message : String) : Response := ⟨status, [("error", message)]⟩

/-- What the handler does before it calls `Login`. -/
inductive Handled
  | answered (response : Response)
  | login (req : LoginRequest)
  deriving DecidableEq

/-- The answer of the handler, given what `Login` answers. -/
def Handled.response (login : LoginRequest → Except LoginError TokenPair) : Handled → Response
  | .answered response => response
  | .login req =>
    match login req with
    | .error _ => writeError 401 "invalid credentials"
    | .ok pair => ⟨200, [("access_token", pair.accessToken), ("refresh_token", pair.refreshToken)]⟩

def loginKey (ip : String) : String := "login:" ++ ip

/-- `decode` is `json.NewDecoder(r.Body).Decode(&body)`. -/
def loginHandler (decode : String → Option LoginBody) (r : HttpRequest) (now : Time)
    (limiter : Limiter) : Handled × Limiter :=
  let ip := clientIP r
  let allowed := limiter.allow (loginKey ip) now
  if !allowed.1 then (.answered (writeError 429 "too many login attempts, slow down"), allowed.2)
  else
    match decode r.body with
    | none => (.answered (writeError 400 "invalid request body"), allowed.2)
    | some body =>
      (.login { email := body.email, password := body.password, lat := body.lat, lon := body.lon,
                ip }, allowed.2)

/-! ## Runs -/

structure Arrival where
  request : HttpRequest
  now : Time

/-- The limiter, and the calls of `Login` made so far with the times the limiter saw. -/
structure Endpoint where
  limiter : Limiter := { capacity := 10, refillPerSec := 1 / 2 }
  logins : List (Time × LoginRequest) := []

namespace Endpoint

def serve (decode : String → Option LoginBody) (e : Endpoint) (a : Arrival) : Endpoint :=
  let handled := loginHandler decode a.request a.now e.limiter
  { limiter := handled.2
    logins :=
      match handled.1 with
      | .answered _ => e.logins
      | .login req => e.logins ++ [(a.now, req)] }

/-- The calls of `Login` from an address in a time. -/
def loginsBetween (e : Endpoint) (ip : String) (s t : Time) : Nat :=
  (e.logins.filter fun c => c.2.ip = ip ∧ s ≤ c.1 ∧ c.1 ≤ t).length

def loginsSince (e : Endpoint) (ip : String) (s : Time) : Nat :=
  (e.logins.filter fun c => c.2.ip = ip ∧ s ≤ c.1).length

theorem loginKey_injective {a b : String} (same : loginKey a = loginKey b) : a = b :=
  (String.append_right_inj "login:").mp same

/-- What one request does to the log: a call of `Login` was allowed, and for the
client address of the request. -/
theorem serve_cases (decode : String → Option LoginBody) (e : Endpoint) (a : Arrival) :
    (e.serve decode a).limiter = (e.limiter.allow (loginKey (clientIP a.request)) a.now).2 ∧
      ((e.serve decode a).logins = e.logins ∨
        (e.limiter.allow (loginKey (clientIP a.request)) a.now).1 = true ∧
          ∃ req : LoginRequest, req.ip = clientIP a.request ∧
            (e.serve decode a).logins = e.logins ++ [(a.now, req)]) := by
  unfold serve loginHandler
  dsimp only
  cases allowed : (e.limiter.allow (loginKey (clientIP a.request)) a.now).1 with
  | false => exact ⟨rfl, .inl rfl⟩
  | true =>
    cases decode a.request.body with
    | none => exact ⟨rfl, .inl rfl⟩
    | some body => exact ⟨rfl, .inr ⟨rfl, _, rfl, rfl⟩⟩

/-- What the limiter still grants an address and what it has granted since a time
are together within the budget of that time. -/
structure Paid (e : Endpoint) (now : Time) : Prop where
  wf : e.limiter.WellFormed now
  capacity : e.limiter.capacity = 10
  refillPerSec : e.limiter.refillPerSec = 1 / 2
  logged : ∀ c ∈ e.logins, c.1 ≤ now
  budget : ∀ ip s u, s ≤ u → now ≤ u →
    e.loginsSince ip s + e.limiter.level (loginKey ip) u ≤ 10 + 1 / 2 * seconds (u - s)
  bound : ∀ ip s t, s ≤ t → (e.loginsBetween ip s t : ℚ) ≤ 10 + 1 / 2 * seconds (t - s)

variable {e : Endpoint} {now : Time}

theorem start_paid (now : Time) : ({} : Endpoint).Paid now where
  wf := ⟨by norm_num, by norm_num, nofun, nofun, nofun⟩
  capacity := rfl
  refillPerSec := rfl
  logged := nofun
  budget ip s u le _ := by
    have elapsed := seconds_sub_nonneg le
    show ((0 : Nat) : ℚ) + 10 ≤ _
    push_cast
    linarith
  bound ip s t le := by
    have elapsed := seconds_sub_nonneg le
    show ((0 : Nat) : ℚ) ≤ _
    push_cast
    linarith

theorem loginsSince_eq_zero (paid : e.Paid now) (ip : String) {s : Time} (future : now < s) :
    e.loginsSince ip s = 0 := by
  unfold loginsSince
  rw [List.length_eq_zero_iff, List.filter_eq_nil_iff]
  intro c mem
  have past := paid.logged c mem
  simp only [decide_eq_true_eq, not_and, not_le]
  intro _
  linarith

/-- The log after a request: one call more from the request's address if the
limiter allowed it and the body could be read. -/
theorem loginsSince_serve (decode : String → Option LoginBody) (e : Endpoint) (a : Arrival)
    (ip : String) (s : Time) :
    (e.serve decode a).loginsSince ip s = e.loginsSince ip s ∨
      (e.limiter.allow (loginKey (clientIP a.request)) a.now).1 = true ∧
        ip = clientIP a.request ∧ s ≤ a.now ∧
        (e.serve decode a).loginsSince ip s = e.loginsSince ip s + 1 := by
  obtain ⟨_, same | ⟨allowed, req, named, logged⟩⟩ := serve_cases decode e a
  · left
    unfold loginsSince
    rw [same]
  · unfold loginsSince
    rw [logged, List.filter_append, List.length_append]
    by_cases counted : req.ip = ip ∧ s ≤ a.now
    · right
      refine ⟨allowed, counted.1.symm.trans named, counted.2, ?_⟩
      simp [counted]
    · left
      simp [counted]

theorem serve_budget (decode : String → Option LoginBody) {a : Arrival} (paid : e.Paid now)
    (later : now ≤ a.now) (ip : String) {s u : Time} (le : s ≤ u) (after : a.now ≤ u) :
    (e.serve decode a).loginsSince ip s + (e.serve decode a).limiter.level (loginKey ip) u ≤
      10 + 1 / 2 * seconds (u - s) := by
  have wf := paid.wf.later later
  rw [(serve_cases decode e a).1]
  by_cases mine : ip = clientIP a.request
  · subst mine
    have left := Limiter.allow_level_le wf (loginKey (clientIP a.request)) after
    rw [paid.refillPerSec] at left
    have elapsed := seconds_sub_nonneg after
    have split := seconds_sub_add s a.now u
    obtain unchanged | ⟨allowed, _, counted, more⟩ :=
      loginsSince_serve decode e a (clientIP a.request) s
    · rw [unchanged]
      have cost : (0 : ℚ) ≤
          if (e.limiter.allow (loginKey (clientIP a.request)) a.now).1 then 1 else 0 := by
        split_ifs <;> norm_num
      by_cases started : s ≤ a.now
      · have before := paid.budget (clientIP a.request) s a.now started later
        linarith
      · -- the time counted from lies ahead: nothing is logged yet
        rw [loginsSince_eq_zero paid _ (lt_of_le_of_lt later (not_le.mp started))]
        have full := Limiter.level_le_capacity
          (l := (e.limiter.allow (loginKey (clientIP a.request)) a.now).2)
          (loginKey (clientIP a.request)) u
        rw [(Limiter.allow_settings wf _).1, paid.capacity] at full
        have span := seconds_sub_nonneg le
        push_cast
        linarith
    · have before := paid.budget (clientIP a.request) s a.now counted later
      rw [allowed, if_pos rfl] at left
      rw [more]
      push_cast
      linarith
  · rw [Limiter.allow_level_of_ne wf fun same => mine (loginKey_injective same)]
    rcases loginsSince_serve decode e a ip s with unchanged | ⟨_, same, _⟩
    · rw [unchanged]
      exact paid.budget ip s u le (later.trans after)
    · exact absurd same mine

theorem serve_logged (decode : String → Option LoginBody) {a : Arrival} (paid : e.Paid now)
    (later : now ≤ a.now) : ∀ c ∈ (e.serve decode a).logins, c.1 ≤ a.now := by
  obtain ⟨_, same | ⟨_, req, _, logged⟩⟩ := serve_cases decode e a
  · rw [same]
    exact fun c mem => (paid.logged c mem).trans later
  · rw [logged]
    intro c mem
    rcases List.mem_append.mp mem with old | new
    · exact (paid.logged c old).trans later
    · rw [List.mem_singleton.mp new]

theorem serve_bound (decode : String → Option LoginBody) {a : Arrival} (paid : e.Paid now)
    (later : now ≤ a.now) (ip : String) {s t : Time} (le : s ≤ t) :
    ((e.serve decode a).loginsBetween ip s t : ℚ) ≤ 10 + 1 / 2 * seconds (t - s) := by
  by_cases ended : a.now ≤ t
  · -- every call so far is before `t`
    have all : (e.serve decode a).loginsBetween ip s t = (e.serve decode a).loginsSince ip s := by
      unfold loginsBetween loginsSince
      refine congrArg List.length (List.filter_congr fun c mem => ?_)
      have past := (serve_logged decode paid later c mem).trans ended
      simp [past]
    have within := serve_budget decode paid later ip le ended
    have grants := Limiter.level_nonneg (Limiter.allow_wellFormed (paid.wf.later later)
      (loginKey (clientIP a.request))) (loginKey ip) ended
    rw [← (serve_cases decode e a).1] at grants
    rw [all]
    linarith
  · have same : (e.serve decode a).loginsBetween ip s t = e.loginsBetween ip s t := by
      obtain ⟨_, same | ⟨_, req, _, logged⟩⟩ := serve_cases decode e a
      · unfold loginsBetween
        rw [same]
      · unfold loginsBetween
        rw [logged, List.filter_append, List.length_append]
        simp [ended]
    rw [same]
    exact paid.bound ip s t le

theorem Paid.step (decode : String → Option LoginBody) {a : Arrival} (paid : e.Paid now)
    (later : now ≤ a.now) : (e.serve decode a).Paid a.now := by
  have wf := paid.wf.later later
  have limiter := (serve_cases decode e a).1
  have settings := Limiter.allow_settings wf (loginKey (clientIP a.request))
  refine ⟨?_, ?_, ?_, serve_logged decode paid later,
    fun ip s u => serve_budget decode paid later ip,
    fun ip s t => serve_bound decode paid later ip⟩
  · rw [limiter]
    exact Limiter.allow_wellFormed wf _
  · rw [limiter, settings.1, paid.capacity]
  · rw [limiter, settings.2, paid.refillPerSec]

theorem Paid.run (decode : String → Option LoginBody) {arrivals : List Arrival} {now : Time}
    {e : Endpoint} (paid : e.Paid now) (later : ∀ a ∈ arrivals, now ≤ a.now)
    (ordered : arrivals.Pairwise fun a b => a.now ≤ b.now) :
    ∃ last, (run (serve decode) e arrivals).Paid last := by
  induction arrivals generalizing e now with
  | nil => exact ⟨now, paid⟩
  | cons a arrivals ih =>
    obtain ⟨first, rest⟩ := List.pairwise_cons.mp ordered
    exact ih (paid.step decode (later a (.head _))) first rest

/-- The clock of the arrivals does not go back. -/
abbrev Ordered (arrivals : List Arrival) : Prop := arrivals.Pairwise fun a b => a.now ≤ b.now

/-- The limiter admits from each client address no more calls of `Login` between
two times than its burst and what the time between refills. -/
theorem logins_within_budget (decode : String → Option LoginBody) {arrivals : List Arrival}
    (ordered : Ordered arrivals) (ip : String) {s t : Time} (le : s ≤ t) :
    ((run (serve decode) {} arrivals).loginsBetween ip s t : ℚ) ≤
      10 + 1 / 2 * seconds (t - s) := by
  cases arrivals with
  | nil => exact (start_paid 0).bound ip s t le
  | cons a arrivals =>
    have later : ∀ b ∈ a :: arrivals, a.now ≤ b.now := by
      intro b mem
      rcases List.mem_cons.mp mem with rfl | rest
      · exact le_rfl
      · exact (List.pairwise_cons.mp ordered).1 b rest
    obtain ⟨last, paid⟩ := (start_paid a.now).run decode later ordered
    exact paid.bound ip s t le

/-! A peer that forwards a new address with each request. -/

def sampleBody : LoginBody :=
  { email := "dana@example.com", password := "wrong", lat := 0, lon := 0 }

def sampleText : String :=
  "\x7b\"email\":\"dana@example.com\",\"password\":\"wrong\",\"lat\":0,\"lon\":0\x7d"

/-- What decoding gives for the body of the requests below. -/
def sampleDecode (text : String) : Option LoginBody :=
  if text = sampleText then some sampleBody else none

/-- A request of one peer, at time 0. -/
def forwarding (address : String) : Arrival where
  request :=
    { remoteAddr := "203.0.113.7:40000", header := [("X-Forwarded-For", address)],
      body := sampleText }
  now := 0

def sameAddress : List Arrival := List.replicate 11 (forwarding "10.0.0.1")

def newAddresses : List Arrival :=
  ["10.0.0.1", "10.0.0.2", "10.0.0.3", "10.0.0.4", "10.0.0.5", "10.0.0.6", "10.0.0.7", "10.0.0.8",
    "10.0.0.9", "10.0.0.10", "10.0.0.11"].map forwarding

theorem logins_within_budget_sameAddress :
    ((run (serve sampleDecode) {} sameAddress).loginsBetween "10.0.0.1" 0 0 : ℚ) ≤
      10 + 1 / 2 * seconds (0 - 0) :=
  logins_within_budget sampleDecode (by decide) "10.0.0.1" le_rfl

/-- All eleven requests of the peer reach `Login` at once. -/
theorem newAddresses_exceed_budget :
    (∀ a ∈ newAddresses, a.request.remoteAddr = "203.0.113.7:40000") ∧ Ordered newAddresses ∧
      ¬ (((run (serve sampleDecode) {} newAddresses).logins.filter
          fun c => 0 ≤ c.1 ∧ c.1 ≤ 0).length : ℚ) ≤ 10 + 1 / 2 * seconds (0 - 0) := by
  refine ⟨by decide, by decide, ?_⟩
  have eleven : ((run (serve sampleDecode) {} newAddresses).logins.filter
      fun c => 0 ≤ c.1 ∧ c.1 ≤ 0).length = 11 := rfl
  rw [eleven]
  norm_num [seconds]

end Endpoint

end VaultWatch.Gateway
