import VaultWatch.Agents.ReplayRun
import VaultWatch.Agents.Synthetic
import VaultWatch.Engine.Outliers

/-! The way of a transaction to the rules engine (`agents-python/app/risk_engine.py` and
`score_transaction` of `engine-rust/src/main.rs`), and the context of a synthetic account
as the engine gets it. `parse` is how the engine reads a timestamp, in nanoseconds. -/
namespace VaultWatch.Agents

open VaultWatch.Lib.Exact (Trig)

section
variable (K : Type) [Field K] (parse : String → Option ℤ)

/-- An `f64` in a JSON value. -/
def Value.f64 : Value → Option K
  | .float x => some (x : K)
  | .int n => some (n : K)
  | _ => Option.none

def LastLocation.read (location : Dict) : Option (Engine.LastLocation K) := do
  let lat ← (location.get "lat").f64 K
  let lon ← (location.get "lon").f64 K
  let timestamp ← match location.get "timestamp" with
    | .str s => parse s
    | _ => none
  return ⟨lat, lon, timestamp⟩

/-- The transaction of a request with this timestamp. -/
def Transaction.engine (tx : Transaction) (timestamp : ℤ) : Engine.Transaction K where
  id := tx.id
  amount := (tx.amount : K)
  timestamp
  lat := tx.lat.map Rat.cast
  lon := tx.lon.map Rat.cast
  beneficiaryId := tx.beneficiaryId
  deviceId := tx.deviceId

def Transaction.request (host : Host) (tx : Transaction) : Option (Engine.Transaction K) :=
  (parse (host.jsonTime tx.timestamp)).map (tx.engine K)

/-- The context of a request. A count is a `u32`. -/
def ScoringContext.request (ctx : ScoringContext) : Option (Engine.ScoringContext K) := do
  let lastLocation ← match ctx.lastLocation with
    | some location => (LastLocation.read K parse location).map some
    | none => some none
  if 0 ≤ ctx.recentCountLastHour ∧ ctx.recentCountLastHour < 4294967296 then
    return {
      recentAmounts := ctx.recentAmounts.map Rat.cast
      recentCountLastHour := ctx.recentCountLastHour.toNat
      recentSumLastHour := (ctx.recentSumLastHour : K)
      knownBeneficiaries := ctx.knownBeneficiaries
      knownDevices := ctx.knownDevices
      lastLocation }
  else none

variable {K}

/-- `HttpRiskEngineClient.score` on an engine that is up: a request that serde does not
take is answered 422. -/
def HttpRiskEngineClient.score [LinearOrder K] (T : Trig K) (fmt : Engine.NumberFormat K)
    (host : Host) (tx : Transaction) (ctx : ScoringContext) : Except Raised RuleEngineVerdict :=
  match tx.request K parse host, ctx.request K parse with
  | some transaction, some context =>
    .ok (.ofResponse (Engine.score T fmt transaction context))
  | _, _ => .error (.exception "HTTPStatusError")

end

/-- A context with a place on record, as the engine gets it. -/
theorem ScoringContext.request_located {K : Type} [Field K] {parse : String → Option ℤ}
    {ctx : ScoringContext} {lat lon : ℚ} {timestamp : String}
    (located : ctx.lastLocation =
      some [("lat", .float lat), ("lon", .float lon), ("timestamp", .str timestamp)])
    (count : 0 ≤ ctx.recentCountLastHour ∧ ctx.recentCountLastHour < 4294967296) :
    ctx.request K parse = (parse timestamp).map fun seen => {
      recentAmounts := ctx.recentAmounts.map Rat.cast
      recentCountLastHour := ctx.recentCountLastHour.toNat
      recentSumLastHour := (ctx.recentSumLastHour : K)
      knownBeneficiaries := ctx.knownBeneficiaries
      knownDevices := ctx.knownDevices
      lastLocation := some ⟨(lat : K), (lon : K), seen⟩ } := by
  have location : LastLocation.read K parse
      [("lat", .float lat), ("lon", .float lon), ("timestamp", .str timestamp)] =
      (parse timestamp).map fun seen => ⟨(lat : K), (lon : K), seen⟩ := by
    cases parsed : parse timestamp <;>
      simp [LastLocation.read, Dict.get, List.lookup_cons, Value.f64, parsed]
  unfold ScoringContext.request
  rw [located]
  dsimp only
  rw [location]
  cases parse timestamp with
  | none => rfl
  | some seen => simp [count]

/-- An answer of the engine is its score of what it has read. -/
theorem HttpRiskEngineClient.score_ok {K : Type} [Field K] [LinearOrder K]
    {parse : String → Option ℤ} {T : Trig K} {fmt : Engine.NumberFormat K} {host : Host}
    {tx : Transaction} {ctx : ScoringContext} {rules : RuleEngineVerdict}
    (answered : HttpRiskEngineClient.score parse T fmt host tx ctx = .ok rules) :
    ∃ now context, parse (host.jsonTime tx.timestamp) = some now ∧
      ctx.request K parse = some context ∧
      rules = .ofResponse (Engine.score T fmt (tx.engine K now) context) := by
  unfold HttpRiskEngineClient.score Transaction.request at answered
  cases parsed : parse (host.jsonTime tx.timestamp) with
  | none =>
    rw [parsed] at answered
    cases answered
  | some now =>
    cases read : ctx.request K parse with
    | none =>
      rw [parsed, read] at answered
      cases answered
    | some context =>
      rw [parsed, read] at answered
      exact ⟨now, context, rfl, rfl, (Except.ok.inj answered).symm⟩

/-! ## Synthetic accounts -/

section
variable {K : Type} [Field K] {parse : String → Option ℤ}

/-- The context of a synthetic account last seen at this time, as the engine gets it. -/
def Random.engineContext (random : Random) (K : Type) [Field K] (accountId : String)
    (lastSeen : ℤ) : Engine.ScoringContext K :=
  let profile := random.accountProfile accountId
  let amounts : List ℚ := (random.generateTransactionHistory accountId 12).map (·.amount)
  { recentAmounts := amounts.map Rat.cast
    recentCountLastHour := 1
    recentSumLastHour := ((amounts.getLastD 0 : ℚ) : K)
    knownBeneficiaries := profile.knownBeneficiaries
    knownDevices := profile.knownDevices
    lastLocation := some ⟨(profile.homeCity.1 : K), (profile.homeCity.2 : K), lastSeen⟩ }

theorem Random.context_request (random : Random) (isoformat : Time → String) (accountId : String)
    (lastSeen : Time) :
    (random.buildScoringContext isoformat accountId lastSeen).request K parse =
      (parse (isoformat lastSeen)).map (random.engineContext K accountId) :=
  ScoringContext.request_located rfl (show (0 : ℤ) ≤ 1 ∧ (1 : ℤ) < 4294967296 by decide)

/-- An answer of the engine on a synthetic account is the score at some two times. -/
theorem HttpRiskEngineClient.score_synthetic [LinearOrder K] {T : Trig K}
    {fmt : Engine.NumberFormat K} {host : Host} {random : Random} {tx : Transaction}
    {accountId : String} {lastSeen : Time} {rules : RuleEngineVerdict}
    (answered : HttpRiskEngineClient.score parse T fmt host tx
      (random.buildScoringContext host.isoformat accountId lastSeen) = .ok rules) :
    ∃ now seen, parse (host.jsonTime tx.timestamp) = some now ∧
      parse (host.isoformat lastSeen) = some seen ∧ rules = .ofResponse
        (Engine.score T fmt (tx.engine K now) (random.engineContext K accountId seen)) := by
  obtain ⟨now, context, parsed, read, scored⟩ := HttpRiskEngineClient.score_ok answered
  rw [Random.context_request] at read
  obtain ⟨seen, parsed', rfl⟩ := Option.map_eq_some_iff.mp read
  exact ⟨now, seen, parsed, parsed', scored⟩

/-- The twelve payments of the history are not all of one amount. -/
def Random.Varied (random : Random) (accountId : String) : Prop :=
  ∃ row ∈ random.generateTransactionHistory accountId 12,
    ∃ row' ∈ random.generateTransactionHistory accountId 12, row.amount ≠ row'.amount

end

end VaultWatch.Agents
