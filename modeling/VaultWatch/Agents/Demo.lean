import VaultWatch.Agents.CaseStore
import VaultWatch.Agents.DemoFeed

/-! The scenarios of the demo (`agents-python/app/demo.py`), and what replay mode decides
about the payment of each. -/
namespace VaultWatch.Agents

open VaultWatch.Lib.Exact (Trig wholeSeconds)
open VaultWatch.Lib.Effects VaultWatch.Lib.Interleave
open VaultWatch.Engine (Rule Fires Rooted)

/-! ## Requests -/

inductive Scenario
  | normal | review | unusual | sanctions | takeover
  deriving DecidableEq

def Scenario.value : Scenario → String
  | normal => "normal"
  | review => "review"
  | unusual => "unusual"
  | sanctions => "sanctions"
  | takeover => "takeover"

/-- `request.scenario not in {"normal", "review"}`. -/
def Scenario.risky (scenario : Scenario) : Bool :=
  scenario ≠ .normal ∧ scenario ≠ .review

inductive City
  | dublin | london | newYork | sydney
  deriving DecidableEq

def City.name : City → String
  | dublin => "Dublin"
  | london => "London"
  | newYork => "New York"
  | sydney => "Sydney"

/-- `CITIES` by name. -/
def City.point : City → Point
  | dublin => DUBLIN
  | london => LONDON
  | newYork => NEW_YORK
  | sydney => SYDNEY

/-- An amount that is given is in its range. -/
structure DemoRequest where
  scenario : Scenario := .normal
  amount : Option ℚ := none
  origin : City := .dublin
  destination : City := .sydney
  amount_range : ∀ a ∈ amount, 0 < a ∧ a ≤ 1000000

/-- `destination_name`. -/
def DemoRequest.place (request : DemoRequest) : City :=
  if request.scenario.risky then request.destination else request.origin

/-! ## What the service asks of its environment -/

/-- `pipeline` is what `process_transaction` asks, and the clock and the security events
that a scenario reads itself. -/
inductive ServiceOp
  | pipeline (o : Op)
  | register (email password : String)
  | login (email password : String) (point : Point)
  | uuidHex
  | tokenUrlsafe
  | shuffle (requests : List DemoRequest)
  | sleep (duration : Time)
  | generateDemoTransaction (forceRisky : Bool)
  | save (record : CaseRecord)
  | broadcast (payload : Dict)
  | get (transactionId : String)

abbrev ServiceOp.Res : ServiceOp → Type
  | pipeline o => o.Res
  | register .. => Except Raised String
  | login .. => Except Raised Unit
  | uuidHex => String
  | tokenUrlsafe => String
  | shuffle requests => { shuffled : List DemoRequest // shuffled.Perm requests }
  | sleep _ => Except Raised Unit
  | generateDemoTransaction _ => Transaction
  | save _ => Except Raised Unit
  | broadcast _ => Except Raised Unit
  | get _ => Except Raised (Option CaseRecord)

abbrev ServiceHistory := List (Prog.Done ServiceOp ServiceOp.Res)

/-- A coroutine of the service, with local variables `σ`. -/
abbrev Endpoint (σ : Type) : Type → Type := Eff ServiceOp ServiceOp.Res σ Raised

/-! ## The scenario -/

/-- `hex[:12]`. -/
def shortHex (hex : String) : String := String.ofList (hex.toList.take 12)

/-- `round(x, 1)`. -/
def round1 (x : ℚ) : ℚ := roundHalfEven (x * 10) / 10

/-- With `math` as `T`. -/
def distanceKm (T : Trig ℚ) (origin destination : Point) : ℚ :=
  let lat1 := origin.1 * (T.pi / 180)
  let lon1 := origin.2 * (T.pi / 180)
  let lat2 := destination.1 * (T.pi / 180)
  let lon2 := destination.2 * (T.pi / 180)
  let a := T.sin ((lat2 - lat1) / 2) ^ 2 +
    T.cos lat1 * T.cos lat2 * T.sin ((lon2 - lon1) / 2) ^ 2
  6371 * 2 * T.asin (min 1 (T.sqrt a))

namespace Random

variable (random : Random)

/-- The first account with a representative normal baseline. -/
@[irreducible] def demoAccount : Option String :=
  ((List.range 1000).map fun i => "acct_demo_" ++ toString i).find? fun accountId =>
    40 ≤ (random.accountProfile accountId).typicalAmount ∧
      (random.accountProfile accountId).typicalAmount ≤ 65

variable (request : DemoRequest) (accountId : String)

def demoAmount : ℚ :=
  request.amount.getD
    (if request.scenario.risky then 4200 else (random.accountProfile accountId).typicalAmount)

/-- The lists of a profile are never empty. -/
def demoTransaction (txId : String) (now : Time) : Transaction :=
  let profile := random.accountProfile accountId
  { id := txId
    accountId
    amount := random.demoAmount request accountId
    currency := "EUR"
    timestamp := now
    lat := some request.place.point.1
    lon := some request.place.point.2
    beneficiaryId := some
      (if request.scenario.risky then "ben_demo_new" else profile.knownBeneficiaries.headD "")
    beneficiaryName := some
      (if request.scenario = .sanctions then "Victor Krantz Holdings" else "North Quay Supplies")
    deviceId := some
      (if request.scenario ≠ .normal then "dev_demo_new" else profile.knownDevices.headD "") }

def demoLocation (host : Host) (now : Time) : Dict :=
  [("lat", .float request.origin.point.1), ("lon", .float request.origin.point.2),
    ("timestamp", .str (host.isoformat (now - HOUR)))]

/-- The place of the synthetic context is overwritten. -/
def demoContext (host : Host) (now : Time) : ScoringContext :=
  let ctx := random.buildScoringContext host.isoformat accountId (now - HOUR)
  let ctx := if request.scenario = .review then
      { ctx with
        recentCountLastHour := 5
        recentSumLastHour := random.demoAmount request accountId * 4 }
    else ctx
  { ctx with lastLocation := some (demoLocation request host now) }

def demoReview (T : Trig ℚ) (host : Host) (now : Time) (loginEvidence : List Value) : Dict :=
  let km := distanceKm T request.origin.point request.place.point
  let tx := random.demoTransaction request accountId "" now
  let ctx := random.demoContext request accountId host now
  [("scenario", .str request.scenario.value),
    ("source", .str "Synthetic local scenario"),
    ("origin", .dict (("name", .str request.origin.name) :: demoLocation request host now)),
    ("current_location", .dict [("name", .str request.place.name),
      ("lat", .ofOption .float tx.lat), ("lon", .ofOption .float tx.lon),
      ("timestamp", .str (host.isoformat now))]),
    ("distance_km", .float (round1 km)),
    ("elapsed_minutes", .int 60),
    ("implied_speed_kmh", .float (round1 km)),
    ("baseline_average", .float (round2 (ctx.recentAmounts.sum / ctx.recentAmounts.length))),
    ("new_device", .bool (tx.deviceId.all (· ∉ ctx.knownDevices))),
    ("new_beneficiary", .bool (tx.beneficiaryId.all (· ∉ ctx.knownBeneficiaries))),
    ("login_evidence", .list loginEvidence),
    ("location_note", .str ("Locations are explicit synthetic coordinates, not IP geolocation. " ++
      "Payment history uses a one-hour interval; Go logins have their own actual timestamps."))]

end Random

section
variable {σ : Type}

/-- A login at a place, and the evidence of it. -/
def signIn (host : Host) (email password : String) (city : City) : Endpoint σ Value := do
  raising (← ask (.login email password city.point))
  let timestamp ← ask (ServiceOp.pipeline .now)
  return .dict [("location", .str city.name), ("lat", .float city.point.1),
    ("lon", .float city.point.2), ("timestamp", .str (host.isoformat timestamp)),
    ("source", .str "Go authentication service")]

/-- `for _ in range(n)` with its `else`. -/
def awaitSecurityEvent (accountId : String) : ℕ → Endpoint σ Unit
  | 0 => throw (.exception "RuntimeError"
      "Go logins succeeded but their security event did not arrive through Redis.")
  | n + 1 => do
    let read ← ask (ServiceOp.pipeline (.recentSecurityEvents accountId))
    if (recentSecurityEvent read.1 read.2).isSome then return
    else do
      raising (← ask (.sleep 50000))
      awaitSecurityEvent accountId n

/-- The account of the takeover and the evidence of its logins. -/
def takeOver (host : Host) (request : DemoRequest) : Endpoint σ (String × List Value) := do
  if request.origin.point = request.place.point then
    throw (.exception "ValueError"
      "Choose different origin and payment locations for the takeover scenario.")
  else do
    let hex ← ask ServiceOp.uuidHex
    let password ← ask ServiceOp.tokenUrlsafe
    let email := "demo-" ++ hex ++ "@example.invalid"
    let accountId ← raising (← ask (.register email password))
    let first ← signIn host email password request.origin
    let second ← signIn host email password request.place
    awaitSecurityEvent accountId 60
    return (accountId, [first, second])

/-- The account that pays, and the evidence of its logins. -/
def scenarioAccount (host : Host) (request : DemoRequest) (representative : String) :
    Endpoint σ (String × List Value) :=
  if request.scenario = .takeover then takeOver host request else pure (representative, [])

def createScenario (random : Random) (T : Trig ℚ) (host : Host) (request : DemoRequest) :
    Endpoint σ (Transaction × ScoringContext × Dict) := do
  -- An exhausted generator ends a coroutine with a `RuntimeError`.
  let representative ← raising (random.demoAccount.elim
    (.error (.exception "RuntimeError" "coroutine raised StopIteration")) .ok)
  let (accountId, loginEvidence) ← scenarioAccount host request representative
  let now ← ask (ServiceOp.pipeline .now)
  let hex ← ask ServiceOp.uuidHex
  return (random.demoTransaction request accountId ("tx_" ++ shortHex hex) now,
    random.demoContext request accountId host now,
    random.demoReview request accountId T host now loginEvidence)

end

/-! ## What a scenario asks -/

section
variable {σ : Type} {random : Random} {trig : Trig ℚ} {host : Host} {request : DemoRequest}

/-- Reads of the account's security events without a recent one, each followed by a pause. -/
def quietReads (accountId : String) (reads : List (Time × List (Time × SecurityEvent))) :
    ServiceHistory :=
  reads.flatMap fun read =>
    [⟨.pipeline (.recentSecurityEvents accountId), read⟩, ⟨.sleep 50000, .ok ()⟩]

/-- The wait ends with the first recent event, or raises after `n` reads without one. -/
theorem awaitSecurityEvent_ends {accountId : String} {n : ℕ} {s t : σ} {h : ServiceHistory}
    {r : Except Raised Unit} (ends : Ends (awaitSecurityEvent accountId n) s h r t) :
    ∃ reads, (∀ read ∈ reads, recentSecurityEvent read.1 read.2 = none) ∧ t = s ∧
      ((r = .ok () ∧ reads.length < n ∧ ∃ read, (recentSecurityEvent read.1 read.2).isSome ∧
          h = quietReads accountId reads ++ [⟨.pipeline (.recentSecurityEvents accountId), read⟩]) ∨
        (∃ message, r = .error (.exception "RuntimeError" message) ∧ reads.length = n ∧
          h = quietReads accountId reads) ∨
        ∃ read e, r = .error e ∧ reads.length < n ∧ h = quietReads accountId reads ++
          [⟨.pipeline (.recentSecurityEvents accountId), read⟩, ⟨.sleep 50000, .error e⟩]) := by
  induction n generalizing h with
  | zero =>
    obtain ⟨rfl, rfl, rfl⟩ := Ends.throw ends
    exact ⟨[], nofun, rfl, .inr (.inl ⟨_, rfl, rfl, rfl⟩)⟩
  | succ n ih =>
    obtain ⟨read, _, rfl, rest⟩ := Ends.askThen ends
    split at rest
    · rename_i recent
      obtain ⟨rfl, rfl, rfl⟩ := rest.pure
      exact ⟨[], nofun, rfl, .inl ⟨rfl, Nat.succ_pos _, read, recent, rfl⟩⟩
    · rename_i quiet
      have none : recentSecurityEvent read.1 read.2 = none := by simpa using quiet
      obtain ⟨answer, _, rfl, paused⟩ := rest.askThen
      rcases paused.raisingThen with ⟨e, rfl, rfl, rfl, rfl⟩ | ⟨_, rfl, later⟩
      · exact ⟨[], nofun, rfl, .inr (.inr ⟨read, e, rfl, Nat.succ_pos _, rfl⟩)⟩
      · obtain ⟨reads, each, same, ended⟩ := ih later
        refine ⟨read :: reads, List.forall_mem_cons.mpr ⟨none, each⟩, same, ?_⟩
        rcases ended with ⟨ok, short, last, recent, rfl⟩ | ⟨message, raised, all, rfl⟩ |
          ⟨last, e, raised, short, rfl⟩
        · exact .inl ⟨ok, Nat.succ_lt_succ short, last, recent, rfl⟩
        · exact .inr (.inl ⟨message, raised, congrArg Nat.succ all, rfl⟩)
        · exact .inr (.inr ⟨last, e, raised, Nat.succ_lt_succ short, rfl⟩)

theorem signIn_returns {email password : String} {city : City} {s t : σ} {h : ServiceHistory}
    {evidence : Value} (returns : Returns (signIn host email password city) s h evidence t) :
    ∃ timestamp, t = s ∧
      h = [⟨.login email password city.point, .ok ()⟩, ⟨.pipeline .now, timestamp⟩] ∧
      evidence = .dict [("location", .str city.name), ("lat", .float city.point.1),
        ("lon", .float city.point.2), ("timestamp", .str (host.isoformat timestamp)),
        ("source", .str "Go authentication service")] := by
  obtain ⟨answer, _, rfl, answered⟩ := returns.askThen
  obtain ⟨_, rfl, signedIn⟩ := answered.raisingThen
  obtain ⟨timestamp, _, rfl, ended⟩ := signedIn.askThen
  obtain ⟨rfl, rfl, rfl⟩ := ended.pure
  exact ⟨timestamp, rfl, rfl, rfl⟩

/-- A takeover has registered the account and signed in at both places with what it
registered, and has then waited until the security events had a recent one. -/
def TookOver (host : Host) (request : DemoRequest) (h : ServiceHistory) (accountId : String)
    (logins : List Value) : Prop :=
  request.origin ≠ request.place ∧ ∃ email password first second reads read,
    (∀ read ∈ reads, recentSecurityEvent read.1 read.2 = none) ∧ reads.length < 60 ∧
    (recentSecurityEvent read.1 read.2).isSome ∧
    (∃ hex, h = [⟨.uuidHex, hex⟩, ⟨.tokenUrlsafe, password⟩,
      ⟨.register email password, .ok accountId⟩,
      ⟨.login email password request.origin.point, .ok ()⟩, ⟨.pipeline .now, first⟩,
      ⟨.login email password request.place.point, .ok ()⟩, ⟨.pipeline .now, second⟩] ++
      quietReads accountId reads ++ [⟨.pipeline (.recentSecurityEvents accountId), read⟩]) ∧
    logins = [(request.origin, first), (request.place, second)].map fun (login : City × Time) =>
      .dict [("location", .str login.1.name), ("lat", .float login.1.point.1),
        ("lon", .float login.1.point.2), ("timestamp", .str (host.isoformat login.2)),
        ("source", .str "Go authentication service")]

theorem takeOver_returns {s t : σ} {h : ServiceHistory} {accountId : String} {logins : List Value}
    (returns : Returns (takeOver host request) s h (accountId, logins) t) :
    t = s ∧ TookOver host request h accountId logins := by
  unfold takeOver at returns
  split at returns
  · exact absurd returns Returns.throw
  · rename_i apart
    obtain ⟨hex, _, rfl, named⟩ := returns.askThen
    obtain ⟨password, _, rfl, secured⟩ := named.askThen
    obtain ⟨answer, _, rfl, answered⟩ := secured.askThen
    obtain ⟨registered, rfl, opened⟩ := answered.raisingThen
    obtain ⟨_, _, _, _, rfl, origin, left⟩ := opened.bind
    obtain ⟨first, rfl, rfl, rfl⟩ := signIn_returns origin
    obtain ⟨_, _, _, _, rfl, place, arrived⟩ := left.bind
    obtain ⟨second, rfl, rfl, rfl⟩ := signIn_returns place
    obtain ⟨_, _, _, _, rfl, awaited, ended⟩ := arrived.bind
    obtain ⟨rfl, same, rfl⟩ := ended.pure
    obtain ⟨rfl, rfl⟩ := Prod.mk.inj same
    obtain ⟨reads, each, rfl, seen⟩ := awaitSecurityEvent_ends awaited
    rcases seen with ⟨_, short, read, recent, rfl⟩ | ⟨_, raised, _⟩ | ⟨_, _, raised, _⟩
    · refine ⟨rfl, fun equal => apart (congrArg City.point equal),
        "demo-" ++ (show String from hex) ++ "@example.invalid", password, first, second, reads,
        read, each, short, recent, ⟨hex, ?_⟩, rfl⟩
      simp
    · cases raised
    · cases raised

/-- What a scenario that is created consists of. -/
theorem createScenario_returns {s t : σ} {h : ServiceHistory} {tx : Transaction}
    {ctx : ScoringContext} {review : Dict}
    (returns : Returns (createScenario random trig host request) s h (tx, ctx, review) t) :
    ∃ accountId logins now hex before,
      h = before ++ [⟨.pipeline .now, now⟩, ⟨.uuidHex, hex⟩] ∧ t = s ∧
      tx = random.demoTransaction request accountId ("tx_" ++ shortHex hex) now ∧
      ctx = random.demoContext request accountId host now ∧
      review = random.demoReview request accountId trig host now logins ∧
      (request.scenario = .takeover → TookOver host request before accountId logins) ∧
      (request.scenario ≠ .takeover →
        before = [] ∧ logins = [] ∧ random.demoAccount = some accountId) := by
  unfold createScenario at returns
  obtain ⟨representative, found, chose⟩ := returns.raisingThen
  obtain ⟨⟨accountId, logins⟩, u, before, _, rfl, account, rest⟩ := chose.bind
  obtain ⟨now, _, rfl, timed⟩ := rest.askThen
  obtain ⟨hex, _, rfl, ended⟩ := timed.askThen
  obtain ⟨rfl, same, rfl⟩ := ended.pure
  obtain ⟨paid, same⟩ := Prod.mk.inj same
  obtain ⟨known, reviewed⟩ := Prod.mk.inj same
  unfold scenarioAccount at account
  refine ⟨accountId, logins, now, hex, before, rfl, ?_, paid, known, reviewed, ?_⟩
  · split at account
    · exact (takeOver_returns account).1
    · exact account.pure.2.2
  · split at account
    · rename_i takeover
      exact ⟨fun _ => (takeOver_returns account).2, fun other => absurd takeover other⟩
    · rename_i other
      obtain ⟨rfl, same, _⟩ := account.pure
      cases same
      refine ⟨fun takeover => absurd takeover other, fun _ => ⟨rfl, rfl, ?_⟩⟩
      cases chosen : random.demoAccount with
      | none =>
        rw [chosen] at found
        cases found
      | some a =>
        rw [chosen] at found
        exact congrArg some (Except.ok.inj found)

end

/-! ## The rules -/

section
variable {K : Type} [Field K] {parse : String → Option ℤ} {host : Host} {random : Random}

/-- The context of a scenario, as the engine gets it. -/
def Random.demoEngineContext (random : Random) (K : Type) [Field K] (request : DemoRequest)
    (accountId : String) (seen : ℤ) : Engine.ScoringContext K :=
  let amounts := (random.generateTransactionHistory accountId 12).map (·.amount)
  { random.engineContext K accountId seen with
    recentCountLastHour := if request.scenario = .review then 5 else 1
    recentSumLastHour := ((if request.scenario = .review
      then random.demoAmount request accountId * 4 else amounts.getLastD 0 : ℚ) : K)
    lastLocation :=
      some ⟨(request.origin.point.1 : K), (request.origin.point.2 : K), seen⟩ }

theorem Random.demoContext_request (request : DemoRequest) (accountId : String) (now : Time) :
    (random.demoContext request accountId host now).request K parse =
      (parse (host.isoformat (now - HOUR))).map
        (random.demoEngineContext K request accountId) := by
  unfold Random.demoContext Random.demoEngineContext Random.buildScoringContext
    Random.engineContext
  dsimp only
  by_cases review : request.scenario = .review
  · simp only [if_pos review]
    exact ScoringContext.request_located rfl (show (0 : ℤ) ≤ 5 ∧ (5 : ℤ) < 4294967296 by decide)
  · simp only [if_neg review]
    exact ScoringContext.request_located rfl (show (0 : ℤ) ≤ 1 ∧ (1 : ℤ) < 4294967296 by decide)

/-- A label is not the text with something else than a number. -/
theorem Random.Labelled.unlike {text rest name : String} {a b : ℕ} {c : Char}
    (labelled : Random.Labelled text a b name) (mem : c ∈ rest.toList)
    (letter : c.isDigit = false) : name ≠ text ++ rest := by
  obtain ⟨n, _, _, rfl⟩ := labelled
  intro same
  have digits : Nat.toDigits 10 n = rest.toList := by
    simpa using congrArg String.toList same
  rw [← digits] at mem
  rw [Nat.isDigit_of_mem_toDigits (by decide) (by decide) mem] at letter
  cases letter

section
variable [LinearOrder K] [IsStrictOrderedRing K] {T : Trig K} {fmt : Engine.NumberFormat K}
  (request : DemoRequest) (accountId txId : String) (time : Time) (now seen : ℤ)

omit [IsStrictOrderedRing K] in
theorem demo_newDevice (moved : request.scenario ≠ .normal) :
    Fires T ((random.demoTransaction request accountId txId time).engine K now)
      (random.demoEngineContext K request accountId seen) .newDevice := by
  obtain ⟨known, same, old⟩ := (random.accountProfile_plausible accountId).device
  refine ⟨"dev_demo_new", ?_, ?_, ?_⟩
  · show some (if request.scenario ≠ .normal then _ else _) = _
    rw [if_pos moved]
  · show (random.accountProfile accountId).knownDevices ≠ []
    rw [same]
    exact List.cons_ne_nil _ _
  · show "dev_demo_new" ∉ (random.accountProfile accountId).knownDevices
    rw [same, List.mem_singleton]
    have unlike := old.unlike (show 'd' ∈ "demo_new".toList by decide) (by decide)
    exact fun equal => unlike equal.symm

theorem demo_newBeneficiary (risky : request.scenario.risky = true)
    (large : 1000 < random.demoAmount request accountId) :
    Fires T ((random.demoTransaction request accountId txId time).engine K now)
      (random.demoEngineContext K request accountId seen) .newBeneficiaryHighValue := by
  refine ⟨"ben_demo_new", ?_, fun known => ?_, ?_⟩
  · show some (if request.scenario.risky then _ else _) = _
    rw [if_pos risky]
  · have old := (random.accountProfile_plausible accountId).beneficiaries.2.2 _ known
    exact old.unlike (show 'd' ∈ "demo_new".toList by decide) (by decide) rfl
  · show (1000 : K) < (random.demoAmount request accountId : K)
    exact_mod_cast large

theorem demo_outlier (rooted : Rooted T) (varied : random.Varied accountId)
    (large : 2600 ≤ random.demoAmount request accountId) :
    Fires T ((random.demoTransaction request accountId txId time).engine K now)
      (random.demoEngineContext K request accountId seen) .amountOutlier := by
  have high := (random.accountProfile_plausible accountId).typical.2
  refine history_outlier rooted varied rfl rfl ?_
  show _ < random.demoAmount request accountId
  unfold AccountProfile.historyBound
  linarith

/-- Further than a plane gets in an hour. -/
def DemoRequest.Far (T : Trig K) (request : DemoRequest) : Prop :=
  Engine.IMPOSSIBLE_TRAVEL_KMH < Engine.haversineKm T (request.origin.point.1 : K)
    (request.origin.point.2 : K) (request.place.point.1 : K) (request.place.point.2 : K)

theorem demo_travel (far : request.Far T) (apart : now - seen = 3600000000000) :
    Fires T ((random.demoTransaction request accountId txId time).engine K now)
      (random.demoEngineContext K request accountId seen) .impossibleTravel := by
  have hour : (wholeSeconds (now - seen) : K) / 3600 = 1 := by
    rw [apart, show wholeSeconds 3600000000000 = 3600 from rfl]
    norm_num
  refine ⟨_, _, _, rfl, rfl, rfl, ?_, ?_⟩
  · show 0 < (wholeSeconds (now - seen) : K) / 3600
    rw [hour]
    exact one_pos
  · show Engine.IMPOSSIBLE_TRAVEL_KMH < _ / ((wholeSeconds (now - seen) : K) / 3600)
    rw [hour, div_one]
    exact far

/-- A risky scenario with a large amount is more than a coincidence. -/
theorem demo_score_risky (rooted : Rooted T) (risky : request.scenario.risky = true)
    (large : 2600 ≤ random.demoAmount request accountId)
    (odd : random.Varied accountId ∨ request.Far T ∧ now - seen = 3600000000000) :
    65 ≤ (Engine.score T fmt ((random.demoTransaction request accountId txId time).engine K now)
      (random.demoEngineContext K request accountId seen)).riskScore := by
  have moved : request.scenario ≠ .normal := by
    intro normal
    rw [normal] at risky
    cases risky
  have device := @demo_newDevice _ _ random _ T request accountId txId time now seen moved
  have beneficiary := demo_newBeneficiary (T := T) request accountId txId time now seen risky
    (by linarith)
  rcases odd with varied | ⟨far, apart⟩
  · have outlier := demo_outlier request accountId txId time now seen rooted varied large
    exact Engine.le_score
      (show [Rule.amountOutlier, .newBeneficiaryHighValue, .newDevice].Nodup by decide)
      (List.forall_mem_cons.mpr ⟨outlier, List.forall_mem_cons.mpr ⟨beneficiary,
        List.forall_mem_singleton.mpr device⟩⟩)
  · have travel := @demo_travel _ _ random _ _ T request accountId txId time now seen far apart
    refine le_trans (by decide) (Engine.le_score
      (show [Rule.impossibleTravel, .newBeneficiaryHighValue, .newDevice].Nodup by decide)
      (List.forall_mem_cons.mpr ⟨travel, List.forall_mem_cons.mpr ⟨beneficiary,
        List.forall_mem_singleton.mpr device⟩⟩))

omit [IsStrictOrderedRing K] in
theorem demo_score_review (review : request.scenario = .review) :
    35 ≤ (Engine.score T fmt ((random.demoTransaction request accountId txId time).engine K now)
      (random.demoEngineContext K request accountId seen)).riskScore := by
  have moved : request.scenario ≠ .normal := by
    rw [review]
    decide
  have burst : Fires T ((random.demoTransaction request accountId txId time).engine K now)
      (random.demoEngineContext K request accountId seen) .velocityCount := by
    show 5 ≤ if request.scenario = .review then 5 else 1
    rw [if_pos review]
  have device := @demo_newDevice _ _ random _ T request accountId txId time now seen moved
  exact Engine.le_score (show [Rule.velocityCount, .newDevice].Nodup by decide)
    (List.forall_mem_cons.mpr ⟨burst, List.forall_mem_singleton.mpr device⟩)

/-- A normal payment can only be large, for the hour or for the account. -/
theorem demo_normal_rules (grounded : Grounded T) (normal : request.scenario = .normal) (r : Rule)
    (fires : Fires T ((random.demoTransaction request accountId txId time).engine K now)
      (random.demoEngineContext K request accountId seen) r) :
    r = .velocityAmount ∨ r = .amountOutlier := by
  have profiled := random.accountProfile_plausible accountId
  have usual : request.scenario.risky = false := by
    rw [normal]
    rfl
  cases r with
  | velocityCount =>
    have count : 5 ≤ if request.scenario = .review then 5 else 1 := fires
    rw [normal] at count
    exact absurd count (by decide)
  | velocityAmount => exact .inl rfl
  | amountOutlier => exact .inr rfl
  | impossibleTravel =>
    have home : request.place = request.origin := by
      unfold DemoRequest.place
      rw [usual]
      rfl
    refine absurd fires (not_travelled grounded rfl ?_ ?_)
    · show some ((request.place.point.1 : ℚ) : K) = _
      rw [home]
    · show some ((request.place.point.2 : ℚ) : K) = _
      rw [home]
  | newBeneficiaryHighValue =>
    obtain ⟨name, paid, unknown, _⟩ := fires
    have same : some (if request.scenario.risky then "ben_demo_new" else
      (random.accountProfile accountId).knownBeneficiaries.headD "") = some name := paid
    rw [usual] at same
    obtain ⟨first, rest, known⟩ := List.exists_cons_of_length_pos profiled.beneficiaries.1
    rw [known] at same
    obtain rfl : first = name := Option.some.inj same
    refine absurd ?_ unknown
    show first ∈ (random.accountProfile accountId).knownBeneficiaries
    rw [known]
    exact List.mem_cons_self
  | newDevice =>
    obtain ⟨name, used, _, unknown⟩ := fires
    have same : some (if request.scenario ≠ .normal then "dev_demo_new" else
      (random.accountProfile accountId).knownDevices.headD "") = some name := used
    rw [if_neg (not_not.mpr normal)] at same
    obtain ⟨device, known, _⟩ := profiled.device
    rw [known] at same
    obtain rfl : device = name := Option.some.inj same
    refine absurd ?_ unknown
    show device ∈ (random.accountProfile accountId).knownDevices
    rw [known]
    exact List.mem_singleton_self _

theorem demo_score_normal (grounded : Grounded T) (normal : request.scenario = .normal) :
    (Engine.score T fmt ((random.demoTransaction request accountId txId time).engine K now)
      (random.demoEngineContext K request accountId seen)).riskScore < 25 ↔
      ¬ Fires T ((random.demoTransaction request accountId txId time).engine K now)
        (random.demoEngineContext K request accountId seen) .amountOutlier := by
  constructor
  · intro low outlier
    have counted := @Engine.le_score _ _ _ _ fmt _ _ [.amountOutlier] (by decide)
      (List.forall_mem_singleton.mpr outlier)
    exact absurd (lt_of_le_of_lt counted low) (by decide)
  · intro usual
    refine lt_of_le_of_lt (@Engine.score_le _ _ _ _ _ _ _ [.velocityAmount] fun r fires => ?_)
      (by decide)
    rcases demo_normal_rules request accountId txId time now seen grounded normal r fires with
      rfl | rfl
    · exact List.mem_singleton_self _
    · exact absurd fires usual

end

/-! ## The outcome -/

/-- What the scenario demonstrates. -/
def Scenario.outcome : Scenario → PaymentAction
  | normal => .allow
  | review => .hold
  | unusual => .hold
  | sanctions => .block
  | takeover => .block

namespace ReplayWorld

/-- The verdict is what the engine answers to the request. -/
def Scored [LinearOrder K] (w : ReplayWorld) (parse : String → Option ℤ) (T : Trig K)
    (fmt : Engine.NumberFormat K) (host : Host) (tx : Transaction) (ctx : ScoringContext) : Prop :=
  ∃ now context, parse (host.jsonTime tx.timestamp) = some now ∧
    ctx.request K parse = some context ∧
    w.verdict = Engine.score T fmt (tx.engine K now) context

/-- A security event of the account is recent when the pipeline looks. -/
def Warned (w : ReplayWorld) : Prop :=
  ∃ e ∈ w.read.2, w.read.1 < e.1 + SECURITY_EVENT_WINDOW

/-- Neither the history of the account nor the prefilter speaks against the payment. -/
def Calm (w : ReplayWorld) : Prop :=
  (∀ r ∈ w.verdict.triggeredRules, r.rule ≠ "amount_outlier") ∧ ¬ w.prefilter.isAnomaly = true

instance (w : ReplayWorld) : Decidable w.Calm := inferInstanceAs (Decidable (_ ∧ _))

theorem demo_hit (random : Random) (request : DemoRequest) (accountId txId : String)
    (time : Time) : hit (random.demoTransaction request accountId txId time) = true ↔
      request.scenario = .sanctions := by
  have named : screenedName (random.demoTransaction request accountId txId time) =
      if request.scenario = .sanctions then "Victor Krantz Holdings"
      else "North Quay Supplies" := by
    unfold screenedName Random.demoTransaction
    by_cases listed : request.scenario = .sanctions
    · simp [listed]
    · simp [listed]
  unfold hit
  rw [named]
  split
  · rename_i listed
    exact iff_of_true (by decide +kernel) listed
  · rename_i clean
    exact iff_of_false (by decide +kernel) clean

section
variable [LinearOrder K] {T : Trig K} {fmt : Engine.NumberFormat K} {w : ReplayWorld}
  {tx : Engine.Transaction K} {ctx : Engine.ScoringContext K}

/-- Whether a rule was triggered is told by its name. -/
theorem outlier_triggered (verdict : w.verdict = Engine.score T fmt tx ctx) :
    (∀ r ∈ w.verdict.triggeredRules, r.rule ≠ "amount_outlier") ↔
      ¬ Fires T tx ctx .amountOutlier := by
  rw [verdict, ← Engine.triggered_iff T fmt tx ctx .amountOutlier]
  exact ⟨fun none ⟨r, mem, named⟩ => none r mem named, fun none r mem named => none ⟨r, mem, named⟩⟩

end

end ReplayWorld

/-- How the engine reads the times that the service writes. -/
structure Clock (parse : String → Option ℤ) (host : Host) : Prop where
  json : ∀ t, parse (host.jsonTime t) = some (1000 * t)
  iso : ∀ t, parse (host.isoformat t) = some (1000 * t)

section
variable [LinearOrder K] [IsStrictOrderedRing K] {T : Trig K} {fmt : Engine.NumberFormat K}
  {w : ReplayWorld} {request : DemoRequest} {accountId txId : String} {time : Time}

section
variable (scored : w.Scored parse T fmt host (random.demoTransaction request accountId txId time)
    (random.demoContext request accountId host time))
include scored

omit [IsStrictOrderedRing K] in
theorem demo_scored : ∃ now seen, parse (host.jsonTime time) = some now ∧
    parse (host.isoformat (time - HOUR)) = some seen ∧ w.verdict = Engine.score T fmt
      ((random.demoTransaction request accountId txId time).engine K now)
      (random.demoEngineContext K request accountId seen) := by
  obtain ⟨now, context, parsed, read, verdict⟩ := scored
  rw [random.demoContext_request] at read
  obtain ⟨seen, parsed', rfl⟩ := Option.map_eq_some_iff.mp read
  exact ⟨now, seen, parsed, parsed', verdict⟩

theorem demo_closes_normal (grounded : Grounded T) (normal : request.scenario = .normal) :
    w.Closes ↔ w.Calm := by
  obtain ⟨now, seen, _, _, verdict⟩ := demo_scored scored
  refine and_congr_left' ?_
  rw [ReplayWorld.outlier_triggered verdict, ← @demo_score_normal _ _ random _ _ T fmt request
    accountId txId time now seen grounded normal, ← verdict]
  exact @Nat.cast_lt ℤ _ _ _ _ _ _ 25

omit [IsStrictOrderedRing K] in
theorem demo_review_stays (review : request.scenario = .review) : ¬ w.Closes := by
  obtain ⟨now, seen, _, _, verdict⟩ := demo_scored scored
  have high := @demo_score_review _ _ random _ T fmt request accountId txId time now seen review
  rw [← verdict] at high
  intro closes
  have low : (w.verdict.riskScore : ℤ) < 25 := closes.1
  omega

theorem demo_risky_high (rooted : Rooted T) (risky : request.scenario.risky = true)
    (large : 2600 ≤ random.demoAmount request accountId)
    (odd : random.Varied accountId ∨ request.Far T ∧ Clock parse host) :
    65 ≤ w.rules.riskScore := by
  obtain ⟨now, seen, parsed, parsed', verdict⟩ := demo_scored scored
  have apart : Clock parse host → now - seen = 3600000000000 := by
    intro clock
    rw [clock.json] at parsed
    rw [clock.iso] at parsed'
    obtain rfl := Option.some.inj parsed
    obtain rfl := Option.some.inj parsed'
    unfold HOUR
    ring
  have high := @demo_score_risky _ _ random _ _ T fmt request accountId txId time now seen rooted
    risky large (odd.imp_right fun far => ⟨far.1, apart far.2⟩)
  rw [← verdict] at high
  exact Int.ofNat_le.mpr high

end

/-- The decision on a scenario whose answers come out as they are meant to. -/
theorem demo_action (rooted : Rooted T) (grounded : Grounded T)
    (scored : w.Scored parse T fmt host (random.demoTransaction request accountId txId time)
      (random.demoContext request accountId host time))
    (warned : w.Warned ↔ request.scenario = .takeover)
    (large : request.scenario.risky = true → 2600 ≤ random.demoAmount request accountId ∧
      (random.Varied accountId ∨ request.Far T ∧ Clock parse host)) :
    w.action (random.demoTransaction request accountId txId time) =
      if request.scenario = .normal ∧ ¬ w.Calm then .hold else request.scenario.outcome := by
  have hit := ReplayWorld.demo_hit random request accountId txId time
  have clean : request.scenario ≠ .sanctions → request.scenario ≠ .takeover →
      ¬ w.Blocks (random.demoTransaction request accountId txId time) := by
    intro unlisted unwarned blocks
    rcases blocks with listed | ⟨recent, _⟩
    · exact unlisted (hit.mp listed)
    · exact unwarned (warned.mp recent)
  have risky : request.scenario.risky = true → ¬ w.Closes ∧ w.Suspicious ∧
      (w.Blocks (random.demoTransaction request accountId txId time) ↔
        request.scenario = .sanctions ∨ request.scenario = .takeover) := by
    intro risky
    have high := demo_risky_high scored rooted risky (large risky).1 (large risky).2
    refine ⟨fun closes => ?_, .inl (by omega), ?_⟩
    · have low := closes.1
      omega
    · refine or_congr hit (Iff.trans (and_iff_left ?_) warned)
      unfold ReplayWorld.score replayScore
      dsimp only
      split
      · omega
      · rw [if_pos (.inl (by omega))]
        omega
  unfold ReplayWorld.action
  cases scenario : request.scenario with
  | normal =>
    have closes := demo_closes_normal scored grounded scenario
    by_cases calm : w.Calm
    · rw [if_pos (closes.mpr calm), if_neg fun both => both.2 calm]
      rfl
    · rw [if_neg (mt closes.mp calm), if_neg fun both =>
        clean (by rw [scenario]; decide) (by rw [scenario]; decide) both.2, if_pos ⟨rfl, calm⟩]
  | review =>
    rw [if_neg (demo_review_stays scored scenario), if_neg fun both =>
      clean (by rw [scenario]; decide) (by rw [scenario]; decide) both.2, if_neg (by simp)]
    rfl
  | unusual =>
    obtain ⟨stays, suspicious, blocks⟩ := risky (by rw [scenario]; rfl)
    rw [scenario] at blocks
    rw [if_neg stays, if_neg fun both => absurd (blocks.mp both.2) (by decide), if_neg (by simp)]
    rfl
  | sanctions =>
    obtain ⟨stays, suspicious, blocks⟩ := risky (by rw [scenario]; rfl)
    rw [if_neg stays, if_pos ⟨suspicious, blocks.mpr (.inl scenario)⟩, if_neg (by simp)]
    rfl
  | takeover =>
    obtain ⟨stays, suspicious, blocks⟩ := risky (by rw [scenario]; rfl)
    rw [if_neg stays, if_pos ⟨suspicious, blocks.mpr (.inr scenario)⟩, if_neg (by simp)]
    rfl

/-- **What the scenarios demonstrate**: in replay mode the payment of a scenario ends as its
kind says, except that a normal one is held when it stands out in the account's history or
to the prefilter. A risky scenario needs a large amount, and an account with a varied
history or a distance no plane covers within the hour; a takeover needs its warning to be
recent still when the pipeline looks. -/
theorem demo_outcome (rooted : Rooted T) (grounded : Grounded T) {trig : Trig ℚ} {σ : Type}
    {s t : σ} {h : ServiceHistory} {tx : Transaction} {ctx : ScoringContext} {review : Dict}
    (created : Returns (createScenario random trig host request) s h (tx, ctx, review) t)
    {o : Orchestrator} {h' : History} {r : Except Raised PipelineResult}
    (run : (o.processTransaction host tx (some ctx) (some review)).Runs h' r)
    (within : ∀ d ∈ h', w.Answers host d.1 d.2) (scored : w.Scored parse T fmt host tx ctx)
    (lax : host.Lax) (audited : o.audit = true)
    (roundTrip : ∀ v ∈ w.toolResults tx, w.loads (host.dumps v) = .ok v)
    (warned : w.Warned ↔ request.scenario = .takeover)
    (large : request.scenario.risky = true → 2600 ≤ tx.amount ∧
      (random.Varied tx.accountId ∨ request.Far T ∧ Clock parse host)) :
    ∃ result payment, r = .ok result ∧ result.payment = some payment ∧
      payment.action =
        if request.scenario = .normal ∧ ¬ w.Calm then .hold else request.scenario.outcome := by
  obtain ⟨accountId, logins, now, hex, before, _, _, paid, known, _⟩ :=
    createScenario_returns created
  rw [known, paid] at scored
  rw [paid] at large
  have banded : w.verdict.riskBand = .fromScore w.verdict.riskScore := by
    obtain ⟨_, _, _, _, verdict⟩ := scored
    rw [verdict]
    rfl
  obtain ⟨result, rfl, payment, stored, action⟩ :=
    (onNew_assured (ReplayWorld.stages_assures lax banded audited roundTrip _ _)).runs run within
  rw [paid] at action
  exact ⟨result, payment, rfl, stored,
    action.trans (demo_action rooted grounded scored warned large)⟩

end

end

theorem createScenario_plain {σ : Type} {random : Random} {trig : Trig ℚ} {host : Host}
    {request : DemoRequest} {accountId : String} (chosen : random.demoAccount = some accountId)
    (plain : request.scenario ≠ .takeover) (s : σ) (now : Time) (hex : String) :
    Returns (createScenario random trig host request) s [⟨.pipeline .now, now⟩, ⟨.uuidHex, hex⟩]
      (random.demoTransaction request accountId ("tx_" ++ shortHex hex) now,
        random.demoContext request accountId host now,
        random.demoReview request accountId trig host now []) s := by
  unfold createScenario scenarioAccount
  simp only [chosen, if_neg plain]
  exact ⟨now, _, rfl, hex, _, rfl, rfl, rfl⟩

/-- The answers of an environment with another verdict of the engine. -/
def rescored (verdict : Engine.ScoreResponse) (answers : History → (o : Op) → o.Res)
    (past : History) : (o : Op) → o.Res
  | .score .. => .ok (.ofResponse verdict)
  | o => answers past o

theorem rescored_within {w : ReplayWorld} {host : Host} {answers : History → (o : Op) → o.Res}
    (within : ∀ past op, w.Answers host op (answers past op)) (verdict : Engine.ScoreResponse)
    (past : History) (op : Op) :
    ({ w with verdict } : ReplayWorld).Answers host op (rescored verdict answers past op) := by
  have own := within past op
  cases op with
  | score tx ctx => rfl
  | _ => exact own

/-! A payment to a recipient on the watchlist, of the account `acct_demo_0`. -/

/-- A number of a range is a sixth into it. -/
def steadyRandom : Random :=
  { leastRandom with
    uniform := fun a b s => (a + (b - a) / 6, s)
    uniform_range := fun a b le s => by
      show a ≤ a + (b - a) / 6 ∧ a + (b - a) / 6 ≤ b
      constructor <;> linarith }

def listedRequest : DemoRequest where
  scenario := .sanctions
  destination := .london
  amount_range _ none := by cases none

def listedPayment : Transaction :=
  steadyRandom.demoTransaction listedRequest "acct_demo_0" ("tx_" ++ shortHex "000000000000") 0

def listedContext : ScoringContext :=
  steadyRandom.demoContext listedRequest "acct_demo_0" feedHost 0

noncomputable def listedVerdict : Engine.ScoreResponse :=
  Engine.score Trig.real ⟨fun _ _ => ""⟩ (listedPayment.engine ℝ 0)
    (steadyRandom.demoEngineContext ℝ listedRequest "acct_demo_0" (-3600000000000))

noncomputable def listedWorld : ReplayWorld := { feedWorld true with verdict := listedVerdict }

/-- Flat coordinates. -/
def flatMath : Trig ℚ := ⟨3, id, id, id, id⟩

def listedReview : Dict :=
  steadyRandom.demoReview listedRequest "acct_demo_0" flatMath feedHost 0 []

noncomputable def listedRun : History × Except Raised PipelineResult :=
  (replayOrchestrator.processTransaction feedHost listedPayment (some listedContext)
    (some listedReview)).play (rescored listedVerdict (feedAnswers true)) []

theorem listed_within : ∀ d ∈ listedRun.1, listedWorld.Answers feedHost d.1 d.2 := by
  intro d mem
  obtain ⟨past, answered⟩ := Prog.play_answers _ [] _ mem
  rw [answered]
  exact rescored_within (feedAnswers_within true) listedVerdict past d.1

theorem demo_outcome_listed : ∃ result payment, listedRun.2 = .ok result ∧
    result.payment = some payment ∧ payment.action = .block := by
  have account : steadyRandom.demoAccount = some "acct_demo_0" := by
    unfold Random.demoAccount
    decide +kernel
  have lax : feedHost.Lax := by constructor <;> intro _ <;> rfl
  have varied : steadyRandom.Varied "acct_demo_0" := by
    refine ⟨_, List.getElem_mem (n := 0) (by decide), _, List.getElem_mem (n := 1) (by decide), ?_⟩
    decide +kernel
  have scored : listedWorld.Scored feedParse Trig.real ⟨fun _ _ => ""⟩ feedHost listedPayment
      listedContext := by
    refine ⟨0, _, rfl, ?_, rfl⟩
    unfold listedContext
    rw [Random.demoContext_request]
    rfl
  have unwarned : listedWorld.Warned ↔ listedRequest.scenario = .takeover :=
    iff_of_false (fun ⟨_, mem, _⟩ => by cases mem) (by decide)
  have created : Returns (createScenario steadyRandom flatMath feedHost listedRequest) ()
      [⟨.pipeline .now, (0 : Time)⟩, ⟨.uuidHex, "000000000000"⟩]
      (listedPayment, listedContext, listedReview) () :=
    createScenario_plain account (by decide) () 0 "000000000000"
  have run : (replayOrchestrator.processTransaction feedHost listedPayment (some listedContext)
      (some listedReview)).Runs listedRun.1 listedRun.2 := Prog.play_runs _ [] _
  have large : 2600 ≤ listedPayment.amount := by decide +kernel
  exact demo_outcome real_rooted real_grounded created run listed_within scored lax rfl
    (feed_roundTrip true) unwarned fun _ => ⟨large, .inl varied⟩

end VaultWatch.Agents
