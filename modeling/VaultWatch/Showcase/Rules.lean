import VaultWatch.Engine.Rules

/-! The showcase's own copy of the rules engine (`dashboard-web/src/lib/rules.ts`),
on the transactions and contexts of the engine: both read the same JSON. A
`string` is falsy when it is empty, and `Date` counts milliseconds. -/
namespace VaultWatch.Showcase

open VaultWatch.Lib.Exact

open VaultWatch.Engine (Transaction ScoringContext LastLocation TriggeredRule RiskBand)

structure RuleEngineVerdict where
  transactionId : String
  riskScore : ℕ
  riskBand : RiskBand
  triggeredRules : List TriggeredRule

/-- How numbers become text: `toFixed`, and a number in a template. -/
structure Format (K : Type) where
  toFixed : (digits : ℕ) → K → String
  toString : K → String

section
variable {K : Type} [Field K] [LinearOrder K] (T : Trig K)

def EARTH_RADIUS_KM : K := (6371 : ℕ)

def IMPOSSIBLE_TRAVEL_KMH : K := (900 : ℕ)

def toRad (d : K) : K := d * T.pi / (180 : ℕ)

def haversineKm (aLat aLon bLat bLon : K) : K :=
  let lat1 := toRad T aLat
  let lon1 := toRad T aLon
  let lat2 := toRad T bLat
  let lon2 := toRad T bLon
  let dlat := lat2 - lat1
  let dlon := lon2 - lon1
  let h := T.sin (dlat / (2 : ℕ)) ^ 2 +
    T.cos lat1 * T.cos lat2 * T.sin (dlon / (2 : ℕ)) ^ 2
  (2 : ℕ) * EARTH_RADIUS_KM * T.asin (T.sqrt h)

def meanStddev (values : List K) : Option (K × K) :=
  if values.length < 3 then none
  else
    let mean := values.foldl (fun a b => a + b) 0 / (values.length : K)
    let variance := values.foldl (fun a v => a + (v - mean) ^ 2) 0 / (values.length : K)
    some (mean, T.sqrt variance)

variable (fmt : Format K) (tx : Transaction K) (ctx : ScoringContext K)

def velocityCount : Option TriggeredRule :=
  if 5 ≤ ctx.recentCountLastHour then
    some {
      rule := "velocity_count"
      weight := 25
      detail := toString ctx.recentCountLastHour ++
        " transactions in the last hour (threshold 5)" }
  else none

def velocityAmount : Option TriggeredRule :=
  let hourlyTotal := ctx.recentSumLastHour + tx.amount
  if (5000 : ℕ) < hourlyTotal then
    some {
      rule := "velocity_amount"
      weight := 20
      detail := "cumulative amount in the last hour is " ++ fmt.toFixed 2 hourlyTotal ++
        " (threshold 5000.00)" }
  else none

def amountOutlier : Option TriggeredRule :=
  match meanStddev T ctx.recentAmounts with
  | some (mean, stddev) =>
    if 0 < stddev then
      let z := (tx.amount - mean) / stddev
      if (3 : ℕ) < z then
        some {
          rule := "amount_outlier"
          weight := 30
          detail := "amount " ++ fmt.toFixed 2 tx.amount ++ " is " ++ fmt.toFixed 1 z ++
            " standard deviations above the account mean (" ++ fmt.toFixed 2 mean ++ ")" }
      else none
    else none
  | none => none

def impossibleTravel : Option TriggeredRule :=
  match ctx.lastLocation, tx.lat, tx.lon with
  | some last, some lat, some lon =>
    let dist := haversineKm T last.lat last.lon lat lon
    let hours := ((millis tx.timestamp - millis last.timestamp : ℤ) : K) / (3600000 : ℕ)
    if 0 < hours then
      let speed := dist / hours
      if IMPOSSIBLE_TRAVEL_KMH < speed then
        some {
          rule := "impossible_travel"
          weight := 40
          detail := fmt.toFixed 0 dist ++ "km in " ++ fmt.toFixed 2 hours ++ "h implies " ++
            fmt.toFixed 0 speed ++ "km/h (threshold " ++ fmt.toString IMPOSSIBLE_TRAVEL_KMH ++
            "km/h)" }
      else none
    else none
  | _, _, _ => none

/-- `s && …`, on a string that may be missing. -/
def truthy (s : String) : Bool := s ≠ ""

def newBeneficiaryHighValue : Option TriggeredRule :=
  match tx.beneficiaryId with
  | some ben =>
    if truthy ben ∧ ben ∉ ctx.knownBeneficiaries ∧ (1000 : ℕ) < tx.amount then
      some {
        rule := "new_beneficiary_high_value"
        weight := 25
        detail := "first payment to beneficiary " ++ ben ++ " for " ++
          fmt.toFixed 2 tx.amount ++ " (threshold 1000.00)" }
    else none
  | none => none

def newDevice : Option TriggeredRule :=
  match tx.deviceId with
  | some dev =>
    if truthy dev ∧ 0 < ctx.knownDevices.length ∧ dev ∉ ctx.knownDevices then
      some {
        rule := "new_device"
        weight := 10
        detail := "device " ++ dev ++ " has not been seen on this account before" }
    else none
  | none => none

def triggered : List TriggeredRule :=
  [velocityCount ctx, velocityAmount fmt tx ctx, amountOutlier T fmt tx ctx,
    impossibleTravel T fmt tx ctx, newBeneficiaryHighValue fmt tx ctx,
    newDevice tx ctx].filterMap id

def riskBand (riskScore : ℕ) : RiskBand :=
  if 80 ≤ riskScore then .critical
  else if 55 ≤ riskScore then .high
  else if 25 ≤ riskScore then .medium
  else .low

def scoreTransaction : RuleEngineVerdict :=
  let triggered := triggered T fmt tx ctx
  let riskScore := min 100 (triggered.foldl (fun sum r => sum + r.weight) 0)
  { transactionId := tx.id
    riskScore
    riskBand := riskBand riskScore
    triggeredRules := triggered }

end

end VaultWatch.Showcase
