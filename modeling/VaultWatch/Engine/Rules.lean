import VaultWatch.Lib.Exact

/-! The rules engine (`engine-rust/src/rules.rs`, `models.rs`) over exact
numbers: `f64` is an ordered field `K`, and the functions of its mathematics
library are a `Trig K`. The timestamps (`chrono::DateTime<Utc>`) are nanoseconds. -/
namespace VaultWatch.Engine

open VaultWatch.Lib.Exact

/-! ## Requests and responses -/

structure LastLocation (K : Type) where
  lat : K
  lon : K
  timestamp : ℤ

structure Transaction (K : Type) where
  id : String
  amount : K
  timestamp : ℤ
  lat : Option K
  lon : Option K
  beneficiaryId : Option String
  deviceId : Option String

structure ScoringContext (K : Type) where
  recentAmounts : List K
  recentCountLastHour : ℕ
  recentSumLastHour : K
  knownBeneficiaries : List String
  knownDevices : List String
  lastLocation : Option (LastLocation K)

structure TriggeredRule where
  rule : String
  weight : ℕ
  detail : String

/-- What names a triggered rule: all of it but the text for the reader. -/
def TriggeredRule.key (r : TriggeredRule) : String × ℕ := (r.rule, r.weight)

inductive RiskBand
  | low | medium | high | critical
  deriving DecidableEq

def RiskBand.value : RiskBand → String
  | low => "low"
  | medium => "medium"
  | high => "high"
  | critical => "critical"

def RiskBand.fromScore (score : ℕ) : RiskBand :=
  if score ≤ 24 then .low
  else if score ≤ 54 then .medium
  else if score ≤ 79 then .high
  else .critical

structure ScoreResponse where
  transactionId : String
  riskScore : ℕ
  riskBand : RiskBand
  triggeredRules : List TriggeredRule

/-! ## The rules -/

section
variable {K : Type} [Field K] [LinearOrder K] (T : Trig K)

def EARTH_RADIUS_KM : K := 6371

def IMPOSSIBLE_TRAVEL_KMH : K := 900

def toRadians (degrees : K) : K := degrees * (T.pi / 180)

def haversineKm (aLat aLon bLat bLon : K) : K :=
  let lat1 := toRadians T aLat
  let lon1 := toRadians T aLon
  let lat2 := toRadians T bLat
  let lon2 := toRadians T bLon
  let dlat := lat2 - lat1
  let dlon := lon2 - lon1
  let h := T.sin (dlat / 2) ^ 2 + T.cos lat1 * T.cos lat2 * T.sin (dlon / 2) ^ 2
  2 * EARTH_RADIUS_KM * T.asin (T.sqrt h)

def meanStddev (values : List K) : Option (K × K) :=
  if values.length < 3 then none
  else
    let mean := values.foldl (· + ·) 0 / (values.length : K)
    let variance := (values.map fun v => (v - mean) ^ 2).foldl (· + ·) 0 / (values.length : K)
    some (mean, T.sqrt variance)

/-- `format!` with `.digits`. -/
structure NumberFormat (K : Type) where
  fixed : (digits : ℕ) → K → String

variable (fmt : NumberFormat K) (tx : Transaction K) (ctx : ScoringContext K)

/-- Velocity by count in the last hour. -/
def velocityCount : Option TriggeredRule :=
  if 5 ≤ ctx.recentCountLastHour then
    some {
      rule := "velocity_count"
      weight := 25
      detail := toString ctx.recentCountLastHour ++
        " transactions in the last hour (threshold 5)" }
  else none

/-- Velocity by cumulative amount in the last hour. -/
def velocityAmount : Option TriggeredRule :=
  let hourlyTotal := ctx.recentSumLastHour + tx.amount
  if 5000 < hourlyTotal then
    some {
      rule := "velocity_amount"
      weight := 20
      detail := "cumulative amount in the last hour is " ++ fmt.fixed 2 hourlyTotal ++
        " (threshold 5000.00)" }
  else none

/-- The amount is a statistical outlier in the account's own history. -/
def amountOutlier : Option TriggeredRule :=
  match meanStddev T ctx.recentAmounts with
  | some (mean, stddev) =>
    if 0 < stddev then
      let z := (tx.amount - mean) / stddev
      if 3 < z then
        some {
          rule := "amount_outlier"
          weight := 30
          detail := "amount " ++ fmt.fixed 2 tx.amount ++ " is " ++ fmt.fixed 1 z ++
            " standard deviations above the account mean (" ++ fmt.fixed 2 mean ++ ")" }
      else none
    else none
  | none => none

/-- Impossible travel between the last known location and this one. -/
def impossibleTravel : Option TriggeredRule :=
  match ctx.lastLocation, tx.lat, tx.lon with
  | some last, some lat, some lon =>
    let distKm := haversineKm T last.lat last.lon lat lon
    let hours := (wholeSeconds (tx.timestamp - last.timestamp) : K) / 3600
    if 0 < hours then
      let speedKmh := distKm / hours
      if IMPOSSIBLE_TRAVEL_KMH < speedKmh then
        some {
          rule := "impossible_travel"
          weight := 40
          detail := fmt.fixed 0 distKm ++ "km in " ++ fmt.fixed 2 hours ++ "h implies " ++
            fmt.fixed 0 speedKmh ++ "km/h (threshold " ++
            fmt.fixed 0 IMPOSSIBLE_TRAVEL_KMH ++ "km/h)" }
      else none
    else none
  | _, _, _ => none

/-- A large amount to a beneficiary the account has never paid. -/
def newBeneficiaryHighValue : Option TriggeredRule :=
  match tx.beneficiaryId with
  | some ben =>
    if ben ∉ ctx.knownBeneficiaries ∧ 1000 < tx.amount then
      some {
        rule := "new_beneficiary_high_value"
        weight := 25
        detail := "first payment to beneficiary " ++ ben ++ " for " ++ fmt.fixed 2 tx.amount ++
          " (threshold 1000.00)" }
    else none
  | none => none

/-- A device never associated with the account. -/
def newDevice : Option TriggeredRule :=
  match tx.deviceId with
  | some dev =>
    if ctx.knownDevices ≠ [] ∧ dev ∉ ctx.knownDevices then
      some {
        rule := "new_device"
        weight := 10
        detail := "device " ++ dev ++ " has not been seen on this account before" }
    else none
  | none => none

/-- The results of the rules, in the order of the source. -/
def triggered : List TriggeredRule :=
  [velocityCount ctx, velocityAmount fmt tx ctx, amountOutlier T fmt tx ctx,
    impossibleTravel T fmt tx ctx, newBeneficiaryHighValue fmt tx ctx,
    newDevice tx ctx].filterMap id

def score : ScoreResponse :=
  let triggered := triggered T fmt tx ctx
  let riskScore := min (triggered.map (·.weight)).sum 100
  { transactionId := tx.id
    riskScore
    riskBand := .fromScore riskScore
    triggeredRules := triggered }

end

/-! ## Which rules fire -/

inductive Rule
  | velocityCount | velocityAmount | amountOutlier | impossibleTravel | newBeneficiaryHighValue
  | newDevice
  deriving DecidableEq

namespace Rule

def all : List Rule :=
  [velocityCount, velocityAmount, amountOutlier, impossibleTravel, newBeneficiaryHighValue,
    newDevice]

def key : Rule → String × ℕ
  | velocityCount => ("velocity_count", 25)
  | velocityAmount => ("velocity_amount", 20)
  | amountOutlier => ("amount_outlier", 30)
  | impossibleTravel => ("impossible_travel", 40)
  | newBeneficiaryHighValue => ("new_beneficiary_high_value", 25)
  | newDevice => ("new_device", 10)

theorem mem_all (r : Rule) : r ∈ all := by cases r <;> decide

theorem name_injective : Function.Injective fun r : Rule => r.key.1 := by
  intro a b same
  cases a <;> cases b <;> first | rfl | simp [key] at same

theorem key_injective : Function.Injective key :=
  fun _ _ same => name_injective (congrArg Prod.fst same)

end Rule

variable {K : Type} [Field K] [LinearOrder K] {T : Trig K} {fmt : NumberFormat K}

/-- The condition of each rule. -/
def Fires (T : Trig K) (tx : Transaction K) (ctx : ScoringContext K) : Rule → Prop
  | .velocityCount => 5 ≤ ctx.recentCountLastHour
  | .velocityAmount => 5000 < ctx.recentSumLastHour + tx.amount
  | .amountOutlier => ∃ mean stddev, meanStddev T ctx.recentAmounts = some (mean, stddev) ∧
      0 < stddev ∧ 3 < (tx.amount - mean) / stddev
  | .impossibleTravel => ∃ last lat lon, ctx.lastLocation = some last ∧ tx.lat = some lat ∧
      tx.lon = some lon ∧
      0 < (wholeSeconds (tx.timestamp - last.timestamp) : K) / 3600 ∧
      IMPOSSIBLE_TRAVEL_KMH < haversineKm T last.lat last.lon lat lon /
        ((wholeSeconds (tx.timestamp - last.timestamp) : K) / 3600)
  | .newBeneficiaryHighValue => ∃ ben, tx.beneficiaryId = some ben ∧
      ben ∉ ctx.knownBeneficiaries ∧ 1000 < tx.amount
  | .newDevice => ∃ dev, tx.deviceId = some dev ∧ ctx.knownDevices ≠ [] ∧ dev ∉ ctx.knownDevices

/-- The definition of each rule. -/
def ruleResult (T : Trig K) (fmt : NumberFormat K) (tx : Transaction K) (ctx : ScoringContext K) :
    Rule → Option TriggeredRule
  | .velocityCount => velocityCount ctx
  | .velocityAmount => velocityAmount fmt tx ctx
  | .amountOutlier => amountOutlier T fmt tx ctx
  | .impossibleTravel => impossibleTravel T fmt tx ctx
  | .newBeneficiaryHighValue => newBeneficiaryHighValue fmt tx ctx
  | .newDevice => newDevice tx ctx

theorem triggered_eq (tx : Transaction K) (ctx : ScoringContext K) :
    triggered T fmt tx ctx = Rule.all.filterMap (ruleResult T fmt tx ctx) := rfl

theorem ruleResult_decides (tx : Transaction K) (ctx : ScoringContext K) (r : Rule) :
    Decides TriggeredRule.key r.key (Fires T tx ctx r) (ruleResult T fmt tx ctx r) := by
  cases r with
  | velocityCount => exact .ite (p := 5 ≤ ctx.recentCountLastHour) rfl
  | velocityAmount => exact .ite (p := 5000 < ctx.recentSumLastHour + tx.amount) rfl
  | amountOutlier =>
    simp only [ruleResult, Fires, amountOutlier, ← Prod.exists']
    refine .given (fun absent => by simp [absent]) fun stats present => ?_
    simp only [present]
    exact .guard (.ite rfl)
  | impossibleTravel =>
    simp only [ruleResult, Fires, impossibleTravel, exists_and_left]
    refine .given (fun absent => by simp [absent]) fun last hlast => ?_
    refine .given (fun absent => by simp [absent]) fun lat hlat => ?_
    refine .given (fun absent => by simp [absent]) fun lon hlon => ?_
    simp only [hlast, hlat, hlon]
    exact .guard (.ite rfl)
  | newBeneficiaryHighValue =>
    simp only [ruleResult, newBeneficiaryHighValue]
    refine .given (fun absent => by simp [absent]) fun ben present => ?_
    simp only [present]
    exact .ite rfl
  | newDevice =>
    simp only [ruleResult, newDevice]
    refine .given (fun absent => by simp [absent]) fun dev present => ?_
    simp only [present]
    exact .ite rfl

/-- A journey is impossible if its whole seconds are fewer than four times its kilometres. -/
theorem impossibleTravel_seconds [IsStrictOrderedRing K] (distance : K) (seconds : ℤ) :
    0 < (seconds : K) / 3600 ∧ IMPOSSIBLE_TRAVEL_KMH < distance / ((seconds : K) / 3600) ↔
      0 < seconds ∧ (seconds : K) < 4 * distance := by
  rw [speed_gt_iff (by norm_num), Int.cast_pos]
  refine and_congr_right fun _ => ?_
  unfold IMPOSSIBLE_TRAVEL_KMH
  constructor <;> intro h <;> linarith

/-- Which rules were triggered is told by their names. -/
theorem triggered_iff (T : Trig K) (fmt : NumberFormat K) (tx : Transaction K)
    (ctx : ScoringContext K) (r : Rule) :
    (∃ t ∈ triggered T fmt tx ctx, t.rule = r.key.1) ↔ Fires T tx ctx r := by
  rw [← (@ruleResult_decides _ _ _ T fmt tx ctx r).isSome, Option.isSome_iff_exists, triggered_eq]
  constructor
  · rintro ⟨t, mem, named⟩
    obtain ⟨other, -, fired⟩ := List.mem_filterMap.mp mem
    have key : t.rule = other.key.1 :=
      congrArg Prod.fst ((ruleResult_decides tx ctx other).named t fired)
    obtain rfl : other = r := Rule.name_injective (key.symm.trans named)
    exact ⟨t, fired⟩
  · rintro ⟨t, fired⟩
    exact ⟨t, List.mem_filterMap.mpr ⟨r, r.mem_all, fired⟩,
      congrArg Prod.fst ((ruleResult_decides tx ctx r).named t fired)⟩

/-- The names and weights of the triggered rules, by which rules fire. -/
theorem triggered_keys (T : Trig K) (fmt : NumberFormat K) (tx : Transaction K)
    (ctx : ScoringContext K) : (triggered T fmt tx ctx).map TriggeredRule.key =
      (Rule.all.filter fun r => (ruleResult T fmt tx ctx r).isSome).map Rule.key := by
  rw [triggered_eq]
  exact map_key_filterMap Rule.all (ruleResult T fmt tx ctx) TriggeredRule.key Rule.key
    fun r => (ruleResult_decides tx ctx r).named

end VaultWatch.Engine
