import VaultWatch.Showcase.Rules

/-! Where the showcase's rules engine agrees with the engine it is a port of. The
conditions of three rules are the same. The other three differ on inputs that
the two languages read differently: empty strings, and fractions of a second. -/
namespace VaultWatch.Showcase

open VaultWatch.Lib.Exact

open VaultWatch.Engine (Transaction ScoringContext TriggeredRule RiskBand Rule ScoreResponse Fires)

/-! ## The rules of the port -/

section
variable {K : Type} [Field K] [LinearOrder K] {T : Trig K} {fmt : Format K}

/-- The definition of each rule. -/
def ruleResult (T : Trig K) (fmt : Format K) (tx : Transaction K) (ctx : ScoringContext K) :
    Rule → Option TriggeredRule
  | .velocityCount => velocityCount ctx
  | .velocityAmount => velocityAmount fmt tx ctx
  | .amountOutlier => amountOutlier T fmt tx ctx
  | .impossibleTravel => impossibleTravel T fmt tx ctx
  | .newBeneficiaryHighValue => newBeneficiaryHighValue fmt tx ctx
  | .newDevice => newDevice tx ctx

/-- The condition of each rule of the port. -/
def PortFires (T : Trig K) (tx : Transaction K) (ctx : ScoringContext K) : Rule → Prop
  | .velocityCount => 5 ≤ ctx.recentCountLastHour
  | .velocityAmount => (5000 : ℕ) < ctx.recentSumLastHour + tx.amount
  | .amountOutlier => ∃ mean stddev, meanStddev T ctx.recentAmounts = some (mean, stddev) ∧
      0 < stddev ∧ (3 : ℕ) < (tx.amount - mean) / stddev
  | .impossibleTravel => ∃ last lat lon, ctx.lastLocation = some last ∧ tx.lat = some lat ∧
      tx.lon = some lon ∧
      0 < ((millis tx.timestamp - millis last.timestamp : ℤ) : K) / (3600000 : ℕ) ∧
      IMPOSSIBLE_TRAVEL_KMH < haversineKm T last.lat last.lon lat lon /
        (((millis tx.timestamp - millis last.timestamp : ℤ) : K) / (3600000 : ℕ))
  | .newBeneficiaryHighValue => ∃ ben, tx.beneficiaryId = some ben ∧ ben ≠ "" ∧
      ben ∉ ctx.knownBeneficiaries ∧ (1000 : ℕ) < tx.amount
  | .newDevice => ∃ dev, tx.deviceId = some dev ∧ dev ≠ "" ∧ ctx.knownDevices ≠ [] ∧
      dev ∉ ctx.knownDevices

theorem triggered_eq (tx : Transaction K) (ctx : ScoringContext K) :
    triggered T fmt tx ctx = Rule.all.filterMap (ruleResult T fmt tx ctx) := rfl

/-! ## What is the same -/

omit [LinearOrder K] in
theorem haversineKm_eq (aLat aLon bLat bLon : K) :
    haversineKm T aLat aLon bLat bLon = Engine.haversineKm T aLat aLon bLat bLon := by
  have radians : ∀ d : K, toRad T d = Engine.toRadians T d := fun d => by
    unfold toRad Engine.toRadians
    rw [mul_div_assoc, Nat.cast_ofNat]
  simp only [haversineKm, Engine.haversineKm, radians, EARTH_RADIUS_KM, Engine.EARTH_RADIUS_KM,
    Nat.cast_ofNat]

omit [LinearOrder K] in
theorem meanStddev_eq (values : List K) : meanStddev T values = Engine.meanStddev T values := by
  simp only [meanStddev, Engine.meanStddev, List.foldl_map]

theorem velocityAmount_eq (tx : Transaction K) (ctx : ScoringContext K) :
    velocityAmount fmt tx ctx = Engine.velocityAmount ⟨fmt.toFixed⟩ tx ctx := by
  simp only [velocityAmount, Engine.velocityAmount, Nat.cast_ofNat]

theorem amountOutlier_eq (tx : Transaction K) (ctx : ScoringContext K) :
    amountOutlier T fmt tx ctx = Engine.amountOutlier T ⟨fmt.toFixed⟩ tx ctx := by
  unfold amountOutlier Engine.amountOutlier
  rw [meanStddev_eq]
  cases Engine.meanStddev T ctx.recentAmounts with
  | none => rfl
  | some stats => simp only [Nat.cast_ofNat]

theorem riskBand_eq (riskScore : ℕ) : riskBand riskScore = .fromScore riskScore := by
  unfold riskBand RiskBand.fromScore
  split_ifs <;> first | rfl | omega

/-- The scores of two lists of triggered rules with the same weights. -/
theorem riskScore_eq {a b : List TriggeredRule}
    (same : a.map TriggeredRule.key = b.map TriggeredRule.key) :
    min 100 (a.foldl (fun sum r => sum + r.weight) 0) = min (b.map (·.weight)).sum 100 := by
  have weights : a.map (·.weight) = b.map (·.weight) := by
    have snds := congrArg (List.map Prod.snd) same
    rwa [List.map_map, List.map_map] at snds
  rw [min_comm, ← weights, List.sum_eq_foldl, List.foldl_map]

/-! ## Which rules fire -/

theorem truthy_iff {s : String} : truthy s = true ↔ s ≠ "" := decide_eq_true_iff

/-- Three rules are the engine's own. The others are decided by the port's conditions. -/
theorem ruleResult_decides (tx : Transaction K) (ctx : ScoringContext K) (r : Rule) :
    Decides TriggeredRule.key r.key (PortFires T tx ctx r) (ruleResult T fmt tx ctx r) := by
  have engine := @Engine.ruleResult_decides _ _ _ T ⟨fmt.toFixed⟩ tx ctx r
  cases r with
  | velocityCount => exact engine
  | velocityAmount =>
    simp only [ruleResult, velocityAmount_eq, PortFires, Nat.cast_ofNat]
    exact engine
  | amountOutlier =>
    simp only [ruleResult, amountOutlier_eq, PortFires, meanStddev_eq, Nat.cast_ofNat]
    exact engine
  | impossibleTravel =>
    simp only [ruleResult, PortFires, impossibleTravel, exists_and_left]
    refine .given (fun absent => by simp [absent]) fun last hlast => ?_
    refine .given (fun absent => by simp [absent]) fun lat hlat => ?_
    refine .given (fun absent => by simp [absent]) fun lon hlon => ?_
    simp only [hlast, hlat, hlon]
    exact .guard (.ite rfl)
  | newBeneficiaryHighValue =>
    simp only [ruleResult, PortFires, newBeneficiaryHighValue, truthy_iff]
    refine .given (fun absent => by simp [absent]) fun ben present => ?_
    simp only [present]
    exact .ite rfl
  | newDevice =>
    simp only [ruleResult, PortFires, newDevice, truthy_iff, List.length_pos_iff]
    refine .given (fun absent => by simp [absent]) fun dev present => ?_
    simp only [present]
    exact .ite rfl

end

/-! ## Agreement -/

section
variable {K : Type} [Field K] [LinearOrder K] [IsStrictOrderedRing K]

/-- Neither clock alone sees an impossible journey: not the milliseconds of one
within a second, and not the whole seconds of one whose fraction makes it possible. -/
def TravelAgrees (T : Trig K) (tx : Transaction K) (ctx : ScoringContext K) : Prop :=
  ∀ last lat lon, ctx.lastLocation = some last → tx.lat = some lat → tx.lon = some lon →
    let distance := Engine.haversineKm T last.lat last.lon lat lon
    let seconds := wholeSeconds (tx.timestamp - last.timestamp)
    let milliseconds := millis tx.timestamp - millis last.timestamp
    ¬ (seconds = 0 ∧ 0 < milliseconds ∧ (milliseconds : K) < 4000 * distance) ∧
      ¬ (0 < seconds ∧ (seconds : K) < 4 * distance ∧ 4000 * distance ≤ milliseconds)

/-- An empty beneficiary id is known, or the amount is small. -/
def BeneficiaryAgrees (tx : Transaction K) (ctx : ScoringContext K) : Prop :=
  tx.beneficiaryId = some "" → "" ∈ ctx.knownBeneficiaries ∨ tx.amount ≤ (1000 : ℕ)

/-- An empty device id is known, or no device is. -/
def DeviceAgrees (tx : Transaction K) (ctx : ScoringContext K) : Prop :=
  tx.deviceId = some "" → ctx.knownDevices = [] ∨ "" ∈ ctx.knownDevices

variable {T : Trig K} {tx : Transaction K} {ctx : ScoringContext K}

theorem impossibleTravel_milliseconds (distance : K) (milliseconds : ℤ) :
    0 < (milliseconds : K) / 3600000 ∧
        IMPOSSIBLE_TRAVEL_KMH < distance / ((milliseconds : K) / 3600000) ↔
      0 < milliseconds ∧ (milliseconds : K) < 4000 * distance := by
  rw [speed_gt_iff (by norm_num), Int.cast_pos]
  refine and_congr_right fun _ => ?_
  unfold IMPOSSIBLE_TRAVEL_KMH
  rw [Nat.cast_ofNat]
  constructor <;> intro h <;> linarith

/-- Two clocks, the coarser one never ahead, agree on a journey or tell it apart
in one of two ways. -/
theorem clocks_agree_iff {s t : ℤ} (distance : K) :
    (0 < millis t - millis s ∧ ((millis t - millis s : ℤ) : K) < 4000 * distance ↔
        0 < wholeSeconds (t - s) ∧ (wholeSeconds (t - s) : K) < 4 * distance) ↔
      ¬ (wholeSeconds (t - s) = 0 ∧ 0 < millis t - millis s ∧
          ((millis t - millis s : ℤ) : K) < 4000 * distance) ∧
        ¬ (0 < wholeSeconds (t - s) ∧ (wholeSeconds (t - s) : K) < 4 * distance ∧
          4000 * distance ≤ ((millis t - millis s : ℤ) : K)) := by
  constructor
  · intro agree
    constructor
    · intro ⟨zero, fine⟩
      have coarse := agree.mp fine
      omega
    · intro ⟨positive, slow, fast⟩
      exact absurd (agree.mpr ⟨positive, slow⟩).2 (not_lt.mpr fast)
  · intro ⟨within, between⟩
    constructor
    · intro ⟨positive, fast⟩
      have nonneg := wholeSeconds_nonneg positive
      have some : 0 < wholeSeconds (t - s) := by
        by_contra none
        exact within ⟨by omega, positive, fast⟩
      have behind : (1000 * wholeSeconds (t - s) : K) ≤ ((millis t - millis s : ℤ) : K) := by
        exact_mod_cast wholeSeconds_le_millis some
      exact ⟨some, by linarith⟩
    · intro ⟨positive, fast⟩
      have behind := wholeSeconds_le_millis positive
      exact ⟨by omega, not_le.mp fun slow => between ⟨positive, fast, slow⟩⟩

theorem travel_agrees_iff :
    (PortFires T tx ctx .impossibleTravel ↔ Fires T tx ctx .impossibleTravel) ↔
      TravelAgrees T tx ctx := by
  simp only [PortFires, Fires, haversineKm_eq, Engine.impossibleTravel_seconds, Nat.cast_ofNat,
    impossibleTravel_milliseconds]
  unfold TravelAgrees
  cases hlast : ctx.lastLocation with
  | none => simp
  | some last =>
    cases hlat : tx.lat with
    | none => simp
    | some lat =>
      cases hlon : tx.lon with
      | none => simp
      | some lon =>
        have located : ∀ {p : Engine.LastLocation K → K → K → Prop},
            (∃ a b c, some last = some a ∧ some lat = some b ∧ some lon = some c ∧ p a b c) ↔
              p last lat lon := by simp
        rw [located, located, clocks_agree_iff]
        constructor
        · intro agree _ _ _ same₁ same₂ same₃
          cases same₁
          cases same₂
          cases same₃
          exact agree
        · intro agree
          exact agree last lat lon rfl rfl rfl

omit [IsStrictOrderedRing K] in
theorem beneficiary_agrees_iff :
    (PortFires T tx ctx .newBeneficiaryHighValue ↔ Fires T tx ctx .newBeneficiaryHighValue) ↔
      BeneficiaryAgrees tx ctx := by
  simp only [PortFires, Fires]
  unfold BeneficiaryAgrees
  cases tx.beneficiaryId with
  | none => simp
  | some ben =>
    by_cases empty : ben = ""
    · subst empty
      simp [or_iff_not_imp_left]
    · simp [empty]

omit [IsStrictOrderedRing K] in
theorem device_agrees_iff :
    (PortFires T tx ctx .newDevice ↔ Fires T tx ctx .newDevice) ↔ DeviceAgrees tx ctx := by
  simp only [PortFires, Fires]
  unfold DeviceAgrees
  cases tx.deviceId with
  | none => simp
  | some dev =>
    by_cases empty : dev = ""
    · subst empty
      simp [or_iff_not_imp_left]
    · simp [empty]

/-- The verdicts name the same rules with the same weights in the same order, and
carry the same score and band. -/
structure SameVerdict (port : RuleEngineVerdict) (engine : ScoreResponse) : Prop where
  triggeredRules : port.triggeredRules.map TriggeredRule.key =
    engine.triggeredRules.map TriggeredRule.key
  riskScore : port.riskScore = engine.riskScore
  riskBand : port.riskBand = engine.riskBand

omit [IsStrictOrderedRing K] in
theorem sameVerdict_iff {fmt : Format K} {fmt' : Engine.NumberFormat K} :
    SameVerdict (scoreTransaction T fmt tx ctx) (Engine.score T fmt' tx ctx) ↔
      ∀ r, PortFires T tx ctx r ↔ Fires T tx ctx r := by
  have lists : (triggered T fmt tx ctx).map TriggeredRule.key =
        (Engine.triggered T fmt' tx ctx).map TriggeredRule.key ↔
      ∀ r, PortFires T tx ctx r ↔ Fires T tx ctx r := by
    rw [triggered_eq, Engine.triggered_eq,
      map_key_filterMap _ _ _ _ fun r => (ruleResult_decides tx ctx r).named,
      map_key_filterMap _ _ _ _ fun r => (Engine.ruleResult_decides tx ctx r).named,
      (List.map_injective_iff.mpr Rule.key_injective).eq_iff, filter_eq_filter_iff]
    simp only [(ruleResult_decides tx ctx _).isSome, (Engine.ruleResult_decides tx ctx _).isSome]
    exact ⟨fun agree r => agree r r.mem_all, fun agree r _ => agree r⟩
  rw [← lists]
  constructor
  · intro same
    exact same.triggeredRules
  · intro same
    have score : (scoreTransaction T fmt tx ctx).riskScore =
      (Engine.score T fmt' tx ctx).riskScore := riskScore_eq same
    refine ⟨same, score, ?_⟩
    show riskBand (scoreTransaction T fmt tx ctx).riskScore = _
    rw [score, riskBand_eq]
    rfl

/-- The port agrees with the engine exactly where no empty id is new to the
account and both clocks see the journey alike. -/
theorem scoreTransaction_agrees_iff (T : Trig K) (fmt : Format K) (fmt' : Engine.NumberFormat K)
    (tx : Transaction K) (ctx : ScoringContext K) :
    SameVerdict (scoreTransaction T fmt tx ctx) (Engine.score T fmt' tx ctx) ↔
      TravelAgrees T tx ctx ∧ BeneficiaryAgrees tx ctx ∧ DeviceAgrees tx ctx := by
  rw [sameVerdict_iff, ← travel_agrees_iff, ← beneficiary_agrees_iff (T := T),
    ← device_agrees_iff (T := T)]
  constructor
  · intro agree
    exact ⟨agree _, agree _, agree _⟩
  · intro ⟨travel, beneficiary, device⟩ r
    cases r with
    | velocityCount => exact Iff.rfl
    | velocityAmount => exact Iff.rfl
    | amountOutlier => simp only [PortFires, Fires, meanStddev_eq, Nat.cast_ofNat]
    | impossibleTravel => exact travel
    | newBeneficiaryHighValue => exact beneficiary
    | newDevice => exact device

end

/-! Over the real numbers, without the texts for the reader: a customer at home an
hour after the last payment, and a first payment to an empty beneficiary id. -/

def noText : Format ℝ := ⟨fun _ _ => "", fun _ => ""⟩

def noEngineText : Engine.NumberFormat ℝ := ⟨fun _ _ => ""⟩

def homePayment : Transaction ℝ where
  id := "tx_home"
  amount := 40
  timestamp := 3600000000000
  lat := some 53
  lon := some (-6)
  beneficiaryId := some "ben_known"
  deviceId := some "dev_known"

def homeContext : ScoringContext ℝ where
  recentAmounts := [38, 42, 35]
  recentCountLastHour := 1
  recentSumLastHour := 40
  knownBeneficiaries := ["ben_known"]
  knownDevices := ["dev_known"]
  lastLocation := some ⟨53, -6, 0⟩

theorem scoreTransaction_agrees_home :
    SameVerdict (scoreTransaction Trig.real noText homePayment homeContext)
      (Engine.score Trig.real noEngineText homePayment homeContext) := by
  have still : Engine.haversineKm Trig.real 53 (-6) 53 (-6) = 0 := by
    simp [Engine.haversineKm, Trig.real]
  refine (scoreTransaction_agrees_iff Trig.real noText noEngineText homePayment homeContext).mpr
    ⟨?_, fun empty => absurd empty (by simp [homePayment]),
      fun empty => absurd empty (by simp [homePayment])⟩
  intro last lat lon hlast hlat hlon
  cases hlast
  cases hlat
  cases hlon
  rw [still]
  simp [millis, wholeSeconds, homePayment]

def emptyBeneficiary : Transaction ℝ where
  id := "tx_empty"
  amount := 2000
  timestamp := 0
  lat := none
  lon := none
  beneficiaryId := some ""
  deviceId := none

def newContext : ScoringContext ℝ where
  recentAmounts := []
  recentCountLastHour := 0
  recentSumLastHour := 0
  knownBeneficiaries := []
  knownDevices := []
  lastLocation := none

/-- The engine flags the first payment, the port does not. -/
theorem emptyBeneficiary_differs :
    ¬ SameVerdict (scoreTransaction Trig.real noText emptyBeneficiary newContext)
      (Engine.score Trig.real noEngineText emptyBeneficiary newContext) := by
  intro same
  have fires := (sameVerdict_iff.mp same .newBeneficiaryHighValue).mpr
    ⟨"", rfl, by simp [newContext], by norm_num [emptyBeneficiary]⟩
  obtain ⟨ben, present, nonempty, _⟩ := fires
  cases present
  exact nonempty rfl

end VaultWatch.Showcase
