import VaultWatch.Gateway.Travel
import VaultWatch.Engine.Rules

/-! # One journey, two clocks

A login and a payment are both checked for impossible travel. The gateway divides the
distance by all the time that has passed, the engine by its whole seconds, so the two
tell a journey apart when the fraction of a second decides. -/
namespace VaultWatch.Correlation

open VaultWatch.Lib.Exact
open VaultWatch.Gateway (GeoPoint checkImpossibleTravel hours)
open VaultWatch.Engine (Transaction ScoringContext LastLocation Fires)

section
variable {K : Type} [Field K] [LinearOrder K]

/-- The transaction is made at `current`, on an account last seen at `last`. -/
structure Journey (tx : Transaction K) (ctx : ScoringContext K) (last current : GeoPoint K) :
    Prop where
  last : ctx.lastLocation = some ⟨last.lat, last.lon, last.time⟩
  lat : tx.lat = some current.lat
  lon : tx.lon = some current.lon
  timestamp : tx.timestamp = current.time

/-- The great-circle distance, as the engine computes it. -/
def distanceKm (T : Trig K) (last current : GeoPoint K) : K :=
  Engine.haversineKm T last.lat last.lon current.lat current.lon

/-- How far 900 km/h reach in some nanoseconds, of which an hour has `3600 * 10 ^ 9`. -/
def reachKm (nanoseconds : ℤ) : K :=
  (900 : ℕ) * (nanoseconds : K) / (3600000000000 : ℕ)

/-- Strictly later, and farther than 900 km/h reach in the time between. -/
def TooFar (T : Trig K) (last current : GeoPoint K) : Prop :=
  last.time < current.time ∧ reachKm (current.time - last.time) < distanceKm T last current

/-- The rule is among those the engine triggers. -/
def TravelRuleFires (T : Trig K) (fmt : Engine.NumberFormat K) (tx : Transaction K)
    (ctx : ScoringContext K) : Prop :=
  ∃ t ∈ (Engine.score T fmt tx ctx).triggeredRules, t.rule = "impossible_travel"

/-- The payment's check and the login's say the same, and it is what they are to say. -/
def ChecksAgree (T : Trig K) (fmt : Engine.NumberFormat K) (tx : Transaction K)
    (ctx : ScoringContext K) (last current : GeoPoint K) : Prop :=
  (TravelRuleFires T fmt tx ctx ↔ (checkImpossibleTravel T last current).impossible = true) ∧
    ((checkImpossibleTravel T last current).impossible = true ↔ TooFar T last current)

/-- The fraction of a second does not decide: within the first second the distance is
within reach, and after it the distance is within reach in the whole seconds alone, or
out of reach in all the time. -/
def FractionIdle (T : Trig K) (last current : GeoPoint K) : Prop :=
  let elapsed := current.time - last.time
  elapsed ≤ 0 ∨
    (elapsed < 1000000000 ∧ distanceKm T last current ≤ reachKm elapsed) ∨
    (1000000000 ≤ elapsed ∧
      (distanceKm T last current ≤ reachKm (elapsed / 1000000000 * 1000000000) ∨
        reachKm elapsed < distanceKm T last current))

variable {T : Trig K} {fmt : Engine.NumberFormat K} {tx : Transaction K} {ctx : ScoringContext K}
  {last current : GeoPoint K}

omit [LinearOrder K] in
theorem haversineKm_eq (T : Trig K) (last current : GeoPoint K) :
    Gateway.haversineKm T last current = distanceKm T last current := by
  have radians : ∀ d : K, d * T.pi / 180 = Engine.toRadians T d :=
    fun d => mul_div_assoc d T.pi 180
  simp only [Gateway.haversineKm, distanceKm, Engine.haversineKm, Gateway.earthRadiusKm,
    Engine.EARTH_RADIUS_KM, Nat.cast_ofNat, radians]

theorem travelRuleFires_iff : TravelRuleFires T fmt tx ctx ↔ Fires T tx ctx .impossibleTravel :=
  Engine.triggered_iff T fmt tx ctx .impossibleTravel

section
variable [IsStrictOrderedRing K]

theorem reachKm_mono {s t : ℤ} (le : s ≤ t) : (reachKm s : K) ≤ reachKm t := by
  unfold reachKm
  have : (s : K) ≤ t := Int.cast_le.mpr le
  gcongr

theorem reachKm_lt_iff (nanoseconds : ℤ) (distance : K) :
    reachKm nanoseconds < distance ↔ (nanoseconds : K) < 4000000000 * distance := by
  unfold reachKm
  rw [div_lt_iff₀ (by norm_num)]
  push_cast
  constructor <;> intro h <;> linarith

/-- The login's check is on all the time. -/
theorem login_iff :
    (checkImpossibleTravel T last current).impossible = true ↔ TooFar T last current := by
  rw [Gateway.checkImpossibleTravel_impossible, haversineKm_eq, hours,
    speed_gt_iff (by norm_num), TooFar, reachKm_lt_iff, Int.cast_pos, Int.sub_pos]
  refine and_congr_right fun _ => ?_
  unfold Gateway.impossibleTravelKmh
  push_cast
  constructor <;> intro h <;> linarith

theorem wholeSeconds_pos_iff {interval : ℤ} :
    0 < wholeSeconds interval ↔ 1000000000 ≤ interval := by
  constructor
  · intro positive
    have later := nonneg_of_wholeSeconds_pos positive
    rw [wholeSeconds, Int.tdiv_eq_ediv_of_nonneg later] at positive
    omega
  · intro second
    rw [wholeSeconds, Int.tdiv_eq_ediv_of_nonneg (by omega)]
    omega

/-- The payment's check is on the whole seconds. -/
theorem payment_iff (journey : Journey tx ctx last current) :
    TravelRuleFires T fmt tx ctx ↔ 1000000000 ≤ current.time - last.time ∧
      reachKm ((current.time - last.time) / 1000000000 * 1000000000) <
        distanceKm T last current := by
  have fires : Fires T tx ctx .impossibleTravel ↔
      0 < wholeSeconds (current.time - last.time) ∧
        (wholeSeconds (current.time - last.time) : K) < 4 * distanceKm T last current := by
    rw [← Engine.impossibleTravel_seconds]
    constructor
    · rintro ⟨_, _, _, known, lat, lon, fast⟩
      cases journey.last.symm.trans known
      cases journey.lat.symm.trans lat
      cases journey.lon.symm.trans lon
      rw [journey.timestamp] at fast
      exact fast
    · intro fast
      refine ⟨_, _, _, journey.last, journey.lat, journey.lon, ?_⟩
      rw [journey.timestamp]
      exact fast
  rw [travelRuleFires_iff, fires, wholeSeconds_pos_iff, reachKm_lt_iff]
  refine and_congr_right fun second => ?_
  rw [wholeSeconds, Int.tdiv_eq_ediv_of_nonneg (by omega)]
  push_cast
  constructor <;> intro h <;> linarith

/-- The two checks of a journey agree exactly when the fraction of a second does not
decide. -/
theorem travel_checks_agree_iff (journey : Journey tx ctx last current) :
    ChecksAgree T fmt tx ctx last current ↔ FractionIdle T last current := by
  have login : (checkImpossibleTravel T last current).impossible = true ↔
      TooFar T last current := login_iff
  rw [ChecksAgree, FractionIdle, login, payment_iff journey, TooFar, ← Int.sub_pos]
  generalize current.time - last.time = elapsed
  have whole : elapsed / 1000000000 * 1000000000 ≤ elapsed := Int.ediv_mul_le _ (by norm_num)
  have reach := reachKm_mono (K := K) whole
  constructor
  · rintro ⟨agree, -⟩
    rcases le_or_gt elapsed 0 with still | moved
    · exact .inl still
    rcases lt_or_ge elapsed 1000000000 with within | second
    · refine .inr (.inl ⟨within, not_lt.mp fun far => ?_⟩)
      exact absurd (agree.mpr ⟨moved, far⟩).1 (not_le.mpr within)
    · refine .inr (.inr ⟨second, ?_⟩)
      rcases le_or_gt (distanceKm T last current) (reachKm (elapsed / 1000000000 * 1000000000)) with
        near | far
      · exact .inl near
      · exact .inr (agree.mp ⟨second, far⟩).2
  · intro idle
    refine ⟨⟨fun ⟨second, far⟩ => ?_, fun ⟨moved, far⟩ => ?_⟩, Iff.rfl⟩
    · rcases idle with still | ⟨within, -⟩ | ⟨-, near | far'⟩
      · linarith
      · linarith
      · exact absurd far (not_lt.mpr near)
      · exact ⟨by linarith, far'⟩
    · rcases idle with still | ⟨-, near⟩ | ⟨second, -⟩
      · linarith
      · exact absurd far (not_lt.mpr near)
      · exact ⟨second, reach.trans_lt far⟩

end

end

/-! A payment an hour later from the same place, and one half a second later from the
other side of the world. -/

def payment (timestamp : ℤ) (lat lon : ℝ) : Transaction ℝ where
  id := "tx"
  amount := 0
  timestamp := timestamp
  lat := some lat
  lon := some lon
  beneficiaryId := none
  deviceId := none

def lastSeen (lat lon : ℝ) : ScoringContext ℝ where
  recentAmounts := []
  recentCountLastHour := 0
  recentSumLastHour := 0
  knownBeneficiaries := []
  knownDevices := []
  lastLocation := some ⟨lat, lon, 0⟩

theorem journey (timestamp : ℤ) (lat lon lat' lon' : ℝ) :
    Journey (payment timestamp lat' lon') (lastSeen lat lon) ⟨lat, lon, 0⟩
      ⟨lat', lon', timestamp⟩ := ⟨rfl, rfl, rfl, rfl⟩

theorem travel_checks_agree_home :
    ChecksAgree Trig.real ⟨fun _ _ => ""⟩ (payment 3600000000000 53 (-6)) (lastSeen 53 (-6))
      ⟨53, -6, 0⟩ ⟨53, -6, 3600000000000⟩ := by
  refine (travel_checks_agree_iff (journey 3600000000000 53 (-6) 53 (-6))).mpr ?_
  refine .inr (.inr ⟨by norm_num, .inl ?_⟩)
  have still : distanceKm Trig.real ⟨53, -6, 0⟩ ⟨53, -6, 3600000000000⟩ = 0 := by
    simp [distanceKm, Engine.haversineKm, Trig.real]
  rw [still]
  norm_num [reachKm]

theorem distanceKm_antipode (timestamp : ℤ) :
    distanceKm Trig.real ⟨0, 0, 0⟩ ⟨0, 180, timestamp⟩ = 6371 * Real.pi := by
  have half : 180 * (Real.pi / 180) / 2 = Real.pi / 2 := by ring
  simp [distanceKm, Engine.haversineKm, Trig.real, Engine.toRadians,
    Engine.EARTH_RADIUS_KM, half]
  ring

/-- The login is reported, the payment is not. -/
theorem half_second_missed :
    Journey (payment 500000000 0 180) (lastSeen 0 0) ⟨0, 0, 0⟩ ⟨0, 180, 500000000⟩ ∧
      ¬ (TravelRuleFires Trig.real ⟨fun _ _ => ""⟩ (payment 500000000 0 180)
          (lastSeen 0 0) ↔
        (checkImpossibleTravel Trig.real ⟨0, 0, 0⟩ ⟨0, 180, 500000000⟩).impossible =
          true) := by
  refine ⟨journey 500000000 0 0 0 180, fun agree => ?_⟩
  have far : reachKm 500000000 < distanceKm Trig.real ⟨0, 0, 0⟩ ⟨0, 180, 500000000⟩ := by
    rw [distanceKm_antipode, reachKm_lt_iff]
    have := Real.two_le_pi
    push_cast
    linarith
  have reported := agree.mpr (login_iff.mpr ⟨by norm_num, by simpa using far⟩)
  have second := ((payment_iff (journey 500000000 0 0 0 180)).mp reported).1
  norm_num at second

end VaultWatch.Correlation
