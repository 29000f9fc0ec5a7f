import VaultWatch.Gateway.Store
import VaultWatch.Lib.Exact

/-! The impossible-travel check of a login (`internal/anomaly/travel.go`) in exact
arithmetic. -/
namespace VaultWatch.Gateway

open VaultWatch.Gateway.Store (Time)

open VaultWatch.Lib.Exact (Trig)

section
variable {K : Type} [Field K] [LinearOrder K]

def earthRadiusKm : K := (6371 : ℕ)

def impossibleTravelKmh : K := (900 : ℕ)

structure GeoPoint (K : Type) where
  lat : K
  lon : K
  time : Time

structure TravelResult (K : Type) where
  impossible : Bool := false
  speedKmh : K
  distanceKm : K

def haversineKm (T : Trig K) (a b : GeoPoint K) : K :=
  let lat1 := a.lat * T.pi / (180 : ℕ)
  let lon1 := a.lon * T.pi / (180 : ℕ)
  let lat2 := b.lat * T.pi / (180 : ℕ)
  let lon2 := b.lon * T.pi / (180 : ℕ)
  let dlat := lat2 - lat1
  let dlon := lon2 - lon1
  let h := T.sin (dlat / (2 : ℕ)) ^ 2 +
    T.cos lat1 * T.cos lat2 * T.sin (dlon / (2 : ℕ)) ^ 2
  (2 : ℕ) * earthRadiusKm * T.asin (T.sqrt h)

/-- `Duration.Hours`. -/
def hours (d : Time) : K := (d : K) / 3600000000000

def checkImpossibleTravel (T : Trig K) (last current : GeoPoint K) : TravelResult K :=
  let elapsed : K := hours (current.time - last.time)
  if elapsed ≤ 0 then { speedKmh := 0, distanceKm := 0 }
  else
    let dist := haversineKm T last current
    let speed := dist / elapsed
    { impossible := decide (impossibleTravelKmh < speed), speedKmh := speed, distanceKm := dist }

theorem checkImpossibleTravel_impossible (T : Trig K) (last current : GeoPoint K) :
    (checkImpossibleTravel T last current).impossible = true ↔
      0 < (hours (current.time - last.time) : K) ∧
        impossibleTravelKmh < haversineKm T last current / hours (current.time - last.time) := by
  unfold checkImpossibleTravel
  dsimp only
  split
  · rename_i still
    exact ⟨nofun, fun moved => absurd moved.1 (not_lt.mpr still)⟩
  · rename_i moved
    rw [decide_eq_true_iff]
    exact ⟨fun fast => ⟨not_le.mp moved, fast⟩, And.right⟩

/-- The same way in less time is impossible too. -/
theorem checkImpossibleTravel_sooner [IsStrictOrderedRing K] (T : Trig K) {lat lon lat' lon' : K}
    {t c t' : Time} (after : t < c) (before : c ≤ t')
    (fast : impossibleTravelKmh < haversineKm T ⟨lat, lon, t⟩ ⟨lat', lon', t'⟩ / hours (t' - t)) :
    (checkImpossibleTravel T ⟨lat, lon, t⟩ ⟨lat', lon', c⟩).impossible = true := by
  have elapsed : (0 : K) < hours (c - t) :=
    div_pos (Int.cast_pos.mpr (Int.sub_pos_of_lt after)) (by norm_num)
  have longer : (hours (c - t) : K) ≤ hours (t' - t) :=
    div_le_div_of_nonneg_right (Int.cast_le.mpr (Int.sub_le_sub_right before t)) (by norm_num)
  have moved : 0 < haversineKm T ⟨lat, lon, t⟩ ⟨lat', lon', t'⟩ := by
    have speed : (0 : K) < impossibleTravelKmh := by norm_num [impossibleTravelKmh]
    exact (div_pos_iff_of_pos_right (elapsed.trans_le longer)).mp (speed.trans fast)
  rw [checkImpossibleTravel_impossible]
  exact ⟨elapsed, fast.trans_le (div_le_div_of_nonneg_left moved.le elapsed longer)⟩

end

end VaultWatch.Gateway
